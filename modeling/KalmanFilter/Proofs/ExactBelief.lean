import KalmanFilter.Filter.Belief
import KalmanFilter.Proofs.RealMatrix

namespace KalmanFilter.Belief

open Matrix

variable {m n : ℕ} {b : Belief ℝ n} {t : Transition ℝ n} {z : Observation ℝ m n} {K : Mat ℝ n m}

def IsGain (b : Belief ℝ n) (z : Observation ℝ m n) (K : Mat ℝ n m) : Prop :=
  b.innovationCovariance z * K.transpose = b.crossCovariance z

lemma toMatrix_predict (b : Belief ℝ n) (t : Transition ℝ n) :
    (b.predict t).covariance.toMatrix =
      symmetricPart (t.matrix.toMatrix * b.covariance.toMatrix * t.matrix.toMatrixᵀ +
        t.noise.toMatrix) := by
  simp only [predict, Mat.toMatrix_symmetrize, Mat.toMatrix_add, Mat.toMatrix_mul,
    Mat.toMatrix_transpose]

lemma transpose_predict (b : Belief ℝ n) (t : Transition ℝ n) :
    (b.predict t).covariance.toMatrixᵀ = (b.predict t).covariance.toMatrix := by
  rw [toMatrix_predict, transpose_symmetricPart]

lemma toMatrix_innovationCovariance (b : Belief ℝ n) (z : Observation ℝ m n) :
    (b.innovationCovariance z).toMatrix =
      symmetricPart (z.matrix.toMatrix * b.covariance.toMatrix * z.matrix.toMatrixᵀ +
        z.noise.toMatrix) := by
  simp only [innovationCovariance, crossCovariance, Mat.toMatrix_symmetrize, Mat.toMatrix_add,
    Mat.toMatrix_mul, Mat.toMatrix_transpose]

lemma transpose_innovationCovariance (b : Belief ℝ n) (z : Observation ℝ m n) :
    (b.innovationCovariance z).transpose = b.innovationCovariance z := by
  apply Mat.toMatrix_injective
  rw [Mat.toMatrix_transpose, toMatrix_innovationCovariance, transpose_symmetricPart]

lemma IsGain.toMatrix (h : b.IsGain z K) :
    symmetricPart (z.matrix.toMatrix * b.covariance.toMatrix * z.matrix.toMatrixᵀ +
      z.noise.toMatrix) * K.toMatrixᵀ = z.matrix.toMatrix * b.covariance.toMatrix := by
  have h := congrArg Mat.toMatrix h
  rwa [Mat.toMatrix_mul, toMatrix_innovationCovariance, Mat.toMatrix_transpose, crossCovariance,
    Mat.toMatrix_mul] at h

lemma toMatrix_correct (hb : b.covariance.toMatrixᵀ = b.covariance.toMatrix) (h : b.IsGain z K)
    (joseph : Bool) :
    (b.correct joseph z K).covariance.toMatrix =
      (1 - K.toMatrix * z.matrix.toMatrix) * b.covariance.toMatrix *
          (1 - K.toMatrix * z.matrix.toMatrix)ᵀ +
        K.toMatrix * symmetricPart z.noise.toMatrix * K.toMatrixᵀ := by
  cases joseph with
  | false =>
    rw [← symmetricPart_standard hb h.toMatrix]
    simp only [correct, Bool.false_eq_true, if_false, Mat.toMatrix_symmetrize, Mat.toMatrix_mul,
      Mat.toMatrix_sub, Mat.toMatrix_identity]
  | true =>
    rw [← symmetricPart_joseph hb]
    simp only [correct, if_true, Mat.toMatrix_symmetrize, Mat.toMatrix_add, Mat.toMatrix_mul,
      Mat.toMatrix_sub, Mat.toMatrix_identity, Mat.toMatrix_transpose]

lemma correct_eq_of_isGain (hb : b.covariance.toMatrixᵀ = b.covariance.toMatrix)
    (h : b.IsGain z K) (i j : Bool) : b.correct i z K = b.correct j z K := by
  have hc : (b.correct i z K).covariance = (b.correct j z K).covariance :=
    Mat.toMatrix_injective ((toMatrix_correct hb h i).trans (toMatrix_correct hb h j).symm)
  exact congrArg (Belief.mk (b.state + K * b.innovation z)) hc

lemma posSemidef_predict (hb : (symmetricPart b.covariance.toMatrix).PosSemidef)
    (ht : (symmetricPart t.noise.toMatrix).PosSemidef) :
    (b.predict t).covariance.toMatrix.PosSemidef := by
  rw [toMatrix_predict]
  exact posSemidef_symmetricPart_congruence_add hb ht _

lemma innovationCovariance_eq (hb : b.covariance.toMatrixᵀ = b.covariance.toMatrix)
    (z : Observation ℝ m n) :
    (b.innovationCovariance z).toMatrix =
      z.matrix.toMatrix * b.covariance.toMatrix * z.matrix.toMatrixᵀ +
        symmetricPart z.noise.toMatrix := by
  rw [toMatrix_innovationCovariance, symmetricPart_add, symmetricPart_congruence,
    symmetricPart_of_symm hb]

lemma posSemidef_innovationCovariance (hb : b.covariance.toMatrix.PosSemidef)
    (hz : (symmetricPart z.noise.toMatrix).PosSemidef) :
    (b.innovationCovariance z).toMatrix.PosSemidef := by
  rw [innovationCovariance_eq hb.isHermitian]
  exact (posSemidef_congruence hb _).add hz

lemma posDef_innovationCovariance (hb : b.covariance.toMatrix.PosSemidef)
    (hz : (symmetricPart z.noise.toMatrix).PosDef) :
    (b.innovationCovariance z).toMatrix.PosDef := by
  rw [innovationCovariance_eq hb.isHermitian]
  exact hz.posSemidef_add (posSemidef_congruence hb _)

lemma posSemidef_correct (hb : b.covariance.toMatrix.PosSemidef)
    (hz : (symmetricPart z.noise.toMatrix).PosSemidef) (h : b.IsGain z K) (joseph : Bool) :
    (b.correct joseph z K).covariance.toMatrix.PosSemidef := by
  rw [toMatrix_correct hb.isHermitian h joseph]
  exact (posSemidef_congruence hb _).add (posSemidef_congruence hz _)

end KalmanFilter.Belief
