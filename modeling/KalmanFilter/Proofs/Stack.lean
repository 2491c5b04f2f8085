import KalmanFilter.Proofs.ExactBelief
import Mathlib.Data.Matrix.ColumnRowPartitioned

namespace KalmanFilter

open Matrix

section

variable {ι κ κ' : Type*} [Fintype ι] [DecidableEq ι] [Fintype κ] [Fintype κ'] {P : Matrix ι ι ℝ}
  {H : Matrix κ ι ℝ} {R : Matrix κ κ ℝ} {K : Matrix ι κ ℝ}

lemma gain_iff_residual (hP : Pᵀ = P) :
    symmetricPart (H * P * Hᵀ + R) * Kᵀ = H * P ↔
      (1 - K * H) * P * Hᵀ = K * symmetricPart R := by
  refine ⟨gain_residual hP, fun h => ?_⟩
  apply transpose_injective
  rw [transpose_mul, transpose_transpose, transpose_symmetricPart, transpose_mul, hP,
    symmetricPart_add, symmetricPart_congruence, symmetricPart_of_symm hP, Matrix.mul_add, ← h]
  simp only [Matrix.sub_mul, Matrix.one_mul, Matrix.mul_assoc, add_sub_cancel]

lemma isUnit_det_complement [DecidableEq κ] [DecidableEq κ'] {A : Matrix κ κ ℝ} {B : Matrix κ κ' ℝ}
    {C : Matrix κ' κ ℝ} {D : Matrix κ' κ' ℝ} {X : Matrix κ' κ ℝ} (hX : X * A = C)
    (h : IsUnit (fromBlocks A B C D).det) : IsUnit (D - X * B).det := by
  have hs : fromBlocks A B C D = fromBlocks 1 0 X 1 * fromBlocks A B 0 (D - X * B) := by
    rw [fromBlocks_multiply]
    simp [hX]
  rw [hs, det_mul, det_fromBlocks_zero₁₂, det_fromBlocks_zero₂₁, det_one, det_one, one_mul,
    one_mul] at h
  exact isUnit_of_mul_isUnit_right h

end

variable {k m n : ℕ}

def Observation.stack {α : Type} [Zero α] (y : Observation α m n) (z : Observation α k n) :
    Observation α (m + k) n where
  value := Vector.ofFn (Fin.append y.value.get z.value.get)
  matrix := .ofFn (Fin.append y.matrix.entry z.matrix.entry)
  noise := .ofFn (Fin.append (fun i => Fin.append (y.noise i) 0) fun i => Fin.append 0 (z.noise i))

def Mat.besides {α : Type} (A : Mat α n m) (B : Mat α n k) : Mat α n (m + k) :=
  .ofFn fun i => Fin.append (A i) (B i)

namespace Belief

variable {b : Belief ℝ n} {y : Observation ℝ m n} {z : Observation ℝ k n} {K : Mat ℝ n m}
  {L : Mat ℝ n k}

lemma isGain_iff_residual (hb : b.covariance.toMatrixᵀ = b.covariance.toMatrix) :
    b.IsGain y K ↔
      (1 - K.toMatrix * y.matrix.toMatrix) * b.covariance.toMatrix * y.matrix.toMatrixᵀ =
        K.toMatrix * symmetricPart y.noise.toMatrix := by
  rw [← gain_iff_residual hb]
  refine ⟨IsGain.toMatrix, fun h => ?_⟩
  apply Mat.toMatrix_injective
  rwa [Mat.toMatrix_mul, toMatrix_innovationCovariance, Mat.toMatrix_transpose, crossCovariance,
    Mat.toMatrix_mul]

lemma isGain_iff :
    b.IsGain y K ↔ (b.innovationCovariance y).toMatrix * K.toMatrixᵀ =
      y.matrix.toMatrix * b.covariance.toMatrix := by
  rw [IsGain, ← Mat.toMatrix_injective.eq_iff, Mat.toMatrix_mul, Mat.toMatrix_transpose,
    crossCovariance, Mat.toMatrix_mul]

lemma IsGain.mul_innovationCovariance (hb : b.covariance.toMatrixᵀ = b.covariance.toMatrix)
    (h : b.IsGain y K) :
    K.toMatrix * (b.innovationCovariance y).toMatrix =
      b.covariance.toMatrix * y.matrix.toMatrixᵀ := by
  have ht := congrArg transpose (isGain_iff.mp h)
  rwa [transpose_mul, transpose_transpose, transpose_mul, hb, toMatrix_innovationCovariance,
    transpose_symmetricPart, ← toMatrix_innovationCovariance] at ht

lemma exists_isGain (h : IsUnit (b.innovationCovariance y).toMatrix.det) : ∃ K, b.IsGain y K := by
  refine ⟨(Mat.ofFn fun i j =>
    ((b.innovationCovariance y).toMatrix⁻¹ * (b.crossCovariance y).toMatrix) i j).transpose, ?_⟩
  apply Mat.toMatrix_injective
  rw [Mat.transpose_transpose, Mat.toMatrix_mul, Mat.toMatrix_ofFn,
    mul_nonsing_inv_cancel_left _ _ h]

lemma IsGain.unique {K' : Mat ℝ n m} (h : b.IsGain y K) (h' : b.IsGain y K')
    (hS : IsUnit (b.innovationCovariance y).toMatrix.det) : K = K' := by
  have hK := congrArg Mat.toMatrix (h.trans h'.symm)
  rw [Mat.toMatrix_mul, Mat.toMatrix_mul] at hK
  have ht := congrArg ((b.innovationCovariance y).toMatrix⁻¹ * ·) hK
  simp only [nonsing_inv_mul_cancel_left _ _ hS, Mat.toMatrix_transpose] at ht
  exact Mat.toMatrix_injective (transpose_injective ht)

lemma toMatrix_correct_eq (hb : b.covariance.toMatrixᵀ = b.covariance.toMatrix) (h : b.IsGain y K)
    (joseph : Bool) :
    (b.correct joseph y K).covariance.toMatrix =
      (1 - K.toMatrix * y.matrix.toMatrix) * b.covariance.toMatrix := by
  rw [toMatrix_correct hb h, joseph_eq_standard hb h.toMatrix]

lemma besides_mul_stack (K : Mat ℝ n m) (L : Mat ℝ n k) (y : Observation ℝ m n)
    (z : Observation ℝ k n) :
    (K.besides L).toMatrix * (y.stack z).matrix.toMatrix =
      K.toMatrix * y.matrix.toMatrix + L.toMatrix * z.matrix.toMatrix := by
  ext i j
  simp [Mat.besides, Observation.stack, Matrix.mul_apply, Fin.sum_univ_add]

lemma state_correct (b : Belief ℝ n) (joseph : Bool) (y : Observation ℝ m n) (K : Mat ℝ n m) :
    (b.correct joseph y K).state.get =
      b.state.get + K.toMatrix *ᵥ (y.value.get - y.matrix.toMatrix *ᵥ b.state.get) := by
  rw [correct, Vec.get_add, Mat.get_mulVec, innovation, Vec.get_sub, Mat.get_mulVec]

lemma transpose_correct (b : Belief ℝ n) (joseph : Bool) (y : Observation ℝ m n) (K : Mat ℝ n m) :
    (b.correct joseph y K).covariance.toMatrixᵀ = (b.correct joseph y K).covariance.toMatrix := by
  cases joseph <;> simp only [correct, Mat.toMatrix_symmetrize, transpose_symmetricPart, if_true,
    Bool.false_eq_true, if_false]

structure Joins (b : Belief ℝ n) (y : Observation ℝ m n) (z : Observation ℝ k n) (K : Mat ℝ n m)
    (L : Mat ℝ n k) (c : Belief ℝ n) : Prop where
  left : (1 - (K.toMatrix * y.matrix.toMatrix + L.toMatrix * z.matrix.toMatrix)) *
    b.covariance.toMatrix * y.matrix.toMatrixᵀ = K.toMatrix * symmetricPart y.noise.toMatrix
  right : (1 - (K.toMatrix * y.matrix.toMatrix + L.toMatrix * z.matrix.toMatrix)) *
    b.covariance.toMatrix * z.matrix.toMatrixᵀ = L.toMatrix * symmetricPart z.noise.toMatrix
  covariance : c.covariance.toMatrix =
    (1 - (K.toMatrix * y.matrix.toMatrix + L.toMatrix * z.matrix.toMatrix)) * b.covariance.toMatrix
  state : c.state.get = b.state.get +
    (K.toMatrix *ᵥ (y.value.get - y.matrix.toMatrix *ᵥ b.state.get) +
      L.toMatrix *ᵥ (z.value.get - z.matrix.toMatrix *ᵥ b.state.get))

namespace Joins

variable {c : Belief ℝ n}

lemma symm (h : Joins b y z K L c) : Joins b z y L K c := by
  obtain ⟨hl, hr, hc, hs⟩ := h
  rw [add_comm (K.toMatrix * y.matrix.toMatrix)] at hl hr hc
  rw [add_comm (K.toMatrix *ᵥ _)] at hs
  exact ⟨hr, hl, hc, hs⟩

lemma isGain (hb : b.covariance.toMatrixᵀ = b.covariance.toMatrix) (h : Joins b y z K L c) :
    b.IsGain (y.stack z) (K.besides L) := by
  rw [isGain_iff_residual hb, besides_mul_stack]
  ext i j
  cases j using Fin.addCases with
  | left j =>
    have hj := congrFun (congrFun h.left i) j
    simpa [Mat.besides, Observation.stack, Matrix.mul_apply, Fin.sum_univ_add, symmetricPart]
      using hj
  | right j =>
    have hj := congrFun (congrFun h.right i) j
    simpa [Mat.besides, Observation.stack, Matrix.mul_apply, Fin.sum_univ_add, symmetricPart]
      using hj

lemma correct_stack (hb : b.covariance.toMatrixᵀ = b.covariance.toMatrix) (h : Joins b y z K L c)
    (joseph : Bool) : b.correct joseph (y.stack z) (K.besides L) = c := by
  have hs : (b.correct joseph (y.stack z) (K.besides L)).state = c.state := by
    apply Vec.get_injective
    rw [h.state, state_correct]
    congr 1
    ext i
    simp [Mat.besides, Observation.stack, mulVec, dotProduct, Fin.sum_univ_add]
  have hc : (b.correct joseph (y.stack z) (K.besides L)).covariance = c.covariance := by
    apply Mat.toMatrix_injective
    rw [toMatrix_correct_eq hb (h.isGain hb), besides_mul_stack, h.covariance]
  exact congrArg₂ Belief.mk hs hc

end Joins

lemma joins_of_correct (hb : b.covariance.toMatrixᵀ = b.covariance.toMatrix) {joseph : Bool}
    (hK : b.IsGain y K) (hL : (b.correct joseph y K).IsGain z L) :
    Joins b y z (K - L * (z.matrix * K)) L
      ((b.correct joseph y K).correct joseph z L) := by
  have hc := transpose_correct b joseph y K
  have hy := (isGain_iff_residual hb).mp hK
  have hz := (isGain_iff_residual hc).mp hL
  have hG : 1 - ((K - L * (z.matrix * K)).toMatrix * y.matrix.toMatrix +
      L.toMatrix * z.matrix.toMatrix) =
      (1 - L.toMatrix * z.matrix.toMatrix) * (1 - K.toMatrix * y.matrix.toMatrix) := by
    simp only [Mat.toMatrix_sub, Mat.toMatrix_mul, Matrix.sub_mul, Matrix.mul_sub, Matrix.one_mul,
      Matrix.mul_one, Matrix.mul_assoc]
    abel
  constructor
  · rw [hG, Matrix.mul_assoc _ (1 - _), Matrix.mul_assoc, hy]
    simp only [Mat.toMatrix_sub, Mat.toMatrix_mul, Matrix.sub_mul, Matrix.one_mul, Matrix.mul_assoc]
  · rw [hG, Matrix.mul_assoc _ (1 - _), ← toMatrix_correct_eq hb hK joseph, hz]
  · rw [hG, Matrix.mul_assoc, ← toMatrix_correct_eq hb hK joseph,
      toMatrix_correct_eq hc hL joseph]
  · rw [state_correct, state_correct]
    simp only [Mat.toMatrix_sub, Mat.toMatrix_mul, sub_mulVec, mulVec_sub, mulVec_add,
      ← mulVec_mulVec]
    abel

lemma innovationCovariance_stack (hb : b.covariance.toMatrixᵀ = b.covariance.toMatrix)
    (y : Observation ℝ m n) (z : Observation ℝ k n) :
    (b.innovationCovariance (y.stack z)).toMatrix.submatrix finSumFinEquiv finSumFinEquiv =
      fromBlocks (b.innovationCovariance y).toMatrix
        (y.matrix.toMatrix * b.covariance.toMatrix * z.matrix.toMatrixᵀ)
        (z.matrix.toMatrix * b.covariance.toMatrix * y.matrix.toMatrixᵀ)
        (b.innovationCovariance z).toMatrix := by
  simp only [innovationCovariance_eq hb]
  ext i j
  rcases i with i | i <;> rcases j with j | j <;>
    simp [Observation.stack, Matrix.mul_apply, symmetricPart]

lemma isUnit_stack_comm (hb : b.covariance.toMatrixᵀ = b.covariance.toMatrix)
    (h : IsUnit (b.innovationCovariance (y.stack z)).toMatrix.det) :
    IsUnit (b.innovationCovariance (z.stack y)).toMatrix.det := by
  rw [← det_submatrix_equiv_self finSumFinEquiv, innovationCovariance_stack hb] at h ⊢
  rwa [← fromBlocks_submatrix_sum_swap_sum_swap, ← Equiv.sumComm_apply, det_submatrix_equiv_self]

lemma isUnit_innovationCovariance_correct (hb : b.covariance.toMatrixᵀ = b.covariance.toMatrix)
    {joseph : Bool} (hK : b.IsGain y K)
    (h : IsUnit (b.innovationCovariance (y.stack z)).toMatrix.det) :
    IsUnit ((b.correct joseph y K).innovationCovariance z).toMatrix.det := by
  rw [← det_submatrix_equiv_self finSumFinEquiv, innovationCovariance_stack hb] at h
  have hX : z.matrix.toMatrix * K.toMatrix * (b.innovationCovariance y).toMatrix =
      z.matrix.toMatrix * b.covariance.toMatrix * y.matrix.toMatrixᵀ := by
    rw [Matrix.mul_assoc, hK.mul_innovationCovariance hb, Matrix.mul_assoc]
  have hd := isUnit_det_complement hX h
  have hS : ((b.correct joseph y K).innovationCovariance z).toMatrix =
      (b.innovationCovariance z).toMatrix - z.matrix.toMatrix * K.toMatrix *
        (y.matrix.toMatrix * b.covariance.toMatrix * z.matrix.toMatrixᵀ) := by
    rw [innovationCovariance_eq (transpose_correct b joseph y K), innovationCovariance_eq hb,
      toMatrix_correct_eq hb hK]
    simp only [Matrix.sub_mul, Matrix.mul_sub, Matrix.one_mul, Matrix.mul_assoc]
    abel
  rwa [hS]

end Belief

end KalmanFilter
