import KalmanFilter.Proofs.Selection

namespace KalmanFilter

open Matrix

section

variable {ι ι' κ κ' ν δ : Type*} {a : ι → δ} {b : κ → δ} {c : ν → δ}

def Separates (a : ι → δ) (b : κ → δ) (A : Matrix ι κ ℝ) : Prop :=
  ∀ i j, a i ≠ b j → A i j = 0

namespace Separates

variable {A B : Matrix ι κ ℝ}

lemma add (hA : Separates a b A) (hB : Separates a b B) : Separates a b (A + B) := by
  intro i j h
  rw [Matrix.add_apply, hA i j h, hB i j h, add_zero]

lemma sub (hA : Separates a b A) (hB : Separates a b B) : Separates a b (A - B) := by
  intro i j h
  rw [Matrix.sub_apply, hA i j h, hB i j h, sub_zero]

lemma smul (hA : Separates a b A) (r : ℝ) : Separates a b (r • A) := by
  intro i j h
  rw [Matrix.smul_apply, hA i j h, smul_zero]

lemma transpose (hA : Separates a b A) : Separates b a Aᵀ :=
  fun j i h => hA i j h.symm

lemma symmetricPart {A : Matrix ι ι ℝ} (hA : Separates a a A) :
    Separates a a (symmetricPart A) :=
  (hA.add hA.transpose).smul _

lemma mul [Fintype κ] {B : Matrix κ ν ℝ} (hA : Separates a b A) (hB : Separates b c B) :
    Separates a c (A * B) := by
  intro i k h
  refine Finset.sum_eq_zero fun j _ => ?_
  by_cases hj : a i = b j
  · exact mul_eq_zero_of_right _ (hB j k (hj ▸ h))
  · exact mul_eq_zero_of_left (hA i j hj) _

lemma congruence [Fintype κ] {P : Matrix κ κ ℝ} (hA : Separates a b A) (hP : Separates b b P) :
    Separates a a (A * P * Aᵀ) :=
  (hA.mul hP).mul hA.transpose

lemma supported {f : ι' → ι} {g : κ' → κ} (hA : Separates a b A)
    (h : ∀ i j, a (f i) = b j → j ∈ Set.range g) : Supported f g A :=
  fun i j hj => hA _ _ fun he => hj (h i j he)

end Separates

lemma separates_one [DecidableEq ι] (a : ι → δ) : Separates a a (1 : Matrix ι ι ℝ) := by
  intro i j h
  refine one_apply_ne ?_
  rintro rfl
  exact h rfl

end

namespace Belief

variable {m n : ℕ} {δ : Type*} {a : Fin n → δ} {c : Fin m → δ} {b : Belief ℝ n}
  {t : Transition ℝ n} {z : Observation ℝ m n} {K : Mat ℝ n m}

lemma separates_predict (hb : Separates a a b.covariance.toMatrix)
    (hA : Separates a a t.matrix.toMatrix) (hQ : Separates a a t.noise.toMatrix) :
    Separates a a (b.predict t).covariance.toMatrix := by
  rw [toMatrix_predict]
  exact ((hA.congruence hb).add hQ).symmetricPart

lemma separates_crossCovariance (hb : Separates a a b.covariance.toMatrix)
    (hH : Separates c a z.matrix.toMatrix) : Separates c a (b.crossCovariance z).toMatrix := by
  rw [crossCovariance, Mat.toMatrix_mul]
  exact hH.mul hb

lemma separates_innovationCovariance (hb : Separates a a b.covariance.toMatrix)
    (hH : Separates c a z.matrix.toMatrix) (hR : Separates c c z.noise.toMatrix) :
    Separates c c (b.innovationCovariance z).toMatrix := by
  rw [toMatrix_innovationCovariance]
  exact ((hH.congruence hb).add hR).symmetricPart

lemma separates_correct (hb : Separates a a b.covariance.toMatrix)
    (hH : Separates c a z.matrix.toMatrix) (hR : Separates c c z.noise.toMatrix)
    (hK : Separates a c K.toMatrix) (ht : b.covariance.toMatrixᵀ = b.covariance.toMatrix)
    (h : b.IsGain z K) (joseph : Bool) :
    Separates a a (b.correct joseph z K).covariance.toMatrix := by
  rw [toMatrix_correct ht h]
  exact (((separates_one a).sub (hK.mul hH)).congruence hb).add (hK.congruence hR.symmetricPart)

end Belief

end KalmanFilter
