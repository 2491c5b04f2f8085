import KalmanFilter.Proofs.LeadingMinors
import KalmanFilter.Proofs.Stack
import KalmanFilter.Proofs.SymmetricSystem

/-! The corrected state is the one that is closest to the prior and to the
observation at once, in units of their covariances, and the inverse of its
covariance is the sum of what both of them know. -/

namespace KalmanFilter

open Matrix

section

variable {ι κ : Type*} [Fintype ι] [DecidableEq ι] [Fintype κ] [DecidableEq κ] {P : Matrix ι ι ℝ}
  {H : Matrix κ ι ℝ} {R : Matrix κ κ ℝ} {K : Matrix ι κ ℝ}

noncomputable def information (P : Matrix ι ι ℝ) (H : Matrix κ ι ℝ) (R : Matrix κ κ ℝ) :
    Matrix ι ι ℝ :=
  P⁻¹ + Hᵀ * R⁻¹ * H

lemma posDef_information (hP : P.PosDef) (hR : R.PosDef) (H : Matrix κ ι ℝ) :
    (information P H R).PosDef := by
  have h := posSemidef_congruence hR.inv.posSemidef Hᵀ
  rw [transpose_transpose] at h
  exact hP.inv.add_posSemidef h

section

variable (hP : IsUnit P.det) (hR : IsUnit R.det) (hK : (1 - K * H) * P * Hᵀ = K * R)

include hR hK

lemma gain_eq_mul_inv : K = (1 - K * H) * P * Hᵀ * R⁻¹ := by
  rw [hK, mul_nonsing_inv_cancel_right _ _ hR]

include hP

lemma covariance_mul_information : (1 - K * H) * P * information P H R = 1 := by
  have hH : (1 - K * H) * P * (Hᵀ * R⁻¹ * H) = K * H := by
    rw [← Matrix.mul_assoc, ← Matrix.mul_assoc, ← gain_eq_mul_inv hR hK]
  rw [information, Matrix.mul_add, hH, mul_nonsing_inv_cancel_right _ _ hP, sub_add_cancel]

lemma information_mul_gain : information P H R * K = Hᵀ * R⁻¹ := by
  have h := mul_eq_one_comm.mp (covariance_mul_information hP hR hK)
  calc information P H R * K
      = information P H R * ((1 - K * H) * P * (Hᵀ * R⁻¹)) := by
        rw [← Matrix.mul_assoc ((1 - K * H) * P), ← gain_eq_mul_inv hR hK]
    _ = Hᵀ * R⁻¹ := by rw [← Matrix.mul_assoc, h, Matrix.one_mul]

lemma inv_mul_gain : P⁻¹ * K = Hᵀ * R⁻¹ * (1 - H * K) := by
  have h := information_mul_gain hP hR hK
  rw [information, Matrix.add_mul] at h
  rw [Matrix.mul_sub, Matrix.mul_one, eq_sub_iff_add_eq, ← Matrix.mul_assoc]
  exact h

end

omit [DecidableEq ι] in
lemma form_add {A : Matrix ι ι ℝ} (hA : Aᵀ = A) (x y : ι → ℝ) :
    (x + y) ⬝ᵥ (A *ᵥ (x + y)) = x ⬝ᵥ (A *ᵥ x) + 2 * (y ⬝ᵥ (A *ᵥ x)) + y ⬝ᵥ (A *ᵥ y) := by
  have hs : x ⬝ᵥ (A *ᵥ y) = y ⬝ᵥ (A *ᵥ x) := by
    rw [dotProduct_mulVec, ← mulVec_transpose, hA, dotProduct_comm]
  rw [mulVec_add, dotProduct_add, add_dotProduct, add_dotProduct, hs]
  ring

omit [DecidableEq ι] [DecidableEq κ] in
lemma squares_add {A : Matrix ι ι ℝ} {B : Matrix κ κ ℝ} (hA : Aᵀ = A) (hB : Bᵀ = B) {x : ι → ℝ}
    {r : κ → ℝ} (h : A *ᵥ x = (Hᵀ * B) *ᵥ r) (y : ι → ℝ) :
    (x + y) ⬝ᵥ (A *ᵥ (x + y)) + (r - H *ᵥ y) ⬝ᵥ (B *ᵥ (r - H *ᵥ y)) =
      x ⬝ᵥ (A *ᵥ x) + r ⬝ᵥ (B *ᵥ r) + y ⬝ᵥ ((A + Hᵀ * B * H) *ᵥ y) := by
  have hx : y ⬝ᵥ (A *ᵥ x) = (H *ᵥ y) ⬝ᵥ (B *ᵥ r) := by
    rw [h, ← mulVec_mulVec, dotProduct_mulVec, vecMul_transpose]
  have hy : y ⬝ᵥ ((Hᵀ * B * H) *ᵥ y) = (H *ᵥ y) ⬝ᵥ (B *ᵥ (H *ᵥ y)) := by
    rw [Matrix.mul_assoc, ← mulVec_mulVec, dotProduct_mulVec, vecMul_transpose, ← mulVec_mulVec]
  rw [sub_eq_add_neg, form_add hA, form_add hB, add_mulVec, dotProduct_add, hx, hy, mulVec_neg,
    neg_dotProduct, neg_dotProduct, dotProduct_neg]
  ring

end

lemma isUnit_det_of_posDef {ι : Type*} [Fintype ι] [DecidableEq ι] {A : Matrix ι ι ℝ}
    (hA : A.PosDef) : IsUnit A.det :=
  (isUnit_iff_isUnit_det _).mp hA.isUnit

lemma symmetricPart_of_posDef {ι : Type*} {A : Matrix ι ι ℝ} (hA : A.PosDef) :
    symmetricPart A = A :=
  symmetricPart_of_symm hA.isHermitian

variable {p : Precision} {m n : ℕ}

namespace Belief

noncomputable def cost (b : Belief ℝ n) (z : Observation ℝ m n) (y : Vec ℝ n) : ℝ :=
  (y - b.state).get ⬝ᵥ (b.covariance.toMatrix⁻¹ *ᵥ (y - b.state).get) +
    (z.value - z.matrix * y).get ⬝ᵥ (z.noise.toMatrix⁻¹ *ᵥ (z.value - z.matrix * y).get)

structure IsPosterior (b : Belief ℝ n) (z : Observation ℝ m n) (c : Belief ℝ n) : Prop where
  closest : ∀ y, y ≠ c.state → b.cost z c.state < b.cost z y
  regular : IsUnit c.covariance.toMatrix.det
  inverse : c.covariance.toMatrix⁻¹ =
    b.covariance.toMatrix⁻¹ + z.matrix.toMatrixᵀ * z.noise.toMatrix⁻¹ * z.matrix.toMatrix

variable {b : Belief ℝ n} {z : Observation ℝ m n} {K : Mat ℝ n m}

section

variable (hb : b.covariance.toMatrix.PosDef) (hz : z.noise.toMatrix.PosDef)
  (hK : (1 - K.toMatrix * z.matrix.toMatrix) * b.covariance.toMatrix * z.matrix.toMatrixᵀ =
    K.toMatrix * z.noise.toMatrix)

include hb hz hK

lemma pulls_correct (joseph : Bool) :
    b.covariance.toMatrix⁻¹ *ᵥ ((b.correct joseph z K).state - b.state).get =
      (z.matrix.toMatrixᵀ * z.noise.toMatrix⁻¹) *ᵥ
        (z.value - z.matrix * (b.correct joseph z K).state).get := by
  have hP := isUnit_det_of_posDef hb
  have hR := isUnit_det_of_posDef hz
  have hx : ((b.correct joseph z K).state - b.state).get = K.toMatrix *ᵥ (b.innovation z).get := by
    rw [Vec.get_sub, correct, Vec.get_add, Mat.get_mulVec, add_sub_cancel_left]
  have hr : (z.value - z.matrix * (b.correct joseph z K).state).get =
      (1 - z.matrix.toMatrix * K.toMatrix) *ᵥ (b.innovation z).get := by
    rw [Vec.get_sub, Mat.get_mulVec, correct, Vec.get_add, Mat.get_mulVec, mulVec_add, ← sub_sub,
      sub_mulVec, one_mulVec, mulVec_mulVec, innovation, Vec.get_sub, Mat.get_mulVec]
  rw [hx, hr, mulVec_mulVec, mulVec_mulVec, inv_mul_gain hP hR hK]

lemma cost_correct (joseph : Bool) (y : Vec ℝ n) :
    b.cost z y = b.cost z (b.correct joseph z K).state +
      (y - (b.correct joseph z K).state).get ⬝ᵥ
        (information b.covariance.toMatrix z.matrix.toMatrix z.noise.toMatrix *ᵥ
          (y - (b.correct joseph z K).state).get) := by
  have hp := pulls_correct hb hz hK joseph
  have hx : (y - b.state).get = ((b.correct joseph z K).state - b.state).get +
      (y - (b.correct joseph z K).state).get := by
    simp only [Vec.get_sub, add_comm, sub_add_sub_cancel]
  have hr : (z.value - z.matrix * y).get =
      (z.value - z.matrix * (b.correct joseph z K).state).get -
        z.matrix.toMatrix *ᵥ (y - (b.correct joseph z K).state).get := by
    simp only [Vec.get_sub, Mat.get_mulVec, mulVec_sub, sub_sub, add_sub_cancel]
  rw [cost, hx, hr]
  exact squares_add hb.inv.isHermitian hz.inv.isHermitian hp _

end

lemma isPosterior_correct (hb : b.covariance.toMatrix.PosDef) (hz : z.noise.toMatrix.PosDef)
    (h : b.IsGain z K) (joseph : Bool) : b.IsPosterior z (b.correct joseph z K) := by
  have hP := isUnit_det_of_posDef hb
  have hR := isUnit_det_of_posDef hz
  have hK := (isGain_iff_residual hb.isHermitian).mp h
  rw [symmetricPart_of_posDef hz] at hK
  have hc : (b.correct joseph z K).covariance.toMatrix *
      information b.covariance.toMatrix z.matrix.toMatrix z.noise.toMatrix = 1 := by
    rw [toMatrix_correct_eq hb.isHermitian h]
    exact covariance_mul_information hP hR hK
  refine ⟨fun y hy => ?_, isUnit_det_of_right_inverse hc, inv_eq_right_inv hc⟩
  rw [cost_correct hb hz hK joseph y]
  have hd : (y - (b.correct joseph z K).state).get ≠ 0 := by
    rw [Vec.get_sub]
    exact sub_ne_zero.mpr fun h => hy (Vec.get_injective h)
  exact lt_add_of_pos_right _
    (by simpa using (posDef_information hb hz z.matrix.toMatrix).dotProduct_mulVec_pos hd)

end Belief

lemma Mat.transpose_eq_of_posDef {A : Mat ℝ n n} (hA : A.toMatrix.PosDef) : A.transpose = A := by
  apply toMatrix_injective
  rw [toMatrix_transpose]
  exact hA.isHermitian

def Decomposer.AcceptsDefinite (d : Decomposer Exact) : Prop :=
  ∀ {p : Precision} {k : ℕ} (A : Mat (Exact p) k k), A.toMatrix.PosDef →
    ∃ solve : Solver Exact p k, (d.decompose A).outcome = .ok solve ∧
      ∀ {c : ℕ} (B : Mat (Exact p) k c), ∃ X, solve B = .ok X

lemma Estimator.exists_gain_of_acceptsDefinite {e : Estimator Exact}
    (he : e.decomposer.AcceptsDefinite) {b : Belief (Exact p) n} {z : Observation (Exact p) m n}
    (h : (b.innovationCovariance z).toMatrix.PosDef) : ∃ K, (e.gain b z).outcome = .ok K := by
  obtain ⟨solve, hs, hX⟩ := he _ h
  obtain ⟨X, hX⟩ := hX (b.crossCovariance z)
  exact ⟨X.transpose, gain_outcome_eq_ok_iff.mpr ⟨solve, X, hs, hX, rfl⟩⟩

lemma CholeskyDecomposer.HasLimits.acceptsDefinite {d : CholeskyDecomposer Exact} {r : ℝ}
    (hd : d.HasLimits r 0) : d.decomposer.AcceptsDefinite := by
  intro p k A hA
  have ht := Mat.transpose_eq_of_posDef hA
  obtain ⟨L, hL⟩ := (Mat.exists_cholesky?_iff_posDef ht).mpr hA
  have hp : ¬ ∃ i, L i i * L i i ≤ 0 := fun ⟨i, hi⟩ =>
    (mul_self_pos.mpr ((Mat.isLower_of_cholesky? hL).pivot i).ne').not_ge hi
  obtain ⟨solve, hs, hb⟩ := decompose_of_factor (factor_outcome_eq_ok_iff.mpr
    ⟨r, 0, hd.relative p, hd.absolute p, Mat.not_asymmetric_of_transpose ht hd.relative_nonneg, hL,
      hp⟩)
  exact ⟨solve, hs, fun B => ⟨_, hb B⟩⟩

theorem Estimator.correct_bayesian {d : Decomposer Exact} (hd : d.SolvesSymmetric)
    (b : Belief (Exact p) n) (z : Observation (Exact p) m n) (hb : b.covariance.toMatrix.PosDef)
    (hz : z.noise.toMatrix.PosDef) :
    ∃ c : Belief (Exact p) n, b.IsPosterior z c ∧
      ∀ (process : Process Exact) (joseph debug : Bool) (time : Exact .double),
        (d.AcceptsDefinite →
          (Estimator.correct ⟨d, process, joseph, debug⟩ time b z).outcome = .ok c) ∧
        ∀ c', (Estimator.correct ⟨d, process, joseph, debug⟩ time b z).outcome = .ok c' →
          c' = c := by
  have hS : (b.innovationCovariance z).toMatrix.PosDef := by
    refine Belief.posDef_innovationCovariance hb.posSemidef ?_
    rwa [symmetricPart_of_posDef hz]
  have hu := isUnit_det_of_posDef hS
  obtain ⟨K, hK⟩ := b.exists_isGain hu
  refine ⟨b.correct false z K, Belief.isPosterior_correct hb hz hK false, ?_⟩
  intro process joseph debug time
  -- whatever gain is found solves the equation of the gain, which has one solution
  have hc : ∀ K', (Estimator.gain ⟨d, process, joseph, debug⟩ b z).outcome = .ok K' →
      (Estimator.correct ⟨d, process, joseph, debug⟩ time b z).outcome =
        .ok (b.correct false z K) := by
    intro K' hK'
    obtain rfl := (Estimator.isGain_of_solvesSymmetric hd hK').unique hK hu
    rw [Estimator.correct_of_gain_ok hK']
    exact congrArg Except.ok (Belief.correct_eq_of_isGain hb.isHermitian hK joseph false)
  constructor
  · intro ha
    obtain ⟨solve, hs, hX⟩ := ha _ hS
    obtain ⟨X, hX⟩ := hX (b.crossCovariance z)
    exact hc _ (Estimator.gain_outcome_eq_ok_iff.mpr ⟨solve, X, hs, hX, rfl⟩)
  · intro c' h
    obtain ⟨K', hK', -⟩ := Attempt.bind_outcome_eq_ok_iff.mp h
    exact Except.ok.inj (h.symm.trans (hc K' hK'))

namespace Fix

def prior : Belief (Exact .double) 2 :=
  ⟨Vector.ofFn fun i => (i.val : ℝ), (.square 1 0 1 1 : Mat ℝ 2 2) * (.square 1 0 1 1 : Mat ℝ 2 2).transpose⟩

def observation : Observation (Exact .double) 1 2 :=
  ⟨Vector.ofFn fun _ => 1, .ofFn fun _ j => if j.val = 0 then 1 else 0, .identity⟩

def decomposer : CholeskyDecomposer Exact :=
  ⟨.real 0, .real 0⟩

end Fix

theorem Estimator.correct_bayesian_fix :
    Fix.decomposer.decomposer.SolvesSymmetric ∧ Fix.prior.covariance.toMatrix.PosDef ∧
      Fix.observation.noise.toMatrix.PosDef ∧
      ∃ c : Belief (Exact .double) 2, Fix.prior.IsPosterior Fix.observation c ∧
        ∀ (process : Process Exact) (joseph debug : Bool) (time : Exact .double),
          (Estimator.correct ⟨Fix.decomposer.decomposer, process, joseph, debug⟩ time Fix.prior
            Fix.observation).outcome = .ok c := by
  have hd : Fix.decomposer.HasLimits 0 0 :=
    CholeskyDecomposer.hasLimits_real le_rfl le_rfl
  have hb : Fix.prior.covariance.toMatrix.PosDef :=
    (Mat.isLower_square one_pos one_pos).posDef_mul_transpose
  have hz : Fix.observation.noise.toMatrix.PosDef := by
    rw [Fix.observation, Mat.toMatrix_identity]
    exact .one
  obtain ⟨c, hc, h⟩ := correct_bayesian Fix.decomposer.solvesSymmetric Fix.prior Fix.observation hb hz
  exact ⟨Fix.decomposer.solvesSymmetric, hb, hz, c, hc, fun process joseph debug time =>
    (h process joseph debug time).1 hd.acceptsDefinite⟩

end KalmanFilter
