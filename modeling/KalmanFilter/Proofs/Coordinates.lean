import KalmanFilter.Proofs.BayesianUpdate
import KalmanFilter.Proofs.Simultaneous

/-! The components of an observation in other units, another order or mixed with
each other. The gain takes back what can be undone. -/

namespace KalmanFilter

open Matrix

variable {p : Precision} {m n : ℕ}

def Observation.recombine {α : Type} [Scalar α] (M : Mat α m m) (z : Observation α m n) :
    Observation α m n :=
  ⟨M * z.value, M * z.matrix, M * z.noise * M.transpose⟩

namespace Belief

variable {b : Belief ℝ n} {z : Observation ℝ m n} {M : Mat ℝ m m}

lemma innovation_recombine (b : Belief ℝ n) (z : Observation ℝ m n) (M : Mat ℝ m m) :
    (b.innovation (z.recombine M)).get = M.toMatrix *ᵥ (b.innovation z).get := by
  simp only [innovation, Observation.recombine, Vec.get_sub, Mat.get_mulVec, Mat.toMatrix_mul,
    mulVec_sub, mulVec_mulVec]

lemma innovationCovariance_recombine (b : Belief ℝ n) (z : Observation ℝ m n) (M : Mat ℝ m m) :
    (b.innovationCovariance (z.recombine M)).toMatrix =
      M.toMatrix * (b.innovationCovariance z).toMatrix * M.toMatrixᵀ := by
  rw [toMatrix_innovationCovariance, toMatrix_innovationCovariance, ← symmetricPart_congruence]
  simp only [Observation.recombine, Mat.toMatrix_mul, Mat.toMatrix_transpose, transpose_mul,
    Matrix.mul_add, Matrix.add_mul, Matrix.mul_assoc]

lemma correct_recombine (b : Belief ℝ n) (joseph : Bool) (z : Observation ℝ m n) (M : Mat ℝ m m)
    (K : Mat ℝ n m) : b.correct joseph (z.recombine M) K = b.correct joseph z (K * M) := by
  have hs : (b.correct joseph (z.recombine M) K).state = (b.correct joseph z (K * M)).state := by
    apply Vec.get_injective
    simp only [correct, Vec.get_add, Mat.get_mulVec, innovation_recombine, Mat.toMatrix_mul,
      mulVec_mulVec]
  have hc : (b.correct joseph (z.recombine M) K).covariance =
      (b.correct joseph z (K * M)).covariance := by
    apply Mat.toMatrix_injective
    cases joseph <;>
      simp only [correct, Observation.recombine, Mat.toMatrix_symmetrize, Mat.toMatrix_add,
        Mat.toMatrix_sub, Mat.toMatrix_mul, Mat.toMatrix_transpose, Mat.toMatrix_identity,
        transpose_mul, Matrix.mul_assoc, if_true, Bool.false_eq_true, if_false]
  exact congrArg₂ Belief.mk hs hc

section

variable (hM : IsUnit M.toMatrix.det)
include hM

lemma isGain_recombine_iff {K : Mat ℝ n m} :
    b.IsGain (z.recombine M) K ↔ b.IsGain z (K * M) := by
  have := invertibleOfIsUnitDet M.toMatrix hM
  rw [isGain_iff, isGain_iff, innovationCovariance_recombine]
  refine Iff.trans ?_ (Matrix.mul_right_inj_of_invertible M.toMatrix)
  simp only [Observation.recombine, Mat.toMatrix_mul, transpose_mul, Matrix.mul_assoc]

lemma isUnit_innovationCovariance_recombine
    (h : IsUnit (b.innovationCovariance z).toMatrix.det) :
    IsUnit (b.innovationCovariance (z.recombine M)).toMatrix.det := by
  rw [innovationCovariance_recombine, det_mul, det_mul, det_transpose]
  exact (hM.mul h).mul hM

lemma posDef_innovationCovariance_recombine_iff :
    (b.innovationCovariance (z.recombine M)).toMatrix.PosDef ↔
      (b.innovationCovariance z).toMatrix.PosDef := by
  rw [innovationCovariance_recombine]
  exact ((isUnit_iff_isUnit_det _).mpr hM).posDef_star_right_conjugate_iff

end

end Belief

lemma CholeskyDecomposer.HasLimits.exists_gain_iff {d : CholeskyDecomposer Exact} {r : ℝ}
    (hd : d.HasLimits r 0) {e : Estimator Exact} (he : e.decomposer = d.decomposer)
    (b : Belief (Exact p) n) (z : Observation (Exact p) m n) :
    (∃ K, (e.gain b z).outcome = .ok K) ↔ (b.innovationCovariance z).toMatrix.PosDef := by
  constructor
  · intro hK
    obtain ⟨L, hL, -⟩ := (hd.gain_outcome_iff he b z).mp hK
    exact (Mat.exists_cholesky?_iff_posDef (b.transpose_innovationCovariance z)).mp ⟨L, hL⟩
  · intro hS
    exact Estimator.exists_gain_of_acceptsDefinite (he ▸ hd.acceptsDefinite) hS

namespace Estimator

lemma exists_correct_iff {e : Estimator Exact} {time : ℝ} {b : Belief (Exact p) n}
    {z : Observation (Exact p) m n} :
    (∃ c, (e.correct time b z).outcome = .ok c) ↔ ∃ K, (e.gain b z).outcome = .ok K := by
  simp only [correct_outcome_eq_ok_iff]
  constructor
  · rintro ⟨_, K, hK, -⟩
    exact ⟨K, hK⟩
  · rintro ⟨K, hK⟩
    exact ⟨_, K, hK, rfl⟩

lemma correct_of_isGain {e : Estimator Exact} (he : e.decomposer.SolvesSymmetric) {time : ℝ}
    {b c : Belief (Exact p) n} {z : Observation (Exact p) m n}
    (hS : IsUnit (b.innovationCovariance z).toMatrix.det)
    (hc : ∀ K, b.IsGain z K → b.correct e.joseph z K = c) :
    (∀ c', (e.correct time b z).outcome = .ok c' → c' = c) ∧
      (e.decomposer.AcceptsRegular → (e.correct time b z).outcome = .ok c) := by
  constructor
  · intro c' h
    obtain ⟨K, hK, rfl⟩ := correct_outcome_eq_ok_iff.mp h
    exact hc K (isGain_of_solvesSymmetric he hK)
  · intro hr
    obtain ⟨K, hK⟩ := exists_gain_of_acceptsRegular hr hS
    exact correct_outcome_eq_ok_iff.mpr ⟨K, hK, (hc K (isGain_of_solvesSymmetric he hK)).symm⟩

/-- A Cholesky decomposer may take one of the two and not the other if its limit for the pivots is
not zero, as they change with the units. -/
theorem coordinate_free (e : Estimator Exact) (b : Belief (Exact p) n)
    (z : Observation (Exact p) m n) (M : Mat (Exact p) m m) (hM : IsUnit M.toMatrix.det)
    (time : ℝ) :
    (e.decomposer.SolvesSymmetric → IsUnit (b.innovationCovariance z).toMatrix.det →
      ∃ c, ∀ y ∈ [z, z.recombine M],
        (∀ c', (e.correct time b y).outcome = .ok c' → c' = c) ∧
          (e.decomposer.AcceptsRegular → (e.correct time b y).outcome = .ok c)) ∧
      ∀ (d : CholeskyDecomposer Exact) (r : ℝ), d.HasLimits r 0 → e.decomposer = d.decomposer →
        ((∃ c, (e.correct time b z).outcome = .ok c) ↔
          ∃ c, (e.correct time b (z.recombine M)).outcome = .ok c) := by
  constructor
  · intro he hS
    obtain ⟨K, hK⟩ := Belief.exists_isGain hS
    refine ⟨b.correct e.joseph z K, List.forall_mem_cons.mpr ⟨?_, List.forall_mem_singleton.mpr ?_⟩⟩
    · exact correct_of_isGain he hS fun K' hK' => congrArg _ (hK'.unique hK hS)
    · refine correct_of_isGain he (Belief.isUnit_innovationCovariance_recombine hM hS) ?_
      intro K' hK'
      obtain rfl := ((Belief.isGain_recombine_iff hM).mp hK').unique hK hS
      exact Belief.correct_recombine b e.joseph z M K'
  · intro d r hd he
    rw [exists_correct_iff, exists_correct_iff, hd.exists_gain_iff he, hd.exists_gain_iff he,
      Belief.posDef_innovationCovariance_recombine_iff hM]

theorem coordinate_free_shear :
    let z : Observation (Exact .double) 2 2 := ⟨#v[1, 3], .square 1 0 1 1, .identity⟩
    let M : Mat (Exact .double) 2 2 := .square 1 1 0 1
    let e (joseph : Bool) : Estimator Exact := ⟨.byInverse, Tilted.process, joseph, false⟩
    let f : Estimator Exact := ⟨Fix.decomposer.decomposer, Tilted.process, false, false⟩
    IsUnit M.toMatrix.det ∧ Decomposer.byInverse.SolvesSymmetric ∧
      Decomposer.byInverse.AcceptsRegular ∧
      IsUnit (Crossing.belief.innovationCovariance z).toMatrix.det ∧ Fix.decomposer.HasLimits 0 0 ∧
      (∀ joseph, ∃ c, ((e joseph).correct 1 Crossing.belief z).outcome = .ok c ∧
        ((e joseph).correct 1 Crossing.belief (z.recombine M)).outcome = .ok c) ∧
      (∃ c, (f.correct 1 Crossing.belief z).outcome = .ok c) ∧
      ∃ c, (f.correct 1 Crossing.belief (z.recombine M)).outcome = .ok c := by
  intro z M e f
  have hM : IsUnit M.toMatrix.det := by
    rw [det_fin_two]
    show IsUnit ((1 : ℝ) * 1 - 1 * 0)
    norm_num
  have hs : Decomposer.byInverse.SolvesSymmetric :=
    Decomposer.byInverse_solvesSymmetric
  have hr : Decomposer.byInverse.AcceptsRegular := Decomposer.byInverse_acceptsRegular
  have hS : (Crossing.belief.innovationCovariance z).toMatrix.PosDef := by
    refine Belief.posDef_innovationCovariance ?_ ?_
    · rw [Crossing.belief, Mat.toMatrix_identity]
      exact .one
    · simp only [z, Mat.toMatrix_identity, symmetricPart_of_symm transpose_one]
      exact .one
  have hd : Fix.decomposer.HasLimits 0 0 :=
    CholeskyDecomposer.hasLimits_real le_rfl le_rfl
  have hf : ∃ c, (f.correct 1 Crossing.belief z).outcome = .ok c :=
    exists_correct_iff.mpr ((hd.exists_gain_iff rfl _ _).mpr hS)
  refine ⟨hM, hs, hr, isUnit_det_of_posDef hS, hd, fun joseph => ?_, hf,
    ((coordinate_free f Crossing.belief z M hM 1).2 Fix.decomposer 0 hd rfl).mp hf⟩
  obtain ⟨c, hc⟩ := (coordinate_free (e joseph) Crossing.belief z M hM 1).1 hs
    (isUnit_det_of_posDef hS)
  simp only [List.forall_mem_cons] at hc
  exact ⟨c, hc.1.2 hr, hc.2.1.2 hr⟩

end Estimator

end KalmanFilter
