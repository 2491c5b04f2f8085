import KalmanFilter.Proofs.LUFactor
import KalmanFilter.Proofs.SymmetricSystem

namespace KalmanFilter

open Matrix

variable {F : Precision → Type} {p : Precision} {c n : ℕ}

namespace Mat

lemma isUnit_det_of_mul_eq_identity {A X : Mat ℝ n n} (h : A * X = identity) :
    IsUnit A.toMatrix.det := by
  have h := congrArg toMatrix h
  rw [toMatrix_mul, toMatrix_identity] at h
  exact isUnit_det_of_right_inverse h

lemma mul_eq_iff_of_solves {A : Mat ℝ n n} {s : {c : ℕ} → Mat ℝ n c → Mat ℝ n c}
    (hs : ∀ {c : ℕ} (b : Mat ℝ n c), A * s b = b) (b Y : Mat ℝ n c) : A * Y = b ↔ Y = s b := by
  have hA := isUnit_det_of_mul_eq_identity (hs identity)
  refine ⟨fun h => toMatrix_injective ?_, fun h => h ▸ hs b⟩
  have h := congrArg (A.toMatrix⁻¹ * toMatrix ·) (h.trans (hs b).symm)
  simpa only [toMatrix_mul, nonsing_inv_mul_cancel_left _ _ hA] using h

lemma isUnit_det_of_unique {A : Mat ℝ n n} {B X : Mat ℝ n c} (j : Fin c)
    (h : ∀ Y, A * Y = B ↔ Y = X) : IsUnit A.toMatrix.det := by
  rw [isUnit_iff_ne_zero]
  intro hA
  obtain ⟨v, hv, hz⟩ := exists_mulVec_eq_zero_iff.mpr hA
  -- every column of the solution can be moved along the kernel
  have hY : A * (X + ofFn fun i _ => v i) = B := by
    rw [← (h X).mpr rfl]
    ext i j
    have hi : ∑ k, A i k * v k = 0 := congrFun hz i
    simp [total_eq_sum, mul_add, Finset.sum_add_distrib, hi]
  refine hv (funext fun i => ?_)
  have hi := congrArg (fun M : Mat ℝ n c => M i j) ((h _).mp hY)
  simpa using hi

end Mat

/-- What is asked of a solver that is not known: an answer is the only solution of its system, at
least if the matrix is symmetric, and the process is left alone. -/
structure Decomposer.SolvesUniquely (d : Decomposer Exact) : Prop where
  solution : ∀ {p : Precision} {k c : ℕ} (A : Mat (Exact p) k k) (solve : Solver Exact p k)
    (B X : Mat (Exact p) k c), A.transpose = A →
    (d.decompose A).outcome = .ok solve → solve B = .ok X → ∀ Y, A * Y = B ↔ Y = X
  queries : ∀ {p : Precision} {k : ℕ} (A : Mat (Exact p) k k), (d.decompose A).queries = []

lemma Decomposer.SolvesUniquely.solvesSymmetric {d : Decomposer Exact} (h : d.SolvesUniquely) :
    d.SolvesSymmetric :=
  fun A solve B X hA hs hX => (h.solution A solve B X hA hs hX X).mpr rfl

lemma CholeskyDecomposer.queries_decompose [Arithmetic F] (d : CholeskyDecomposer F)
    (A : Mat (F p) n n) : (d.decomposer.decompose A).queries = [] := by
  refine Attempt.queries_bind (Attempt.queries_bind rfl fun r => ?_) fun _ => rfl
  split
  · rfl
  · split
    · rfl
    · refine Attempt.queries_bind rfl fun s => ?_
      split <;> rfl

lemma LUDecomposer.queries_decompose [Arithmetic F] (d : LUDecomposer F) (A : Mat (F p) n n) :
    (d.decomposer.decompose A).queries = [] := by
  refine Attempt.queries_bind ?_ fun _ => rfl
  rw [factor]
  split
  · rfl
  · refine Attempt.queries_bind rfl fun s => ?_
    split <;> rfl

lemma CholeskyDecomposer.solvesUniquely (d : CholeskyDecomposer Exact) :
    d.decomposer.SolvesUniquely where
  solution A solve B X hA hs hX := by
    obtain ⟨L, hL, hb⟩ := exists_factor_of_decompose hs
    obtain ⟨r, s, -, -, -, hc, -⟩ := factor_outcome_eq_ok_iff.mp hL
    obtain rfl := Except.ok.inj ((hb B).symm.trans hX)
    exact Mat.mul_eq_iff_of_solves (Mat.mul_choleskySolve hA hc) B
  queries := d.queries_decompose

section

variable [Arithmetic F] {d : LUDecomposer F} {A : Mat (F p) n n} {f : LU (F p) n}

lemma LUDecomposer.factor_outcome_eq_ok_iff :
    (d.factor A).outcome = .ok f ↔ A.lu? = some f ∧
      ∃ s, d.singularity.limit p = .ok s ∧ ¬ ∃ i, Scalar.abs (f.packed i i) < s := by
  rw [factor]
  constructor
  · intro h
    split at h
    · cases h
    · rename_i g hg
      obtain ⟨s, hs, h⟩ := Attempt.bind_outcome_eq_ok_iff.mp h
      split at h
      case isTrue => cases h
      case isFalse hp =>
        obtain rfl := Except.ok.inj h
        exact ⟨hg, s, hs, by simpa using hp⟩
  · rintro ⟨hf, s, hs, hp⟩
    rw [hf]
    refine Attempt.bind_outcome_eq_ok_iff.mpr ⟨s, hs, ?_⟩
    rw [if_neg (by simpa using hp)]
    rfl

lemma LUDecomposer.exists_factor_of_decompose {solve : Solver F p n}
    (h : (d.decomposer.decompose A).outcome = .ok solve) :
    ∃ f, (d.factor A).outcome = .ok f ∧
      ∀ {c : ℕ} (b : Mat (F p) n c), solve b = .ok (f.solve b) := by
  obtain ⟨f, hf, h⟩ := Attempt.bind_outcome_eq_ok_iff.mp h
  refine ⟨f, hf, fun {c} b => ?_⟩
  exact (congrFun (congrFun (Except.ok.inj h) c) b).symm

lemma LUDecomposer.decompose_of_factor (h : (d.factor A).outcome = .ok f) :
    ∃ solve : Solver F p n, (d.decomposer.decompose A).outcome = .ok solve ∧
      ∀ {c : ℕ} (b : Mat (F p) n c), solve b = .ok (f.solve b) :=
  ⟨Solver.lu f, Attempt.bind_outcome_eq_ok_iff.mpr ⟨f, h, rfl⟩, fun _ => rfl⟩

end

lemma LUDecomposer.solvesUniquely (d : LUDecomposer Exact) : d.decomposer.SolvesUniquely where
  solution A solve B X _ hs hX := by
    obtain ⟨f, hf, hb⟩ := exists_factor_of_decompose hs
    obtain ⟨hf, -⟩ := factor_outcome_eq_ok_iff.mp hf
    obtain rfl := Except.ok.inj ((hb B).symm.trans hX)
    exact Mat.mul_eq_iff_of_solves (LU.mul_solve hf) B
  queries := d.queries_decompose

lemma Decomposer.plain_solvesUniquely : (plain : Decomposer Exact).SolvesUniquely where
  solution A solve B X _ hs hX := by
    have hb := (congrFun (congrFun (Except.ok.inj hs) _) B).trans hX
    split at hb
    · rename_i f hf
      obtain rfl := Except.ok.inj hb
      exact Mat.mul_eq_iff_of_solves (LU.mul_solve hf) B
    · cases hb
  queries _ := rfl

lemma Mat.exists_lu?_of_isUnit {A : Mat ℝ n n} (hA : IsUnit A.toMatrix.det) :
    ∃ f, A.lu? = some f :=
  exists_lu? fun _ hv => eq_zero_of_mulVec_eq_zero hA.ne_zero hv

lemma LUDecomposer.acceptsRegular {d : LUDecomposer Exact} {s : ℝ} (hd : d.singularity.IsLimit s)
    (hs : s ≤ 0) : d.decomposer.AcceptsRegular := by
  intro p k A _ hA
  obtain ⟨f, hf⟩ := Mat.exists_lu?_of_isUnit hA
  have hp : ¬ ∃ i, |f.packed i i| < s := fun ⟨i, hi⟩ => (hi.trans_le hs).not_ge (abs_nonneg _)
  obtain ⟨solve, hsolve, hb⟩ := decompose_of_factor (factor_outcome_eq_ok_iff.mpr ⟨hf, s, hd p, hp⟩)
  exact ⟨solve, hsolve, fun B => ⟨_, hb B⟩⟩

lemma Decomposer.plain_acceptsRegular : (plain : Decomposer Exact).AcceptsRegular := by
  intro p k A _ hA
  obtain ⟨f, hf⟩ := Mat.exists_lu?_of_isUnit hA
  exact ⟨_, rfl, fun B => ⟨f.solve B, by rw [hf]⟩⟩

end KalmanFilter
