import KalmanFilter.Proofs.InvertingSolver

/-! A pivot is missing exactly if the matrix is singular. The pivots are the largest
entries that are left of their columns, so no multiplier is larger than one. -/

namespace KalmanFilter

variable {F : Precision → Type} {p : Precision} {k n : ℕ}

namespace Mat

lemma exists_lu?_iff_det_ne_zero {A : Mat ℝ n n} : (∃ f, A.lu? = some f) ↔ A.toMatrix.det ≠ 0 := by
  constructor
  · rintro ⟨f, hf⟩
    exact (isUnit_det_of_mul_eq_identity (LU.mul_solve hf .identity)).ne_zero
  · intro h
    apply exists_lu?_of_isUnit
    exact isUnit_iff_ne_zero.mpr h

lemma lu?_eq_none_iff {A : Mat ℝ n n} : A.lu? = none ↔ A.toMatrix.det = 0 := by
  rw [← not_iff_not, ← ne_eq A.toMatrix.det, ← exists_lu?_iff_det_ne_zero]
  exact Option.ne_none_iff_exists'

lemma le_pivots {A : Mat ℝ n n} {f : LU ℝ n} (h : A.lu? = some f) (i : Fin n) : i ≤ f.pivots i := by
  induction n with
  | zero => exact i.elim0
  | succ n ih =>
    obtain ⟨-, g, hg, rfl⟩ := exists_of_lu?_succ h
    cases i using Fin.cases with
    | zero => exact Fin.zero_le _
    | succ i => simpa using ih hg i

lemma abs_multipliers_le_one (A : Mat ℝ (n + 1) (n + 1)) (i : Fin n) :
    |A.pivoted.multipliers i| ≤ 1 := by
  rw [multipliers_entry, abs_div, pivoted_entry, pivoted_entry, Equiv.swap_apply_left]
  apply div_le_one_of_le₀
  · exact A.abs_le_abs_pivotRow _
  · exact abs_nonneg _

lemma abs_unitLower_le_one {A : Mat ℝ n n} {f : LU ℝ n} (h : A.lu? = some f) (i j : Fin n) :
    |f.packed.unitLower i j| ≤ 1 := by
  induction n with
  | zero => exact i.elim0
  | succ n ih =>
    obtain ⟨-, g, hg, rfl⟩ := exists_of_lu?_succ h
    rw [unitLower_block]
    cases i using Fin.cases with
    | zero => cases j using Fin.cases <;> simp
    | succ i =>
      cases j using Fin.cases with
      | zero =>
        rw [block_succ_zero, interchange_entry]
        exact A.abs_multipliers_le_one _
      | succ j => simpa using ih hg i j

end Mat

namespace LUDecomposer

lemma factorTensor_tensor [Arithmetic F] (d : LUDecomposer F) (A : Mat (F p) n n) :
    d.factorTensor (TypedMat.tensor ⟨.real p, A⟩) = do
      let f ← d.factor A
      return ⟨p, n, f⟩ := by
  simp only [factorTensor, Tensor.square?_tensor, TypedMat.toType_same]

lemma inverts_lu {A : Mat (Exact p) k k} {f : LU (Exact p) k} (h : A.lu? = some f) :
    Solver.Inverts (Solver.lu f) A :=
  Solver.inverts_of_solves (LU.mul_solve h) f.solve_columns

structure IsFactor (A : Mat (Exact p) k k) (f : LU (Exact p) k) : Prop where
  downward : ∀ i, i ≤ f.pivots i
  unit : ∀ i, f.packed.unitLower i i = 1
  lower : ∀ i j, i < j → f.packed.unitLower i j = 0
  bounded : ∀ i j, |f.packed.unitLower i j| ≤ 1
  upper : ∀ i j, j < i → Mat.upper f.packed i j = 0
  product : f.packed.unitLower * Mat.upper f.packed = ⟨interchange f.pivots A.rows⟩
  solves : Solver.Inverts (Solver.lu f) A

lemma isFactor_of_lu? {A : Mat (Exact p) k k} {f : LU (Exact p) k} (h : A.lu? = some f) :
    IsFactor A f where
  downward := Mat.le_pivots h
  unit i := by simp [Mat.unitLower]
  lower := (Mat.isLower_unitLower f.packed).above
  bounded := Mat.abs_unitLower_le_one h
  upper i j hij := by simp [Mat.upper, hij]
  product := Mat.unitLower_mul_upper h
  solves := inverts_lu h

theorem factorTensor_pivots {d : LUDecomposer Exact} {s : ℝ} (hd : d.singularity.IsLimit s)
    (A : Mat (Exact p) k k) :
    let verdict := (d.factorTensor (TypedMat.tensor ⟨.real p, A⟩)).outcome
    (verdict = .error .singular ↔ Matrix.det (Mat.toMatrix A) = 0 ∨
      ∃ f, A.lu? = some f ∧ ∃ i, |Mat.upper f.packed i i| < s) ∧
    (s ≤ 0 → (verdict = .error .singular ↔ Matrix.det (Mat.toMatrix A) = 0)) ∧
    (verdict = .error .singular ∨ ∃ f, A.lu? = some f ∧ verdict = .ok ⟨p, k, f⟩) ∧
    ∀ f, A.lu? = some f → IsFactor A f := by
  intro verdict
  have hv : verdict = (d.factorTensor (TypedMat.tensor ⟨.real p, A⟩)).outcome := rfl
  rw [factorTensor_tensor] at hv
  cases hf : A.lu? with
  | none =>
    have hA : Matrix.det (Mat.toMatrix A) = 0 := Mat.lu?_eq_none_iff.mp hf
    rw [d.factor_of_lu_none hf] at hv
    exact ⟨iff_of_true hv (.inl hA), fun _ => iff_of_true hv hA, .inl hv, nofun⟩
  | some f =>
    have hA : Matrix.det (Mat.toMatrix A) ≠ 0 := Mat.exists_lu?_iff_det_ne_zero.mp ⟨f, hf⟩
    have hU : ∀ i, Mat.upper f.packed i i = f.packed i i := fun i => by simp [Mat.upper]
    have hr : (∃ i, |f.packed i i| < s) → verdict = .error .singular := by
      intro hp
      rw [hv, d.factor_of_pivot (hd p) hf hp]
      rfl
    have ha : (¬ ∃ i, |f.packed i i| < s) → verdict = .ok ⟨p, k, f⟩ := by
      intro hp
      rw [hv, d.factor_of_pivots (hd p) hf hp]
      rfl
    have hs : verdict = .error .singular → ∃ i, |f.packed i i| < s := by
      intro h
      by_contra hp
      cases h.symm.trans (ha hp)
    simp only [hA, false_or, Option.some.injEq, exists_eq_left', forall_eq', hU]
    refine ⟨⟨hs, hr⟩, fun h0 => iff_of_false (fun h => ?_) id, ?_, isFactor_of_lu? hf⟩
    · obtain ⟨i, hi⟩ := hs h
      exact absurd (hi.trans_le h0) (abs_nonneg _).not_gt
    · by_cases hp : ∃ i, |f.packed i i| < s
      · exact .inl (hr hp)
      · exact .inr (ha hp)

theorem factorTensor_pivots_crossed :
    (.real 0 : Datum Exact).IsLimit 0 ∧
      ∃ f : LU (Exact .double) 2,
        (factorTensor ⟨.real 0⟩ (TypedMat.tensor ⟨.real .double, .square 0 2 1 1⟩)).outcome =
          .ok ⟨.double, 2, f⟩ ∧
        IsFactor (.square 0 2 1 1) f := by
  have hd : (.real 0 : Datum Exact).IsLimit 0 := Datum.isLimit_real 0
  have hA : Matrix.det (Mat.toMatrix (.square 0 2 1 1 : Mat ℝ 2 2)) ≠ 0 := by
    rw [Matrix.det_fin_two]
    show (0 : ℝ) * 1 - 2 * 1 ≠ 0
    norm_num
  obtain ⟨-, h0, ho, hF⟩ := factorTensor_pivots (d := ⟨.real 0⟩) hd
    (.square 0 2 1 1 : Mat (Exact .double) 2 2)
  refine ⟨hd, ?_⟩
  rcases ho with h | ⟨f, hf, h⟩
  · exact absurd ((h0 le_rfl).mp h) hA
  · exact ⟨f, h, hF f hf⟩

end LUDecomposer

end KalmanFilter
