import KalmanFilter.Filter.Setup
import KalmanFilter.Proofs.Attempt
import KalmanFilter.Proofs.Selection

namespace KalmanFilter

variable {F : Precision → Type} [Arithmetic F] {p : Precision} {α : Type} {c c' k n : ℕ}

def Mat.columns (σ : Fin c' → Fin c) (A : Mat α n c) : Mat α n c' :=
  A.select id σ

@[simp] lemma Mat.columns_entry (σ : Fin c' → Fin c) (A : Mat α n c) (i : Fin n) (j : Fin c') :
    A.columns σ i j = A i (σ j) :=
  select_entry ..

namespace Mat

variable [Scalar α]

lemma solveLower_columns (σ : Fin c' → Fin c) (L : Mat α n n) (b : Mat α n c) :
    solveLower L (b.columns σ) = (solveLower L b).columns σ := by
  induction n with
  | zero =>
    ext i j
    exact i.elim0
  | succ n ih =>
    have hr : (b.columns σ).lowerRows -
          outer L.leftColumn ((b.columns σ).firstRow.map (· / L 0 0)) =
        (b.lowerRows - outer L.leftColumn (b.firstRow.map (· / L 0 0))).columns σ := by
      ext i j
      simp
    ext i j
    rw [solveLower_succ, hr, ih]
    cases i using Fin.cases <;> simp [solveLower_succ]

lemma solveUpper_columns (σ : Fin c' → Fin c) (U : Mat α n n) (b : Mat α n c) :
    solveUpper U (b.columns σ) = (solveUpper U b).columns σ := by
  induction n with
  | zero =>
    ext i j
    exact i.elim0
  | succ n ih =>
    have hr : (b.columns σ).lowerRows = b.lowerRows.columns σ := by
      ext i j
      simp
    ext i j
    rw [solveUpper_succ, hr, ih]
    cases i using Fin.cases <;> simp [solveUpper_succ]

lemma choleskySolve_columns (σ : Fin c' → Fin c) (L : Mat α n n) (b : Mat α n c) :
    L.choleskySolve (b.columns σ) = (L.choleskySolve b).columns σ := by
  rw [choleskySolve, solveLower_columns, solveUpper_columns]
  rfl

end Mat

lemma foldl_hom {β : Type} (h : α → β) {f : α → Fin n → α} {g : β → Fin n → β}
    (hfg : ∀ x i, g (h x) i = h (f x i)) (x : α) : Fin.foldl n g (h x) = h (Fin.foldl n f x) := by
  induction n with
  | zero => rfl
  | succ n ih => rw [Fin.foldl_succ_last, Fin.foldl_succ_last, ih fun x i => hfg x i.castSucc, hfg]

lemma interchange_map {β : Type} (q : Vec (Fin n) n) (x : Vec α n) (f : α → β) :
    interchange q (x.map f) = (interchange q x).map f := by
  refine foldl_hom (fun x : Vec α n => x.map f) (fun x i => Vector.ext fun j hj => ?_) x
  simp only [Vector.getElem_swap, Vector.getElem_map]
  split
  · rfl
  · split <;> rfl

lemma Mat.rows_columns (σ : Fin c' → Fin c) (A : Mat α n c) :
    (A.columns σ).rows = A.rows.map (Vec.select σ) := by
  refine Vec.ext fun i => ?_
  rw [Vec.map_entry, columns, select, ofFn, Vec.ofFn_entry]
  rfl

lemma LU.solve_columns [Scalar α] (σ : Fin c' → Fin c) (f : LU α n) (b : Mat α n c) :
    f.solve (b.columns σ) = (f.solve b).columns σ := by
  have hi : (⟨interchange f.pivots (b.columns σ).rows⟩ : Mat α n c') =
      (⟨interchange f.pivots b.rows⟩ : Mat α n c).columns σ := by
    rw [Mat.rows_columns, interchange_map, ← Mat.rows_columns]
  rw [solve, hi, Mat.solveLower_columns, Mat.solveUpper_columns]
  rfl

def Solver.IsColumnwise (solve : Solver F p k) : Prop :=
  ∀ {c c' : ℕ} (σ : Fin c' → Fin c) (b : Mat (F p) k c),
    solve (b.columns σ) = (Mat.columns σ) <$> solve b

def Decomposer.SolvesColumnwise (d : Decomposer F) : Prop :=
  ∀ {p : Precision} {k : ℕ} (A : Mat (F p) k k) (solve : Solver F p k),
    (d.decompose A).outcome = .ok solve → Solver.IsColumnwise solve

lemma CholeskyDecomposer.solvesColumnwise (d : CholeskyDecomposer F) :
    d.decomposer.SolvesColumnwise := by
  intro p k A solve h c c' σ b
  obtain ⟨L, -, h⟩ := Attempt.bind_outcome_eq_ok_iff.mp h
  have hb : ∀ {c : ℕ} (b : Mat (F p) k c), .ok (L.choleskySolve b) = solve b :=
    fun {c} b => congrFun (congrFun (Except.ok.inj h) c) b
  show solve (b.columns σ) = Mat.columns σ <$> solve b
  rw [← hb, ← hb, L.choleskySolve_columns]
  rfl

lemma LUDecomposer.solvesColumnwise (d : LUDecomposer F) : d.decomposer.SolvesColumnwise := by
  intro p k A solve h c c' σ b
  obtain ⟨f, -, h⟩ := Attempt.bind_outcome_eq_ok_iff.mp h
  have hb : ∀ {c : ℕ} (b : Mat (F p) k c), .ok (f.solve b) = solve b :=
    fun {c} b => congrFun (congrFun (Except.ok.inj h) c) b
  show solve (b.columns σ) = Mat.columns σ <$> solve b
  rw [← hb, ← hb, f.solve_columns]
  rfl

lemma Decomposer.plain_solvesColumnwise : (plain : Decomposer F).SolvesColumnwise := by
  intro p k A solve h c c' σ b
  have hb : ∀ {c : ℕ} (b : Mat (F p) k c), _ = solve b :=
    fun {c} b => congrFun (congrFun (Except.ok.inj h) c) b
  show solve (b.columns σ) = Mat.columns σ <$> solve b
  rw [← hb, ← hb]
  cases A.lu? with
  | none => rfl
  | some f => exact congrArg Except.ok (f.solve_columns σ b)

lemma DecomposerChoice.solvesColumnwise {choice : DecomposerChoice F} {d : Decomposer F}
    (h : choice.decomposer = .ok d) : d.SolvesColumnwise := by
  cases choice with
  | cholesky e =>
    obtain rfl := Except.ok.inj h
    exact e.solvesColumnwise
  | lu e =>
    obtain rfl := Except.ok.inj h
    exact e.solvesColumnwise
  | plain =>
    obtain rfl := Except.ok.inj h
    exact Decomposer.plain_solvesColumnwise
  | foreign value => cases h

end KalmanFilter
