import KalmanFilter.Proofs.Columns
import KalmanFilter.Proofs.RegularSystem
import KalmanFilter.Proofs.TensorForm

namespace KalmanFilter

variable {F : Precision → Type} {p : Precision} {k n : ℕ}

namespace Mat

lemma mul_column (A : Mat ℝ n k) (x : Vec ℝ k) : A * column x = column (A * x) := by
  ext i j
  simp

lemma column_injective : Function.Injective (column : Vec ℝ n → _) :=
  fun _ _ h => Vec.ext fun i => by simpa using congrArg (fun A : Mat ℝ n 1 => A i 0) h

lemma column_firstColumn (A : Mat ℝ n 1) : column A.firstColumn = A := by
  ext i j
  simp [Subsingleton.elim j 0]

end Mat

lemma Tensor.square?_tensor (A : TypedMat F n n) : A.tensor.square? = some ⟨n, A⟩ := by
  show (if h : n = n then some (Sigma.mk n (A.tensor.mat rfl)) else none :
    Option ((n : ℕ) × TypedMat F n n)) = _
  rw [dif_pos rfl, A.mat_tensor]

section

variable [Arithmetic F]

lemma Solver.solveTensor_vector (solve : Solver F p k) (b : Vec (F p) k) :
    solve.solveTensor (TypedVec.tensor ⟨.real p, b⟩) = do
      let X ← solve (.column b)
      return TypedVec.tensor (n := k) ⟨.real p, X.firstColumn⟩ := by
  have hb : ((TypedVec.tensor ⟨.real p, b⟩).vec rfl : TypedVec F k) = ⟨.real p, b⟩ := rfl
  have ht : ¬ (TypedVec.tensor ⟨.real p, b⟩ : Tensor F).type ≠ .real p := fun h => h rfl
  rw [solveTensor, if_neg ht]
  show (if h : k = k then do
    let X ← solve (.column (((TypedVec.tensor ⟨.real p, b⟩).vec rfl : TypedVec F k).toType (.real p)))
    return TypedVec.tensor (n := k) ⟨.real p, X.firstColumn⟩ else refuse) = _
  rw [dif_pos rfl, hb, TypedVec.toType_same]

lemma Solver.solveTensor_matrix {c : ℕ} (solve : Solver F p k) (B : Mat (F p) k c) :
    solve.solveTensor (TypedMat.tensor ⟨.real p, B⟩) = do
      let X ← solve B
      return TypedMat.tensor (m := k) (n := c) ⟨.real p, X⟩ := by
  have ht : ¬ (TypedMat.tensor ⟨.real p, B⟩ : Tensor F).type ≠ .real p := fun h => h rfl
  rw [solveTensor, if_neg ht]
  show (if h : k = k then do
    let X ← solve (((TypedMat.tensor ⟨.real p, B⟩).mat rfl : TypedMat F k c).toType (.real p))
    return TypedMat.tensor (m := k) (n := c) ⟨.real p, X⟩ else refuse) = _
  rw [dif_pos rfl, TypedMat.mat_tensor, TypedMat.toType_same]

end

structure Solver.Inverts (solve : Solver Exact p k) (M : Mat (Exact p) k k) : Prop where
  vector : ∀ b : Vec (Exact p) k, ∃ x : Vec (Exact p) k,
    solve.solveTensor (TypedVec.tensor ⟨.real p, b⟩) = .ok (TypedVec.tensor ⟨.real p, x⟩) ∧
      ∀ y : Vec (Exact p) k, M * y = b ↔ y = x
  matrix : ∀ {c : ℕ} (B : Mat (Exact p) k c), ∃ X : Mat (Exact p) k c,
    solve.solveTensor (TypedMat.tensor ⟨.real p, B⟩) = .ok (TypedMat.tensor ⟨.real p, X⟩) ∧
      (∀ Y : Mat (Exact p) k c, M * Y = B ↔ Y = X) ∧
      ∀ j, solve.solveTensor (TypedVec.tensor ⟨.real p, B.transpose.row j⟩) =
        .ok (TypedVec.tensor ⟨.real p, X.transpose.row j⟩)

lemma Mat.column_row_transpose {c : ℕ} (B : Mat ℝ k c) (j : Fin c) :
    column (B.transpose.row j) = B.columns fun _ : Fin 1 => j := by
  ext i l
  rw [column_entry, columns_entry, ← B.transpose_entry]
  rfl

lemma Solver.inverts_of_solves {M : Mat (Exact p) k k}
    {s : {c : ℕ} → Mat (Exact p) k c → Mat (Exact p) k c}
    (hs : ∀ {c : ℕ} (b : Mat (Exact p) k c), M * s b = b)
    (hc : ∀ {c c' : ℕ} (σ : Fin c' → Fin c) (b : Mat (Exact p) k c),
      s (b.columns σ) = (s b).columns σ) :
    Solver.Inverts (fun {_} b => .ok (s b)) M where
  vector b := by
    refine ⟨(s (.column b)).firstColumn, Solver.solveTensor_vector _ b, ?_⟩
    intro y
    rw [← Mat.column_injective.eq_iff, ← Mat.column_injective.eq_iff, ← Mat.mul_column,
      Mat.column_firstColumn]
    exact Mat.mul_eq_iff_of_solves hs _ _
  matrix B := by
    refine ⟨s B, Solver.solveTensor_matrix _ B, Mat.mul_eq_iff_of_solves hs B, fun j => ?_⟩
    have hj : (s (.column (B.transpose.row j))).firstColumn = (s B).transpose.row j := by
      apply Mat.column_injective
      rw [Mat.column_firstColumn, Mat.column_row_transpose, Mat.column_row_transpose, hc]
    rw [← hj]
    exact Solver.solveTensor_vector _ _

end KalmanFilter
