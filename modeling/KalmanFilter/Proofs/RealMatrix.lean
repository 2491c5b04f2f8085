import KalmanFilter.Matrix.Basic
import KalmanFilter.Proofs.Exact
import KalmanFilter.Proofs.GainEquation

namespace KalmanFilter

variable {l m n : ℕ}

lemma total_eq_sum (f : Fin n → ℝ) : total f = ∑ i, f i := by
  induction n with
  | zero => rfl
  | succ n ih =>
    rw [Fin.sum_univ_castSucc, ← ih]
    simp only [total, Fin.foldl_succ_last]

namespace Mat

def toMatrix (A : Mat ℝ m n) : Matrix (Fin m) (Fin n) ℝ :=
  Matrix.of A.entry

@[simp] lemma toMatrix_apply (A : Mat ℝ m n) (i : Fin m) (j : Fin n) : A.toMatrix i j = A i j :=
  rfl

lemma toMatrix_injective : Function.Injective (toMatrix : Mat ℝ m n → _) := by
  intro A B h
  ext i j
  exact congrFun (congrFun h i) j

@[simp] lemma toMatrix_ofFn (A : Matrix (Fin m) (Fin n) ℝ) :
    (ofFn fun i j => A i j).toMatrix = A := by
  ext i j
  exact ofFn_entry _ i j

@[simp] lemma toMatrix_add (A B : Mat ℝ m n) : (A + B).toMatrix = A.toMatrix + B.toMatrix := by
  ext i j
  exact add_entry A B i j

@[simp] lemma toMatrix_sub (A B : Mat ℝ m n) : (A - B).toMatrix = A.toMatrix - B.toMatrix := by
  ext i j
  exact sub_entry A B i j

@[simp] lemma toMatrix_mul (A : Mat ℝ l m) (B : Mat ℝ m n) :
    (A * B).toMatrix = A.toMatrix * B.toMatrix := by
  ext i j
  simp [Matrix.mul_apply, total_eq_sum]

@[simp] lemma toMatrix_transpose (A : Mat ℝ m n) : A.transpose.toMatrix = A.toMatrix.transpose := by
  ext i j
  exact transpose_entry A i j

lemma toMatrix_square (a b c d : ℝ) : (square a b c d).toMatrix = !![a, b; c, d] := by
  ext i j
  fin_cases i <;> fin_cases j <;> rfl

@[simp] lemma toMatrix_identity : (identity : Mat ℝ n n).toMatrix = 1 := by
  ext i j
  simp [identity, Matrix.one_apply]

@[simp] lemma toMatrix_symmetrize (A : Mat ℝ n n) :
    A.symmetrize.toMatrix = symmetricPart A.toMatrix := by
  ext i j
  norm_num [symmetrize, symmetricPart]

lemma get_mulVec (A : Mat ℝ m n) (x : Vec ℝ n) : (A * x).get = A.toMatrix.mulVec x.get := by
  funext i
  simp [Matrix.mulVec, dotProduct, total_eq_sum]

end Mat

namespace Vec

lemma get_add (x y : Vec ℝ n) : (x + y).get = x.get + y.get := by
  funext i
  exact add_entry x y i

lemma get_sub (x y : Vec ℝ n) : (x - y).get = x.get - y.get := by
  funext i
  exact sub_entry x y i

lemma get_injective : Function.Injective (Vector.get : Vec ℝ n → _) :=
  fun _ _ h => ext fun i => congrFun h i

end Vec

end KalmanFilter
