import KalmanFilter.Matrix.Basic

namespace KalmanFilter

variable {α : Type} {m n : Nat}

theorem flat_lt (i : Fin m) (j : Fin n) : i.val * n + j.val < m * n := by
  have hi : (i.val + 1) * n ≤ m * n := Nat.mul_le_mul_right n i.isLt
  have hj := j.isLt
  rw [Nat.add_mul] at hi
  omega

theorem flat_row_lt (k : Fin (m * n)) : k.val / n < m :=
  Nat.div_lt_of_lt_mul (Nat.mul_comm m n ▸ k.isLt)

theorem flat_column_lt (k : Fin (m * n)) : k.val % n < n := by
  refine Nat.mod_lt _ (Nat.pos_of_ne_zero fun h => ?_)
  have := k.isLt
  simp [h] at this

namespace Mat

def place (i : Fin m) (j : Fin n) : Fin (m * n) :=
  ⟨i.val * n + j.val, flat_lt i j⟩

def rowOf (k : Fin (m * n)) : Fin m :=
  ⟨k.val / n, flat_row_lt k⟩

def columnOf (k : Fin (m * n)) : Fin n :=
  ⟨k.val % n, flat_column_lt k⟩

def flatten (A : Mat α m n) : Vec α (m * n) :=
  Vector.ofFn fun k => A (rowOf k) (columnOf k)

def ofFlat (x : Vec α (m * n)) : Mat α m n :=
  ofFn fun i j => x (place i j)

@[simp] theorem rowOf_place (i : Fin m) (j : Fin n) : rowOf (place i j) = i := by
  apply Fin.ext
  show (i.val * n + j.val) / n = i.val
  rw [Nat.mul_comm, Nat.mul_add_div (Nat.zero_lt_of_lt j.isLt), Nat.div_eq_of_lt j.isLt,
    Nat.add_zero]

@[simp] theorem columnOf_place (i : Fin m) (j : Fin n) : columnOf (place i j) = j := by
  apply Fin.ext
  show (i.val * n + j.val) % n = j.val
  rw [Nat.mul_comm, Nat.mul_add_mod, Nat.mod_eq_of_lt j.isLt]

@[simp] theorem place_rowOf_columnOf (k : Fin (m * n)) : place (rowOf k) (columnOf k) = k := by
  apply Fin.ext
  exact Nat.div_add_mod' k.val n

@[simp] theorem flatten_entry (A : Mat α m n) (k : Fin (m * n)) :
    A.flatten.get k = A (rowOf k) (columnOf k) := Vec.ofFn_entry ..

@[simp] theorem ofFlat_entry (x : Vec α (m * n)) (i : Fin m) (j : Fin n) :
    ofFlat x i j = x (place i j) := ofFn_entry ..

theorem ofFlat_flatten (A : Mat α m n) : ofFlat A.flatten = A := by
  ext i j
  simp

theorem flatten_ofFlat (x : Vec α (m * n)) : (ofFlat x).flatten = x :=
  Vec.ext fun k => by simp

end Mat

end KalmanFilter
