import KalmanFilter.Matrix.Basic

namespace KalmanFilter

variable {α : Type} {m n : Nat}

namespace Mat

def topRow (A : Mat α (m + 1) (n + 1)) : Vec α n :=
  Vector.ofFn fun j => A 0 j.succ

def corner (A : Mat α (m + 1) (n + 1)) : α :=
  A 0 0

def leftColumn (A : Mat α (m + 1) (n + 1)) : Vec α m :=
  Vector.ofFn fun i => A i.succ 0

def core (A : Mat α (m + 1) (n + 1)) : Mat α m n :=
  ofFn fun i j => A i.succ j.succ

def block (a : α) (r : Vec α n) (l : Vec α m) (B : Mat α m n) : Mat α (m + 1) (n + 1) :=
  ofFn fun i j => Fin.cases (Fin.cases a r j) (fun i => Fin.cases (l i) (B i) j) i

def firstRow (A : Mat α (m + 1) n) : Vec α n :=
  A.row 0

def lowerRows (A : Mat α (m + 1) n) : Mat α m n :=
  ofFn fun i j => A i.succ j

def consRow (x : Vec α n) (A : Mat α m n) : Mat α (m + 1) n :=
  ofFn fun i j => Fin.cases (x j) (fun i => A i j) i

def outer [Mul α] (x : Vec α m) (y : Vec α n) : Mat α m n :=
  ofFn fun i j => x i * y j

def column (x : Vec α n) : Mat α n 1 :=
  ofFn fun i _ => x i

def firstColumn (A : Mat α m (n + 1)) : Vec α m :=
  Vector.ofFn fun i => A i 0

@[simp] theorem topRow_entry (A : Mat α (m + 1) (n + 1)) (j : Fin n) :
    A.topRow.get j = A 0 j.succ := Vec.ofFn_entry ..

@[simp] theorem corner_eq (A : Mat α (m + 1) (n + 1)) : A.corner = A 0 0 := rfl

@[simp] theorem leftColumn_entry (A : Mat α (m + 1) (n + 1)) (i : Fin m) :
    A.leftColumn.get i = A i.succ 0 := Vec.ofFn_entry ..

@[simp] theorem core_entry (A : Mat α (m + 1) (n + 1)) (i : Fin m) (j : Fin n) :
    A.core i j = A i.succ j.succ := ofFn_entry ..

@[simp] theorem firstRow_entry (A : Mat α (m + 1) n) (j : Fin n) : A.firstRow.get j = A 0 j := rfl

@[simp] theorem lowerRows_entry (A : Mat α (m + 1) n) (i : Fin m) (j : Fin n) :
    A.lowerRows i j = A i.succ j := ofFn_entry ..

@[simp] theorem outer_entry [Mul α] (x : Vec α m) (y : Vec α n) (i : Fin m) (j : Fin n) :
    outer x y i j = x i * y j := ofFn_entry ..

@[simp] theorem column_entry (x : Vec α n) (i : Fin n) (j : Fin 1) : column x i j = x i :=
  ofFn_entry ..

@[simp] theorem firstColumn_entry (A : Mat α m (n + 1)) (i : Fin m) :
    A.firstColumn.get i = A i 0 := Vec.ofFn_entry ..

section

variable (a : α) (r : Vec α n) (l : Vec α m) (B : Mat α m n)

@[simp] theorem block_zero_zero : block a r l B 0 0 = a := by
  simp [block]

@[simp] theorem block_zero_succ (j : Fin n) : block a r l B 0 j.succ = r j := by
  simp [block]

@[simp] theorem block_succ_zero (i : Fin m) : block a r l B i.succ 0 = l i := by
  simp [block]

@[simp] theorem block_succ_succ (i : Fin m) (j : Fin n) : block a r l B i.succ j.succ = B i j := by
  simp [block]

end

@[simp] theorem consRow_zero (x : Vec α n) (A : Mat α m n) (j : Fin n) :
    consRow x A 0 j = x j := by
  simp [consRow]

@[simp] theorem consRow_succ (x : Vec α n) (A : Mat α m n) (i : Fin m) (j : Fin n) :
    consRow x A i.succ j = A i j := by
  simp [consRow]

end Mat

end KalmanFilter
