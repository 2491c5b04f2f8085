import KalmanFilter.Scalar

namespace KalmanFilter

variable {α β : Type} {k l m n : Nat}

def total [Zero α] [Add α] (f : Fin n → α) : α :=
  Fin.foldl n (fun s i => s + f i) 0

abbrev Vec (α : Type) (n : Nat) := Vector α n

namespace Vec

instance : CoeFun (Vec α n) fun _ => Fin n → α := ⟨Vector.get⟩

@[simp] theorem ofFn_entry (f : Fin n → α) (i : Fin n) : Vector.get (.ofFn f) i = f i :=
  Vector.getElem_ofFn i.isLt

@[simp] theorem map_entry (f : α → β) (x : Vec α n) (i : Fin n) : (x.map f).get i = f (x i) :=
  Vector.getElem_map f i.isLt

@[simp] theorem add_entry [Add α] (x y : Vec α n) (i : Fin n) : (x + y).get i = x i + y i :=
  Vector.getElem_add x y i i.isLt

@[simp] theorem sub_entry [Sub α] (x y : Vec α n) (i : Fin n) : (x - y).get i = x i - y i :=
  Vector.getElem_sub x y i i.isLt

@[simp] theorem smul_entry [Mul α] (a : α) (x : Vec α n) (i : Fin n) :
    (a * x).get i = a * x i :=
  Vector.getElem_hmul a x i i.isLt

@[simp] theorem replicate_entry (a : α) (i : Fin n) : (Vector.replicate n a).get i = a :=
  Vector.getElem_replicate i.isLt

@[simp] theorem reverse_entry (x : Vec α n) (i : Fin n) : x.reverse.get i = x i.rev := by
  show x.reverse[i.val] = x[i.rev.val]
  rw [Vector.getElem_reverse i.isLt]
  congr 1
  simp only [Fin.val_rev]
  omega

theorem ext {x y : Vec α n} (h : ∀ i, x i = y i) : x = y :=
  Vector.ext fun i hi => h ⟨i, hi⟩

def dot [Zero α] [Add α] [Mul α] (x y : Vec α n) : α :=
  total fun i => x i * y i

def norm [Scalar α] : {n : Nat} → Vec α n → α
  | 1, x => Scalar.abs (x 0)
  | _, x => Scalar.sqrt (x.dot x)

def cons (a : α) (x : Vec α n) : Vec α (n + 1) :=
  Vector.ofFn (Fin.cases a x)

@[simp] theorem cons_zero (a : α) (x : Vec α n) : (cons a x).get 0 = a :=
  ofFn_entry ..

@[simp] theorem cons_succ (a : α) (x : Vec α n) (i : Fin n) : (cons a x).get i.succ = x i :=
  ofFn_entry ..

end Vec

structure Mat (α : Type) (m n : Nat) where
  rows : Vector (Vector α n) m

namespace Mat

def entry (A : Mat α m n) (i : Fin m) (j : Fin n) : α :=
  A.rows i j

instance : CoeFun (Mat α m n) fun _ => Fin m → Fin n → α := ⟨entry⟩

def ofFn (f : Fin m → Fin n → α) : Mat α m n :=
  ⟨Vector.ofFn fun i => Vector.ofFn (f i)⟩

@[simp] theorem ofFn_entry (f : Fin m → Fin n → α) (i : Fin m) (j : Fin n) :
    ofFn f i j = f i j := by
  simp [ofFn, entry]

@[ext] theorem ext {A B : Mat α m n} (h : ∀ i j, A i j = B i j) : A = B := by
  cases A with
  | mk a =>
    cases B with
    | mk b =>
      congr 1
      exact Vec.ext fun i => Vec.ext fun j => h i j

def square (a b c d : α) : Mat α 2 2 :=
  ⟨#v[#v[a, b], #v[c, d]]⟩

def row (A : Mat α m n) (i : Fin m) : Vec α n :=
  A.rows i

def map (f : α → β) (A : Mat α m n) : Mat β m n :=
  ofFn fun i j => f (A i j)

def transpose (A : Mat α m n) : Mat α n m :=
  ofFn fun i j => A j i

def any (p : Fin m → Fin n → Bool) : Bool :=
  (List.finRange m).any fun i => (List.finRange n).any (p i)

instance [Add α] : Add (Mat α m n) := ⟨fun A B => ofFn fun i j => A i j + B i j⟩

instance [Sub α] : Sub (Mat α m n) := ⟨fun A B => ofFn fun i j => A i j - B i j⟩

instance [Mul α] : HMul α (Mat α m n) (Mat α m n) := ⟨fun a A => ofFn fun i j => a * A i j⟩

instance [Zero α] [Add α] [Mul α] : HMul (Mat α m n) (Mat α n l) (Mat α m l) :=
  ⟨fun A B => ofFn fun i j => total fun k => A i k * B k j⟩

instance [Zero α] [Add α] [Mul α] : HMul (Mat α m n) (Vec α n) (Vec α m) :=
  ⟨fun A x => Vector.ofFn fun i => total fun k => A i k * x k⟩

def identity [Zero α] [One α] : Mat α n n :=
  ofFn fun i j => if i = j then 1 else 0

def diagonal [Zero α] (x : Vec α n) : Mat α n n :=
  ofFn fun i j => if i = j then x i else 0

def trace [Zero α] [Add α] (A : Mat α n n) : α :=
  total fun i => A i i

def symmetrize [Scalar α] (A : Mat α n n) : Mat α n n :=
  (0.5 : α) * (A + A.transpose)

@[simp] theorem map_entry (f : α → β) (A : Mat α m n) (i : Fin m) (j : Fin n) :
    map f A i j = f (A i j) := ofFn_entry ..

@[simp] theorem transpose_entry (A : Mat α m n) (i : Fin n) (j : Fin m) :
    A.transpose i j = A j i := ofFn_entry ..

@[simp] theorem add_entry [Add α] (A B : Mat α m n) (i : Fin m) (j : Fin n) :
    (A + B) i j = A i j + B i j := ofFn_entry ..

@[simp] theorem sub_entry [Sub α] (A B : Mat α m n) (i : Fin m) (j : Fin n) :
    (A - B) i j = A i j - B i j := ofFn_entry ..

@[simp] theorem smul_entry [Mul α] (a : α) (A : Mat α m n) (i : Fin m) (j : Fin n) :
    (a * A) i j = a * A i j := ofFn_entry ..

@[simp] theorem mul_entry [Zero α] [Add α] [Mul α] (A : Mat α m n) (B : Mat α n l) (i : Fin m)
    (j : Fin l) : (A * B) i j = total fun k => A i k * B k j := ofFn_entry ..

@[simp] theorem mulVec_entry [Zero α] [Add α] [Mul α] (A : Mat α m n) (x : Vec α n) (i : Fin m) :
    (A * x).get i = total fun k => A i k * x k := Vec.ofFn_entry ..

@[simp] theorem transpose_transpose (A : Mat α m n) : A.transpose.transpose = A := by
  ext; simp

end Mat

end KalmanFilter
