import KalmanFilter.Number
import KalmanFilter.Matrix.Flat

namespace KalmanFilter

variable {F : Precision → Type}

structure Tensor (F : Precision → Type) where
  type : ElementType
  shape : Shape
  entries : Vector (Elem F type) shape.size

structure TypedVec (F : Precision → Type) (n : Nat) where
  type : ElementType
  entries : Vec (Elem F type) n

structure TypedMat (F : Precision → Type) (m n : Nat) where
  type : ElementType
  entries : Mat (Elem F type) m n

namespace TypedVec

variable {n : Nat}

def tensor (x : TypedVec F n) : Tensor F :=
  ⟨x.type, [n], x.entries.cast (Shape.eq_size_single n)⟩

variable [Arithmetic F]

def toType (e : ElementType) (x : TypedVec F n) : Vec (Elem F e) n :=
  x.entries.map (Elem.cast e)

end TypedVec

namespace TypedMat

variable {m n : Nat}

def tensor (A : TypedMat F m n) : Tensor F :=
  ⟨A.type, [m, n], A.entries.flatten.cast (Shape.eq_size_pair m n)⟩

variable [Arithmetic F]

def toType (e : ElementType) (A : TypedMat F m n) : Mat (Elem F e) m n :=
  A.entries.map (Elem.cast e)

def isSymmetric (A : TypedMat F n n) : Bool :=
  !Mat.any fun i j => !Elem.same (A.entries i j) (A.entries j i)

end TypedMat

namespace Tensor

def vec (t : Tensor F) {n : Nat} (h : t.shape = [n]) : TypedVec F n :=
  ⟨t.type, t.entries.cast (by simp [h])⟩

def mat (t : Tensor F) {m n : Nat} (h : t.shape = [m, n]) : TypedMat F m n :=
  ⟨t.type, .ofFlat (t.entries.cast (by simp [h]))⟩

def square? (t : Tensor F) : Option ((n : Nat) × TypedMat F n n) :=
  match ht : t.shape with
  | [m, n] => if h : m = n then some ⟨n, t.mat (h ▸ ht)⟩ else none
  | _ => none

def scalar {e : ElementType} (a : Elem F e) : Tensor F :=
  ⟨e, [], #v[a]⟩

def doubles {n : Nat} (x : Vec (F .double) n) : Tensor F :=
  TypedVec.tensor ⟨.real .double, x⟩

def doubleMatrix {m n : Nat} (A : Mat (F .double) m n) : Tensor F :=
  TypedMat.tensor ⟨.real .double, A⟩

def reshape? (t : Tensor F) (shape : Shape) : Fallible F (Tensor F) :=
  if h : t.shape.size = shape.size then .ok ⟨t.type, shape, t.entries.cast h⟩ else refuse

def resize? (t : Tensor F) (sizes : List Int) : Fallible F (Tensor F) := do
  t.reshape? (← orRefuse (Shape.infer? t.shape.size sizes))

variable [Arithmetic F]

def toType (e : ElementType) (t : Tensor F) : Tensor F :=
  ⟨e, t.shape, t.entries.map (Elem.cast e)⟩

def item (t : Tensor F) : Fallible F (Elem F t.type) :=
  match t.entries.toArray with
  | #[a] => .ok a
  | _ => refuse

end Tensor

end KalmanFilter
