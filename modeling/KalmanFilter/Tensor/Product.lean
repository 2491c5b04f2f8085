import KalmanFilter.Tensor.Basic

namespace KalmanFilter

variable {F : Precision → Type}

/-- The type of a sum or product of two tensors. Floats absorb whole numbers, and the larger
precision the smaller one; a tensor without dimensions gives way to one with dimensions. -/
def ElementType.promote (s t : ElementType) (sHasShape tHasShape : Bool) : ElementType :=
  match s, t with
  | .int64, .int64 => .int64
  | .real p, .int64 => .real p
  | .int64, .real q => .real q
  | .real p, .real q =>
    if p = q then .real p
    else if sHasShape = tHasShape then .real .double
    else if sHasShape then .real p
    else .real q

namespace Tensor

variable [Arithmetic F]

def get (t : Tensor F) (i : List Nat) : Elem F t.type :=
  t.entries[t.shape.offset i]?.getD 0

def ofIndex (e : ElementType) (shape : Shape) (f : List Nat → Elem F e) : Tensor F :=
  ⟨e, shape, Vector.ofFn fun k => f (shape.index k)⟩

def zipWith? (op : (e : ElementType) → Elem F e → Elem F e → Elem F e) (a b : Tensor F) :
    Fallible F (Tensor F) :=
  match a.shape.broadcast? b.shape with
  | some shape =>
    let e := a.type.promote b.type (!a.shape.isEmpty) (!b.shape.isEmpty)
    .ok <| ofIndex e shape fun i =>
      op e (Elem.cast e (a.get (a.shape.project i))) (Elem.cast e (b.get (b.shape.project i)))
  | none => refuse

def add? (a b : Tensor F) : Fallible F (Tensor F) :=
  zipWith? (fun _ x y => x + y) a b

def mul? (a b : Tensor F) : Fallible F (Tensor F) :=
  zipWith? (fun _ x y => x * y) a b

def stackedProduct? (a b : Tensor F) : Fallible F (Tensor F) :=
  match a.shape.stack?, b.shape.stack? with
  | some (s, m, k), some (t, k', n) =>
    match s.broadcast? t with
    | some stack =>
      if k = k' then
        .ok <| ofIndex a.type (stack ++ [m, n]) fun i =>
          let place := i.take stack.length
          let r := i.getD stack.length 0
          let c := i.getD (stack.length + 1) 0
          total fun j : Fin k =>
            a.get (s.project place ++ [r, j.val]) *
              Elem.cast a.type (b.get (t.project place ++ [j.val, c]))
      else refuse
    | none => refuse
  | _, _ => refuse

/-- The matrix product. A vector counts as a row on the left and as a column on the right, and the
dimension of size one that this adds is dropped from the result. -/
def product? (a b : Tensor F) : Fallible F (Tensor F) :=
  if a.type ≠ b.type then refuse
  else
    match ha : a.shape, hb : b.shape with
    | [], _ => refuse
    | _, [] => refuse
    | [_, k], [k'] =>
      if h : k' = k then
        .ok (TypedVec.tensor ⟨a.type, (a.mat ha).toType a.type * (b.vec (h ▸ hb)).toType a.type⟩)
      else refuse
    | [k], [k'] => do
      let c ← (← a.reshape? [1, k]).stackedProduct? (← b.reshape? [k', 1])
      c.reshape? []
    | [k], t => do
      let c ← (← a.reshape? [1, k]).stackedProduct? b
      c.reshape? (t.dropLast.dropLast ++ [t.getLastD 0])
    | s, [k] => do
      let c ← a.stackedProduct? (← b.reshape? [k, 1])
      c.reshape? s.dropLast
    | _, _ => a.stackedProduct? b

end Tensor

end KalmanFilter
