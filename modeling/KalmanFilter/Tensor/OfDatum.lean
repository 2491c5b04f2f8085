import KalmanFilter.Tensor.Basic

/-! Reading a tensor from nested lists. The shape is that of the first item at every
depth, and the other items have to follow it. A shape without entries is taken
before anything else is looked at. -/

namespace KalmanFilter

variable {F : Precision → Type}

def Shape.maxLength : Nat :=
  128

namespace Datum

def leadingShape? : Datum F → Option Shape
  | .list [] => some [0]
  | .list (d :: ds) => (leadingShape? d).map ((ds.length + 1) :: ·)
  | .text s => if s.isEmpty then some [0] else Option.none
  | _ => some []

variable [Arithmetic F] (e : ElementType)

mutual

def entriesIn : Shape → Datum F → Fallible F (List (Elem F e))
  | [], d => do return [← (← d.toNumber).store e]
  | n :: s, .list items => if items.length = n then entriesInAll s items else refuse
  | _ :: _, _ => refuse

def entriesInAll : Shape → List (Datum F) → Fallible F (List (Elem F e))
  | _, [] => .ok []
  | s, d :: ds => do return (← entriesIn s d) ++ (← entriesInAll s ds)

end

def toTensorOf (d : Datum F) : Fallible F (Tensor F) := do
  if d.kind = .text then refuse
  let shape ← orRefuse d.leadingShape?
  if Shape.maxLength < shape.length then refuse
  let entries ← if shape.size = 0 then .ok [] else entriesIn e shape d
  if h : entries.length = shape.size then .ok ⟨e, shape, ⟨entries.toArray, by simpa⟩⟩ else refuse

end Datum

inductive Argument (F : Precision → Type)
  | datum (d : Datum F)
  | tensor (t : Tensor F)

namespace Argument

variable [Arithmetic F]

def toTensorOf (e : ElementType) : Argument F → Fallible F (Tensor F)
  | .datum d => d.toTensorOf e
  | .tensor t => .ok (t.toType e)

def toTensor : Argument F → Fallible F (Tensor F)
  | .datum d => d.toTensorOf (.real .double)
  | .tensor t => .ok t

end Argument

end KalmanFilter
