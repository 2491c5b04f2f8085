import KalmanFilter.Motion.ConstantDerivative

namespace KalmanFilter

variable {F : Precision → Type}

inductive MotionChoice (F : Precision → Type)
  | counted (c : ConstantDerivative F)
  | uncounted (m : Motion F) (layout : Layout) {n : Nat} (deviations : Vec (Elem F m.type) n)

namespace MotionChoice

variable [Arithmetic F]

def of (deviations : Argument F) (dimension : Datum F) (layout : Layout) (m : Motion F) :
    Fallible F (MotionChoice F) := do
  let x ← deviations.toTensorOf m.type
  match dimension with
  | .int d =>
    if d = -1 then
      match hx : x.shape with
      | [_] => return .uncounted m layout ((x.vec hx).toType m.type)
      | _ => refuse
    else if 0 ≤ d ∧ d ≤ Int64.maxValue.toInt then
      return .counted (← ConstantDerivative.of x d.toNat layout m)
    else refuse
  | _ => refuse

def model : MotionChoice F → ConstantDerivative F
  | .counted c => c
  | .uncounted m layout _ => ⟨m, layout, 0, fun i => i.elim0⟩

def stateDimension : MotionChoice F → Fallible F (Number F)
  | .counted c => c.stateDimension
  | .uncounted m _ _ => do (← m.values).mul (.int (-1))

def deviations : MotionChoice F → Tensor F
  | .counted c => TypedVec.tensor ⟨c.motion.type, Vector.ofFn c.deviations⟩
  | .uncounted m _ x => TypedVec.tensor ⟨m.type, x⟩

def hasRoom (c : ConstantDerivative F) : Bool :=
  c.dimension * (c.dimension * (c.motion.size?.getD 0).toNat) ≤ Nat.pow 2 40

def projection : MotionChoice F → Fallible F (Tensor F)
  | .counted c => if hasRoom c then c.projectionTensor else refuse
  | .uncounted _ _ _ => refuse

def measure (time : Fallible F (F .double)) (value deviation : Argument F) :
    MotionChoice F → Fallible F (Measurement F)
  | .counted c => if hasRoom c then c.measure time value deviation else refuse
  | .uncounted m _ _ => do
    let s ← deviation.toTensorOf m.type
    if s.shape.length = 1 then
      let _ ← value.toTensorOf m.type
      refuse
    else refuse

end MotionChoice

end KalmanFilter
