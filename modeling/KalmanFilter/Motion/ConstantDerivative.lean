import KalmanFilter.Evolution
import KalmanFilter.Filter.Process
import KalmanFilter.Measurement
import KalmanFilter.Motion.Interleave
import KalmanFilter.Motion.Taylor

/-! Motion in several independent dimensions, each with a constant highest
derivative. The state lists the values and derivatives dimension by dimension, or
derivative by derivative. -/

namespace KalmanFilter

variable {F : Precision → Type} {α : Type}

inductive Layout
  | byDimension
  | byDerivative
  deriving DecidableEq

namespace Mat

variable {d k m : Nat}

def blockDiagonal [Zero α] (f : Fin d → Mat α k k) : Mat α (d * k) (d * k) :=
  ofFn fun i j =>
    if rowOf i = rowOf j then f (rowOf i) (columnOf i) (columnOf j) else 0

def arrange (l : Layout) (k : Nat) (h : k ∣ m) (A : Mat α m m) : Mat α m m :=
  match l with
  | .byDimension => A
  | .byDerivative => ((A.interleave k h).transpose.interleave k h).transpose

def valueProjection [Zero α] [One α] (l : Layout) (d : Nat) (h : d ∣ m) : Mat α d m :=
  let E : Mat α d m := ofFn fun i j => if i.val = j.val then 1 else 0
  match l with
  | .byDimension => (E.transpose.interleave d h).transpose
  | .byDerivative => E

end Mat

structure ConstantDerivative (F : Precision → Type) where
  motion : Motion F
  layout : Layout
  dimension : Nat
  deviations : Fin dimension → Elem F motion.type

variable [Arithmetic F]

def Tensor.spread? (e : ElementType) (x : Tensor F) (d : Nat) : Fallible F (Fin d → Elem F e) :=
  match x.shape with
  | [] => .ok fun _ => Elem.cast e (x.get [])
  | [k] =>
    if k = d then .ok fun i => Elem.cast e (x.get [i.val])
    else if k = 1 then .ok fun _ => Elem.cast e (x.get [0])
    else refuse
  | _ => refuse

def Elem.toDatum : {e : ElementType} → Elem F e → Datum F
  | .real _, x => .real (Arithmetic.convert x)
  | .int64, i => .int i.toInt

namespace ConstantDerivative

def of (x : Tensor F) (d : Nat) (layout : Layout) (m : Motion F) :
    Fallible F (ConstantDerivative F) := do
  return ⟨m, layout, d, ← x.spread? m.type d⟩

variable (c : ConstantDerivative F)

def stateDimension : Fallible F (Number F) := do
  (← c.motion.values).mul (.int c.dimension)

def assemble (k : Int) {l : Nat}
    (blocks : Fallible F (Fin c.dimension → Mat (Elem F c.motion.type) l l)) :
    Fallible F (Tensor F) :=
  if c.dimension = 0 then
    match c.layout with
    | .byDimension =>
      .ok (TypedMat.tensor (m := 1) (n := 0) ⟨.real .single, .ofFn fun _ j => j.elim0⟩)
    | .byDerivative => refuse
  else do
    let A := Mat.blockDiagonal (← blocks)
    match c.layout with
    | .byDimension => return TypedMat.tensor ⟨c.motion.type, A⟩
    | .byDerivative =>
      if h : k.toNat ∣ c.dimension * l ∧ 0 < k ∧ 0 < l then
        return TypedMat.tensor ⟨c.motion.type, A.arrange .byDerivative k.toNat h.1⟩
      else refuse

def transition (elapsed : Datum F) : Fallible F (Tensor F) :=
  match c.motion.size? with
  | some k =>
    c.assemble k (l := k.toNat) do
      if 0 ≤ k then
        let A ← c.motion.transitionOf k.toNat elapsed
        return fun _ => A
      else refuse
  | none => c.assemble 0 (l := 0) refuse

def noise (elapsed : Datum F) : Fallible F (Tensor F) :=
  match c.motion.size?, c.motion.expected.int? with
  | some k, some above =>
    c.assemble k (l := Motion.reach k above) do
      let blocks ← sequence fun i : Fin c.dimension =>
        c.motion.noiseOf k above (c.deviations i).toDatum elapsed
      return fun i => blocks i
  | _, _ => c.assemble 0 (l := 0) refuse

def projection : Fallible F ((n : Nat) × Mat (Elem F c.motion.type) c.dimension n) :=
  match c.motion.size? with
  | some k =>
    if (0 ≤ k ∨ c.dimension = 0) ∧ ¬(c.layout = .byDimension ∧ c.dimension = 0) then
      .ok ⟨c.dimension * k.toNat, Mat.valueProjection c.layout c.dimension (Nat.dvd_mul_right _ _)⟩
    else refuse
  | none => refuse

def projectionTensor : Fallible F (Tensor F) := do
  let ⟨_, H⟩ ← c.projection
  return TypedMat.tensor ⟨c.motion.type, H⟩

def measure (time : Fallible F (F .double)) (value deviation : Argument F) :
    Fallible F (Measurement F) := do
  let s ← (← deviation.toTensorOf c.motion.type).spread? c.motion.type c.dimension
  let z ← value.toTensorOf c.motion.type
  let H ← c.projectionTensor
  let R : Mat (Elem F c.motion.type) c.dimension c.dimension :=
    Mat.diagonal (Vector.ofFn fun i => s i * s i)
  Measurement.of (← time) z H (TypedMat.tensor ⟨c.motion.type, R⟩)

def evolution (previous : Datum F) (state : Tensor F) (time : Datum F) :
    Fallible F (Evolution F) := do
  let now ← time.toNumber
  let elapsed := (← now.sub (← previous.toNumber)).toDatum
  let A := (← c.transition elapsed).toType state.type
  let Q := (← c.noise elapsed).toType state.type
  let x ← A.product? state
  Evolution.of (← now.toReal) x A Q

def process : Process F :=
  fun _ previous state time => do
    return .evolution (← c.evolution (.real previous) state (.real time))

def linearProcess : LinearProcess F :=
  fun _ previous time => do
    let elapsed := Datum.real (time - previous)
    return ⟨← c.transition elapsed, ← c.noise elapsed, none⟩

end ConstantDerivative

end KalmanFilter
