import KalmanFilter.Filter.Process
import KalmanFilter.Model.Ballistic

namespace KalmanFilter

variable {F : Precision → Type} [Arithmetic F]

structure Pendulum (F : Precision → Type) where
  ratio : F .double
  deviation : Datum F
  step : Datum F

structure Swing (F : Precision → Type) (e : ElementType) where
  angle : F .double
  velocity : F .double
  jacobian : Mat (Elem F e) 2 2

def Mat.storeSquare (e : ElementType) (a b c d : Number F) : Fallible F (Mat (Elem F e) 2 2) := do
  return Mat.square (← a.store e) (← b.store e) (← c.store e) (← d.store e)

namespace Pendulum

def of (length deviation step : Datum F) : Fallible F (Pendulum F) := do
  return ⟨← (Number.real 9.81).div (← length.toNumber), deviation, step⟩

variable {e : ElementType}

def swing (p : Pendulum F) (h : F .double) (angle : F .single) (s : Swing F e) :
    Fallible F (Swing F e) := do
  let sine : F .double := Arithmetic.widen (Scalar.sin angle)
  let cosine : F .double := Arithmetic.widen (Scalar.cos angle)
  let velocity := s.velocity - h * p.ratio * sine
  let square ← Number.realPow h 2
  let J ← Mat.storeSquare e (.real (1 - square * p.ratio * cosine)) (.real h)
    (.real (-h * p.ratio * cosine)) (.real 1)
  return ⟨s.angle + h * velocity, velocity, J * s.jacobian⟩

def swings (p : Pendulum F) (h : F .double) : Nat → F .single → Swing F e → Fallible F (Swing F e)
  | 0, _, s => .ok s
  | n + 1, angle, s => do
    let s ← p.swing h angle s
    p.swings h n (Arithmetic.round s.angle) s

def stepCount (p : Pendulum F) (elapsed : Number F) : Fallible F Nat := do
  let n ← Number.round (← elapsed.div (← p.step.toNumber))
  return (max 1 n).toNat

def start (state : Tensor F) : Fallible F (F .single × Swing F state.type) :=
  match state.shape with
  | n :: rest =>
    if 2 ≤ n ∧ Shape.size rest = 1 then
      let entry (i : Nat) := state.get (i :: rest.map fun _ => 0)
      .ok (Elem.cast (.real .single) (entry 0),
        ⟨(entry 0).toDouble, (entry 1).toDouble, Mat.identity⟩)
    else refuse
  | [] => refuse

def propagate (p : Pendulum F) (state : Tensor F) (elapsed : Datum F) :
    Fallible F (TypedVec F 2 × TypedMat F 2 2) := do
  let (angle, s) ← start state
  let elapsed ← elapsed.toNumber
  let n ← p.stepCount elapsed
  let h ← elapsed.div (.int n)
  let s ← p.swings h n angle s
  let x ← (Number.real s.angle).store state.type
  let v ← (Number.real s.velocity).store state.type
  return (⟨state.type, #v[x, v]⟩, ⟨state.type, s.jacobian⟩)

def noise (p : Pendulum F) (e : ElementType) (elapsed : Number F) :
    Fallible F (Mat (Elem F e) 2 2) := do
  let variance ← (← p.deviation.toNumber).pow 2
  let third ← (Number.real (← (← elapsed.pow 3).div (.int 3))).mul variance
  let half ← (Number.real (← (← elapsed.pow 2).div (.int 2))).mul variance
  Mat.storeSquare e third half half (← elapsed.mul variance)

def evolution (p : Pendulum F) (previous : Datum F) (state : Tensor F) (time : Datum F) :
    Fallible F (Evolution F) := do
  let now ← time.toNumber
  let elapsed ← now.sub (← previous.toNumber)
  let (x, A) ← p.propagate state elapsed.toDatum
  let Q ← p.noise state.type elapsed
  Evolution.of (← now.toReal) x.tensor A.tensor (TypedMat.tensor ⟨state.type, Q⟩)

def process (p : Pendulum F) : Process F :=
  fun _ previous state time => do
    return .evolution (← p.evolution (.real previous) state (.real time))

end Pendulum

def Process.eulerPendulum (step ratio : Datum F) (noise : Argument F) : Process F :=
  fun _ _ state time => do
    let x ← state.coordinates 2
    let angle := x[0]
    let dt ← (← step.toNumber).toReal
    if Scalar.same angle angle && !Arithmetic.isFinite angle then refuse
    let r ← (← ratio.toNumber).toReal
    let y : Vec (F .double) 2 := #v[angle + x[1] * dt, x[1] - r * Scalar.sin angle * dt]
    let A : Mat (F .double) 2 2 := Mat.square 1 dt (-r * Scalar.cos angle * dt) 1
    return .evolution (← Evolution.of time (.doubles y) (.doubleMatrix A) (← noise.toTensor))

end KalmanFilter
