import KalmanFilter.Tensor.Product

namespace KalmanFilter

variable {F : Precision → Type}

structure Evolution (F : Precision → Type) where
  time : F .double
  dimension : Nat
  state : TypedVec F dimension
  transition : TypedMat F dimension dimension
  noise : TypedMat F dimension dimension

def Evolution.of (time : F .double) (state transition noise : Tensor F) :
    Fallible F (Evolution F) :=
  match hs : state.shape with
  | [n] =>
    if ha : transition.shape = [n, n] then
      if hq : noise.shape = [n, n] then
        .ok ⟨time, n, state.vec hs, transition.mat ha, noise.mat hq⟩
      else .error (.noiseShape noise.shape n)
    else .error (.transitionShape transition.shape n)
  | s => .error (.predictedRank s)

structure Control (F : Precision → Type) where
  matrix : Tensor F
  command : Tensor F

structure LinearEvolution (F : Precision → Type) where
  transition : Tensor F
  noise : Tensor F
  control : Option (Control F)

namespace LinearEvolution

def of (transition noise : Tensor F) (matrix command : Option (Tensor F)) :
    Fallible F (LinearEvolution F) :=
  match matrix, command with
  | none, none => .ok ⟨transition, noise, none⟩
  | some b, some u =>
    match transition.shape, u.shape with
    | n :: _, c :: _ =>
      if b.shape = [n, c] then .ok ⟨transition, noise, some ⟨b, u⟩⟩
      else .error (.controlShape b.shape transition.shape u.shape)
    | _, _ => refuse
  | _, _ => .error .controlIncomplete

/-- Everything but the noise is computed in the type of the state. The time is asked for once the
products are known. -/
def predict [Arithmetic F] (x : LinearEvolution F) (time : Fallible F (F .double))
    (state : Tensor F) : Fallible F (Evolution F) := do
  let a := x.transition.toType state.type
  let free ← a.product? state
  let predicted ← match x.control with
    | none => .ok free
    | some u => do free.add? (← (u.matrix.toType state.type).product? (u.command.toType state.type))
  Evolution.of (← time) predicted a x.noise

end LinearEvolution

end KalmanFilter
