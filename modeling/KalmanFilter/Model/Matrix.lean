import KalmanFilter.Filter.Process
import KalmanFilter.Tensor.OfDatum

namespace KalmanFilter

variable {F : Precision → Type} [Arithmetic F]

def Process.stationary (noise : Argument F) : Process F :=
  fun _ _ state time => do
    let identity : Mat (F .double) (state.shape.headD 0) (state.shape.headD 0) := Mat.identity
    return .evolution (← Evolution.of time state (.doubleMatrix identity) (← noise.toTensor))

def Process.fixed (transition : Tensor F) (noise : Argument F) : Process F :=
  fun _ _ state time => do
    let x ← transition.product? state
    return .evolution (← Evolution.of time x transition (← noise.toTensor))

abbrev Line (F : Precision → Type) := F .double → Fallible F (Reply F)

def scriptLine {α : Type} (lines : List α) (k : Nat) : Fallible F α :=
  orRefuse lines[min k (lines.length - 1)]?

def Process.scripted (lines : List (Line F)) : Process F :=
  fun k _ _ time => do (← scriptLine lines k) time

def LinearProcess.scripted (lines : List (Fallible F (LinearEvolution F))) : LinearProcess F :=
  fun k _ _ => do ← scriptLine lines k

end KalmanFilter
