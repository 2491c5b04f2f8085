import KalmanFilter.Filter.Process
import KalmanFilter.Matrix.Block
import KalmanFilter.Tensor.OfDatum

namespace KalmanFilter

variable {F : Precision → Type} [Arithmetic F]

def Tensor.coordinates (x : Tensor F) (n : Nat) : Fallible F (Vec (F .double) n) :=
  if h : x.shape = [n] then .ok ((x.vec h).toType (.real .double)) else refuse

def Process.cannonball (gravity : Datum F) (noise : Argument F) : Process F :=
  fun _ previous state time => do
    let x ← state.coordinates 4
    let g ← (← gravity.toNumber).toReal
    let dt := time - previous
    let place := x[0] + x[1] * dt
    let height := x[2] + x[3] * dt - 0.5 * g * dt * dt
    let A : Mat (F .double) 4 4 := Mat.ofFn fun i j =>
      if i = j then 1
      else if (i.val = 0 ∧ j.val = 1) ∨ (i.val = 2 ∧ j.val = 3) then dt
      else 0
    return .evolution (← Evolution.of time (.doubles #v[place, x[1], height, x[3] - g * dt])
      (.doubleMatrix A) (← noise.toTensor))

def LinearProcess.accelerated (acceleration deviation : Datum F) :
    Fallible F (LinearProcess F) := do
  let variance ← (← deviation.toNumber).pow 2
  return fun _ previous time => do
    let dt := time - previous
    let scaled (factor : F .double) (k : Nat) : Fallible F (F .double) := do
      (← (Number.real (factor * (← Number.realPow dt k))).mul variance).toReal
    let fourth ← scaled 0.25 4
    let third ← scaled 0.5 3
    let second ← scaled 1 2
    let push := 0.5 * (← Number.realPow dt 2)
    let u ← (Datum.list [acceleration]).toTensorOf (.real .double)
    LinearEvolution.of (.doubleMatrix (Mat.square 1 dt 0 1))
      (.doubleMatrix (Mat.square fourth third third second))
      (some (.doubleMatrix (Mat.column #v[push, dt])))
      (some u)

end KalmanFilter
