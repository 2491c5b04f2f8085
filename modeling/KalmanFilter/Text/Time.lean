import KalmanFilter.Tensor.OfDatum
import KalmanFilter.Text.Reading

namespace KalmanFilter

def Argument.toTime : Argument Machine → Fallible Machine Float
  | .datum (.text s) =>
    match Text.float? s with
    | some x => .ok x
    | none => refuse
  | .datum d => do (← d.toNumber).toReal
  | .tensor t => do return (← t.item).toDouble

end KalmanFilter
