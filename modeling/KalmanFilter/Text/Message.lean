import KalmanFilter.Text.Written

namespace KalmanFilter

def ElementType.name : ElementType → String
  | .real .double => "float64"
  | .real .single => "float32"
  | .int64 => "int64"

def Datum.Kind.className (kind : Datum.Kind) : String :=
  "<class '" ++ kind.name ++ "'>"

namespace Failure

def shapeFor (what : String) (shape : Shape) (owner : String) (size : Nat) : String :=
  what ++ " shape " ++ shape.text ++ " is invalid for a " ++ owner ++ " of size " ++ toString size

def message? : Failure Machine → Option String
  | .stateRank s => some ("State should be a vector, got shape " ++ s.text)
  | .covarianceShape s => some ("Covariance should be a square matrix, got shape " ++ s.text)
  | .covarianceOrder n k =>
    some ("State dimension (" ++ toString n ++ ") does not match covariance order (" ++
      toString k ++ ")")
  | .foreignInitial kind =>
    some ("Initial estimate should be a ProcessEstimate, got " ++ kind.className)
  | .integerInitial =>
    some ("Initial estimate should be floating point, got torch." ++ ElementType.int64.name)
  | .foreignDecomposer d => some ("Invalid decomposer: " ++ d.written)
  | .foreignProcess d => some ("Invalid process model: " ++ d.written)
  | .foreignLinearProcess d => some ("Invalid linear process: " ++ d.written)
  | .foreignEvolution kind =>
    some ("Process model should return a NonLinearEvolution, got " ++ kind.className)
  | .controlIncomplete => some "Control matrix and command should be given together"
  | .controlShape b a u =>
    some ("Control matrix shape " ++ b.text ++ " is inconsistent with transition matrix " ++
      a.text ++ " and command " ++ u.text)
  | .pointShape s t => some ("Point shape " ++ s.text ++ " does not match state shape " ++ t.text)
  | .valueRank s => some ("Measured value should be a vector, got shape " ++ s.text)
  | .measurementMatrixShape s n => some (shapeFor "Measurement matrix" s "measure" n)
  | .measurementCovarianceShape s n => some (shapeFor "Measurement covariance" s "measure" n)
  | .predictedRank s => some ("Predicted state should be a vector, got shape " ++ s.text)
  | .transitionShape s n => some (shapeFor "State transition matrix" s "state" n)
  | .noiseShape s n => some (shapeFor "Process noise" s "state" n)
  | .observedDimension k n =>
    some ("Measurement observes a state of size " ++ toString k ++ ", expected " ++ toString n)
  | .evolutionDimension k n =>
    some ("Process evolution has a state of size " ++ toString k ++ ", expected " ++ toString n)
  | .notSquare s => some ("Expected a square matrix, got shape " ++ s.text)
  | .outdated t now =>
    some ("Measurement at t=" ++ Text.shortest t ++ " is older than the current estimate (t=" ++
      Text.shortest now ++ ")")
  | .notSymmetric => some "Matrix is not symmetric"
  | .notPositiveDefinite .matrix => some "Matrix is not positive definite"
  | .notPositiveDefinite .covariance => some "Covariance is not positive definite"
  | .singular => some "Matrix is singular"
  | .refused | .overflow | .divisionByZero => none

end Failure

end KalmanFilter
