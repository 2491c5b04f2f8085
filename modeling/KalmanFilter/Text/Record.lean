import KalmanFilter.Attempt
import KalmanFilter.Text.Float

namespace KalmanFilter

def Level.name : Level → String
  | .debug => "DEBUG"
  | .warning => "WARNING"

def Logger.name : Logger → String
  | .extended => "torch_ekf.extended"
  | .estimator => "torch_ekf.kalman_estimator"
  | .decomposition => "torch_ekf.decomposition"

def Rejection.text : Rejection → String
  | .nonSymmetric => "Cholesky decomposition rejected a non-symmetric matrix"
  | .nonPositiveDefinite => "Cholesky decomposition rejected a non positive definite matrix"
  | .singular => "LU decomposition rejected a singular matrix"

namespace Record

def amount (x : Float) : String :=
  Text.scientific 6 x

def title {F : Precision → Type} : Record F → String
  | .update _ _ => "Update"
  | .step _ _ _ => "Estimation step"
  | .rejection reason => reason.text

def text (r : Record Machine) : String :=
  match r with
  | .update time innovation =>
    r.title ++ " at t=" ++ Text.shortest time ++ ": |innovation|=" ++ amount innovation
  | .step time predicted corrected =>
    r.title ++ " at t=" ++ Text.shortest time ++ ": trace(P⁻)=" ++ amount predicted ++
      ", trace(P)=" ++ amount corrected
  | .rejection _ => r.title

end Record

end KalmanFilter
