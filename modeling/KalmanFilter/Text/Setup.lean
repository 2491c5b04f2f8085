import KalmanFilter.Filter.Setup
import KalmanFilter.Text.Written

namespace KalmanFilter

def EstimatorKind.name : EstimatorKind → String
  | .extended => "ExtendedKalmanEstimator"
  | .linear => "LinearKalmanEstimator"

def DecomposerChoice.text : DecomposerChoice Machine → String
  | .cholesky d =>
    "CholeskyDecomposer(relative_symmetry_threshold=" ++ d.relativeSymmetry.shown ++
      ", absolute_positivity_threshold=" ++ d.absolutePositivity.shown ++ ")"
  | .lu d => "LUDecomposer(singularity_threshold=" ++ d.singularity.shown ++ ")"
  | .plain => "SolveDecomposer()"
  | .foreign value => value.written

def Setup.text (s : Setup Machine) (now : Estimate Machine) : String :=
  s.kind.name ++ "(dimension=" ++ toString now.dimension ++ ", time=" ++ Text.shortest now.time ++
    ", decomposer=" ++ s.decomposer.text ++ ")"

end KalmanFilter
