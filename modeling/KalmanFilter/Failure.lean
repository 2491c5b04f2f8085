import KalmanFilter.Datum
import KalmanFilter.Shape

namespace KalmanFilter

inductive FailureClass
  | filtering
  | configuration
  | dimensionMismatch
  | measurementOrder
  | matrixDecomposition
  | nonPositiveDefinite
  | singular
  | nonSymmetric
  deriving DecidableEq

def FailureClass.all : List FailureClass :=
  [.filtering, .configuration, .dimensionMismatch, .measurementOrder, .matrixDecomposition,
    .nonPositiveDefinite, .singular, .nonSymmetric]

def FailureClass.parent? : FailureClass → Option FailureClass
  | .filtering => none
  | .configuration | .dimensionMismatch | .measurementOrder | .matrixDecomposition =>
    some .filtering
  | .nonPositiveDefinite | .singular | .nonSymmetric => some .matrixDecomposition

inductive Definite
  | matrix
  | covariance
  deriving DecidableEq

inductive Failure (F : Precision → Type)
  | stateRank (shape : Shape)
  | covarianceShape (shape : Shape)
  | covarianceOrder (state order : Nat)
  | foreignInitial (kind : Datum.Kind)
  | integerInitial
  | foreignDecomposer (value : Datum F)
  | foreignProcess (value : Datum F)
  | foreignLinearProcess (value : Datum F)
  | foreignEvolution (kind : Datum.Kind)
  | controlIncomplete
  | controlShape (control transition command : Shape)
  | pointShape (point state : Shape)
  | valueRank (shape : Shape)
  | measurementMatrixShape (shape : Shape) (size : Nat)
  | measurementCovarianceShape (shape : Shape) (size : Nat)
  | predictedRank (shape : Shape)
  | transitionShape (shape : Shape) (size : Nat)
  | noiseShape (shape : Shape) (size : Nat)
  | observedDimension (observed expected : Nat)
  | evolutionDimension (evolved expected : Nat)
  | notSquare (shape : Shape)
  | outdated (time current : F .double)
  | notSymmetric
  | notPositiveDefinite (which : Definite)
  | singular
  | refused
  | overflow
  | divisionByZero

def Failure.class? {F : Precision → Type} : Failure F → Option FailureClass
  | .stateRank _ | .covarianceShape _ | .covarianceOrder _ _ | .foreignInitial _
  | .integerInitial | .foreignDecomposer _ | .foreignProcess _ | .foreignLinearProcess _
  | .foreignEvolution _ | .controlIncomplete => some .configuration
  | .controlShape _ _ _ | .pointShape _ _ | .valueRank _ | .measurementMatrixShape _ _
  | .measurementCovarianceShape _ _ | .predictedRank _ | .transitionShape _ _ | .noiseShape _ _
  | .observedDimension _ _ | .evolutionDimension _ _ | .notSquare _ => some .dimensionMismatch
  | .outdated _ _ => some .measurementOrder
  | .notSymmetric => some .nonSymmetric
  | .notPositiveDefinite _ => some .nonPositiveDefinite
  | .singular => some .singular
  | .refused | .overflow | .divisionByZero => none

abbrev Fallible (F : Precision → Type) := Except (Failure F)

def refuse {F : Precision → Type} {α : Type} : Fallible F α :=
  .error .refused

def orRefuse {F : Precision → Type} {α : Type} : Option α → Fallible F α
  | some a => .ok a
  | none => refuse

end KalmanFilter
