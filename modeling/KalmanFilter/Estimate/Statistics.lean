import KalmanFilter.Estimate
import KalmanFilter.Matrix.Cholesky
import KalmanFilter.Tensor.OfDatum

namespace KalmanFilter

variable {F : Precision → Type} {α : Type} {n : Nat}

structure Whitened (α : Type) (n : Nat) where
  deviation : Vec α n
  solved : Vec α n
  factor : Mat α n n

namespace Whitened

variable [Scalar α]

def mahalanobisSquared (w : Whitened α n) : α :=
  w.deviation.dot w.solved

def mahalanobis (w : Whitened α n) : α :=
  Scalar.sqrt w.mahalanobisSquared

def logDeterminant (w : Whitened α n) : α :=
  (1 + 1) * total fun i => Scalar.log (w.factor i i)

def logLikelihood (constant : α) (w : Whitened α n) : α :=
  -0.5 * (constant + w.logDeterminant + w.mahalanobisSquared)

def likelihood (constant : α) (w : Whitened α n) : α :=
  Scalar.exp (w.logLikelihood constant)

def of? (state : Vec α n) (covariance : Mat α n n) (point : Vec α n) : Option (Whitened α n) :=
  covariance.cholesky?.map fun L =>
    let d := point - state
    ⟨d, (L.choleskySolve (.column d)).firstColumn, L⟩

end Whitened

namespace Estimate

variable [Arithmetic F]

def gaussianConstant (p : Precision) (n : Nat) : F p :=
  let turn : F .double := (1 + 1) * Arithmetic.pi
  let constant : F .double := Arithmetic.ofInt .double n * Scalar.log turn
  Arithmetic.convert constant

def whiten (x : Estimate F) (point : Argument F) :
    Fallible F ((p : Precision) × Whitened (F p) x.dimension) := do
  let point := (← point.toTensor).toType x.state.type
  if h : point.shape = [x.dimension] then
    match x.covariance.type with
    | .int64 => refuse
    | .real p =>
      let state := x.state.toType (.real p)
      match Whitened.of? state (x.covariance.toType (.real p)) ((point.vec h).toType (.real p)) with
      | none => .error (.notPositiveDefinite .covariance)
      | some w => if x.state.type = .real p then return ⟨p, w⟩ else refuse
  else .error (.pointShape point.shape [x.dimension])

def statistic (f : {p : Precision} → Whitened (F p) n → F p)
    (w : (p : Precision) × Whitened (F p) n) : Tensor F :=
  .scalar (e := .real w.1) (f w.2)

def mahalanobisSquared (x : Estimate F) (point : Argument F) : Fallible F (Tensor F) := do
  return statistic Whitened.mahalanobisSquared (← x.whiten point)

def mahalanobis (x : Estimate F) (point : Argument F) : Fallible F (Tensor F) := do
  return statistic Whitened.mahalanobis (← x.whiten point)

def logLikelihood (x : Estimate F) (point : Argument F) : Fallible F (Tensor F) := do
  return statistic (fun {p} => Whitened.logLikelihood (gaussianConstant p x.dimension))
    (← x.whiten point)

def likelihood (x : Estimate F) (point : Argument F) : Fallible F (Tensor F) := do
  return statistic (fun {p} => Whitened.likelihood (gaussianConstant p x.dimension))
    (← x.whiten point)

end Estimate

end KalmanFilter
