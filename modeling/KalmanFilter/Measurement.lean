import KalmanFilter.Tensor.Basic

namespace KalmanFilter

variable {F : Precision → Type}

structure Measurement (F : Precision → Type) where
  time : F .double
  dimension : Nat
  stateDimension : Nat
  value : TypedVec F dimension
  matrix : TypedMat F dimension stateDimension
  covariance : TypedMat F dimension dimension

namespace Measurement

def of (time : F .double) (value matrix covariance : Tensor F) : Fallible F (Measurement F) :=
  match hv : value.shape with
  | [m] =>
    match hh : matrix.shape with
    | [k, n] =>
      if hk : k = m then
        if hr : covariance.shape = [m, m] then
          .ok ⟨time, m, n, value.vec hv, matrix.mat (hk ▸ hh), covariance.mat hr⟩
        else .error (.measurementCovarianceShape covariance.shape m)
      else .error (.measurementMatrixShape [k, n] m)
    | s => .error (.measurementMatrixShape s m)
  | s => .error (.valueRank s)

def toType [Arithmetic F] (e : ElementType) (z : Measurement F) : Measurement F :=
  ⟨z.time, z.dimension, z.stateDimension, ⟨e, z.value.toType e⟩, ⟨e, z.matrix.toType e⟩,
    ⟨e, z.covariance.toType e⟩⟩

end Measurement

end KalmanFilter
