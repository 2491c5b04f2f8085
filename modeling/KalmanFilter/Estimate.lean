import KalmanFilter.Tensor.Basic

namespace KalmanFilter

variable {F : Precision → Type}

structure Estimate (F : Precision → Type) where
  time : F .double
  dimension : Nat
  state : TypedVec F dimension
  covariance : TypedMat F dimension dimension

namespace Estimate

def of (time : F .double) (state covariance : Tensor F) : Fallible F (Estimate F) :=
  match hs : state.shape with
  | [n] =>
    match hc : covariance.shape with
    | [k, k'] =>
      if hk : k' = k then
        if hn : k = n then .ok ⟨time, n, state.vec hs, covariance.mat (by rw [hc, hk, hn])⟩
        else .error (.covarianceOrder n k)
      else .error (.covarianceShape [k, k'])
    | s => .error (.covarianceShape s)
  | s => .error (.stateRank s)

def toType [Arithmetic F] (e : ElementType) (x : Estimate F) : Estimate F :=
  ⟨x.time, x.dimension, ⟨e, x.state.toType e⟩, ⟨e, x.covariance.toType e⟩⟩

end Estimate

end KalmanFilter
