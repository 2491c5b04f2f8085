import KalmanFilter.Matrix.Basic

namespace KalmanFilter

variable {α : Type} {m n : Nat}

structure Belief (α : Type) (n : Nat) where
  state : Vec α n
  covariance : Mat α n n

structure Transition (α : Type) (n : Nat) where
  state : Vec α n
  matrix : Mat α n n
  noise : Mat α n n

structure Observation (α : Type) (m n : Nat) where
  value : Vec α m
  matrix : Mat α m n
  noise : Mat α m m

namespace Belief

variable [Scalar α]

def predict (b : Belief α n) (t : Transition α n) : Belief α n where
  state := t.state
  covariance := (t.matrix * b.covariance * t.matrix.transpose + t.noise).symmetrize

def innovation (b : Belief α n) (z : Observation α m n) : Vec α m :=
  z.value - z.matrix * b.state

def crossCovariance (b : Belief α n) (z : Observation α m n) : Mat α m n :=
  z.matrix * b.covariance

def innovationCovariance (b : Belief α n) (z : Observation α m n) : Mat α m m :=
  (b.crossCovariance z * z.matrix.transpose + z.noise).symmetrize

def correct (joseph : Bool) (b : Belief α n) (z : Observation α m n) (gain : Mat α n m) :
    Belief α n where
  state := b.state + gain * b.innovation z
  covariance :=
    let factor := Mat.identity - gain * z.matrix
    if joseph then
      (factor * b.covariance * factor.transpose + gain * z.noise * gain.transpose).symmetrize
    else (factor * b.covariance).symmetrize

end Belief

end KalmanFilter
