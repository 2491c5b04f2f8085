import KalmanFilter.Attempt
import KalmanFilter.Decomposer.Basic
import KalmanFilter.Estimate
import KalmanFilter.Filter.Belief
import KalmanFilter.Filter.Process
import KalmanFilter.Measurement

/-! The sequential estimator. A step predicts the state at the time of a measurement
and corrects the prediction; the cursor moves only if the whole step succeeds. -/

namespace KalmanFilter

variable {F : Precision → Type}

structure Estimator (F : Precision → Type) where
  decomposer : Decomposer F
  process : Process F
  joseph : Bool
  debug : Bool

structure Cursor (F : Precision → Type) where
  predicted : Option (Estimate F)
  corrected : Estimate F

def Cursor.start (initial : Estimate F) : Fallible F (Cursor F) :=
  match initial.state.type with
  | .real _ => .ok ⟨none, initial⟩
  | .int64 => .error .integerInitial

/-- A computation on a cursor. What it has written to the cursor stays there if it fails later. -/
def Cursor.Action (F : Precision → Type) (α : Type) :=
  Cursor F → Cursor F × Attempt F α

namespace Cursor.Action

variable {α β : Type}

instance : Monad (Cursor.Action F) where
  pure a := fun c => (c, pure a)
  bind x f := fun c =>
    match x c with
    | (c', ⟨es, .ok a⟩) =>
      let (c'', y) := f a c'
      (c'', ⟨es ++ y.events, y.outcome⟩)
    | (c', ⟨es, .error e⟩) => (c', ⟨es, .error e⟩)

def read : Cursor.Action F (Cursor F) :=
  fun c => (c, pure c)

def attempt (x : Attempt F α) : Cursor.Action F α :=
  fun c => (c, x)

def setPredicted (x : Estimate F) : Cursor.Action F Unit :=
  fun c => (⟨some x, c.corrected⟩, pure ())

def setCorrected (x : Estimate F) : Cursor.Action F Unit :=
  fun c => (⟨c.predicted, x⟩, pure ())

end Cursor.Action

variable [Arithmetic F]

def Estimate.totalVariance (x : Estimate F) : F .double :=
  Elem.toDouble x.covariance.entries.trace

def Estimate.belief? (x : Estimate F) : Option ((p : Precision) × Belief (F p) x.dimension) :=
  match x.state.type, x.covariance.type with
  | .real p, .real q =>
    if p = q then some ⟨p, x.state.toType (.real p), x.covariance.toType (.real p)⟩ else none
  | _, _ => none

def Estimate.ofBelief {p : Precision} {n : Nat} (time : F .double) (b : Belief (F p) n) :
    Estimate F :=
  ⟨time, n, ⟨.real p, b.state⟩, ⟨.real p, b.covariance⟩⟩

def Evolution.linearized (x : Evolution F) (p : Precision) {n : Nat} (h : x.dimension = n) :
    Transition (F p) n :=
  h ▸ ⟨x.state.toType (.real p), x.transition.toType (.real p), x.noise.toType (.real p)⟩

def Measurement.observation (z : Measurement F) (p : Precision) {n : Nat}
    (h : z.stateDimension = n) : Observation (F p) z.dimension n :=
  h ▸ ⟨z.value.toType (.real p), z.matrix.toType (.real p), z.covariance.toType (.real p)⟩

namespace Estimator

variable {p : Precision} {m n : Nat}

/-- The gain is found from `S * gain.transpose = H * P`, without an inverse. -/
def gain (e : Estimator F) (b : Belief (F p) n) (z : Observation (F p) m n) :
    Attempt F (Mat (F p) n m) := do
  let S := b.innovationCovariance z
  .happen (.decomposition (TypedMat.tensor ⟨.real p, S⟩))
  let solve ← e.decomposer.decompose S
  let K ← Attempt.of (solve (b.crossCovariance z))
  return K.transpose

def correct (e : Estimator F) (time : F .double) (b : Belief (F p) n)
    (z : Observation (F p) m n) : Attempt F (Belief (F p) n) := do
  let K ← e.gain b z
  let c := b.correct e.joseph z K
  if e.debug then .note (.update time (Arithmetic.convert (b.innovation z).norm))
  return c

def evolve (e : Estimator F) (queries : Nat) (previous : Estimate F) (time : F .double) :
    Attempt F (Evolution F) := do
  .happen (.query previous.time previous.state.tensor time)
  match ← .of (e.process queries previous.time previous.state.tensor time) with
  | .evolution x => return x
  | .foreign kind => .fail (.foreignEvolution kind)

def estimates (e : Estimator F) (queries : Nat) (previous : Estimate F) (z : Measurement F) :
    Attempt F (Estimate F × Estimate F) := do
  if z.time < previous.time then .fail (.outdated z.time previous.time)
  else if hz : z.stateDimension = previous.dimension then
    let x ← e.evolve queries previous z.time
    if hx : x.dimension = previous.dimension then
      match previous.belief? with
      | some ⟨p, b⟩ =>
        let predicted := b.predict (x.linearized p hx)
        let corrected ← e.correct z.time predicted (z.observation p hz)
        return (.ofBelief x.time predicted, .ofBelief z.time corrected)
      | none => .of refuse
    else .fail (.evolutionDimension x.dimension previous.dimension)
  else .fail (.observedDimension z.stateDimension previous.dimension)

def advance (e : Estimator F) (queries : Nat) (z : Measurement F) :
    Cursor.Action F (Estimate F) := do
  let c ← .read
  let (predicted, corrected) ← .attempt (e.estimates queries c.corrected z)
  .setPredicted predicted
  .setCorrected corrected
  if e.debug then
    .attempt (.note (.step corrected.time predicted.totalVariance corrected.totalVariance))
  return corrected

end Estimator

end KalmanFilter
