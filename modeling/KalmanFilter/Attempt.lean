import KalmanFilter.Tensor.Basic

/-! What happens on the way to a result. A failure ends an attempt and keeps what
happened before. -/

namespace KalmanFilter

inductive Rejection
  | nonSymmetric
  | nonPositiveDefinite
  | singular
  deriving DecidableEq

inductive Level
  | debug
  | warning
  deriving DecidableEq

inductive Logger
  | extended
  | estimator
  | decomposition
  deriving DecidableEq

inductive Record (F : Precision → Type)
  | update (time innovation : F .double)
  | step (time predicted corrected : F .double)
  | rejection (reason : Rejection)

namespace Record

variable {F : Precision → Type}

def level : Record F → Level
  | .update _ _ => .debug
  | .step _ _ _ => .debug
  | .rejection _ => .warning

def logger : Record F → Logger
  | .update _ _ => .extended
  | .step _ _ _ => .estimator
  | .rejection _ => .decomposition

end Record

inductive Event (F : Precision → Type)
  | query (previousTime : F .double) (previousState : Tensor F) (time : F .double)
  | decomposition (matrix : Tensor F)
  | record (r : Record F)

structure Attempt (F : Precision → Type) (α : Type) where
  events : List (Event F)
  outcome : Fallible F α

namespace Attempt

variable {F : Precision → Type} {α β : Type}

instance : Monad (Attempt F) where
  pure a := ⟨[], .ok a⟩
  bind x f :=
    match x.outcome with
    | .ok a => ⟨x.events ++ (f a).events, (f a).outcome⟩
    | .error e => ⟨x.events, .error e⟩

def of (x : Fallible F α) : Attempt F α :=
  ⟨[], x⟩

def fail (e : Failure F) : Attempt F α :=
  ⟨[], .error e⟩

def happen (e : Event F) : Attempt F Unit :=
  ⟨[e], .ok ()⟩

def note (r : Record F) : Attempt F Unit :=
  happen (.record r)

def reject (reason : Rejection) (e : Failure F) : Attempt F α := do
  note (.rejection reason)
  fail e

def records (x : Attempt F α) : List (Record F) :=
  x.events.filterMap fun
    | .record r => some r
    | _ => none

def queryCount (x : Attempt F α) : Nat :=
  x.events.countP fun
    | .query _ _ _ => true
    | _ => false

end Attempt

end KalmanFilter
