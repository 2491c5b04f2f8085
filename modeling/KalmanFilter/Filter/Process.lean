import KalmanFilter.Evolution

namespace KalmanFilter

variable {F : Precision → Type}

inductive Reply (F : Precision → Type)
  | evolution (e : Evolution F)
  | foreign (kind : Datum.Kind)

/-- The transition from a state at one time to another time. The first argument counts the questions
before this one, as a process may answer the same question differently. -/
abbrev Process (F : Precision → Type) :=
  Nat → F .double → Tensor F → F .double → Fallible F (Reply F)

abbrev LinearProcess (F : Precision → Type) :=
  Nat → F .double → F .double → Fallible F (LinearEvolution F)

def LinearProcess.linearize [Arithmetic F] (q : LinearProcess F) : Process F :=
  fun k previous state time => do
    return .evolution (← (← q k previous time).predict (.ok time) state)

def Process.unanswerable : Process F :=
  fun _ _ _ _ => refuse

end KalmanFilter
