import KalmanFilter.Decomposer.Cholesky
import KalmanFilter.Decomposer.LU
import KalmanFilter.Filter.Session

namespace KalmanFilter

variable {F : Precision → Type}

inductive DecomposerChoice (F : Precision → Type)
  | cholesky (d : CholeskyDecomposer F)
  | lu (d : LUDecomposer F)
  | plain
  | foreign (value : Datum F)

inductive ProcessChoice (F : Precision → Type)
  | general (q : Process F)
  | linear (q : LinearProcess F)
  | foreign (value : Datum F)

inductive InitialChoice (F : Precision → Type)
  | estimate (x : Estimate F)
  | foreign (kind : Datum.Kind)

inductive EstimatorKind
  | extended
  | linear
  deriving DecidableEq

structure Setup (F : Precision → Type) where
  kind : EstimatorKind
  initial : InitialChoice F
  decomposer : DecomposerChoice F
  process : ProcessChoice F
  joseph : Bool
  debug : Bool

variable [Arithmetic F]

def DecomposerChoice.decomposer : DecomposerChoice F → Fallible F (Decomposer F)
  | .cholesky d => .ok d.decomposer
  | .lu d => .ok d.decomposer
  | .plain => .ok .plain
  | .foreign value => .error (.foreignDecomposer value)

def ProcessChoice.processFor : EstimatorKind → ProcessChoice F → Fallible F (Process F)
  | .extended, .general q => .ok q
  | .extended, .foreign value => .error (.foreignProcess value)
  | .linear, .linear q => .ok q.linearize
  | .linear, .foreign value => .error (.foreignLinearProcess value)
  | _, _ => .ok .unanswerable

def InitialChoice.cursor : InitialChoice F → Fallible F (Cursor F)
  | .estimate x => Cursor.start x
  | .foreign kind => .error (.foreignInitial kind)

def Setup.session (s : Setup F) : Fallible F (Session F) :=
  match s.kind with
  | .linear => do
    let q ← s.process.processFor .linear
    let c ← s.initial.cursor
    let d ← s.decomposer.decomposer
    return ⟨⟨d, q, s.joseph, s.debug⟩, c, 0⟩
  | .extended => do
    let c ← s.initial.cursor
    let d ← s.decomposer.decomposer
    let q ← s.process.processFor .extended
    return ⟨⟨d, q, s.joseph, s.debug⟩, c, 0⟩

end KalmanFilter
