import KalmanFilter.Arithmetic

namespace KalmanFilter

inductive Datum (F : Precision → Type)
  | none
  | bool (b : Bool)
  | int (i : Int)
  | real (x : F .double)
  | text (s : String)
  | list (items : List (Datum F))
  | record (fields : List (String × Datum F))

inductive Datum.Kind
  | none
  | bool
  | int
  | real
  | text
  | list
  | record
  deriving DecidableEq

namespace Datum

variable {F : Precision → Type}

def kind : Datum F → Kind
  | .none => .none
  | .bool _ => .bool
  | .int _ => .int
  | .real _ => .real
  | .text _ => .text
  | .list _ => .list
  | .record _ => .record

def isTrue [Arithmetic F] : Datum F → Bool
  | .none => false
  | .bool b => b
  | .int i => i != 0
  | .real x => !Scalar.same x 0
  | .text s => !s.isEmpty
  | .list items => !items.isEmpty
  | .record fields => !fields.isEmpty

def int? : Datum F → Option Int
  | .int i => some i
  | .bool b => some (if b then 1 else 0)
  | _ => Option.none

end Datum

end KalmanFilter
