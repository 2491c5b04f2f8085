import KalmanFilter.Failure

/-! Arithmetic on numbers that may be whole. Whole numbers are exact and unbounded;
as soon as a float takes part, so does rounding, and a result out of range is a
failure. -/

namespace KalmanFilter

inductive Number (F : Precision → Type)
  | int (i : Int)
  | real (x : F .double)

variable {F : Precision → Type}

def Datum.number? : Datum F → Option (Number F)
  | .bool b => some (.int (if b then 1 else 0))
  | .int i => some (.int i)
  | .real x => some (.real x)
  | _ => Option.none

def Datum.toNumber (d : Datum F) : Fallible F (Number F) :=
  orRefuse d.number?

namespace Number

def toDatum : Number F → Datum F
  | .int i => .int i
  | .real x => .real x

variable [Arithmetic F]

def bounded (x : F .double) : Fallible F (F .double) :=
  if Arithmetic.isFinite x then .ok x else .error .overflow

def toReal : Number F → Fallible F (F .double)
  | .int i => bounded (Arithmetic.ofInt .double i)
  | .real x => .ok x

def combine (whole : Int → Int → Int) (rounded : F .double → F .double → F .double) :
    Number F → Number F → Fallible F (Number F)
  | .int i, .int j => .ok (.int (whole i j))
  | a, b => do return .real (rounded (← a.toReal) (← b.toReal))

def add (a b : Number F) : Fallible F (Number F) :=
  combine (· + ·) (· + ·) a b

def sub (a b : Number F) : Fallible F (Number F) :=
  combine (· - ·) (· - ·) a b

def mul (a b : Number F) : Fallible F (Number F) :=
  combine (· * ·) (· * ·) a b

def div : Number F → Number F → Fallible F (F .double)
  | .int i, .int j =>
    if j = 0 then .error .divisionByZero
    else bounded (Arithmetic.ofRatio (if j < 0 then -i else i) j.natAbs)
  | a, b => do
    let x ← a.toReal
    let y ← b.toReal
    if Scalar.same y 0 then .error .divisionByZero else return x / y

def realPow (x : F .double) (k : Nat) : Fallible F (F .double) :=
  let y := Arithmetic.power x k
  if Arithmetic.isFinite x && !Arithmetic.isFinite y then .error .overflow else .ok y

def pow : Number F → Nat → Fallible F (Number F)
  | .int i, k => .ok (.int (i.pow k))
  | .real x, k => do return .real (← realPow x k)

def round (x : F .double) : Fallible F Int :=
  if Scalar.same x x then
    match Arithmetic.nearest? x with
    | some i => .ok i
    | none => .error .overflow
  else refuse

def store : (e : ElementType) → Number F → Fallible F (Elem F e)
  | .real _, a => do return Arithmetic.convert (← a.toReal)
  | .int64, .int i => orRefuse (Elem.int64? i)
  | .int64, .real x => orRefuse ((Arithmetic.truncate? x).bind Elem.int64?)

def word (i : Int) : Fallible F Int64 :=
  if Int64.minValue.toInt ≤ i ∧ i < UInt64.size then .ok (.ofInt i) else .error .overflow

def toFactor : (e : ElementType) → Number F → Fallible F (Elem F e)
  | .real p, .int i => do
    let _ ← word i
    return Arithmetic.ofInt p i
  | .real _, .real x => .ok (Arithmetic.convert x)
  | .int64, .int i => word i
  | .int64, .real _ => refuse

end Number

end KalmanFilter
