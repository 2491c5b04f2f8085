import KalmanFilter.Scalar

namespace KalmanFilter

inductive Precision
  | single
  | double
  deriving DecidableEq

inductive ElementType
  | real (p : Precision)
  | int64
  deriving DecidableEq

class Arithmetic (F : Precision → Type) where
  scalar : (p : Precision) → Scalar (F p)
  round : F .double → F .single
  widen : F .single → F .double
  /-- The nearest number, infinite when the integer is out of range. -/
  ofInt : (p : Precision) → Int → F p
  ofRatio : Int → Nat → F .double
  power : F .double → Nat → F .double
  floor? : {p : Precision} → F p → Option Int
  pi : F .double

variable {F : Precision → Type} [Arithmetic F] {p q : Precision}

instance (priority := low) : Scalar (F p) := Arithmetic.scalar p

namespace Arithmetic

def isFinite (x : F p) : Bool :=
  (floor? x).isSome

def convert : {p q : Precision} → F p → F q
  | .double, .double, x => x
  | .single, .single, x => x
  | .double, .single, x => round x
  | .single, .double, x => widen x

def truncate? (x : F p) : Option Int :=
  if x < 0 then (floor? (-x)).map (- ·) else floor? x

def nearest? (x : F .double) : Option Int :=
  (floor? x).map fun i =>
    let rest := x - ofInt .double i
    if rest < 0.5 then i
    else if 0.5 < rest then i + 1
    else if i % 2 = 0 then i else i + 1

end Arithmetic

abbrev Elem (F : Precision → Type) : ElementType → Type
  | .real p => F p
  | .int64 => Int64

namespace Elem

instance : Entry Int64 where
  one := 1

instance instEntry : (d : ElementType) → Entry (Elem F d)
  | .real p => inferInstanceAs (Entry (F p))
  | .int64 => inferInstanceAs (Entry Int64)

variable {d e : ElementType}

instance : Entry (Elem F d) := instEntry d

def int64? (i : Int) : Option Int64 :=
  if Int64.minValue.toInt ≤ i ∧ i ≤ Int64.maxValue.toInt then some (.ofInt i) else none

def toInt64 (x : F p) : Int64 :=
  ((Arithmetic.truncate? x).bind int64?).getD .minValue

def cast : {d : ElementType} → (e : ElementType) → Elem F d → Elem F e
  | .real _, .real _, x => Arithmetic.convert x
  | .real _, .int64, x => toInt64 x
  | .int64, .real p, i => Arithmetic.ofInt p i.toInt
  | .int64, .int64, i => i

def toDouble (x : Elem F d) : F .double :=
  cast (.real .double) x

def same : {d : ElementType} → Elem F d → Elem F d → Bool
  | .real _, x, y => Scalar.same x y
  | .int64, i, j => i == j

end Elem

end KalmanFilter
