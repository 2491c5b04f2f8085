import KalmanFilter.Binary.Format

namespace KalmanFilter.Text

structure Decimal where
  digits : Nat
  exponent : Int

open Binary

def digitCount (n : Nat) : Nat :=
  (Nat.toDigits 10 n).length

def decimalExponent (a b : Nat) : Int :=
  if b ≤ a then digitCount (a / b) - 1
  else
    let c := (b + a - 1) / a - 1
    if c = 0 then 0 else -digitCount c

def inDecimalUnits (a b : Nat) (e : Int) : Nat × Nat :=
  (a * Nat.pow 10 (-e).toNat, b * Nat.pow 10 e.toNat)

def Decimal.withDigits (places a b : Nat) : Decimal :=
  let e := decimalExponent a b - places
  let u := inDecimalUnits a b e
  let d := roundDiv u.1 u.2
  if d = Nat.pow 10 (places + 1) then ⟨Nat.pow 10 places, e + 1⟩ else ⟨d, e⟩

/-- The fractions that are rounded to one number of a format lie from `low` to `high`, all over
the same denominator; the ends belong to them if `closed`. -/
structure Interval where
  low : Nat
  value : Nat
  high : Nat
  denominator : Nat
  closed : Bool

def Interval.around (f : Format) (m : Nat) (e : Int) : Interval :=
  let unit := inUnits 1 1 (2 - e)
  let below := if m = Nat.pow 2 (f.digits - 1) ∧ f.leastExponent < e then 4 * m - 1 else 4 * m - 2
  ⟨below * unit.1, 4 * m * unit.1, (4 * m + 2) * unit.1, unit.2, m % 2 == 0⟩

def Interval.contains (I : Interval) (a b : Nat) : Bool :=
  let low := I.low * b
  let high := I.high * b
  let x := a * I.denominator
  if I.closed then decide (low ≤ x ∧ x ≤ high) else decide (low < x ∧ x < high)

def Interval.decimalAt? (I : Interval) (e : Int) : Option Decimal :=
  let u := inDecimalUnits I.value I.denominator e
  let unit := inDecimalUnits 1 1 (-e)
  let below := u.1 / u.2
  let inside (d : Nat) : Bool := I.contains (d * unit.1) unit.2
  let nearest := roundDiv u.1 u.2
  if inside nearest then some ⟨nearest, e⟩
  else if inside below then some ⟨below, e⟩
  else if inside (below + 1) then some ⟨below + 1, e⟩
  else none

def Decimal.shortest (f : Format) (m : Nat) (e : Int) : Decimal :=
  let I := Interval.around f m e
  let top := decimalExponent I.value I.denominator
  let tries := (List.range 17).filterMap fun (n : Nat) => I.decimalAt? (top - n)
  tries.headD ⟨I.value, 0⟩

def Decimal.normal (d : Decimal) : List Char × Int :=
  let all := Nat.toDigits 10 d.digits
  let kept := (all.reverse.dropWhile (· == '0')).reverse
  (kept, d.exponent + all.length - 1)

end KalmanFilter.Text
