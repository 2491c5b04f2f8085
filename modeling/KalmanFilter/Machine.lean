import KalmanFilter.Arithmetic
import KalmanFilter.Binary.Format

/-! The arithmetic of the machine: double and single precision floats. Conversions
from whole numbers and fractions, and whole powers, are computed exactly and rounded
once. -/

namespace KalmanFilter

open Binary

instance : Scalar Float where
  zero := 0
  one := 1
  decLT := inferInstance
  decLE := inferInstance
  abs := Float.abs
  sqrt := Float.sqrt
  log := Float.log
  exp := Float.exp
  sin := Float.sin
  cos := Float.cos

instance : Scalar Float32 where
  zero := 0
  one := 1
  decLT := inferInstance
  decLE := inferInstance
  abs := Float32.abs
  sqrt := Float32.sqrt
  log := Float32.log
  exp := Float32.exp
  sin := Float32.sin
  cos := Float32.cos

abbrev Machine : Precision → Type
  | .single => Float32
  | .double => Float

namespace Machine

def double (negative : Bool) (a b : Nat) : Float :=
  let x := Float.ofBits (binary64.nearest a b).toUInt64
  if negative then -x else x

def infinity (negative : Bool) : Float :=
  double negative (Nat.pow 2 1024) 1

def single (negative : Bool) (a b : Nat) : Float32 :=
  let x := Float32.ofBits (binary32.nearest a b).toUInt32
  if negative then -x else x

def isNegative (x : Float) : Bool :=
  Nat.pow 2 63 ≤ x.toBits.toNat

def decode? (x : Float) : Option (Nat × Int) :=
  binary64.decode? (x.toBits.toNat % Nat.pow 2 63)

def ofInt : (p : Precision) → Int → Machine p
  | .double, i => double (i < 0) i.natAbs 1
  | .single, i => single (i < 0) i.natAbs 1

def power (x : Float) (k : Nat) : Float :=
  match decode? x with
  | some (m, e) =>
    let u := inUnits (m.pow k) 1 (-(e * k))
    double (isNegative x && k % 2 == 1) u.1 u.2
  | none => if k = 0 then 1 else if k % 2 = 0 then x * x else x

def round (x : Float) : Float32 :=
  match decode? x with
  | some (m, e) =>
    let u := inUnits m 1 (-e)
    single (isNegative x) u.1 u.2
  | none => if x ≤ x then single (isNegative x) (Nat.pow 2 128) 1 else 0 / 0

def widen (x : Float32) : Float :=
  let word := x.toBits.toNat
  let negative := decide (Nat.pow 2 31 ≤ word)
  match binary32.decode? (word % Nat.pow 2 31) with
  | some (m, e) =>
    let u := inUnits m 1 (-e)
    double negative u.1 u.2
  | none => if x ≤ x then infinity negative else 0 / 0

def floor? (x : Float) : Option Int :=
  (decode? x).map fun (m, e) =>
    let u := inUnits m 1 (-e)
    (if isNegative x then -(u.1 : Int) else u.1) / u.2

def toDouble : {p : Precision} → Machine p → Float
  | .double, x => x
  | .single, x => widen x

end Machine

instance : Arithmetic Machine where
  scalar
    | .single => inferInstanceAs (Scalar Float32)
    | .double => inferInstanceAs (Scalar Float)
  round := Machine.round
  widen := Machine.widen
  ofInt := Machine.ofInt
  ofRatio a b := Machine.double (a < 0) a.natAbs b
  power := Machine.power
  floor? x := Machine.floor? (Machine.toDouble x)
  pi := 3.141592653589793

end KalmanFilter
