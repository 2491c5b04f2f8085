/-! Rounding of fractions to a binary floating format, in whole numbers. A number of
the format is the word that counts the numbers of the format below it, so that
rounding up carries from one exponent to the next, and from the largest number to
infinity. -/

namespace KalmanFilter.Binary

structure Format where
  digits : Nat
  leastExponent : Int
  infinity : Nat

def binary64 : Format := ⟨53, -1074, 2047 * Nat.pow 2 52⟩

def binary32 : Format := ⟨24, -149, 255 * Nat.pow 2 23⟩

def roundDiv (a b : Nat) : Nat :=
  let q := a / b
  let r := 2 * (a % b)
  if r < b then q else if b < r then q + 1 else if q % 2 = 0 then q else q + 1

def inUnits (a b : Nat) (e : Int) : Nat × Nat :=
  (a * Nat.pow 2 (-e).toNat, b * Nat.pow 2 e.toNat)

namespace Format

def unitExponent (f : Format) (a b : Nat) : Int :=
  let e : Int := a.log2 - b.log2 - f.digits
  let u := inUnits a b e
  if a = 0 then f.leastExponent
  else max f.leastExponent (if u.1 < u.2 * Nat.pow 2 f.digits then e else e + 1)

def nearest (f : Format) (a b : Nat) : Nat :=
  let e := f.unitExponent a b
  let u := inUnits a b e
  min f.infinity (roundDiv u.1 u.2 + (e - f.leastExponent).toNat * Nat.pow 2 (f.digits - 1))

def decode? (f : Format) (word : Nat) : Option (Nat × Int) :=
  let one := Nat.pow 2 (f.digits - 1)
  if f.infinity ≤ word then none
  else if word < one then some (word, f.leastExponent)
  else some (word % one + one, f.leastExponent + (word / one - 1 : Nat))

end Format

end KalmanFilter.Binary
