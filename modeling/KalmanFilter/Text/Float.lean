import KalmanFilter.Machine
import KalmanFilter.Text.Decimal

namespace KalmanFilter.Text

def signed (negative : Bool) (s : String) : String :=
  if negative then "-" ++ s else s

def exponentText (e : Int) : String :=
  let digits := toString e.natAbs
  "e" ++ (if e < 0 then "-" else "+") ++ (if e.natAbs < 10 then "0" ++ digits else digits)

def zeros (n : Nat) : List Char :=
  List.replicate n '0'

def layout (digits : List Char) (e : Int) : String :=
  if -4 ≤ e ∧ e < 16 then
    if e < 0 then String.ofList ('0' :: '.' :: zeros (-e - 1).toNat ++ digits)
    else
      let n := e.toNat + 1
      let whole := digits.take n ++ zeros (n - digits.length)
      let rest := digits.drop n
      String.ofList (whole ++ '.' :: if rest.isEmpty then ['0'] else rest)
  else
    match digits with
    | [] => exponentText e
    | [d] => String.ofList [d] ++ exponentText e
    | d :: ds => String.ofList (d :: '.' :: ds) ++ exponentText e

def special (x : Float) : String :=
  if x == x then signed (x < 0) "inf" else "nan"

def shortest (x : Float) : String :=
  match Machine.decode? x with
  | none => special x
  | some (0, _) => signed (Machine.isNegative x) "0.0"
  | some (m, e) =>
    let d := (Decimal.shortest Binary.binary64 m e).normal
    signed (Machine.isNegative x) (layout d.1 d.2)

def scientific (places : Nat) (x : Float) : String :=
  match Machine.decode? x with
  | none => special x
  | some (m, e) =>
    let u := Binary.inUnits m 1 (-e)
    let d := if m = 0 then ⟨0, -places⟩ else Decimal.withDigits places u.1 u.2
    let digits := Nat.toDigits 10 d.digits
    let padded := digits ++ zeros (places + 1 - digits.length)
    let body := match padded with
      | c :: cs => if cs.isEmpty then [c] else c :: '.' :: cs
      | [] => []
    signed (Machine.isNegative x) (String.ofList body ++ exponentText (d.exponent + places))

def ofDecimal (negative : Bool) (d : Decimal) : Float :=
  let top := (digitCount d.digits : Int) + d.exponent
  if d.digits = 0 ∨ top < -400 then Machine.double negative 0 1
  else if 400 < top then Machine.infinity negative
  else
    let u := inDecimalUnits d.digits 1 (-d.exponent)
    Machine.double negative u.1 u.2

end KalmanFilter.Text
