import KalmanFilter.Text.Digit
import KalmanFilter.Text.Float

/-! Reading a float from text. Blanks around it are skipped, an underscore may stand
between two digits, and digits of any script will do. -/

namespace KalmanFilter.Text

def isBlank (c : Char) : Bool :=
  let n := c.toNat
  (9 ≤ n && n ≤ 13) || n == 32 || n == 133 || n == 160 || n == 5760 ||
    (8192 ≤ n && n ≤ 8202) || n == 8232 || n == 8233 || n == 8239 || n == 8287 || n == 12288

def trimBlanks (cs : List Char) : List Char :=
  ((cs.dropWhile isBlank).reverse.dropWhile isBlank).reverse

def withoutUnderscores? : Bool → List Char → Option (List Char)
  | _, [] => some []
  | afterDigit, '_' :: c :: cs =>
    if afterDigit && c.isDigit then (withoutUnderscores? true cs).map (c :: ·) else none
  | _, c :: cs =>
    if c = '_' then none else (withoutUnderscores? c.isDigit cs).map (c :: ·)

def natOfDigits (cs : List Char) : Nat :=
  cs.foldl (fun n c => 10 * n + (c.toNat - '0'.toNat)) 0

def splitSign : List Char → Bool × List Char
  | '-' :: cs => (true, cs)
  | '+' :: cs => (false, cs)
  | cs => (false, cs)

def splitDigits (cs : List Char) : List Char × List Char :=
  (cs.takeWhile Char.isDigit, cs.dropWhile Char.isDigit)

def exponent? : List Char → Option Int
  | [] => some 0
  | c :: cs =>
    let (negative, digits) := splitSign cs
    if (c = 'e' ∨ c = 'E') ∧ !digits.isEmpty ∧ digits.all Char.isDigit then
      some (if negative then -natOfDigits digits else natOfDigits digits)
    else none

def decimal? (cs : List Char) : Option Decimal :=
  let (whole, rest) := splitDigits cs
  let (part, rest) := match rest with
    | '.' :: rest => splitDigits rest
    | _ => ([], rest)
  if whole.isEmpty && part.isEmpty then none
  else (exponent? rest).map fun e => ⟨natOfDigits (whole ++ part), e - part.length⟩

def float? (s : String) : Option Float :=
  (withoutUnderscores? false (trimBlanks (s.toList.map plainDigit))).bind fun cs =>
    let (negative, cs) := splitSign cs
    let name := String.ofList (cs.map Char.toLower)
    if name = "inf" ∨ name = "infinity" then some (Machine.infinity negative)
    else if name = "nan" then some (0 / 0)
    else (decimal? cs).map (ofDecimal negative)

end KalmanFilter.Text
