/-! Shapes are matched from the last dimension backwards, and a dimension of size
one is repeated as often as needed. -/

namespace KalmanFilter

abbrev Shape := List Nat

namespace Shape

@[simp] def size : Shape → Nat
  | [] => 1
  | n :: s => n * size s

theorem eq_size_single (n : Nat) : n = size [n] := by
  simp

theorem eq_size_pair (m n : Nat) : m * n = size [m, n] := by
  simp

def broadcastReversed? : Shape → Shape → Option Shape
  | [], t => some t
  | s, [] => some s
  | a :: s, b :: t =>
    if a = b then (broadcastReversed? s t).map (a :: ·)
    else if a = 1 then (broadcastReversed? s t).map (b :: ·)
    else if b = 1 then (broadcastReversed? s t).map (a :: ·)
    else none

def broadcast? (s t : Shape) : Option Shape :=
  (broadcastReversed? s.reverse t.reverse).map List.reverse

def offset : Shape → List Nat → Nat
  | _ :: s, i :: is => i * size s + offset s is
  | _, _ => 0

def index : Shape → Nat → List Nat
  | [], _ => []
  | _ :: s, k => k / size s :: index s (k % size s)

def isCountable (s : Shape) : Bool :=
  (List.range s.length).all fun k => size (s.take (k + 1)) < UInt64.size

/-- The shape of so many entries with the given sizes. One of them may be left open by minus one; it
is found if the others alone do not make the shape empty. What divides a count is no larger, so only
where nothing is counted do the sizes themselves have to be words. -/
def infer? (count : Nat) (sizes : List Int) : Option Shape :=
  let known := sizes.filter (· ≠ -1)
  let rest := size (known.map Int.toNat)
  let isWord (n : Int) : Bool := n ≤ Int64.maxValue.toInt
  if known.all (0 ≤ ·) ∧ (count = 0 → known.all isWord) then
    match sizes.length - known.length with
    | 0 =>
      let shape : Shape := sizes.map Int.toNat
      if rest = count ∧ isCountable shape then some shape else none
    | 1 =>
      if 0 < rest ∧ (count = 0 → isWord rest) ∧ rest ∣ count then
        some (sizes.map fun n => if n = -1 then count / rest else n.toNat)
      else none
    | _ => none
  else none

def stack? (s : Shape) : Option (Shape × Nat × Nat) :=
  match s.reverse with
  | n :: m :: r => some (r.reverse, m, n)
  | _ => none

def project (s : Shape) (i : List Nat) : List Nat :=
  (i.drop (i.length - s.length)).zipWith (fun k d => if d = 1 then 0 else k) s

end Shape

end KalmanFilter
