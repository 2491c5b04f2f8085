import KalmanFilter.Filter.Estimator

namespace KalmanFilter

variable {F : Precision → Type} [Arithmetic F] {α : Type}

structure Session (F : Precision → Type) where
  estimator : Estimator F
  cursor : Cursor F
  queries : Nat

def Session.step (s : Session F) (z : Fallible F (Measurement F)) :
    Session F × Attempt F (Estimate F) :=
  let (cursor, a) := match z with
    | .ok z => s.estimator.advance s.queries z s.cursor
    | .error f => (s.cursor, .fail f)
  (⟨s.estimator, cursor, s.queries + a.queryCount⟩, a)

/-- Measurements that are built when they are asked for; the first place without one is the end. -/
abbrev Stream (F : Precision → Type) := Nat → Option (Fallible F (Measurement F))

def Stream.ofList (zs : List (Fallible F (Measurement F))) : Stream F :=
  fun k => zs[k]?

structure Generator where
  position : Nat
  live : Bool

def Generator.start : Generator :=
  ⟨0, true⟩

def Session.pull (s : Session F) (zs : Stream F) (g : Generator) :
    Session F × Generator × Option (Attempt F (Estimate F)) :=
  match if g.live then zs g.position else none with
  | none => (s, ⟨g.position, false⟩, none)
  | some z =>
    let (s', a) := s.step z
    let live := match a.outcome with
      | .ok _ => true
      | .error _ => false
    (s', ⟨g.position + 1, live⟩, some a)

/-- How often a generator with so many items is pulled at most, once more than there are items if no
limit is given. A limit is a machine integer that is not negative. -/
def Datum.pullLimit (limit : Datum F) (items : Nat) : Fallible F Nat :=
  match limit with
  | .none => .ok (items + 1)
  | _ => do
    let k ← orRefuse limit.int?
    if 0 ≤ k ∧ k ≤ Int64.maxValue.toInt then return k.toNat else refuse

def Session.pulls (zs : Stream F) : Nat → Session F → Generator →
    Session F × Generator × List (Attempt F (Estimate F))
  | 0, s, g => (s, g, [])
  | k + 1, s, g =>
    match s.pull zs g with
    | (s', g', some a) =>
      let (s'', g'', as) := Session.pulls zs k s' g'
      (s'', g'', a :: as)
    | (s', g', none) => (s', g', [])

end KalmanFilter
