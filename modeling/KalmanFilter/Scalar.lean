namespace KalmanFilter

class Entry (α : Type) extends Zero α, One α, Add α, Sub α, Mul α

/-- Numbers as the filter computes with them. No law is assumed: rounded numbers have few. -/
class Scalar (α : Type) extends Entry α, Neg α, Div α, LT α, LE α, OfScientific α where
  decLT : DecidableLT α
  decLE : DecidableLE α
  abs : α → α
  sqrt : α → α
  log : α → α
  exp : α → α
  sin : α → α
  cos : α → α

namespace Scalar

variable {α : Type} [Scalar α]

instance : DecidableLT α := decLT

instance : DecidableLE α := decLE

def max (a b : α) : α :=
  if a < b then b else a

def same (a b : α) : Bool :=
  decide (a ≤ b) && decide (b ≤ a)

end Scalar

end KalmanFilter
