import KalmanFilter.Tensor.Product

namespace KalmanFilter

variable {α : Type} {m n s : Nat}

def dealt (m s r : Nat) : Nat :=
  (r % (m / s)) * s + r / (m / s)

theorem dealt_lt {r : Nat} (h : s ∣ m) (hr : r < m) : dealt m s r < m := by
  obtain ⟨b, rfl⟩ := h
  have hs : 0 < s := Nat.pos_of_ne_zero fun h => by simp [h] at hr
  have hb : 0 < b := Nat.pos_of_ne_zero fun h => by simp [h] at hr
  rw [dealt, Nat.mul_div_cancel_left b hs]
  have h₁ : r % b < b := Nat.mod_lt r hb
  have h₂ : r / b < s := Nat.div_lt_of_lt_mul (Nat.mul_comm s b ▸ hr)
  simpa [Nat.mul_comm s b] using flat_lt ⟨r % b, h₁⟩ ⟨r / b, h₂⟩

namespace Mat

def interleave (s : Nat) (h : s ∣ m) (A : Mat α m n) : Mat α m n :=
  ofFn fun r j => A ⟨dealt m s r, dealt_lt h r.isLt⟩ j

@[simp] theorem interleave_entry (h : s ∣ m) (A : Mat α m n) (r : Fin m) (j : Fin n) :
    A.interleave s h r j = A ⟨dealt m s r, dealt_lt h r.isLt⟩ j := ofFn_entry ..

end Mat

def Shape.swapLeading : List Nat → List Nat
  | i :: j :: is => j :: i :: is
  | is => is

namespace Tensor

variable {F : Precision → Type} [Arithmetic F]

def swapLeading? (x : Tensor F) : Fallible F (Tensor F) :=
  if 2 ≤ x.shape.length then
    .ok (ofIndex x.type (Shape.swapLeading x.shape) fun i => x.get (Shape.swapLeading i))
  else refuse

def interleave? (x : Tensor F) (size : Int) : Fallible F (Tensor F) := do
  let row := x.shape.tail.map Int.ofNat
  let blocks ← x.resize? (-1 :: size :: row)
  (← blocks.swapLeading?).resize? (-1 :: row)

end Tensor

end KalmanFilter
