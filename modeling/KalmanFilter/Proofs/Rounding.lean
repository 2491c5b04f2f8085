import KalmanFilter.Number
import KalmanFilter.Proofs.Attempt

/-! What rounding leaves of the laws of numbers. Sums do not depend on the order of
their terms, what is no number compares with nothing, and products keep their sign.
-/

namespace KalmanFilter

/-- What is no number is not even as large as itself. -/
def Scalar.IsNumber {α : Type} [Scalar α] (a : α) : Prop :=
  a ≤ a

open Scalar

class Rounded (α : Type) [Scalar α] : Prop where
  add_comm (a b : α) : a + b = b + a
  isNumber_of_le {a b : α} : a ≤ b → IsNumber a ∧ IsNumber b
  isNumber_of_lt {a b : α} : a < b → IsNumber a ∧ IsNumber b
  not_lt_iff {a b : α} : IsNumber a → IsNumber b → (¬ a < b ↔ b ≤ a)
  le_trans {a b c : α} : a ≤ b → b ≤ c → a ≤ c
  isNumber_of_sub {a b : α} : IsNumber (a - b) → IsNumber a
  sub_self {a : α} : IsNumber (a - a) → a - a = 0
  isNumber_of_abs {a : α} : IsNumber (abs a) → IsNumber a
  abs_zero : abs (0 : α) = 0
  abs_nonneg {a : α} : IsNumber a → 0 ≤ abs a
  mul_nonneg {a b : α} : 0 ≤ a → 0 ≤ b → IsNumber (a * b) → 0 ≤ a * b

namespace Rounded

variable {α : Type} [Scalar α] [Rounded α]

lemma not_lt_of_le {a b : α} (h : a ≤ b) : ¬ b < a := by
  obtain ⟨ha, hb⟩ := isNumber_of_le h
  exact (not_lt_iff hb ha).mpr h

lemma not_mul_abs_lt_abs_sub_self {limit : α} (hl : 0 ≤ limit) (a : α) :
    ¬ limit * abs a < abs (a - a) := by
  intro h
  obtain ⟨hp, hd⟩ := isNumber_of_lt h
  have hs := isNumber_of_abs hd
  have ha := isNumber_of_sub hs
  rw [sub_self hs, abs_zero] at h
  exact not_lt_of_le (mul_nonneg hl (abs_nonneg ha) hp) h

end Rounded

lemma Mat.symmetrize_comm {α : Type} [Scalar α] {n : Nat} (h : ∀ a b : α, a + b = b + a)
    (A : Mat α n n) (i j : Fin n) : A.symmetrize i j = A.symmetrize j i := by
  simp only [symmetrize, smul_entry, add_entry, transpose_entry, h (A i j) (A j i)]

class RoundedArithmetic (F : Precision → Type) [Arithmetic F] : Prop where
  rounded (p : Precision) : Rounded (F p)
  round_nonneg {x : F .double} : 0 ≤ x → (0 : F .single) ≤ Arithmetic.round x
  ofInt_nonneg {p : Precision} {i : Int} : 0 ≤ i → (0 : F p) ≤ Arithmetic.ofInt p i

variable {F : Precision → Type} [Arithmetic F] [RoundedArithmetic F] {p : Precision}

instance : Rounded (F p) :=
  RoundedArithmetic.rounded p

def Number.IsNonneg : Number F → Prop
  | .int i => 0 ≤ i
  | .real x => 0 ≤ x

lemma Number.IsNonneg.toFactor {r : Number F} (hr : r.IsNonneg) {l : F p}
    (h : r.toFactor (.real p) = .ok l) : 0 ≤ l := by
  cases r with
  | int i =>
    obtain ⟨_, -, h⟩ := Fallible.bind_eq_ok_iff.mp h
    obtain rfl := Except.ok.inj h
    exact RoundedArithmetic.ofInt_nonneg hr
  | real x =>
    obtain rfl := Except.ok.inj h
    cases p with
    | double => exact hr
    | single => exact RoundedArithmetic.round_nonneg hr

end KalmanFilter
