import KalmanFilter.Proofs.CholeskyFactor
import KalmanFilter.Proofs.LUFactor
import KalmanFilter.Proofs.Neutral
import KalmanFilter.Proofs.Verdict

/-! What is no number among the entries of a matrix, and what a factorization makes
of it. An elimination carries it from any place to a later pivot. A Cholesky
factorization stops there, but it looks at one triangle only. -/

namespace KalmanFilter

open Scalar

/-- What all arithmetic with such a thing has in common: no number is found from what is no number,
and no comparison with it holds. -/
class Spreading (α : Type) [Scalar α] : Prop where
  isNumber_of_lt {a b : α} : a < b → IsNumber a ∧ IsNumber b
  isNumber_of_sub {a b : α} : IsNumber (a - b) → IsNumber a ∧ IsNumber b
  isNumber_of_mul {a b : α} : IsNumber (a * b) → IsNumber a ∧ IsNumber b
  isNumber_of_div {a b : α} : IsNumber (a / b) → IsNumber a ∧ IsNumber b

class Contagious (α : Type) [Scalar α] : Prop extends Rounded α where
  isNumber_of_sub_right {a b : α} : IsNumber (a - b) → IsNumber b
  isNumber_of_mul {a b : α} : IsNumber (a * b) → IsNumber a ∧ IsNumber b
  isNumber_of_div {a b : α} : IsNumber (a / b) → IsNumber a ∧ IsNumber b
  isNumber_sqrt {a : α} : 0 < a → IsNumber (sqrt a)
  isNumber_mul_self {a : α} : IsNumber a → IsNumber (a * a)
  isNumber_mul {a b : α} : 0 < a → IsFinite a → IsNumber b → IsNumber (a * b)

instance {α : Type} [Scalar α] [Contagious α] : Spreading α where
  isNumber_of_lt := Rounded.isNumber_of_lt
  isNumber_of_sub h := ⟨Rounded.isNumber_of_sub h, Contagious.isNumber_of_sub_right h⟩
  isNumber_of_mul := Contagious.isNumber_of_mul
  isNumber_of_div := Contagious.isNumber_of_div

open Rounded Contagious

lemma Rounded.isNumber_abs {α : Type} [Scalar α] [Rounded α] {a : α} (ha : IsNumber a) :
    IsNumber (abs a) :=
  (isNumber_of_le (abs_nonneg ha)).2

lemma Scalar.isNumber_max {α : Type} [Scalar α] {a b : α} (ha : IsNumber a) (hb : IsNumber b) :
    IsNumber (max a b) := by
  rw [max]
  split
  · exact hb
  · exact ha

namespace Mat

variable {α : Type} [Scalar α] {n : ℕ}

/-- A factorization reads one triangle. What is no number there, off the diagonal, stops it at a
later pivot, the one of its row. -/
lemma isNumber_of_cholesky? [Spreading α] {A L : Mat α n n} (h : A.cholesky? = some L)
    {i j : Fin n} (hij : j ≤ i) : IsNumber (A i j) := by
  induction n with
  | zero => exact i.elim0
  | succ n ih =>
    obtain ⟨hp, M, hM, rfl⟩ := exists_of_cholesky?_succ h
    have hr : ∀ {i j : Fin n}, j ≤ i →
        IsNumber (A i.succ j.succ - A.scaledColumn i * A.scaledColumn j) := fun hij => by
      simpa using ih hM hij
    cases i using Fin.cases with
    | zero =>
      obtain rfl := Fin.le_zero_iff.mp hij
      exact (Spreading.isNumber_of_lt hp).2
    | succ i =>
      cases j using Fin.cases with
      | zero =>
        have hd := (Spreading.isNumber_of_sub (hr (le_refl i))).2
        have hc := (Spreading.isNumber_of_mul hd).1
        rw [scaledColumn_entry] at hc
        exact (Spreading.isNumber_of_div hc).1
      | succ j => exact (Spreading.isNumber_of_sub (hr (Fin.succ_le_succ_iff.mp hij))).1

variable [Contagious α]

lemma isNumber_of_schurComplement {A : Mat α (n + 1) (n + 1)} (h0 : IsNumber (A 0 0))
    (h : ∀ i j, IsNumber (A.schurComplement i j)) (i j : Fin (n + 1)) : IsNumber (A i j) := by
  simp only [schurComplement_entry] at h
  cases i using Fin.cases with
  | zero =>
    cases j using Fin.cases with
    | zero => exact h0
    | succ j => exact (isNumber_of_mul (isNumber_of_sub_right (h j j))).2
  | succ i =>
    cases j using Fin.cases with
    | zero => exact (isNumber_of_div (isNumber_of_mul (isNumber_of_sub_right (h i i))).1).1
    | succ j => exact isNumber_of_sub (h i j)

lemma isNumber_of_lu? {A : Mat α n n} {f : LU α n} (h : A.lu? = some f)
    (hf : ∀ i, IsNumber (f.packed i i)) (i j : Fin n) : IsNumber (A i j) := by
  induction n with
  | zero => exact i.elim0
  | succ n ih =>
    obtain ⟨-, g, hg, rfl⟩ := exists_of_lu?_succ h
    have h0 : IsNumber (A.pivoted 0 0) := by simpa using hf 0
    have hs : ∀ i j, IsNumber (A.pivoted.schurComplement i j) :=
      ih hg fun i => by simpa using hf i.succ
    have hi := isNumber_of_schurComplement h0 hs (Equiv.swap 0 A.pivotRow i) j
    rwa [pivoted_entry, Equiv.swap_apply_self] at hi

lemma isNumber_diagonal_of_cholesky? {A L : Mat α n n} (h : A.cholesky? = some L) (i : Fin n) :
    IsNumber (L i i) := by
  induction n with
  | zero => exact i.elim0
  | succ n ih =>
    obtain ⟨hp, M, hM, rfl⟩ := exists_of_cholesky?_succ h
    cases i using Fin.cases with
    | zero => simpa using isNumber_sqrt hp
    | succ i => simpa using ih hM i

lemma within_iff_isNumber {limit : α} (h0 : 0 < limit) (hf : IsFinite limit) {A : Mat α n n}
    (hA : ¬ A.Asymmetric limit) (i j : Fin n) :
    abs (A i j - A j i) ≤ limit * max (abs (A i j)) (abs (A j i)) ↔ IsNumber (A i j - A j i) := by
  constructor
  · intro h
    exact isNumber_of_abs (isNumber_of_le h).1
  · intro h
    have hi := isNumber_abs (isNumber_of_sub h)
    have hj := isNumber_abs (isNumber_of_sub_right h)
    have hl := isNumber_mul h0 hf (isNumber_max hi hj)
    rw [← not_lt_iff hl (isNumber_abs h)]
    exact fun hlt => hA ⟨i, j, hlt⟩

end Mat

class ContagiousArithmetic (F : Precision → Type) [Arithmetic F] : Prop
    extends RoundedArithmetic F where
  contagious (p : Precision) : Contagious (F p)

instance {F : Precision → Type} [Arithmetic F] [ContagiousArithmetic F] {p : Precision} :
    Contagious (F p) :=
  ContagiousArithmetic.contagious p

end KalmanFilter
