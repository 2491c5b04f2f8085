import KalmanFilter.Proofs.Contagion
import KalmanFilter.Proofs.MachineNeutral

namespace KalmanFilter

open Float.Model (Format UnpackedFloat)
open Float.Model.UnpackedFloat

namespace Unpacked

variable {spec : Format} {x y : UnpackedFloat}

def Strict (op : UnpackedFloat → UnpackedFloat → UnpackedFloat) : Prop :=
  ∀ x, op .notANumber x = .notANumber ∧ op x .notANumber = .notANumber

lemma strict_add : Strict (add spec) := fun x => by
  constructor <;> cases x <;> rfl

lemma strict_sub : Strict (sub spec) := fun x => by
  constructor <;> cases x <;> rfl

lemma strict_mul : Strict (mul spec) := fun x => by
  constructor <;> cases x <;> rfl

lemma strict_div : Strict (div spec) := fun x => by
  constructor <;> cases x <;> rfl

lemma Strict.ne {op : UnpackedFloat → UnpackedFloat → UnpackedFloat} (hop : Strict op)
    (h : op x y ≠ .notANumber) : x ≠ .notANumber ∧ y ≠ .notANumber := by
  constructor
  · rintro rfl
    exact h (hop y).1
  · rintro rfl
    exact h (hop x).2

lemma roundWithAccuracy_ne (s : Sign) (m : ℕ) (e : ℤ) (a : Accuracy) :
    roundWithAccuracy spec s m e a ≠ .notANumber := by
  intro h
  have hs := sign?_roundWithAccuracy spec s m e a
  rw [h] at hs
  cases hs

lemma mul_self_ne (hx : x ≠ .notANumber) : mul spec x x ≠ .notANumber := by
  cases x with
  | notANumber => exact absurd rfl hx
  | finite s m e hm => exact roundWithAccuracy_ne _ _ _ _
  | _ => exact UnpackedFloat.noConfusion

lemma mul_finite_ne {s : Sign} {m : ℕ} {e : ℤ} {hm : 0 < m} (hy : y ≠ .notANumber) :
    mul spec (.finite s m e hm) y ≠ .notANumber := by
  cases y with
  | notANumber => exact absurd rfl hy
  | finite t m' e' hm' => exact roundWithAccuracy_ne _ _ _ _
  | _ => exact UnpackedFloat.noConfusion

lemma pos_cases {s : Sign} (h : (UnpackedFloat.zero s).lt x = true) :
    x = .infinity .positive ∨ ∃ m e hm, x = .finite .positive m e hm := by
  rw [lt_iff] at h
  rcases x with (_ | _) | _ | _ | ⟨_ | _, m, e, _⟩ <;>
    simp_all [rank, Prod.Lex.toLex_lt_toLex]

end Unpacked

namespace Packing

open Unpacked Scalar

variable {α : Type} [Scalar α] {spec : Format} (P : Packing α spec) {a b : α}

lemma isNumber_of_strict {op : UnpackedFloat → UnpackedFloat → UnpackedFloat} (hop : Strict op)
    (h : IsNumber (P.pack (op (P.unpack a) (P.unpack b)))) : IsNumber a ∧ IsNumber b := by
  rw [P.isNumber_iff, P.isNumber_iff]
  exact hop.ne (P.isNumber_pack_iff.mp h)

lemma pos_cases (h : 0 < a) : P.unpack a = .infinity .positive ∨
    ∃ m e hm, P.unpack a = .finite .positive m e hm := by
  rw [P.lt_iff, P.zero_eq, P.unpack_pack_zero] at h
  exact Unpacked.pos_cases h

include P in
lemma contagious : Contagious α where
  toRounded := P.rounded
  isNumber_of_sub_right h := by
    rw [P.sub_eq] at h
    exact (P.isNumber_of_strict strict_sub h).2
  isNumber_of_mul h := by
    rw [P.mul_eq] at h
    exact P.isNumber_of_strict strict_mul h
  isNumber_of_div h := by
    rw [P.div_eq] at h
    exact P.isNumber_of_strict strict_div h
  isNumber_sqrt h := by
    rw [P.sqrt_eq, P.isNumber_pack_iff]
    obtain ha | ⟨m, e, hm, ha⟩ := P.pos_cases h
    · rw [ha]
      exact UnpackedFloat.noConfusion
    · rw [ha]
      exact roundWithAccuracy_ne _ _ _ _
  isNumber_mul_self h := by
    rw [P.mul_eq, P.isNumber_pack_iff]
    exact mul_self_ne (P.isNumber_iff.mp h)
  isNumber_mul {a b} h hf hb := by
    rw [P.isFinite_iff] at hf
    rw [P.mul_eq, P.isNumber_pack_iff]
    obtain ha | ⟨m, e, hm, ha⟩ := P.pos_cases h
    · rw [ha] at hf
      exact absurd rfl hf
    · rw [ha]
      exact mul_finite_ne (P.isNumber_iff.mp hb)

end Packing

instance : ContagiousArithmetic Machine where
  contagious p := by
    cases p with
    | single => exact Machine.packing32.contagious
    | double => exact Machine.packing64.contagious

end KalmanFilter
