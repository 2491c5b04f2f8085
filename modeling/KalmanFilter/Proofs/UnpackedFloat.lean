import Mathlib
import KalmanFilter.Machine

namespace KalmanFilter.Unpacked

open Float.Model (Format UnpackedFloat)
open Float.Model.UnpackedFloat

variable {spec : Format} {x y z : UnpackedFloat} {s : Sign}

def sign? : UnpackedFloat → Option Sign
  | .notANumber => none
  | .infinity s | .zero s | .finite s _ _ _ => some s

lemma sign?_eq_none_iff : sign? x = none ↔ x = .notANumber := by
  cases x <;> simp [sign?]

/-- The class of a number among negative, zero and positive ones comes first, then its exponent,
then its mantissa. -/
def rank : UnpackedFloat → ℤ ×ₗ ℤ ×ₗ ℤ
  | .infinity .negative => toLex (-2, toLex (0, 0))
  | .finite .negative m e _ => toLex (-1, toLex (-e, -m))
  | .notANumber | .zero _ => toLex (0, toLex (0, 0))
  | .finite .positive m e _ => toLex (1, toLex (e, m))
  | .infinity .positive => toLex (2, toLex (0, 0))

section

variable {e e' : ℤ} {m m' : ℕ}

lemma then_isLE_iff :
    ((compare e e').then (compare m m')).isLE = true ↔ e < e' ∨ e = e' ∧ m ≤ m' := by
  rw [Ordering.isLE_then_iff_or, Int.compare_eq_lt, Int.compare_eq_eq, Nat.isLE_compare]

lemma then_isGE_iff :
    ((compare e e').then (compare m m')).isGE = true ↔ e' < e ∨ e = e' ∧ m' ≤ m := by
  rw [← Ordering.isLE_swap, Ordering.swap_then, Int.compare_swap, Nat.compare_swap, then_isLE_iff,
    eq_comm]

lemma then_eq_lt_iff :
    (compare e e').then (compare m m') = .lt ↔ e < e' ∨ e = e' ∧ m < m' := by
  rw [Ordering.then_eq_lt, Int.compare_eq_lt, Int.compare_eq_eq, Nat.compare_eq_lt]

lemma then_eq_gt_iff :
    (compare e e').then (compare m m') = .gt ↔ e' < e ∨ e = e' ∧ m' < m := by
  rw [Ordering.then_eq_gt, Int.compare_eq_gt, Int.compare_eq_eq, Nat.compare_eq_gt]

end

lemma le_iff : x.le y = true ↔ x ≠ .notANumber ∧ y ≠ .notANumber ∧ rank x ≤ rank y := by
  rcases x with (_ | _) | _ | _ | ⟨_ | _, m, e, _⟩ <;>
    rcases y with (_ | _) | _ | _ | ⟨_ | _, m', e', _⟩ <;>
    simp [UnpackedFloat.le, UnpackedFloat.compare, rank, Prod.Lex.toLex_le_toLex, then_isLE_iff,
      then_isGE_iff]
  -- what is left compares two infinities by their signs
  all_goals decide

lemma lt_iff : x.lt y = true ↔ x ≠ .notANumber ∧ y ≠ .notANumber ∧ rank x < rank y := by
  rcases x with (_ | _) | _ | _ | ⟨_ | _, m, e, _⟩ <;>
    rcases y with (_ | _) | _ | _ | ⟨_ | _, m', e', _⟩ <;>
    simp [UnpackedFloat.lt, UnpackedFloat.compare, rank, Prod.Lex.toLex_lt_toLex, then_eq_lt_iff,
      then_eq_gt_iff]
  all_goals decide

lemma zero_le_iff : (UnpackedFloat.zero s).le x = true ↔
    (∃ t, x = .zero t) ∨ sign? x = some .positive := by
  rw [le_iff]
  rcases x with (_ | _) | _ | _ | ⟨_ | _, m, e, _⟩ <;>
    simp [rank, sign?, Prod.Lex.toLex_le_toLex]

lemma add_comm (spec : Format) (x y : UnpackedFloat) : add spec x y = add spec y x := by
  cases x with
  | notANumber => cases y <;> rfl
  | infinity s =>
    cases y with
    | infinity t => cases s <;> cases t <;> rfl
    | _ => rfl
  | zero s =>
    cases y with
    | zero t => cases s <;> cases t <;> rfl
    | _ => rfl
  | finite s m e hm =>
    cases y with
    | finite t m' e' hm' =>
      simp only [UnpackedFloat.add]
      rw [min_comm e' e, Int.add_comm]
    | _ => rfl

lemma sub_self (spec : Format) (x : UnpackedFloat) :
    sub spec x x = .zero .positive ∨ sub spec x x = .notANumber := by
  cases x with
  | notANumber => exact .inr rfl
  | infinity s => cases s <;> exact .inr rfl
  | zero s => cases s <;> exact .inl rfl
  | finite s m e hm =>
    left
    simp only [UnpackedFloat.sub, Int.sub_self]
    rfl

lemma sign?_abs (hx : x ≠ .notANumber) : sign? x.abs = some .positive := by
  cases x with
  | notANumber => contradiction
  | _ => rfl

lemma sign?_roundWithAccuracy (spec : Format) (s : Sign) (m : ℕ) (e : ℤ) (a : Accuracy) :
    sign? (roundWithAccuracy spec s m e a) = some s := by
  simp only [roundWithAccuracy]
  split
  · rfl
  · rfl

lemma sign?_mul {a b : Sign} (hx : sign? x = some a) (hy : sign? y = some b)
    (hn : mul spec x y ≠ .notANumber) : sign? (mul spec x y) = some (a * b) := by
  cases x with
  | notANumber => cases hx
  | infinity s =>
    obtain rfl := Option.some.inj hx
    cases y with
    | notANumber => cases hy
    | zero t => exact absurd rfl hn
    | _ => exact congrArg (fun t => some (s * t)) (Option.some.inj hy)
  | zero s =>
    obtain rfl := Option.some.inj hx
    cases y with
    | notANumber => cases hy
    | infinity t => exact absurd rfl hn
    | _ => exact congrArg (fun t => some (s * t)) (Option.some.inj hy)
  | finite s m e hm =>
    obtain rfl := Option.some.inj hx
    cases y with
    | notANumber => cases hy
    | finite t m' e' hm' =>
      obtain rfl := Option.some.inj hy
      exact sign?_roundWithAccuracy spec (s * t) (m * m') (e + e') .exact
    | _ => exact congrArg (fun t => some (s * t)) (Option.some.inj hy)

lemma mul_nonneg (hx : (UnpackedFloat.zero s).le x = true)
    (hy : (UnpackedFloat.zero s).le y = true) (hn : mul spec x y ≠ .notANumber) :
    (UnpackedFloat.zero s).le (mul spec x y) = true := by
  rw [zero_le_iff] at hx hy ⊢
  rcases hx with ⟨t, rfl⟩ | hx
  · cases y with
    | zero u => exact .inl ⟨t * u, rfl⟩
    | finite u m e hm => exact .inl ⟨t * u, rfl⟩
    | _ => exact absurd rfl hn
  rcases hy with ⟨t, rfl⟩ | hy
  · cases x with
    | zero u => exact .inl ⟨u * t, rfl⟩
    | finite u m e hm => exact .inl ⟨u * t, rfl⟩
    | _ => exact absurd rfl hn
  exact .inr (sign?_mul hx hy hn)

section

variable {a : BitVec spec.exponentBits} {b : BitVec spec.mantissaBitsWithoutImplicit}

lemma exists_eq_packComponents (w : BitVec spec.numBits) :
    ∃ s a b, w = packComponents spec s a b :=
  ⟨_, _, _, (packComponents_unpackSign_unpackExponent_unpackMantissa w).symm⟩

lemma toNat_packComponents : (packComponents spec s a b).toNat =
    (s.toBitVec.toNat * 2 ^ spec.exponentBits + a.toNat) *
      2 ^ spec.mantissaBitsWithoutImplicit + b.toNat := by
  simp only [packComponents, BitVec.toNat_append]
  rw [← Nat.shiftLeft_add_eq_or_of_lt b.isLt, ← Nat.shiftLeft_add_eq_or_of_lt a.isLt,
    Nat.shiftLeft_eq, Nat.shiftLeft_eq]

lemma ofBitVec_unpackSign_packComponents :
    Sign.ofBitVec (unpackSign (packComponents spec s a b)) = s := by
  rw [unpackSign_packComponents, Sign.ofBitVec_toBitVec]

lemma zero_ne_neg_one : (0#_ : BitVec spec.exponentBits) ≠ -1#_ := by
  have h := spec.he.ne'
  simpa using h

lemma unpack_packComponents_of_top :
    unpack spec (packComponents spec s (-1#_) b) =
      if b = 0#_ then .infinity s else .notANumber := by
  simp only [unpack, unpackExponent_packComponents, unpackMantissa_packComponents,
    ofBitVec_unpackSign_packComponents, if_true]

lemma sign?_unpack_packComponents (ha : a ≠ -1#_) :
    sign? (unpack spec (packComponents spec s a b)) = some s := by
  simp only [unpack, unpackExponent_packComponents, unpackMantissa_packComponents,
    ofBitVec_unpackSign_packComponents, if_neg ha]
  split
  · split
    · rfl
    · rfl
  · rfl

lemma eq_of_sign?_unpack {t : Sign} (h : sign? (unpack spec (packComponents spec s a b)) = some t) :
    s = t := by
  by_cases ha : a = -1#_
  · rw [ha, unpack_packComponents_of_top] at h
    split at h
    · exact Option.some.inj h
    · cases h
  · rw [sign?_unpack_packComponents ha] at h
    exact Option.some.inj h

end

lemma unpack_packedInfinity : unpack spec (packedInfinity spec s) = .infinity s :=
  unpack_packComponents_of_top.trans (if_pos rfl)

lemma sign?_unpack_pack (x : UnpackedFloat) : sign? (unpack spec (pack spec x)) = sign? x := by
  cases x with
  | notANumber => exact congrArg sign? unpack_packedNaN
  | infinity s => exact congrArg sign? unpack_packedInfinity
  | zero s => exact congrArg sign? unpack_packedZero
  | finite s m e hm =>
    simp only [pack]
    split
    · rw [unpack_packedInfinity]
      rfl
    · rename_i hlt
      split
      · refine sign?_unpack_packComponents fun h => ?_
        have hn := congrArg BitVec.toNat h
        rw [BitVec.toNat_ofNat, BitVec.neg_one_eq_allOnes, BitVec.toNat_allOnes,
          Nat.mod_eq_of_lt (by omega)] at hn
        omega
      · exact sign?_unpack_packComponents zero_ne_neg_one

lemma toNat_packedInfinity : (packedInfinity spec .positive).toNat =
    (2 ^ spec.exponentBits - 1) * 2 ^ spec.mantissaBitsWithoutImplicit := by
  simp [packedInfinity, toNat_packComponents, BitVec.neg_one_eq_allOnes, Sign.toBitVec]

lemma sign?_unpack_of_le {w : BitVec spec.numBits}
    (hw : w.toNat ≤ (packedInfinity spec .positive).toNat) :
    sign? (unpack spec w) = some .positive := by
  obtain ⟨s, a, b, rfl⟩ := exists_eq_packComponents w
  have hp : 0 < 2 ^ spec.exponentBits := Nat.two_pow_pos _
  rw [toNat_packedInfinity, toNat_packComponents] at hw
  have hle := Nat.le_of_mul_le_mul_right (Nat.le_of_add_right_le hw)
    (Nat.two_pow_pos spec.mantissaBitsWithoutImplicit)
  cases s with
  | negative =>
    have h1 : Sign.negative.toBitVec.toNat = 1 := rfl
    rw [h1, Nat.one_mul] at hle
    omega
  | positive =>
    by_cases ha : a = -1#_
    · have hn : a.toNat = 2 ^ spec.exponentBits - 1 := by
        rw [ha, BitVec.neg_one_eq_allOnes, BitVec.toNat_allOnes]
      have h0 : Sign.positive.toBitVec.toNat = 0 := rfl
      rw [h0, hn, Nat.zero_mul, Nat.zero_add] at hw
      have hb : b.toNat = 0 := by omega
      rw [ha, (BitVec.toNat_inj (y := 0#_)).mp (hb.trans (Nat.zero_mod _).symm)]
      exact congrArg sign? unpack_packedInfinity
    · exact sign?_unpack_packComponents ha

lemma toNat_lt_of_sign? {w : BitVec spec.numBits} (hw : sign? (unpack spec w) = some .positive) :
    w.toNat < 2 ^ spec.exponentBits * 2 ^ spec.mantissaBitsWithoutImplicit := by
  obtain ⟨s, a, b, rfl⟩ := exists_eq_packComponents w
  obtain rfl := eq_of_sign?_unpack hw
  have h0 : Sign.positive.toBitVec.toNat = 0 := rfl
  rw [toNat_packComponents, h0, Nat.zero_mul, Nat.zero_add]
  calc
    _ < (a.toNat + 1) * 2 ^ spec.mantissaBitsWithoutImplicit := by
      rw [Nat.succ_mul]
      exact Nat.add_lt_add_left b.isLt _
    _ ≤ _ := Nat.mul_le_mul_right _ a.isLt

lemma eq_packedZero_of_unpack {w : BitVec spec.numBits} (h : unpack spec w = .zero s) :
    w = packedZero spec s := by
  obtain ⟨t, a, b, rfl⟩ := exists_eq_packComponents w
  simp only [unpack, unpackExponent_packComponents, unpackMantissa_packComponents,
    ofBitVec_unpackSign_packComponents] at h
  split at h
  · split at h
    · cases h
    · cases h
  · split at h
    · rename_i ha
      split at h
      · rename_i hb
        cases h
        rw [ha, hb]
        rfl
      · cases h
    · cases h

end KalmanFilter.Unpacked
