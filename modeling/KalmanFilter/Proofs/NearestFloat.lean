import KalmanFilter.Proofs.MachineNeutral
import KalmanFilter.Proofs.NearestWord

namespace KalmanFilter

open Float.Model (Format UnpackedFloat)
open Float.Model.UnpackedFloat

namespace Unpacked

variable {spec : Format} {x : UnpackedFloat} {s : Sign} {m : ℕ} {e : ℤ}

def signed : Sign → ℚ → ℚ
  | .positive, v => v
  | .negative, v => -v

@[simp] lemma abs_signed (s : Sign) (v : ℚ) : |signed s v| = |v| := by
  cases s with
  | positive => rfl
  | negative => exact abs_neg v

lemma signed_sub (s : Sign) (v w : ℚ) : signed s v - signed s w = signed s (v - w) := by
  cases s with
  | positive => rfl
  | negative => exact (neg_sub' v w).symm

def value? : UnpackedFloat → Option ℚ
  | .finite s m e _ => some (signed s (m * 2 ^ e))
  | .zero _ => some 0
  | _ => none

def digits? : UnpackedFloat → Option (ℕ × ℤ)
  | .finite _ m e _ => some (m, e)
  | .zero _ => some (0, -1074)
  | _ => none

lemma value?_of_digits? (hd : digits? x = some (m, e)) (hs : sign? x = some s) :
    value? x = some (signed s (m * 2 ^ e)) := by
  cases x with
  | finite t m e hm =>
    cases hd
    cases hs
    rfl
  | zero t =>
    cases hd
    cases s <;> simp [value?, signed]
  | _ => cases hd

lemma exists_digits? {v : ℚ} (h : value? x = some v) :
    ∃ m e, digits? x = some (m, e) ∧ |v| = m * 2 ^ e := by
  cases x with
  | finite s m e hm =>
    obtain rfl := Option.some.inj h
    refine ⟨m, e, rfl, ?_⟩
    rw [abs_signed, abs_of_nonneg (by positivity)]
  | zero s =>
    obtain rfl := Option.some.inj h
    exact ⟨0, -1074, rfl, by simp⟩
  | _ => cases h

lemma sign?_neg (h : sign? x = some s) : sign? x.neg = some (-s) := by
  cases x with
  | notANumber => cases h
  | _ => exact congrArg (fun t => some (-t)) (Option.some.inj h)

lemma digits?_neg (x : UnpackedFloat) : digits? x.neg = digits? x := by
  cases x <;> rfl

lemma exists_unpack_eq_neg (w : BitVec spec.numBits) :
    ∃ w' : BitVec spec.numBits, (unpack spec w).neg = unpack spec w' := by
  obtain ⟨s, a, b, rfl⟩ := exists_eq_packComponents w
  refine ⟨packComponents spec (-s) a b, ?_⟩
  by_cases ha : a = -1#_
  · rw [ha, unpack_packComponents_of_top, unpack_packComponents_of_top]
    split <;> rfl
  by_cases h0 : a = 0#_
  · by_cases hb : b = 0#_
    · rw [h0, hb]
      have hz : ∀ t, unpack spec (packComponents spec t 0#_ 0#_) = .zero t := fun t =>
        unpack_packedZero
      rw [hz, hz]
      rfl
    · rw [h0, unpack_subnormal hb, unpack_subnormal hb]
      rfl
  · rw [unpack_normal ha h0, unpack_normal ha h0]
    rfl

lemma decode?_components {a b : ℕ} (hb : b < 2 ^ 52) :
    Binary.binary64.decode? (a * 2 ^ 52 + b) =
      if 2047 ≤ a then none
      else if a = 0 then some (b, (-1074 : ℤ)) else some (2 ^ 52 + b, (a - (1023 + 52) : ℤ)) := by
  by_cases htop : 2047 ≤ a
  · rw [if_pos htop]
    exact if_pos (show 2047 * 2 ^ 52 ≤ a * 2 ^ 52 + b by omega)
  have hw : a * 2 ^ 52 + b < Binary.binary64.infinity :=
    show a * 2 ^ 52 + b < 2047 * 2 ^ 52 by omega
  rw [if_neg htop]
  by_cases h0 : a = 0
  · rw [if_pos h0]
    rw [h0, Nat.zero_mul, Nat.zero_add] at hw ⊢
    exact Binary.Format.decode?_subnormal hb hw
  · have hcarry : a * 2 ^ 52 + b = 2 ^ 52 + b + (a - 1) * 2 ^ 52 := by omega
    have he : (-1074 + (a - 1 : ℕ) : ℤ) = a - (1023 + 52) := by omega
    rw [if_neg h0, ← he]
    rw [hcarry] at hw ⊢
    exact Binary.Format.decode?_normal (Nat.le_add_right _ _)
      (show 2 ^ 52 + b < 2 * 2 ^ 52 by omega) hw

lemma digits?_unpack (w : BitVec Format.binary64.numBits) :
    digits? (unpack .binary64 w) = Binary.binary64.decode? (w.toNat % Nat.pow 2 63) := by
  obtain ⟨s, a, b, rfl⟩ := exists_eq_packComponents w
  have hb : b.toNat < 2 ^ 52 := b.isLt
  have ha : a.toNat < 2 ^ 11 := a.isLt
  have hw : (packComponents .binary64 s a b).toNat % Nat.pow 2 63 =
      a.toNat * 2 ^ 52 + b.toNat := by
    rw [toNat_packComponents]
    show ((s.toBitVec.toNat * 2 ^ 11 + a.toNat) * 2 ^ 52 + b.toNat) % 2 ^ 63 = _
    omega
  rw [hw, decode?_components hb]
  by_cases htop : a = -1#_
  · have hn : 2047 ≤ a.toNat := by
      rw [htop]
      exact le_of_eq rfl
    rw [if_pos hn, htop, unpack_packComponents_of_top]
    split <;> rfl
  have hn : a.toNat + 1 < 2 ^ 11 := toNat_lt_of_ne_top htop
  rw [if_neg (by omega)]
  by_cases h0 : a = 0#_
  · have hn : a.toNat = 0 := by
      rw [h0]
      rfl
    rw [if_pos hn, h0]
    by_cases hb : b = 0#_
    · have hz : unpack .binary64 (packComponents .binary64 s 0#_ 0#_) = .zero s :=
        unpack_packedZero
      rw [hb, hz]
      rfl
    · rw [unpack_subnormal hb]
      rfl
  · rw [if_neg (toNat_pos_of_ne_zero h0).ne', unpack_normal htop h0]
    rfl

end Unpacked

namespace Machine

open Unpacked

def value? (x : Float) : Option ℚ :=
  Unpacked.value? (packing64.unpack x)

lemma decode?_eq (x : Float) : decode? x = digits? (packing64.unpack x) :=
  (digits?_unpack x.toModel.toBits.toBitVec).symm

lemma unpack_neg (x : Float) : packing64.unpack (-x) = (packing64.unpack x).neg := by
  have hx : ∃ w : BitVec Format.binary64.numBits, packing64.unpack x = unpack .binary64 w :=
    ⟨x.toModel.toBits.toBitVec, rfl⟩
  have hn : packing64.unpack (-x) = unpack .binary64 (pack .binary64 (packing64.unpack x).neg) :=
    rfl
  obtain ⟨w, hw⟩ := hx
  obtain ⟨w', hw'⟩ := exists_unpack_eq_neg w
  rw [hn, hw, hw', unpack_pack_unpack (by decide)]

lemma unpack_double (negative : Bool) (a b : ℕ) :
    digits? (packing64.unpack (double negative a b)) =
        Binary.binary64.decode? (Binary.binary64.nearest a b) ∧
      sign? (packing64.unpack (double negative a b)) =
        some (if negative then .negative else .positive) := by
  have hle : Binary.binary64.nearest a b ≤ 2047 * 2 ^ 52 := Nat.min_le_left _ _
  have hw : (Binary.binary64.nearest a b).toUInt64.toBitVec.toNat = Binary.binary64.nearest a b :=
    UInt64.toNat_ofNat_of_lt' (Nat.lt_of_le_of_lt hle (by decide))
  have hx : packing64.unpack (Float.ofBits (Binary.binary64.nearest a b).toUInt64) =
      unpack .binary64 (Binary.binary64.nearest a b).toUInt64.toBitVec :=
    unpack_pack_unpack (by decide) _
  have hd : digits? (packing64.unpack (Float.ofBits (Binary.binary64.nearest a b).toUInt64)) =
      Binary.binary64.decode? (Binary.binary64.nearest a b) := by
    rw [hx, digits?_unpack, hw]
    congr 1
    exact Nat.mod_eq_of_lt (lt_of_le_of_lt hle (by decide))
  have hs : sign? (packing64.unpack (Float.ofBits (Binary.binary64.nearest a b).toUInt64)) =
      some .positive := by
    rw [hx]
    refine sign?_unpack_of_le ?_
    rw [hw, toNat_packedInfinity]
    exact hle
  cases negative with
  | false => exact ⟨hd, hs⟩
  | true =>
    have hn : double true a b = -Float.ofBits (Binary.binary64.nearest a b).toUInt64 := rfl
    rw [hn, unpack_neg, digits?_neg]
    exact ⟨hd, sign?_neg hs⟩

lemma isFinite_double_iff (negative : Bool) (a : ℕ) {b : ℕ} (hb : 0 < b) :
    Arithmetic.isFinite (p := .double) (F := Machine) (double negative a b) = true ↔
      (a / b : ℚ) < 2 ^ 1024 - 2 ^ 970 := by
  have h : Arithmetic.isFinite (p := .double) (F := Machine) (double negative a b) =
      (decode? (double negative a b)).isSome := Option.isSome_map
  rw [h, decode?_eq, (unpack_double negative a b).1, Binary.Format.isSome_decode?_iff,
    Binary.Format.nearest_lt_infinity_iff hb]

/-- This float has this value, and it is the float for this number: no other one is nearer, and its
last digit is even if another one is as near. -/
structure IsRoundingOf (x : Float) (v q : ℚ) : Prop where
  value : value? x = some v
  nearest : ∀ y w, value? y = some w → |v - q| ≤ |w - q|
  tie : ∀ y w, value? y = some w → |w - q| = |v - q| → w ≠ v →
    ∃ m e, decode? x = some (m, e) ∧ Even m

lemma IsRoundingOf.of_alike {x y : Machine .double} {v q : ℚ} (hy : IsRoundingOf y v q)
    (h : Scalar.Alike x y) : IsRoundingOf x v q := by
  obtain rfl | ⟨hx, hz⟩ := h
  · exact hy
  obtain ⟨s, hs⟩ := packing64.isZero_iff.mp hx
  obtain ⟨t, ht⟩ := packing64.isZero_iff.mp hz
  have hv : value? x = value? y := by rw [value?, value?, hs, ht, Unpacked.value?, Unpacked.value?]
  have hd : decode? x = decode? y := by rw [decode?_eq, decode?_eq, hs, ht, digits?, digits?]
  exact ⟨hv.trans hy.value, hy.nearest, fun z w hw h hne => hd ▸ hy.tie z w hw h hne⟩

lemma exists_digits {x : Float} {v : ℚ} (h : value? x = some v) :
    ∃ (m : ℕ) (e : ℤ), m < 2 ^ 53 ∧ -1074 ≤ e ∧ |v| = m * 2 ^ e ∧ decode? x = some (m, e) := by
  obtain ⟨m, e, hd, hv⟩ := exists_digits? h
  rw [← decode?_eq] at hd
  obtain ⟨hm, he⟩ := Binary.Format.decode?_bounds (f := Binary.binary64) (by decide) hd
  exact ⟨m, e, hm, he, hv, hd⟩

lemma eq_of_abs_sub_eq {v w q : ℚ} {s : Sign} (hv : 0 ≤ v) (h0 : q = 0 → v = 0)
    (hw : |w| = v) (h : |w - signed s q| = |signed s v - signed s q|) : w = signed s v := by
  rcases abs_eq_abs.mp (hw.trans (abs_of_nonneg hv).symm |>.trans (abs_signed s v).symm) with
    hw | hw
  · exact hw
  -- the opposite number is as near only if one of the two is zero
  have hz : v = 0 := by
    rw [hw, ← sq_eq_sq_iff_abs_eq_abs] at h
    have hvq : v * q = 0 := by
      cases s <;> simp only [signed] at h <;> linarith
    rcases mul_eq_zero.mp hvq with hv | hq
    · exact hv
    · exact h0 hq
  rw [hw, hz]
  cases s <;> simp [signed]

lemma isRoundingOf_double (negative : Bool) (a : ℕ) {b : ℕ} (hb : 0 < b)
    (h : (a / b : ℚ) < 2 ^ 1024 - 2 ^ 970) :
    ∃ v, IsRoundingOf (double negative a b) v
      (signed (if negative then .negative else .positive) (a / b)) := by
  obtain ⟨hd, hs⟩ := unpack_double negative a b
  generalize (if negative then Sign.negative else Sign.positive) = s at hs
  obtain ⟨m, e, hm, hnear⟩ := Binary.Format.nearest_spec (f := Binary.binary64) (by decide) hb
    ((Binary.Format.nearest_lt_infinity_iff hb).mpr h)
  have hq : (0 : ℚ) ≤ a / b := by positivity
  have hv : (0 : ℚ) ≤ m * 2 ^ e := by positivity
  rw [hm] at hd
  have hother : ∀ y w, value? y = some w →
      |(m * 2 ^ e - a / b : ℚ)| ≤ |(|w| - a / b : ℚ)| ∧
        (|(|w| - a / b : ℚ)| = |(m * 2 ^ e - a / b : ℚ)| → |w| = m * 2 ^ e ∨ Even m) := by
    intro y w hy
    obtain ⟨k, e', hk, he', hw, -⟩ := exists_digits hy
    rw [hw]
    exact hnear k e' hk he'
  have hle : ∀ w : ℚ, |(|w| - a / b : ℚ)| ≤ |w - signed s (a / b)| := by
    intro w
    have hab := abs_abs_sub_abs_le w (signed s (a / b))
    rwa [abs_signed, abs_of_nonneg hq] at hab
  refine ⟨signed s (m * 2 ^ e), value?_of_digits? hd hs, ?_, ?_⟩
  · intro y w hy
    rw [signed_sub, abs_signed]
    exact (hother y w hy).1.trans (hle w)
  · intro y w hy hw hne
    rw [signed_sub, abs_signed] at hw
    obtain ⟨hmin, htie⟩ := hother y w hy
    rcases htie (le_antisymm (hw ▸ hle w) hmin) with habs | heven
    · refine absurd (eq_of_abs_sub_eq (q := a / b) hv ?_ habs ?_) hne
      · intro h0
        have hz := (hnear 0 0 (by decide) (by decide)).1
        rw [h0, Nat.cast_zero, zero_mul, sub_zero, sub_zero, abs_zero, abs_of_nonneg hv] at hz
        exact le_antisymm hz hv
      · rw [signed_sub, abs_signed, hw]
    · rw [decode?_eq]
      exact ⟨m, e, hd, heven⟩

lemma ofRatio_spec (i : ℤ) {b : ℕ} (hb : 0 < b) :
    (Arithmetic.isFinite (Arithmetic.ofRatio i b : Machine .double) = true ↔
      |(i / b : ℚ)| < 2 ^ 1024 - 2 ^ 970) ∧
    (|(i / b : ℚ)| < 2 ^ 1024 - 2 ^ 970 →
      ∃ v, IsRoundingOf (Arithmetic.ofRatio i b : Machine .double) v (i / b)) := by
  have habs : |(i / b : ℚ)| = i.natAbs / b := by
    rw [abs_div, Nat.abs_cast, Nat.cast_natAbs, Int.cast_abs]
  have hsign : (i / b : ℚ) =
      signed (if decide (i < 0) then .negative else .positive) (i.natAbs / b) := by
    rw [← habs]
    by_cases hi : i < 0
    · have hq : (i / b : ℚ) ≤ 0 :=
        div_nonpos_of_nonpos_of_nonneg (Int.cast_nonpos.mpr hi.le) (Nat.cast_nonneg b)
      simp [hi, signed, abs_of_nonpos hq]
    · have hq : (0 : ℚ) ≤ i / b :=
        div_nonneg (Int.cast_nonneg (Int.not_lt.mp hi)) (Nat.cast_nonneg b)
      simp [hi, signed, abs_of_nonneg hq]
  rw [habs]
  refine ⟨isFinite_double_iff _ _ hb, fun h => ?_⟩
  rw [hsign]
  exact isRoundingOf_double _ _ hb h

lemma bounded_eq {x : Float} : (Number.bounded x : Fallible Machine Float) =
    if Arithmetic.isFinite (F := Machine) (p := .double) x then .ok x else .error .overflow :=
  rfl

lemma isFinite_power {x : Float} {v : ℚ} (hx : value? x = some v) (hv : |v| ≤ 1) (k : ℕ) :
    Arithmetic.isFinite (F := Machine) (p := .double) (power x k) = true := by
  obtain ⟨m, e, -, -, hm, hd⟩ := exists_digits hx
  rw [power, hd]
  dsimp only
  rw [isFinite_double_iff _ _ (Binary.inUnits_pos Nat.one_pos _ _), Binary.inUnits_div]
  have hq : ((m.pow k : ℕ) / (1 : ℕ) / 2 ^ (-(e * k)) : ℚ) = |v| ^ k := by
    rw [hm, mul_pow, ← zpow_natCast (2 ^ e), ← zpow_mul, zpow_neg, div_inv_eq_mul]
    simp
  rw [hq]
  exact (pow_le_one₀ (abs_nonneg v) hv).trans_lt Binary.one_lt_limit

end Machine

end KalmanFilter
