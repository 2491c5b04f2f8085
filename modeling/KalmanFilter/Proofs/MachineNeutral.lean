import KalmanFilter.Proofs.MachineRounding
import KalmanFilter.Proofs.Neutral

/-! What zero and one do among the floats of the machine. A word is unpacked into
the digits and the exponent that rounding would choose for it, so a factor of one is
rounded away without a trace. -/

namespace KalmanFilter

open Float.Model (Format UnpackedFloat totalExponent)
open Float.Model.UnpackedFloat

namespace Unpacked

variable {spec : Format} {x y : UnpackedFloat} {s t : Sign} {m : ℕ} {e : ℤ}

def IsRounded (spec : Format) : UnpackedFloat → Prop
  | .finite _ m e _ => spec.targetExponent (totalExponent m e) = e
  | _ => True

section

variable {a : BitVec spec.exponentBits} {b : BitVec spec.mantissaBitsWithoutImplicit}

lemma toNat_lt_of_ne_top (ha : a ≠ -1#_) : a.toNat + 1 < 2 ^ spec.exponentBits := by
  have hn : a.toNat ≠ 2 ^ spec.exponentBits - 1 := fun h => ha <| BitVec.eq_of_toNat_eq <| by
    rw [h, BitVec.neg_one_eq_allOnes, BitVec.toNat_allOnes]
  have := a.isLt
  omega

lemma toNat_pos_of_ne_zero {n : ℕ} {b : BitVec n} (hb : b ≠ 0#_) : 0 < b.toNat :=
  Nat.pos_of_ne_zero fun h => hb (BitVec.eq_of_toNat_eq h)

lemma unpack_subnormal (hb : b ≠ 0#_) :
    unpack spec (packComponents spec s 0#_ b) = .finite s b.toNat
      (1 - (spec.exponentBias + spec.mantissaBitsWithoutImplicit)) (toNat_pos_of_ne_zero hb) := by
  simp only [unpack, unpackExponent_packComponents, unpackMantissa_packComponents,
    ofBitVec_unpackSign_packComponents, if_neg zero_ne_neg_one, if_true, dif_neg hb]
  congr 1
  rw [BitVec.toNat_ofNat, Nat.zero_mod]
  omega

lemma unpack_normal (ha : a ≠ -1#_) (h0 : a ≠ 0#_) :
    unpack spec (packComponents spec s a b) = .finite s
      (2 ^ spec.mantissaBitsWithoutImplicit + b.toNat)
      (a.toNat - (spec.exponentBias + spec.mantissaBitsWithoutImplicit)) (by positivity) := by
  have hm : (1#1 ++ b).toNat = 2 ^ spec.mantissaBitsWithoutImplicit + b.toNat := by
    rw [BitVec.toNat_append, ← Nat.shiftLeft_add_eq_or_of_lt b.isLt, Nat.shiftLeft_eq,
      BitVec.toNat_one Nat.one_pos, Nat.one_mul]
  simp only [unpack, unpackExponent_packComponents, unpackMantissa_packComponents,
    ofBitVec_unpackSign_packComponents, if_neg ha, if_neg h0, hm]

lemma log2_normal : (2 ^ spec.mantissaBitsWithoutImplicit + b.toNat).log2 =
    spec.mantissaBitsWithoutImplicit := by
  have := b.isLt
  refine (Nat.log2_eq_iff (by positivity)).mpr ⟨Nat.le_add_right _ _, ?_⟩
  rw [Nat.pow_succ]
  omega

lemma log2_subnormal_lt (hb : b ≠ 0#_) : b.toNat.log2 < spec.mantissaBitsWithoutImplicit :=
  (Nat.log2_lt (toNat_pos_of_ne_zero hb).ne').mpr b.isLt

lemma isRounded_unpack (w : BitVec spec.numBits) : IsRounded spec (unpack spec w) := by
  obtain ⟨s, a, b, rfl⟩ := exists_eq_packComponents w
  have hE := Nat.two_pow_pos (spec.exponentBits - 1)
  by_cases ha : a = -1#_
  · rw [ha, unpack_packComponents_of_top]
    split <;> trivial
  by_cases h0 : a = 0#_
  · by_cases hb : b = 0#_
    · rw [h0, hb]
      have h0 : unpack spec (packComponents spec s 0#_ 0#_) = .zero s := unpack_packedZero
      exact h0.symm ▸ trivial
    · rw [h0, unpack_subnormal hb]
      have hl := log2_subnormal_lt hb
      simp only [IsRounded, Format.targetExponent, totalExponent, Format.minExponent,
        Format.mantissaBits, Format.exponentBias]
      push_cast [Nat.one_le_two_pow]
      omega
  · rw [unpack_normal ha h0]
    have hp := toNat_pos_of_ne_zero h0
    simp only [IsRounded, Format.targetExponent, totalExponent, Format.minExponent,
      Format.mantissaBits, Format.exponentBias, log2_normal]
    push_cast [Nat.one_le_two_pow]
    omega

lemma pack_unpack_of_ne (hE : 1 < spec.exponentBits) {w : BitVec spec.numBits}
    (hw : unpack spec w ≠ .notANumber) : pack spec (unpack spec w) = w := by
  obtain ⟨s, a, b, rfl⟩ := exists_eq_packComponents w
  by_cases ha : a = -1#_
  · rw [ha, unpack_packComponents_of_top] at hw ⊢
    by_cases hb : b = 0#_
    · rw [if_pos hb, hb]
      rfl
    · exact absurd (if_neg hb) hw
  have h4 : 2 ^ 2 ≤ 2 ^ spec.exponentBits := Nat.pow_le_pow_right Nat.two_pos hE
  by_cases h0 : a = 0#_
  · by_cases hb : b = 0#_
    · rw [h0, hb]
      exact congrArg (pack spec) unpack_packedZero
    · rw [h0, unpack_subnormal hb]
      have hl := log2_subnormal_lt hb
      have he : (1 - ((spec.exponentBias : ℤ) + spec.mantissaBitsWithoutImplicit) +
          spec.exponentBias + spec.mantissaBitsWithoutImplicit).toNat = 1 := by omega
      simp only [pack, he]
      rw [if_neg (by omega), if_neg (by rw [Format.mantissaBits]; omega), BitVec.ofNat_toNat,
        BitVec.setWidth_eq]
  · rw [unpack_normal ha h0]
    have hlt := toNat_lt_of_ne_top ha
    have he : ((a.toNat : ℤ) - (spec.exponentBias + spec.mantissaBitsWithoutImplicit) +
        spec.exponentBias + spec.mantissaBitsWithoutImplicit).toNat = a.toNat := by omega
    have hb : BitVec.ofNat spec.mantissaBitsWithoutImplicit
        (2 ^ spec.mantissaBitsWithoutImplicit + b.toNat) = b := by
      refine BitVec.eq_of_toNat_eq ?_
      rw [BitVec.toNat_ofNat, Nat.add_mod_left, Nat.mod_eq_of_lt b.isLt]
    simp only [pack, he, log2_normal]
    rw [if_neg (by omega), if_pos (by rw [Format.mantissaBits]; omega), hb, BitVec.ofNat_toNat,
      BitVec.setWidth_eq]

lemma pack_unpack (hE : 1 < spec.exponentBits) {w : BitVec spec.numBits} (hw : spec.Valid w) :
    pack spec (unpack spec w) = w := by
  by_cases hn : unpack spec w = .notANumber
  · have h : unpackExponent w = -1#_ ∧ unpackMantissa w ≠ 0#_ := by
      obtain ⟨s, a, b, rfl⟩ := exists_eq_packComponents w
      rw [unpackExponent_packComponents, unpackMantissa_packComponents]
      by_cases ha : a = -1#_
      · refine ⟨ha, fun hb => ?_⟩
        rw [ha, unpack_packComponents_of_top, if_pos hb] at hn
        cases hn
      · have hs := sign?_unpack_packComponents (s := s) (b := b) ha
        rw [hn] at hs
        cases hs
    rw [hn]
    exact (hw.eq_packedNaN h.1 h.2).symm
  · exact pack_unpack_of_ne hE hn

lemma unpack_pack_unpack (hE : 1 < spec.exponentBits) (w : BitVec spec.numBits) :
    unpack spec (pack spec (unpack spec w)) = unpack spec w := by
  by_cases hn : unpack spec w = .notANumber
  · rw [hn]
    exact unpack_packedNaN
  · rw [pack_unpack_of_ne hE hn]

end

lemma shiftRight_exact (m k : ℕ) :
    ExtendedMantissa.ofMantissaAndAccuracy (m * 2 ^ k) .exact >>> k =
      ExtendedMantissa.ofMantissaAndAccuracy m .exact := by
  induction k generalizing m with
  | zero =>
    rw [Nat.pow_zero, Nat.mul_one]
    rfl
  | succ k ih =>
    have hs : (ExtendedMantissa.ofMantissaAndAccuracy (m * 2) .exact).shiftRightOne =
        .ofMantissaAndAccuracy m .exact := by
      simp [ExtendedMantissa.shiftRightOne, ExtendedMantissa.ofMantissaAndAccuracy]
    rw [Nat.pow_succ', ← Nat.mul_assoc, ← hs, ← ih (m * 2)]
    rfl

lemma totalExponent_scaled (hm : m ≠ 0) (e : ℤ) (k : ℕ) :
    totalExponent (m * 2 ^ k) (e - k) = totalExponent m e := by
  have hl : (m * 2 ^ k).log2 = m.log2 + k := by
    induction k with
    | zero => rw [Nat.pow_zero, Nat.mul_one, Nat.add_zero]
    | succ k ih =>
      rw [Nat.pow_succ', Nat.mul_left_comm, Nat.log2_two_mul (by positivity), ih, Nat.add_assoc]
  rw [totalExponent, totalExponent, hl]
  push_cast
  omega

lemma roundWithAccuracy_scaled (hm : 0 < m) (he : spec.targetExponent (totalExponent m e) = e)
    (s : Sign) (k : ℕ) : roundWithAccuracy spec s (m * 2 ^ k) (e - k) .exact = .finite s m e hm := by
  have hs : ∀ j : ℕ, shiftToTargetExponent spec (m * 2 ^ j) (e - j) .exact =
      (.ofMantissaAndAccuracy m .exact, e) := by
    intro j
    have hj : (e - (e - j)).toNat = j := by omega
    have hj' : e - j + j = e := by omega
    rw [shiftToTargetExponent, totalExponent_scaled hm.ne', he, shiftToExponent, hj,
      shiftRight_exact, hj']
  have h0 := hs 0
  rw [Nat.pow_zero, Nat.mul_one, Int.natCast_zero, Int.sub_zero] at h0
  have hm' : (ExtendedMantissa.ofMantissaAndAccuracy m .exact).roundedMantissa = m := rfl
  -- the first shift leaves nothing for the second one
  simp only [roundWithAccuracy, hs k, hm', h0]
  exact dif_neg hm.ne'

lemma mul_comm (spec : Format) (x y : UnpackedFloat) : mul spec x y = mul spec y x := by
  have hs : ∀ s t : Sign, s * t = t * s := fun s t => by cases s <;> cases t <;> rfl
  cases x <;> cases y <;> simp only [UnpackedFloat.mul, hs, Nat.mul_comm, Int.add_comm]

lemma one_mul (hx : IsRounded spec x) (k : ℕ) (hk : 0 < 2 ^ k) :
    mul spec (.finite .positive (2 ^ k) (-k) hk) x = x := by
  have hs : ∀ s : Sign, .positive * s = s := fun s => by cases s <;> rfl
  cases x with
  | notANumber => rfl
  | finite s m e hm =>
    have he : -(k : ℤ) + e = e - k := by omega
    rw [UnpackedFloat.mul, hs, Nat.mul_comm, he]
    exact roundWithAccuracy_scaled hm hx s k
  | infinity s => exact congrArg UnpackedFloat.infinity (hs s)
  | zero s => exact congrArg UnpackedFloat.zero (hs s)

lemma zero_add (spec : Format) (s : Sign) (y : UnpackedFloat) : add spec (.zero s) y = y ∨
    ∃ t u, y = .zero t ∧ add spec (.zero s) y = .zero u := by
  cases y with
  | zero t =>
    refine .inr ⟨t, if s == t then s else .positive, rfl, ?_⟩
    cases s <;> cases t <;> rfl
  | _ => exact .inl rfl

lemma eq_zero_of_le_of_le (h : x.le (.zero s) = true) (h' : (UnpackedFloat.zero s).le x = true) :
    ∃ t, x = .zero t := by
  rw [le_iff] at h h'
  obtain ⟨hx, -, h⟩ := h
  have hr := le_antisymm h h'.2.2
  rcases x with (_ | _) | _ | t | ⟨_ | _, m, e, _⟩
  case zero => exact ⟨t, rfl⟩
  all_goals simp_all [rank]

end Unpacked

namespace Packing

open Unpacked Scalar

variable {α : Type} [Scalar α] {spec : Format} (P : Packing α spec) {a b : α} {s : Sign}

structure IsExact : Prop where
  pack_unpack (a : α) : P.pack (P.unpack a) = a
  isRounded_unpack (a : α) : IsRounded spec (P.unpack a)
  unpack_one : ∃ (k : ℕ) (hk : 0 < 2 ^ k), P.unpack 1 = .finite .positive (2 ^ k) (-k) hk
  isFinite_half : IsFinite (0.5 : α)

lemma unpack_pack_zero (s : Sign) : P.unpack (P.pack (.zero s)) = .zero s :=
  (P.unpack_pack _).trans unpack_packedZero

lemma isZero_iff : IsZero a ↔ ∃ s, P.unpack a = .zero s := by
  have h0 : P.unpack 0 = .zero .positive := P.zero_eq ▸ P.unpack_pack_zero _
  rw [IsZero, same, Bool.and_eq_true, decide_eq_true_iff, decide_eq_true_iff, P.le_iff, P.le_iff, h0]
  constructor
  · rintro ⟨h, h'⟩
    exact eq_zero_of_le_of_le h h'
  · rintro ⟨s, hs⟩
    rw [hs]
    exact ⟨Unpacked.zero_le_iff.mpr (.inl ⟨_, rfl⟩), Unpacked.zero_le_iff.mpr (.inl ⟨_, rfl⟩)⟩

lemma isZero_pack (s : Sign) : IsZero (P.pack (.zero s)) :=
  P.isZero_iff.mpr ⟨s, P.unpack_pack_zero s⟩

lemma isFinite_iff : IsFinite a ↔ sub spec (P.unpack a) (P.unpack a) ≠ .notANumber := by
  rw [Scalar.IsFinite, P.sub_eq, P.isNumber_pack_iff]

variable {P}

lemma IsExact.eq_pack_zero (h : P.IsExact) (ha : IsZero a) : ∃ s, a = P.pack (.zero s) := by
  obtain ⟨s, hs⟩ := P.isZero_iff.mp ha
  exact ⟨s, by rw [← hs, h.pack_unpack]⟩

lemma IsExact.neutral (h : P.IsExact) : Neutral α where
  toRounded := P.rounded
  mul_comm a b := by rw [P.mul_eq, P.mul_eq, Unpacked.mul_comm]
  one_mul a := by
    obtain ⟨k, hk, h1⟩ := h.unpack_one
    rw [P.mul_eq, h1, Unpacked.one_mul (h.isRounded_unpack a), h.pack_unpack]
  isZero_zero := P.zero_eq ▸ P.isZero_pack _
  zero_add {a} b ha := by
    obtain ⟨s, hs⟩ := P.isZero_iff.mp ha
    rw [P.add_eq, hs]
    obtain hy | ⟨t, u, ht, hu⟩ := Unpacked.zero_add spec s (P.unpack b)
    · exact .inl (by rw [hy, h.pack_unpack])
    · exact .inr ⟨hu ▸ P.isZero_pack u, P.isZero_iff.mpr ⟨t, ht⟩⟩
  zero_mul {a b} ha hb := by
    obtain ⟨s, hs⟩ := P.isZero_iff.mp ha
    rw [P.mul_eq, hs]
    rw [P.isFinite_iff] at hb
    cases hy : P.unpack b with
    | notANumber =>
      rw [hy] at hb
      exact absurd rfl hb
    | infinity t =>
      rw [hy] at hb
      exact absurd (by cases t <;> rfl) hb
    | _ => exact P.isZero_pack _
  isFinite_of_isZero {a} ha := by
    obtain ⟨s, hs⟩ := P.isZero_iff.mp ha
    rw [P.isFinite_iff, hs]
    cases s <;> exact UnpackedFloat.noConfusion
  isFinite_half := h.isFinite_half

end Packing

namespace Machine

lemma packing64_isExact : packing64.IsExact where
  pack_unpack a := by
    obtain ⟨⟨w, hw⟩⟩ := a
    have h := congrArg UInt64.ofBitVec (Unpacked.pack_unpack (by decide) hw)
    have hm : ∀ {u} (hu : u = w) (hv : Format.binary64.Valid u.toBitVec),
        Float.Model.mk u hv = ⟨w, hw⟩ := by
      rintro u rfl _
      rfl
    exact congrArg Float.ofModel (hm h _)
  isRounded_unpack a := Unpacked.isRounded_unpack _
  unpack_one := ⟨52, by decide, rfl⟩
  isFinite_half := by decide +kernel

lemma packing32_isExact : packing32.IsExact where
  pack_unpack a := by
    obtain ⟨⟨w, hw⟩⟩ := a
    have h := congrArg UInt32.ofBitVec (Unpacked.pack_unpack (by decide) hw)
    have hm : ∀ {u} (hu : u = w) (hv : Format.binary32.Valid u.toBitVec),
        Float32.Model.mk u hv = ⟨w, hw⟩ := by
      rintro u rfl _
      rfl
    exact congrArg Float32.ofModel (hm h _)
  isRounded_unpack a := Unpacked.isRounded_unpack _
  unpack_one := ⟨23, by decide, rfl⟩
  isFinite_half := by decide +kernel

lemma isZero_convert : {p q : Precision} → {x : Machine p} → Scalar.IsZero x →
    Scalar.IsZero (Arithmetic.convert x : Machine q)
  | .double, .double, _, hx => hx
  | .single, .single, _, hx => hx
  | .double, .single, x, hx => by
    obtain ⟨s, hs⟩ := packing64_isExact.eq_pack_zero hx
    subst hs
    cases s <;> decide +kernel
  | .single, .double, x, hx => by
    obtain ⟨s, hs⟩ := packing32_isExact.eq_pack_zero hx
    subst hs
    cases s <;> decide +kernel

lemma roundDiv_zero (b : ℕ) : Binary.roundDiv 0 b = 0 := by
  simp [Binary.roundDiv]

lemma nearest_zero (f : Binary.Format) (b : ℕ) : f.nearest 0 b = 0 := by
  have he : f.unitExponent 0 b = f.leastExponent := by simp [Binary.Format.unitExponent]
  simp [Binary.Format.nearest, he, Binary.inUnits, roundDiv_zero]

lemma nearest_pos {n : ℕ} (hn : 0 < n) : 0 < Binary.binary64.nearest n 1 := by
  have he : Binary.binary64.leastExponent < Binary.binary64.unitExponent n 1 := by
    have hl : Nat.log2 1 = 0 := by decide
    rw [Binary.Format.unitExponent, if_neg hn.ne', hl]
    refine lt_max_of_lt_right ?_
    simp only [Binary.binary64]
    split_ifs <;> omega
  refine Nat.lt_min.mpr ⟨by decide, Nat.add_pos_right _ (Nat.mul_pos ?_ (Nat.two_pow_pos _))⟩
  omega

lemma not_isZero_double {n : ℕ} (hn : 0 < n) : ¬ Scalar.IsZero (double false n 1) := by
  intro h
  obtain ⟨s, hs⟩ := packing64.isZero_iff.mp h
  have hw : (Binary.binary64.nearest n 1).toUInt64.toNat = Binary.binary64.nearest n 1 :=
    UInt64.toNat_ofNat_of_lt' (Nat.lt_of_le_of_lt (Nat.min_le_left _ _) (by decide))
  have hz : (Binary.binary64.nearest n 1).toUInt64.toBitVec = packedZero .binary64 s :=
    Unpacked.eq_packedZero_of_unpack ((Unpacked.unpack_pack_unpack (by decide) _).symm.trans hs)
  have ht := (congrArg BitVec.toNat hz).symm.trans hw
  have hm : Binary.binary64.nearest n 1 ≤ Binary.binary64.infinity := Nat.min_le_left _ _
  rw [← ht] at hm
  cases s with
  | positive => exact (nearest_pos hn).ne ht
  | negative => exact absurd hm (by decide)

lemma not_isZero_ofInt {i : ℤ} (hi : 0 < i) :
    ¬ Scalar.IsZero (Arithmetic.ofInt .double i : Machine .double) := by
  have hn : decide (i < 0) = false := decide_eq_false (Int.not_lt.mpr hi.le)
  show ¬ Scalar.IsZero (double (decide (i < 0)) i.natAbs 1)
  rw [hn]
  exact not_isZero_double (Int.natAbs_pos.mpr hi.ne')

lemma zero_div {y : Machine .double} (hy : 0 ≤ y) (h0 : ¬ Scalar.IsZero y) :
    (0 : Machine .double) / y = 0 := by
  have hd : Float.Model.UnpackedFloat.div .binary64 (.zero .positive) (packing64.unpack y) =
      .zero .positive := by
    obtain hz | hs := Unpacked.zero_le_iff.mp (packing64.zero_le_iff.mp hy)
    · exact absurd (packing64.isZero_iff.mpr hz) h0
    cases hu : packing64.unpack y with
    | notANumber =>
      rw [hu] at hs
      cases hs
    | zero t => exact absurd (packing64.isZero_iff.mpr ⟨t, hu⟩) h0
    | _ =>
      rw [hu] at hs
      cases hs
      rfl
  exact congrArg packing64.pack hd

lemma power_zero (k : ℕ) : power 0 k = if k = 0 then 1 else 0 := by
  cases k with
  | zero => decide +kernel
  | succ k =>
    have hd : decode? 0 = some (0, -1074) := by decide +kernel
    have hn : isNegative 0 = false := by decide +kernel
    have h0 : Nat.pow 0 (k + 1) = 0 := Nat.zero_pow k.succ_pos
    have hz : double false 0 = fun _ => 0 := by
      funext b
      rw [double, nearest_zero]
      decide +kernel
    rw [power, hd]
    show double (isNegative 0 && _) (Nat.pow 0 (k + 1) * _) _ = _
    rw [hn, h0, Nat.zero_mul, Bool.false_and, hz, if_neg k.succ_ne_zero]

end Machine

instance : NeutralArithmetic Machine where
  neutral p := by
    cases p with
    | single => exact Machine.packing32_isExact.neutral
    | double => exact Machine.packing64_isExact.neutral
  zero_add_zero p := by cases p <;> decide +kernel
  zero_add_one p := by cases p <;> decide +kernel
  isZero_convert := Machine.isZero_convert
  convert_zero p q := by cases p <;> cases q <;> decide +kernel
  convert_one p q := by cases p <;> cases q <;> decide +kernel
  ofInt_zero p := by cases p <;> decide +kernel
  ofInt_one p := by cases p <;> decide +kernel
  not_isZero_ofInt := Machine.not_isZero_ofInt
  zero_div_ofInt hi := Machine.zero_div (RoundedArithmetic.ofInt_nonneg hi.le)
    (Machine.not_isZero_ofInt hi)
  one_div_one := by decide +kernel
  power_zero := Machine.power_zero
  truncate?_zero := by decide +kernel
  truncate?_one := by decide +kernel
  isFinite_zero := by decide +kernel
  isFinite_one := by decide +kernel

end KalmanFilter
