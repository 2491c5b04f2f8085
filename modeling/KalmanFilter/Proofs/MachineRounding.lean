import KalmanFilter.Proofs.Rounding
import KalmanFilter.Proofs.UnpackedFloat

namespace KalmanFilter

open Float.Model (Format UnpackedFloat)
open Unpacked

structure Packing (α : Type) [Scalar α] (spec : Format) where
  unpack : α → UnpackedFloat
  pack : UnpackedFloat → α
  unpack_pack (x : UnpackedFloat) :
    unpack (pack x) = UnpackedFloat.unpack spec (UnpackedFloat.pack spec x)
  zero_eq : (0 : α) = pack (.zero .positive)
  add_eq (a b : α) : a + b = pack (UnpackedFloat.add spec (unpack a) (unpack b))
  sub_eq (a b : α) : a - b = pack (UnpackedFloat.sub spec (unpack a) (unpack b))
  mul_eq (a b : α) : a * b = pack (UnpackedFloat.mul spec (unpack a) (unpack b))
  div_eq (a b : α) : a / b = pack (UnpackedFloat.div spec (unpack a) (unpack b))
  sqrt_eq (a : α) : Scalar.sqrt a = pack (UnpackedFloat.sqrt spec (unpack a))
  abs_eq (a : α) : Scalar.abs a = pack (unpack a).abs
  le_iff (a b : α) : a ≤ b ↔ (unpack a).le (unpack b) = true
  lt_iff (a b : α) : a < b ↔ (unpack a).lt (unpack b) = true

namespace Packing

variable {α : Type} [Scalar α] {spec : Format} (P : Packing α spec) {a b c : α}
  {x : UnpackedFloat}

lemma isNumber_iff : Scalar.IsNumber a ↔ P.unpack a ≠ .notANumber := by
  simp [Scalar.IsNumber, P.le_iff, Unpacked.le_iff]

lemma isNumber_pack_iff : Scalar.IsNumber (P.pack x) ↔ x ≠ .notANumber := by
  rw [P.isNumber_iff, P.unpack_pack, ne_eq, ← sign?_eq_none_iff, sign?_unpack_pack,
    sign?_eq_none_iff]

lemma zero_le_iff : 0 ≤ a ↔ (UnpackedFloat.zero .positive).le (P.unpack a) = true := by
  have h0 : P.unpack (P.pack (.zero .positive)) = .zero .positive :=
    (P.unpack_pack _).trans UnpackedFloat.unpack_packedZero
  rw [P.le_iff, P.zero_eq, h0]

lemma zero_le_pack (h : (UnpackedFloat.zero .positive).le x = true) : 0 ≤ P.pack x := by
  rw [P.zero_le_iff, P.unpack_pack]
  rw [Unpacked.zero_le_iff] at h ⊢
  rcases h with ⟨t, rfl⟩ | h
  · exact .inl ⟨t, UnpackedFloat.unpack_packedZero⟩
  · exact .inr ((sign?_unpack_pack x).trans h)

include P in
lemma rounded : Rounded α where
  add_comm a b := by rw [P.add_eq, P.add_eq, Unpacked.add_comm]
  isNumber_of_le h := by
    obtain ⟨ha, hb, -⟩ := Unpacked.le_iff.mp ((P.le_iff _ _).mp h)
    exact ⟨P.isNumber_iff.mpr ha, P.isNumber_iff.mpr hb⟩
  isNumber_of_lt h := by
    obtain ⟨ha, hb, -⟩ := Unpacked.lt_iff.mp ((P.lt_iff _ _).mp h)
    exact ⟨P.isNumber_iff.mpr ha, P.isNumber_iff.mpr hb⟩
  not_lt_iff ha hb := by
    have ha := P.isNumber_iff.mp ha
    have hb := P.isNumber_iff.mp hb
    rw [P.lt_iff, P.le_iff, Unpacked.lt_iff, Unpacked.le_iff]
    simp [ha, hb]
  le_trans hab hbc := by
    obtain ⟨ha, -, hab⟩ := Unpacked.le_iff.mp ((P.le_iff _ _).mp hab)
    obtain ⟨-, hc, hbc⟩ := Unpacked.le_iff.mp ((P.le_iff _ _).mp hbc)
    exact (P.le_iff _ _).mpr (Unpacked.le_iff.mpr ⟨ha, hc, hab.trans hbc⟩)
  isNumber_of_sub {a b} h := by
    rw [P.sub_eq, P.isNumber_pack_iff] at h
    refine P.isNumber_iff.mpr fun ha => h ?_
    rw [ha]
    cases P.unpack b <;> rfl
  sub_self {a} h := by
    rw [P.sub_eq] at h ⊢
    rcases Unpacked.sub_self spec (P.unpack a) with hs | hs
    · rw [hs, P.zero_eq]
    · exact absurd hs (P.isNumber_pack_iff.mp h)
  isNumber_of_abs {a} h := by
    rw [P.abs_eq, P.isNumber_pack_iff] at h
    refine P.isNumber_iff.mpr fun ha => h ?_
    rw [ha]
    rfl
  abs_zero := by
    rw [P.abs_eq, P.zero_eq, P.unpack_pack]
    exact congrArg (fun x => P.pack x.abs) UnpackedFloat.unpack_packedZero
  abs_nonneg {a} h := by
    rw [P.abs_eq]
    exact P.zero_le_pack (Unpacked.zero_le_iff.mpr (.inr (sign?_abs (P.isNumber_iff.mp h))))
  mul_nonneg {a b} ha hb h := by
    rw [P.mul_eq] at h ⊢
    exact P.zero_le_pack
      (Unpacked.mul_nonneg (P.zero_le_iff.mp ha) (P.zero_le_iff.mp hb) (P.isNumber_pack_iff.mp h))

lemma zero_le_of_word {w : BitVec spec.numBits}
    (hw : w.toNat ≤ (UnpackedFloat.packedInfinity spec .positive).toNat) :
    0 ≤ P.pack (UnpackedFloat.unpack spec w) :=
  P.zero_le_pack (Unpacked.zero_le_iff.mpr (.inr (sign?_unpack_of_le hw)))

end Packing

namespace Machine

def packing64 : Packing Float .binary64 where
  unpack x := x.toModel.unpack
  pack x := .ofModel (.pack x)
  unpack_pack _ := rfl
  zero_eq := by decide
  add_eq _ _ := rfl
  sub_eq _ _ := rfl
  mul_eq _ _ := rfl
  div_eq _ _ := rfl
  sqrt_eq _ := rfl
  abs_eq _ := rfl
  le_iff _ _ := decide_eq_true_iff
  lt_iff _ _ := decide_eq_true_iff

def packing32 : Packing Float32 .binary32 where
  unpack x := x.toModel.unpack
  pack x := .ofModel (.pack x)
  unpack_pack _ := rfl
  zero_eq := by decide
  add_eq _ _ := rfl
  sub_eq _ _ := rfl
  mul_eq _ _ := rfl
  div_eq _ _ := rfl
  sqrt_eq _ := rfl
  abs_eq _ := rfl
  le_iff _ _ := decide_eq_true_iff
  lt_iff _ _ := decide_eq_true_iff

lemma zero_le_single (a b : ℕ) : 0 ≤ single false a b := by
  refine packing32.zero_le_of_word ?_
  rw [toNat_packedInfinity, UInt32.toNat_toBitVec, Nat.toUInt32_eq, UInt32.toNat_ofNat']
  exact (Nat.mod_le _ _).trans (Nat.min_le_left _ _)

lemma zero_le_double (a b : ℕ) : 0 ≤ double false a b := by
  refine packing64.zero_le_of_word ?_
  rw [toNat_packedInfinity, UInt64.toNat_toBitVec, Nat.toUInt64_eq, UInt64.toNat_ofNat']
  exact (Nat.mod_le _ _).trans (Nat.min_le_left _ _)

lemma eq_neg_zero {x : Float} (hx : 0 ≤ x) (hn : isNegative x = true) : x = -0 := by
  obtain ⟨⟨⟨w⟩, hv⟩⟩ := x
  have hw : 2 ^ 63 ≤ w.toNat := of_decide_eq_true hn
  rcases Unpacked.zero_le_iff.mp (packing64.zero_le_iff.mp hx) with ⟨t, ht⟩ | hs
  · obtain rfl := eq_packedZero_of_unpack ht
    cases t with
    | positive => exact absurd hw (by decide)
    | negative => rfl
  · exact absurd (toNat_lt_of_sign? hs) (Nat.not_lt.mpr hw)

lemma zero_le_round {x : Float} (hx : 0 ≤ x) : 0 ≤ round x := by
  cases hn : isNegative x with
  | true =>
    rw [eq_neg_zero hx hn]
    decide +kernel
  | false =>
    rw [round, hn]
    split
    · exact zero_le_single _ _
    · have hn : x ≤ x := (packing64.rounded.isNumber_of_le hx).2
      rw [if_pos hn]
      exact zero_le_single _ _

end Machine

instance : RoundedArithmetic Machine where
  rounded p := by
    cases p with
    | single => exact Machine.packing32.rounded
    | double => exact Machine.packing64.rounded
  round_nonneg := Machine.zero_le_round
  ofInt_nonneg {p i} hi := by
    have hn : decide (i < 0) = false := decide_eq_false (Int.not_lt.mpr hi)
    cases p with
    | single =>
      change 0 ≤ Machine.single (decide (i < 0)) i.natAbs 1
      rw [hn]
      exact Machine.zero_le_single _ _
    | double =>
      change 0 ≤ Machine.double (decide (i < 0)) i.natAbs 1
      rw [hn]
      exact Machine.zero_le_double _ _

def Machine.axis : TypedVec Machine 2 :=
  ⟨.real .double, #v[0, 1]⟩

end KalmanFilter
