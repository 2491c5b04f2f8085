import Mathlib
import KalmanFilter.Binary.Format

/-! The digits of a fraction are counted in a unit that the format can hold, rounded
to a whole number, and carried into the exponent if there is one digit too many. No
other number of the format is nearer, and of two that are as near the even one is
taken. -/

namespace KalmanFilter.Binary

variable {a b r : ℕ} {x : ℚ}

structure RoundsTo (x : ℚ) (r : ℕ) : Prop where
  near : |r - x| ≤ 1 / 2
  tie : |r - x| = 1 / 2 → Even r

lemma roundDiv_roundsTo (hb : 0 < b) : RoundsTo (a / b) (roundDiv a b) := by
  have hb' : (0 : ℚ) < b := Nat.cast_pos.mpr hb
  have hx : (a : ℚ) / b = (a / b : ℕ) + (a % b : ℕ) / b := by
    rw [eq_comm, ← mul_right_inj' hb'.ne', mul_add, mul_div_cancel₀ _ hb'.ne',
      mul_div_cancel₀ _ hb'.ne']
    exact_mod_cast Nat.div_add_mod a b
  have hlt : 2 * (a % b) < b ∨ b < 2 * (a % b) ∨ 2 * (a % b) = b := by omega
  have hs : ((a % b : ℕ) : ℚ) / b < 1 := (div_lt_one hb').mpr (Nat.cast_lt.mpr (Nat.mod_lt a hb))
  have h0 : (0 : ℚ) ≤ (a % b : ℕ) / b := by positivity
  rw [hx, roundDiv]
  rcases hlt with h | h | h
  · have h' : ((a % b : ℕ) : ℚ) / b < 1 / 2 := by
      rw [div_lt_div_iff₀ hb' two_pos, one_mul, mul_comm]
      exact_mod_cast h
    rw [if_pos h]
    constructor
    · rw [abs_le]
      constructor <;> linarith
    · intro he
      rw [sub_add_cancel_left, abs_neg, abs_of_nonneg h0] at he
      linarith
  · have h' : 1 / 2 < ((a % b : ℕ) : ℚ) / b := by
      rw [div_lt_div_iff₀ two_pos hb', one_mul, mul_comm]
      exact_mod_cast h
    rw [if_neg (by omega), if_pos h]
    constructor
    · rw [abs_le, Nat.cast_add_one]
      constructor <;> linarith
    · intro he
      rw [Nat.cast_add_one, add_sub_add_left_eq_sub, abs_of_pos (by linarith)] at he
      linarith
  · have h' : ((a % b : ℕ) : ℚ) / b = 1 / 2 := by
      rw [div_eq_div_iff hb'.ne' two_ne_zero, one_mul, mul_comm]
      exact_mod_cast h
    rw [if_neg (by omega), if_neg (by omega), h']
    split_ifs with hq
    · exact ⟨by norm_num, fun _ => Nat.even_iff.mpr hq⟩
    · refine ⟨by norm_num, fun _ => ?_⟩
      rw [Nat.even_iff]
      omega

namespace RoundsTo

lemma nearest (h : RoundsTo x r) (n : ℕ) :
    |r - x| ≤ |n - x| ∧ (|n - x| = |r - x| → n = r ∨ Even r) := by
  by_cases hn : n = r
  · subst hn
    exact ⟨le_rfl, fun _ => .inl rfl⟩
  have h1 : (1 : ℚ) ≤ |(n : ℚ) - r| := by
    have hz : (n : ℤ) - r ≠ 0 := by omega
    exact_mod_cast Int.one_le_abs hz
  have ht := abs_sub_le (n : ℚ) x r
  rw [abs_sub_comm x r] at ht
  have hr := h.near
  refine ⟨by linarith, fun he => .inr (h.tie ?_)⟩
  linarith

lemma le_of_lt (h : RoundsTo x r) {n : ℕ} (hx : x < n) : r ≤ n := by
  have hr := (abs_le.mp h.near).2
  have hn : (r : ℚ) < n + 1 := by linarith
  have hn : r < n + 1 := by exact_mod_cast hn
  omega

lemma le_of_le (h : RoundsTo x r) {n : ℕ} (hx : n ≤ x) : n ≤ r := by
  have hr := (abs_le.mp h.near).1
  have hn : (n : ℚ) < r + 1 := by linarith
  have hn : n < r + 1 := by exact_mod_cast hn
  omega

lemma lt_iff (h : RoundsTo x r) {n : ℕ} (hn : Even n) : r < n ↔ x < n - 1 / 2 := by
  obtain ⟨hlow, hhigh⟩ := abs_le.mp h.near
  constructor
  · intro hr
    have hle : (r : ℚ) + 1 ≤ n := by exact_mod_cast hr
    refine lt_of_le_of_ne (by linarith) fun he => ?_
    have hnext : (r : ℚ) + 1 = n := by linarith
    have hnext : r + 1 = n := by exact_mod_cast hnext
    have heven := h.tie (by rw [he, abs_sub_comm, abs_of_nonneg] <;> linarith)
    rw [Nat.even_iff] at heven hn
    omega
  · intro hx
    have hr : (r : ℚ) < n := by linarith
    exact_mod_cast hr

lemma nearest_scaled (h : RoundsTo x r) {d k : ℕ} {j : ℤ} (hd : 0 < d) (hk : k < 2 ^ d)
    (hj : 0 ≤ j ∨ 2 ^ (d - 1) ≤ x) :
    |r - x| ≤ |k * 2 ^ j - x| ∧ (|k * 2 ^ j - x| = |r - x| → k * 2 ^ j = (r : ℚ) ∨ Even r) := by
  rcases le_or_gt 0 j with h0 | h0
  · lift j to ℕ using h0
    have hn := h.nearest (k * 2 ^ j)
    push_cast at hn
    rw [zpow_natCast]
    exact ⟨hn.1, fun he => (hn.2 he).imp_left fun hr => by exact_mod_cast hr⟩
  · have hx := hj.resolve_left (Int.not_le.mpr h0)
    have hd : (2 : ℚ) ^ d = 2 * 2 ^ (d - 1) := by
      rw [← pow_succ', Nat.sub_add_cancel hd]
    have hc : k * (2 : ℚ) ^ j < 2 ^ (d - 1) := by
      have hp : (2 : ℚ) ^ j ≤ 2 ^ (-1 : ℤ) := zpow_le_zpow_right₀ one_le_two (by omega)
      calc (k : ℚ) * 2 ^ j < 2 ^ d * 2 ^ j := by
            gcongr
            exact_mod_cast hk
        _ ≤ 2 ^ d * 2 ^ (-1 : ℤ) := by gcongr
        _ = 2 ^ (d - 1) := by
            rw [hd, zpow_neg_one]
            ring
    have hn := (h.nearest (2 ^ (d - 1))).1
    push_cast at hn
    rw [abs_sub_comm (2 ^ (d - 1)) x, abs_of_nonneg (by linarith : 0 ≤ x - 2 ^ (d - 1))] at hn
    rw [abs_sub_comm ((k : ℚ) * 2 ^ j) x, abs_of_pos (by linarith : 0 < x - k * 2 ^ j)]
    exact ⟨by linarith, fun he => absurd he (by linarith)⟩

end RoundsTo

lemma inUnits_pos (hb : 0 < b) (a : ℕ) (e : ℤ) : 0 < (inUnits a b e).2 :=
  Nat.mul_pos hb (Nat.two_pow_pos _)

lemma inUnits_div (a b : ℕ) (e : ℤ) :
    ((inUnits a b e).1 : ℚ) / (inUnits a b e).2 = a / b / 2 ^ e := by
  have hp : ((2 : ℚ) ^ (-e).toNat) / 2 ^ e.toNat = (2 ^ e)⁻¹ := by
    rw [← zpow_natCast, ← zpow_natCast, ← zpow_sub₀ two_ne_zero, ← zpow_neg]
    congr 1
    omega
  simp only [inUnits, Nat.pow_eq]
  push_cast
  rw [mul_div_mul_comm, hp, div_eq_mul_inv (a / b : ℚ)]

lemma limit_eq : (2 : ℚ) ^ 1024 - 2 ^ 970 = (2 ^ 54 - 1) * 2 ^ 970 := by
  rw [sub_mul, ← pow_add, one_mul]

lemma one_lt_limit : (1 : ℚ) < 2 ^ 1024 - 2 ^ 970 := by
  have hp : (1 : ℚ) ≤ 2 ^ 970 := one_le_pow₀ one_le_two
  rw [limit_eq]
  exact one_lt_mul_of_lt_of_le (by norm_num) hp

namespace Format

variable {f : Format}

lemma two_pow_digits (f : Format) (hd : 0 < f.digits) :
    2 ^ f.digits = 2 * 2 ^ (f.digits - 1) := by
  rw [← pow_succ', Nat.sub_add_cancel hd]

lemma ratio_bounds (ha : 0 < a) (hb : 0 < b) (d : ℕ) :
    (2 : ℚ) ^ d < 2 * (a / b / 2 ^ (a.log2 - b.log2 - d : ℤ)) ∧
      (a / b / 2 ^ (a.log2 - b.log2 - d : ℤ) : ℚ) < 2 * 2 ^ d := by
  have ha₁ : (2 : ℚ) ^ a.log2 ≤ a := by exact_mod_cast Nat.log2_self_le ha.ne'
  have ha₂ : (a : ℚ) < 2 ^ a.log2 * 2 := by exact_mod_cast Nat.lt_log2_self (n := a)
  have hb₁ : (2 : ℚ) ^ b.log2 ≤ b := by exact_mod_cast Nat.log2_self_le hb.ne'
  have hb₂ : (b : ℚ) < 2 ^ b.log2 * 2 := by exact_mod_cast Nat.lt_log2_self (n := b)
  have hb₀ : (0 : ℚ) < b := Nat.cast_pos.mpr hb
  have hx : (a / b / 2 ^ (a.log2 - b.log2 - d : ℤ) : ℚ) =
      a * 2 ^ b.log2 / (b * 2 ^ a.log2) * 2 ^ d := by
    rw [zpow_sub₀ two_ne_zero, zpow_sub₀ two_ne_zero, zpow_natCast, zpow_natCast, zpow_natCast]
    field_simp
  have hp : (0 : ℚ) < b * 2 ^ a.log2 := by positivity
  have hd : (0 : ℚ) < 2 ^ d := by positivity
  have h₁ : 1 < 2 * (a * 2 ^ b.log2 / (b * 2 ^ a.log2) : ℚ) := by
    rw [← mul_div_assoc, one_lt_div hp]
    calc (b : ℚ) * 2 ^ a.log2 < 2 ^ b.log2 * 2 * 2 ^ a.log2 := by gcongr
      _ ≤ 2 ^ b.log2 * 2 * a := by gcongr
      _ = 2 * (a * 2 ^ b.log2) := by ring
  have h₂ : (a * 2 ^ b.log2 / (b * 2 ^ a.log2) : ℚ) < 2 := by
    rw [div_lt_iff₀ hp]
    calc (a : ℚ) * 2 ^ b.log2 < 2 ^ a.log2 * 2 * 2 ^ b.log2 := by gcongr
      _ ≤ 2 ^ a.log2 * 2 * b := by gcongr
      _ = 2 * (b * 2 ^ a.log2) := by ring
  rw [hx, ← mul_assoc]
  exact ⟨lt_mul_of_one_lt_left hd h₁, by gcongr⟩

lemma exists_unit (f : Format) (hd : 0 < f.digits) (ha : 0 < a) (hb : 0 < b) :
    ∃ e : ℤ, f.unitExponent a b = max f.leastExponent e ∧
      (2 : ℚ) ^ (f.digits - 1) ≤ a / b / 2 ^ e ∧ (a / b / 2 ^ e : ℚ) < 2 ^ f.digits := by
  obtain ⟨h₁, h₂⟩ := ratio_bounds ha hb f.digits
  have hd : (2 : ℚ) ^ f.digits = 2 * 2 ^ (f.digits - 1) := by
    exact_mod_cast f.two_pow_digits hd
  simp only [unitExponent, if_neg ha.ne', Nat.pow_eq]
  generalize he : (a.log2 - b.log2 - f.digits : ℤ) = e at h₁ h₂
  have hu : (inUnits a b e).1 < (inUnits a b e).2 * 2 ^ f.digits ↔
      (a / b / 2 ^ e : ℚ) < 2 ^ f.digits := by
    rw [← inUnits_div, div_lt_iff₀ (Nat.cast_pos.mpr (inUnits_pos hb a e)), mul_comm]
    exact_mod_cast Iff.rfl
  by_cases h : (a / b / 2 ^ e : ℚ) < 2 ^ f.digits
  · rw [if_pos (hu.mpr h)]
    refine ⟨e, rfl, ?_, h⟩
    linarith
  · rw [if_neg (mt hu.mp h)]
    refine ⟨e + 1, rfl, ?_⟩
    rw [zpow_add_one₀ two_ne_zero, ← div_div]
    constructor <;> linarith

lemma unitExponent_spec (f : Format) (hd : 0 < f.digits) (a : ℕ) (hb : 0 < b) :
    f.leastExponent ≤ f.unitExponent a b ∧
      (a / b / 2 ^ f.unitExponent a b : ℚ) < 2 ^ f.digits ∧
      (f.unitExponent a b = f.leastExponent ∨
        (2 : ℚ) ^ (f.digits - 1) ≤ a / b / 2 ^ f.unitExponent a b) := by
  rcases Nat.eq_zero_or_pos a with rfl | ha
  · have he : f.unitExponent 0 b = f.leastExponent := by simp [unitExponent]
    exact ⟨he.ge, by simp, .inl he⟩
  obtain ⟨e, he, h₁, h₂⟩ := f.exists_unit hd ha hb
  rw [he]
  rcases le_total f.leastExponent e with h | h
  · rw [max_eq_right h]
    exact ⟨h, h₂, .inr h₁⟩
  · rw [max_eq_left h]
    refine ⟨le_rfl, lt_of_le_of_lt ?_ h₂, .inl rfl⟩
    gcongr
    exact one_le_two

lemma decode?_subnormal (hr : r < 2 ^ (f.digits - 1)) (hw : r < f.infinity) :
    f.decode? r = some (r, f.leastExponent) := by
  rw [decode?, if_neg (Nat.not_le.mpr hw)]
  exact if_pos hr

lemma decode?_normal {j : ℕ} (hle : 2 ^ (f.digits - 1) ≤ r) (hlt : r < 2 * 2 ^ (f.digits - 1))
    (hw : r + j * 2 ^ (f.digits - 1) < f.infinity) :
    f.decode? (r + j * 2 ^ (f.digits - 1)) = some (r, f.leastExponent + j) := by
  have hone : 0 < 2 ^ (f.digits - 1) := Nat.two_pow_pos _
  simp only [decode?, Nat.pow_eq, if_neg (Nat.not_le.mpr hw)]
  generalize 2 ^ (f.digits - 1) = one at *
  have hm : (r + j * one) % one = r - one := by
    rw [Nat.add_mul_mod_self_right, Nat.mod_eq_sub_mod hle, Nat.mod_eq_of_lt (by omega)]
  have hr : r / one = 1 := Nat.div_eq_of_lt_le (by omega) (by omega)
  have hq : (r + j * one) / one = j + 1 := by
    rw [Nat.add_mul_div_right _ _ hone, hr, Nat.add_comm]
  rw [if_neg (by omega), hm, hq, Nat.sub_add_cancel hle]
  rfl

lemma decode?_carry (f : Format) (hd : 1 < f.digits) {j : ℕ} (hr : r ≤ 2 ^ f.digits)
    (hj : j = 0 ∨ 2 ^ (f.digits - 1) ≤ r) (hw : r + j * 2 ^ (f.digits - 1) < f.infinity) :
    ∃ m e, f.decode? (r + j * 2 ^ (f.digits - 1)) = some (m, e) ∧
      (m * 2 ^ e : ℚ) = r * 2 ^ (f.leastExponent + j) ∧ (Even m ↔ Even r) := by
  have hone : 0 < 2 ^ (f.digits - 1) := Nat.two_pow_pos _
  rw [f.two_pow_digits (by omega)] at hr
  rcases hr.lt_or_eq with hr | rfl
  · by_cases h : 2 ^ (f.digits - 1) ≤ r
    · exact ⟨r, _, decode?_normal h hr hw, rfl, Iff.rfl⟩
    · obtain rfl := hj.resolve_right h
      rw [Nat.zero_mul, Nat.add_zero] at hw ⊢
      exact ⟨r, _, decode?_subnormal (Nat.not_le.mp h) hw, by simp, Iff.rfl⟩
  · have hnext : 2 * 2 ^ (f.digits - 1) + j * 2 ^ (f.digits - 1) =
        2 ^ (f.digits - 1) + (j + 1) * 2 ^ (f.digits - 1) := by ring
    have heven : Even (2 ^ (f.digits - 1)) := by
      rw [Nat.even_pow]
      exact ⟨even_two, by omega⟩
    rw [hnext] at hw ⊢
    refine ⟨_, _, decode?_normal le_rfl (by omega) hw, ?_, iff_of_true heven (even_two_mul _)⟩
    rw [Nat.cast_add_one, ← add_assoc, zpow_add_one₀ two_ne_zero]
    push_cast
    ring

variable {m w : ℕ} {e : ℤ}

lemma decode?_bounds (hd : 0 < f.digits) (h : f.decode? w = some (m, e)) :
    m < 2 ^ f.digits ∧ f.leastExponent ≤ e := by
  have hone : 0 < 2 ^ (f.digits - 1) := Nat.two_pow_pos _
  simp only [decode?, Nat.pow_eq] at h
  rw [f.two_pow_digits hd]
  generalize 2 ^ (f.digits - 1) = one at *
  have hm := Nat.mod_lt w hone
  split_ifs at h
  · cases h
    omega
  · cases h
    omega

lemma isSome_decode?_iff : (f.decode? w).isSome ↔ w < f.infinity := by
  simp only [decode?]
  split_ifs <;> simp <;> omega

lemma exists_rounded (f : Format) (hd : 0 < f.digits) (a : ℕ) (hb : 0 < b) :
    ∃ j r : ℕ, RoundsTo (a / b / 2 ^ (f.leastExponent + j)) r ∧ r ≤ 2 ^ f.digits ∧
      (j = 0 ∨ (2 : ℚ) ^ (f.digits - 1) ≤ a / b / 2 ^ (f.leastExponent + j)) ∧
      f.nearest a b = min f.infinity (r + j * 2 ^ (f.digits - 1)) := by
  obtain ⟨hle, hlt, hx⟩ := f.unitExponent_spec hd a hb
  have hr := roundDiv_roundsTo (a := (inUnits a b (f.unitExponent a b)).1)
    (inUnits_pos hb a (f.unitExponent a b))
  rw [inUnits_div] at hr
  have he : f.leastExponent + ((f.unitExponent a b - f.leastExponent).toNat : ℤ) =
      f.unitExponent a b := by omega
  refine ⟨(f.unitExponent a b - f.leastExponent).toNat, _, ?_, ?_, ?_, rfl⟩
  · rw [he]
    exact hr
  · exact hr.le_of_lt (by exact_mod_cast hlt)
  · rw [he]
    exact hx.imp_left fun h => by omega

/-- The number that a fraction is rounded to is the nearest one of the format, and its last digit is
even if another one is as near. -/
lemma nearest_spec (hd : 1 < f.digits) (hb : 0 < b) (h : f.nearest a b < f.infinity) :
    ∃ m e, f.decode? (f.nearest a b) = some (m, e) ∧
      ∀ (k : ℕ) (e' : ℤ), k < 2 ^ f.digits → f.leastExponent ≤ e' →
        |(m * 2 ^ e - a / b : ℚ)| ≤ |(k * 2 ^ e' - a / b : ℚ)| ∧
          (|(k * 2 ^ e' - a / b : ℚ)| = |(m * 2 ^ e - a / b : ℚ)| →
            (k * 2 ^ e' : ℚ) = m * 2 ^ e ∨ Even m) := by
  have hd₀ : 0 < f.digits := by omega
  obtain ⟨j, r, hr, hle, hx, hw⟩ := f.exists_rounded hd₀ a hb
  have hj : j = 0 ∨ 2 ^ (f.digits - 1) ≤ r :=
    hx.imp_right fun h => hr.le_of_le (by exact_mod_cast h)
  rw [hw] at h ⊢
  have hlt := (min_lt_iff.mp h).resolve_left (lt_irrefl _)
  rw [min_eq_right hlt.le]
  obtain ⟨m, e, hm, hv, heven⟩ := f.decode?_carry hd hle hj hlt
  refine ⟨m, e, hm, fun k e' hk he' => ?_⟩
  have hj : 0 ≤ e' - (f.leastExponent + j) ∨
      (2 : ℚ) ^ (f.digits - 1) ≤ a / b / 2 ^ (f.leastExponent + j) :=
    hx.imp_left fun h => by omega
  have hn := hr.nearest_scaled hd₀ hk hj
  have hp : (0 : ℚ) < 2 ^ (f.leastExponent + j) := by positivity
  generalize hq : (a / b : ℚ) = q at *
  have hs : ∀ y : ℚ, |y * 2 ^ (f.leastExponent + j) - q| =
      |y - q / 2 ^ (f.leastExponent + j)| * 2 ^ (f.leastExponent + j) := by
    intro y
    rw [← abs_of_pos hp, ← abs_mul, abs_of_pos hp, sub_mul, div_mul_cancel₀ _ hp.ne']
  have hk' : (k * 2 ^ e' : ℚ) =
      k * 2 ^ (e' - (f.leastExponent + j)) * 2 ^ (f.leastExponent + j) := by
    rw [mul_assoc, ← zpow_add₀ two_ne_zero, sub_add_cancel]
  rw [hv, hk', hs, hs, heven]
  refine ⟨mul_le_mul_of_nonneg_right hn.1 hp.le, fun he => ?_⟩
  refine (hn.2 (mul_right_cancel₀ hp.ne' he)).imp_left fun h => ?_
  rw [h]

lemma nearest_lt_infinity_iff (hb : 0 < b) :
    binary64.nearest a b < binary64.infinity ↔ (a / b : ℚ) < 2 ^ 1024 - 2 ^ 970 := by
  obtain ⟨j, r, hr, hle, hx, hw⟩ := binary64.exists_rounded (by decide) a hb
  have hmin : binary64.nearest a b < binary64.infinity ↔ r + j * 2 ^ 52 < 2047 * 2 ^ 52 := by
    rw [hw]
    exact min_lt_iff.trans (or_iff_right (lt_irrefl _))
  have hq : (a / b : ℚ) = a / b / 2 ^ (-1074 + j : ℤ) * 2 ^ (-1074 + j : ℤ) :=
    (div_mul_cancel₀ _ (by positivity)).symm
  change RoundsTo (a / b / 2 ^ (-1074 + j : ℤ)) r at hr
  change r ≤ 2 ^ 53 at hle
  change j = 0 ∨ 2 ^ 52 ≤ (a / b / 2 ^ (-1074 + j : ℤ) : ℚ) at hx
  rw [hmin, hq, limit_eq]
  generalize (a / b / 2 ^ (-1074 + j : ℤ) : ℚ) = x at *
  rcases lt_trichotomy j 2045 with hj | rfl | hj
  · have hu : (2 : ℚ) ^ (-1074 + j : ℤ) ≤ 2 ^ 970 := by
      rw [← zpow_natCast]
      exact zpow_le_zpow_right₀ one_le_two (by omega)
    have hle : (r : ℚ) ≤ 2 ^ 53 := by exact_mod_cast hle
    have hnear := abs_le.mp hr.near
    refine iff_of_true (by omega) ?_
    calc x * 2 ^ (-1074 + j : ℤ) ≤ (2 ^ 53 + 1 / 2) * 2 ^ 970 := by
          gcongr
          linarith
      _ < (2 ^ 54 - 1) * 2 ^ 970 := by
          gcongr
          norm_num
  · have hu : (2 : ℚ) ^ (-1074 + (2045 : ℕ) : ℤ) = 2 * 2 ^ 970 := by
      rw [← pow_succ', ← zpow_natCast]
      norm_num
    have hcarry : r + 2045 * 2 ^ 52 < 2047 * 2 ^ 52 ↔ r < 2 ^ 53 := by omega
    rw [hu, ← mul_assoc, mul_lt_mul_iff_left₀ (by positivity), hcarry, hr.lt_iff (by decide)]
    push_cast
    constructor <;> intro h <;> linarith
  · have hu : (2 : ℚ) ^ 972 ≤ 2 ^ (-1074 + j : ℤ) := by
      rw [← zpow_natCast]
      exact zpow_le_zpow_right₀ one_le_two (by omega)
    have hx := hx.resolve_left (by omega)
    have hr' : 2 ^ 52 ≤ r := hr.le_of_le (by exact_mod_cast hx)
    refine iff_of_false (by omega) (not_lt.mpr ?_)
    calc ((2 : ℚ) ^ 54 - 1) * 2 ^ 970 ≤ 2 ^ 52 * 2 ^ 972 := by
          rw [show (972 : ℕ) = 2 + 970 from rfl, pow_add 2 2 970, ← mul_assoc]
          gcongr
          norm_num
      _ ≤ x * 2 ^ (-1074 + j : ℤ) := by gcongr

end Format

end KalmanFilter.Binary
