import Mathlib.Analysis.SpecialFunctions.Log.Basic
import KalmanFilter.Number
import KalmanFilter.Proofs.Exact

namespace KalmanFilter

variable {p : Precision} {d : Datum Exact} {x y : ℝ}

def Number.value : Number Exact → ℝ
  | .int i => i
  | .real x => x

namespace Datum

def StandsFor (d : Datum Exact) (x : ℝ) : Prop :=
  ∃ r, d.number? = some r ∧ r.value = x

lemma standsFor_real (x : ℝ) : (Datum.real x : Datum Exact).StandsFor x :=
  ⟨_, rfl, rfl⟩

lemma standsFor_toDatum (r : Number Exact) : r.toDatum.StandsFor r.value := by
  cases r <;> exact ⟨_, rfl, rfl⟩

lemma StandsFor.exists_toNumber (h : d.StandsFor x) :
    ∃ r, d.toNumber = .ok r ∧ r.value = x := by
  obtain ⟨r, hr, hx⟩ := h
  exact ⟨r, by rw [toNumber, hr]; rfl, hx⟩

end Datum

namespace Number

lemma toReal_exact (r : Number Exact) : r.toReal = .ok r.value := by
  cases r <;> rfl

lemma store_exact (p : Precision) (r : Number Exact) :
    r.store (.real p) = (.ok r.value : Fallible Exact ℝ) := by
  rw [store, toReal_exact]
  exact congrArg Except.ok (Exact.convert_eq r.value)

lemma exists_combine {whole : ℤ → ℤ → ℤ} {rounded : ℝ → ℝ → ℝ}
    (h : ∀ i j, (whole i j : ℝ) = rounded i j) (a b : Number Exact) :
    ∃ c, combine (F := Exact) whole rounded a b = .ok c ∧ c.value = rounded a.value b.value := by
  cases a with
  | int i =>
    cases b with
    | int j => exact ⟨_, rfl, h i j⟩
    | real y => exact ⟨_, rfl, rfl⟩
  | real x => cases b <;> exact ⟨_, rfl, rfl⟩

lemma exists_sub (a b : Number Exact) : ∃ c, a.sub b = .ok c ∧ c.value = a.value - b.value :=
  exists_combine Int.cast_sub a b

lemma exists_mul (a b : Number Exact) : ∃ c, a.mul b = .ok c ∧ c.value = a.value * b.value :=
  exists_combine Int.cast_mul a b

lemma realPow_exact (x : ℝ) (k : ℕ) : realPow (F := Exact) x k = .ok (x ^ k) :=
  rfl

lemma exists_pow (r : Number Exact) (k : ℕ) : ∃ s, r.pow k = .ok s ∧ s.value = r.value ^ k := by
  cases r with
  | int i => exact ⟨_, rfl, Int.cast_pow i k⟩
  | real x => exact ⟨.real (x ^ k), rfl, rfl⟩

lemma ofRatio_exact (i : ℤ) {j : ℤ} :
    (Arithmetic.ofRatio (if j < 0 then -i else i) j.natAbs : Exact .double) = (i / j : ℝ) := by
  show ((((if j < 0 then -i else i : ℤ) / (j.natAbs : ℚ) : ℚ)) : ℝ) = i / j
  split
  case isTrue hj =>
    rw [Nat.cast_natAbs, abs_of_neg hj]
    push_cast
    rw [neg_div_neg_eq]
  case isFalse hj =>
    rw [Nat.cast_natAbs, abs_of_nonneg (not_lt.mp hj)]
    push_cast
    rfl

lemma div_exact (a : Number Exact) {b : Number Exact} (hb : b.value ≠ 0) :
    a.div b = .ok (a.value / b.value) := by
  have hs : ¬ Scalar.same b.value 0 = true := fun h => hb (Scalar.same_iff.mp h)
  cases a with
  | int i =>
    cases b with
    | int j =>
      have hj : j ≠ 0 := by
        rintro rfl
        exact hb Int.cast_zero
      exact (if_neg hj).trans (congrArg Except.ok (ofRatio_exact i))
    | real y => exact if_neg hs
  | real x => cases b <;> exact if_neg hs

lemma div_natCast (r : Number Exact) {j : ℕ} (hj : j ≠ 0) :
    r.div (.int j) = .ok (r.value / j) := by
  have hv : (int (j : ℤ) : Number Exact).value = j := Int.cast_natCast j
  rw [div_exact r (hv ▸ Nat.cast_ne_zero.mpr hj), hv]

end Number

structure IsNearest (x : ℝ) (i : ℤ) : Prop where
  near : |x - i| ≤ 1 / 2
  even : |x - i| = 1 / 2 → Even i

namespace IsNearest

variable {i : ℤ}

lemma eq_of_intCast {j : ℤ} (h : IsNearest j i) : i = j := by
  have h := h.near
  rw [← Int.cast_sub, ← Int.cast_abs] at h
  have hd : |j - i| < 1 := by exact_mod_cast h.trans_lt one_half_lt_one
  exact (sub_eq_zero.mp (Int.abs_lt_one_iff.mp hd)).symm

end IsNearest

lemma isNearest_floor {x : ℝ} (h : Int.fract x < 1 / 2) : IsNearest x ⌊x⌋ := by
  have hf : |x - ⌊x⌋| = Int.fract x := abs_of_nonneg (Int.fract_nonneg x)
  exact ⟨hf ▸ h.le, fun he => absurd (hf ▸ he) h.ne⟩

lemma isNearest_succ_floor {x : ℝ} (h : 1 / 2 < Int.fract x) : IsNearest x (⌊x⌋ + 1) := by
  have hf : |x - (⌊x⌋ + 1 : ℤ)| = 1 - Int.fract x := by
    rw [abs_sub_comm, abs_of_nonneg, Int.fract]
    · push_cast
      ring
    · push_cast
      linarith [Int.fract_lt_one x, Int.self_sub_floor x]
  constructor <;> rw [hf] <;> intros <;> linarith

lemma isNearest_of_fract_eq {x : ℝ} (h : Int.fract x = 1 / 2) :
    IsNearest x (if ⌊x⌋ % 2 = 0 then ⌊x⌋ else ⌊x⌋ + 1) := by
  have hx : x = ⌊x⌋ + 1 / 2 := by
    rw [← h, Int.floor_add_fract]
  split
  case isTrue hi =>
    refine ⟨?_, fun _ => Int.even_iff.mpr hi⟩
    rw [Int.self_sub_floor, h, abs_of_pos one_half_pos]
  case isFalse hi =>
    refine ⟨?_, fun _ => ?_⟩
    · rw [abs_sub_comm, abs_of_nonneg] <;> push_cast <;> linarith
    · exact (Int.not_even_iff_odd.mp (mt Int.even_iff.mp hi)).add_one

lemma Arithmetic.exists_nearest (x : ℝ) :
    ∃ i, Arithmetic.nearest? (F := Exact) x = some i ∧ IsNearest x i := by
  refine ⟨_, rfl, ?_⟩
  show IsNearest x (if Int.fract x < (0.5 : ℝ) then ⌊x⌋ else if (0.5 : ℝ) < Int.fract x then ⌊x⌋ + 1
    else if ⌊x⌋ % 2 = 0 then ⌊x⌋ else ⌊x⌋ + 1)
  have hh : (0.5 : ℝ) = 1 / 2 := by norm_num
  rw [hh]
  rcases lt_trichotomy (Int.fract x) (1 / 2) with h | h | h
  · rw [if_pos h]
    exact isNearest_floor h
  · rw [if_neg h.not_lt, if_neg h.not_gt]
    exact isNearest_of_fract_eq h
  · rw [if_neg h.not_gt, if_pos h]
    exact isNearest_succ_floor h

lemma Number.exists_round (x : ℝ) : ∃ i, Number.round (F := Exact) x = .ok i ∧ IsNearest x i := by
  obtain ⟨i, hi, hx⟩ := Arithmetic.exists_nearest x
  refine ⟨i, ?_, hx⟩
  rw [Number.round, if_pos (Scalar.same_iff.mpr rfl), hi]

end KalmanFilter
