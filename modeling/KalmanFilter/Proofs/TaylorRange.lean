import KalmanFilter.Proofs.ExactTaylor
import KalmanFilter.Proofs.NearestFloat

/-! Whole elapsed times have exact powers, of which only the quotients are rounded.
For all others the factorials are rounded too, and from that of 171 on they are out
of range. -/

namespace KalmanFilter

open Machine

variable {F : Precision → Type} {α : Type} {n : ℕ}

lemma sequence_fails_or_succeeds {f : Fin n → Fallible F α} {g : Failure F}
    (h : ∀ k e, f k = .error e → e = g) :
    (sequence f = .error g ∧ ∃ k, f k = .error g) ∨
      ∃ x : Vec α n, sequence f = .ok x ∧ ∀ k, f k = .ok (x k) := by
  induction n with
  | zero =>
    right
    exact ⟨#v[], rfl, fun k => k.elim0⟩
  | succ n ih =>
    rw [sequence_succ]
    cases h0 : f 0 with
    | error e =>
      obtain rfl := h 0 e h0
      exact .inl ⟨rfl, 0, h0⟩
    | ok a =>
      rcases ih fun k => h k.succ with ⟨hs, k, hk⟩ | ⟨x, hs, hx⟩
      · refine .inl ⟨?_, k.succ, hk⟩
        rw [hs]
        rfl
      · refine .inr ⟨Vec.cons a x, ?_, fun k => ?_⟩
        · rw [hs]
          rfl
        · cases k using Fin.cases with
          | zero => rw [h0, Vec.cons_zero]
          | succ k => rw [hx k, Vec.cons_succ]

namespace Taylor

lemma coefficients_double (elapsed : Datum Machine) (n : ℕ) :
    (coefficients (.real .double) elapsed n : Fallible Machine (Vec Float n)) =
      sequence fun k : Fin n => coefficient elapsed k := by
  rw [coefficients]
  cases h : sequence fun k : Fin n => (coefficient elapsed k : Fallible Machine Float) with
  | error f => rfl
  | ok x =>
    exact sequence_eq_ok_iff.mpr fun k => rfl

lemma coefficient_int (dt : ℤ) (k : ℕ) :
    (coefficient (.int dt) k : Fallible Machine Float) =
      Number.bounded (Arithmetic.ofRatio (dt ^ k) (factorial k) : Machine .double) := by
  have h0 : ¬ (factorial k : ℤ) = 0 := by
    exact_mod_cast factorial_ne_zero k
  have hn : ¬ (factorial k : ℤ) < 0 := by omega
  show Number.div (.int (dt ^ k)) (.int (factorial k)) = _
  rw [Number.div, if_neg h0, if_neg hn, Int.natAbs_natCast]

lemma coefficient_int_spec (dt : ℤ) (k : ℕ) :
    (2 ^ 1024 - 2 ^ 970 ≤ |(dt ^ k / k.factorial : ℚ)| ∧
      (coefficient (.int dt) k : Fallible Machine Float) = .error .overflow) ∨
    |(dt ^ k / k.factorial : ℚ)| < 2 ^ 1024 - 2 ^ 970 ∧
      ∃ x v, (coefficient (.int dt) k : Fallible Machine Float) = .ok x ∧
        IsRoundingOf x v (dt ^ k / k.factorial) := by
  obtain ⟨hfinite, hnearest⟩ := ofRatio_spec (dt ^ k) (Nat.factorial_pos k)
  rw [coefficient_int, bounded_eq, factorial_eq]
  push_cast at hfinite hnearest
  rcases lt_or_ge |(dt ^ k / k.factorial : ℚ)| (2 ^ 1024 - 2 ^ 970) with h | h
  · right
    obtain ⟨v, hv⟩ := hnearest h
    rw [if_pos (hfinite.mpr h)]
    exact ⟨h, _, v, rfl, hv⟩
  · left
    rw [if_neg fun hf => absurd (hfinite.mp hf) (not_lt.mpr h)]
    exact ⟨h, rfl⟩

section

variable [Arithmetic F] {dt : F .double} {k : ℕ}
  (hz : ¬ Scalar.same (Arithmetic.ofInt .double (factorial k) : F .double) 0 = true)
include hz

lemma coefficient_real :
    (coefficient (.real dt) k : Fallible F (F .double)) = (do
      let y ← Number.realPow dt k
      let z ← Number.bounded (Arithmetic.ofInt .double (factorial k))
      return y / z) := by
  have hdt : (Datum.real dt : Datum F).toNumber = .ok (.real dt) := rfl
  rw [coefficient, hdt]
  show (Number.pow (.real dt) k >>= fun a => Number.div a (.int (factorial k))) = _
  rw [Number.pow]
  cases Number.realPow dt k with
  | error f => rfl
  | ok y =>
    show Number.div (.real y) (.int (factorial k)) = _
    rw [Number.div, Number.toReal, Number.toReal]
    · rw [Number.bounded]
      split_ifs
      · exact if_neg hz
      · rfl
    · nofun

lemma error_of_coefficient_real {f : Failure F} (h : coefficient (.real dt) k = .error f) :
    f = .overflow := by
  rw [coefficient_real hz, Fallible.bind_eq_error_iff] at h
  rcases h with h | ⟨y, -, h⟩
  · rw [Number.realPow] at h
    split_ifs at h
    exact (Except.error.inj h).symm
  · rw [Fallible.bind_eq_error_iff, Number.bounded] at h
    rcases h with h | ⟨z, -, h⟩
    · split_ifs at h
      exact (Except.error.inj h).symm
    · cases h

lemma coefficient_real_fails
    (hk : ¬ Arithmetic.isFinite (Arithmetic.ofInt .double (factorial k) : F .double) = true) :
    coefficient (.real dt) k = .error .overflow := by
  cases h : coefficient (.real dt) k with
  | error f => rw [error_of_coefficient_real hz h]
  | ok x =>
    rw [coefficient_real hz] at h
    obtain ⟨y, -, h⟩ := Fallible.bind_eq_ok_iff.mp h
    obtain ⟨z, hb, -⟩ := Fallible.bind_eq_ok_iff.mp h
    rw [Number.bounded, if_neg hk] at hb
    cases hb

lemma coefficient_real_succeeds
    (hk : Arithmetic.isFinite (Arithmetic.ofInt .double (factorial k) : F .double) = true)
    (hp : Arithmetic.isFinite (Arithmetic.power dt k) = true) :
    ∃ x, coefficient (.real dt) k = .ok x := by
  have hf : ¬ (Arithmetic.isFinite dt && !Arithmetic.isFinite (Arithmetic.power dt k)) = true := by
    simp [hp]
  rw [coefficient_real hz, Number.realPow, Number.bounded]
  simp only [hk, if_true]
  rw [if_neg hf]
  exact ⟨_, rfl⟩

end

lemma transition_alike [Arithmetic F] [NeutralArithmetic F] {p : Precision} (x : Vec (F p) n)
    {i j : Fin n} (hij : i ≤ j) (hk : j.val - i.val < n) :
    Scalar.Alike (transition x i j) (x ⟨j.val - i.val, hk⟩) := by
  rw [transition, Mat.ofFn_entry]
  refine Neutral.total_alike ⟨j.val - i.val, hk⟩ (.inl (if_pos (Nat.add_sub_cancel' hij))) ?_
  intro k hne
  rw [if_neg fun h => hne (Fin.ext (Nat.eq_sub_of_add_eq' h))]
  exact Neutral.isZero_zero

lemma not_same_factorial (k : ℕ) :
    ¬ Scalar.same (Arithmetic.ofInt .double (factorial k) : Machine .double) 0 = true :=
  not_isZero_ofInt (by exact_mod_cast Nat.pos_of_ne_zero (factorial_ne_zero k))

lemma isFinite_factorial_iff (k : ℕ) :
    Arithmetic.isFinite (Arithmetic.ofInt .double (factorial k) : Machine .double) = true ↔
      (k.factorial : ℚ) < 2 ^ 1024 - 2 ^ 970 := by
  have h := isFinite_double_iff (decide ((factorial k : ℤ) < 0)) (factorial k) Nat.one_pos
  rw [Nat.cast_one, div_one] at h
  rw [← factorial_eq]
  exact h

lemma not_isFinite_factorial :
    ¬ Arithmetic.isFinite (Arithmetic.ofInt .double (factorial 171) : Machine .double) = true := by
  have hn : 2 ^ 1024 ≤ Nat.factorial 171 + 2 ^ 970 := by decide +kernel
  rw [isFinite_factorial_iff, not_lt, sub_le_iff_le_add]
  exact_mod_cast hn

lemma isFinite_factorial {k : ℕ} (hk : k ≤ 170) :
    Arithmetic.isFinite (Arithmetic.ofInt .double (factorial k) : Machine .double) = true := by
  have hn : Nat.factorial 170 + 2 ^ 970 < 2 ^ 1024 := by decide +kernel
  rw [isFinite_factorial_iff, lt_sub_iff_add_lt]
  exact_mod_cast (Nat.add_le_add_right (Nat.factorial_le hk) _).trans_lt hn

lemma coefficient_real_of_large (dt : Float) :
    (coefficient (.real dt) 171 : Fallible Machine Float) = .error .overflow := by
  have h := not_isFinite_factorial
  have hz := not_same_factorial 171
  generalize 171 = k at h hz ⊢
  exact coefficient_real_fails hz h

lemma coefficient_real_of_small {dt : Float} {v : ℚ} (hdt : value? dt = some v) (hv : |v| ≤ 1)
    {k : ℕ} (hk : k ≤ 170) : ∃ x, (coefficient (.real dt) k : Fallible Machine Float) = .ok x :=
  coefficient_real_succeeds (not_same_factorial k) (isFinite_factorial hk) (isFinite_power hdt hv k)

end Taylor

namespace Motion

variable (order : ℕ) (expected : Datum Machine) (approximate : Bool)

lemma transition_double {elapsed : Datum Machine}
    (h : ∀ k f, (Taylor.coefficient elapsed k : Fallible Machine Float) = .error f →
      f = .overflow) :
    let m : Motion Machine := ⟨.int order, expected, approximate, .real .double⟩
    (m.transition elapsed = .error .overflow ∧
      ∃ k ≤ order, (Taylor.coefficient elapsed k : Fallible Machine Float) = .error .overflow) ∨
    ∃ x : Vec Float (order + 1), (∀ k : Fin (order + 1), Taylor.coefficient elapsed k = .ok (x k)) ∧
      m.transition elapsed = .ok (TypedMat.tensor (m := order + 1) ⟨.real .double,
        Taylor.transition (if approximate then Taylor.keep 2 x else x)⟩) := by
  intro m
  have ht : m.transition elapsed = (do
      let x ← Taylor.coefficients (.real .double) elapsed (order + 1)
      return TypedMat.tensor (m := order + 1) ⟨.real .double,
        Taylor.transition (if approximate then Taylor.keep 2 x else x)⟩) := by
    show (do return TypedMat.tensor (m := order + 1) ⟨.real .double,
      ← m.transitionOf (order + 1) elapsed⟩) = _
    rw [transitionOf]
    cases (Taylor.coefficients _ elapsed (order + 1) : Fallible Machine _) <;> rfl
  rw [ht, Taylor.coefficients_double]
  rcases sequence_fails_or_succeeds fun k : Fin (order + 1) => h k with ⟨hs, k, hk⟩ | ⟨x, hs, hx⟩
  · left
    rw [hs]
    exact ⟨rfl, k, Nat.lt_succ_iff.mp k.isLt, hk⟩
  · right
    rw [hs]
    exact ⟨x, hx, rfl⟩

lemma int_cast_pow_div_le_one {dt : ℤ} (h : |dt| ≤ 1) (k : ℕ) :
    |(dt ^ k / k.factorial : ℚ)| ≤ 1 := by
  have hdt : |(dt : ℚ)| ≤ 1 := by exact_mod_cast h
  have hk : (1 : ℚ) ≤ k.factorial := by exact_mod_cast Nat.factorial_pos k
  rw [abs_div, abs_pow, Nat.abs_cast]
  exact div_le_one_of_le₀ ((pow_le_one₀ (abs_nonneg _) hdt).trans hk) (zero_le_one.trans hk)

lemma error_of_coefficient_int {dt : ℤ} {k : ℕ} {f : Failure Machine}
    (h : (Taylor.coefficient (.int dt) k : Fallible Machine Float) = .error f) : f = .overflow := by
  rcases Taylor.coefficient_int_spec dt k with ⟨-, he⟩ | ⟨-, x, v, hx, -⟩
  · exact (Except.error.inj (he.symm.trans h)).symm
  · cases hx.symm.trans h

lemma transition_int (dt : ℤ) :
    let m : Motion Machine := ⟨.int order, expected, approximate, .real .double⟩
    (m.transition (.int dt) = .error .overflow ∧
      ∃ k ≤ order, 2 ^ 1024 - 2 ^ 970 ≤ |(dt ^ k / k.factorial : ℚ)|) ∨
    ∃ x : Vec Float (order + 1),
      (∀ k : Fin (order + 1), |(dt ^ k.val / k.val.factorial : ℚ)| < 2 ^ 1024 - 2 ^ 970 ∧
        ∃ v, IsRoundingOf (x k) v (dt ^ k.val / k.val.factorial)) ∧
      m.transition (.int dt) = .ok (TypedMat.tensor (m := order + 1) ⟨.real .double,
        Taylor.transition (if approximate then Taylor.keep 2 x else x)⟩) := by
  intro m
  rcases transition_double order expected approximate
    fun k f (h : Taylor.coefficient (.int dt) k = .error f) => error_of_coefficient_int h
    with ⟨ho, k, hk, hc⟩ | ⟨x, hx, hA⟩
  · refine .inl ⟨ho, k, hk, ?_⟩
    rcases Taylor.coefficient_int_spec dt k with ⟨hle, -⟩ | ⟨-, y, v, hy, -⟩
    · exact hle
    · cases hy.symm.trans hc
  · refine .inr ⟨x, fun k => ?_, hA⟩
    rcases Taylor.coefficient_int_spec dt k with ⟨-, hc⟩ | ⟨hlt, y, v, hy, hv⟩
    · cases (hx k).symm.trans hc
    · obtain rfl := Except.ok.inj ((hx k).symm.trans hy)
      exact ⟨hlt, v, hv⟩

lemma transition_real (dt : Float) :
    let m : Motion Machine := ⟨.int order, expected, approximate, .real .double⟩
    (171 ≤ order → m.transition (.real dt) = .error .overflow) ∧
      ∀ v, value? dt = some v → |v| ≤ 1 → order ≤ 170 → ∃ t, m.transition (.real dt) = .ok t := by
  intro m
  have hm := transition_double order expected approximate
    fun k f (h : Taylor.coefficient (.real dt) k = .error f) =>
      Taylor.error_of_coefficient_real (Taylor.not_same_factorial k) h
  constructor
  · intro horder
    rcases hm with ⟨ho, -⟩ | ⟨x, hx, -⟩
    · exact ho
    · have hc := hx ⟨171, Nat.lt_succ_of_le horder⟩
      rw [Taylor.coefficient_real_of_large dt] at hc
      cases hc
  · intro v hv hle horder
    rcases hm with ⟨-, k, hk, hc⟩ | ⟨x, -, hA⟩
    · obtain ⟨y, hy⟩ := Taylor.coefficient_real_of_small hv hle (hk.trans horder)
      cases hy.symm.trans hc
    · exact ⟨_, hA⟩

/-- The overflow of a whole elapsed time is decided by the exact quotients, also by those that an
approximation leaves out. Infinite times and those that are no numbers fail like other floats. -/
theorem transition_overflow_domain :
    let m : Motion Machine := ⟨.int order, expected, approximate, .real .double⟩
    (∀ dt : ℤ,
      (m.transition (.int dt) = .error .overflow ↔
        ∃ k ≤ order, 2 ^ 1024 - 2 ^ 970 ≤ |(dt ^ k / k.factorial : ℚ)|) ∧
      (|dt| ≤ 1 → ∃ t, m.transition (.int dt) = .ok t) ∧
      (m.transition (.int dt) = .error .overflow ∨
        ∃ A : Mat Float (order + 1) (order + 1),
          m.transition (.int dt) =
            .ok (TypedMat.tensor (m := order + 1) ⟨.real .double, A⟩) ∧
          (approximate = false → ∀ i j, i ≤ j →
            ∃ v, IsRoundingOf (A i j) v
              (dt ^ (j.val - i.val) / (j.val - i.val).factorial)))) ∧
    ∀ dt : Float,
      (171 ≤ order → m.transition (.real dt) = .error .overflow) ∧
      ∀ v, value? dt = some v → |v| ≤ 1 → order ≤ 170 → ∃ t, m.transition (.real dt) = .ok t := by
  intro m
  refine ⟨fun dt => ?_, transition_real order expected approximate⟩
  rcases transition_int order expected approximate dt with ⟨ho, k, hk, hle⟩ | ⟨x, hx, hA⟩
  · refine ⟨iff_of_true ho ⟨k, hk, hle⟩, fun hdt => ?_, .inl ho⟩
    have hlt := (int_cast_pow_div_le_one hdt k).trans_lt Binary.one_lt_limit
    exact absurd hlt (not_lt.mpr hle)
  · refine ⟨iff_of_false (fun ho => by cases hA.symm.trans ho) ?_, fun _ => ⟨_, hA⟩, .inr ?_⟩
    · rintro ⟨k, hk, hle⟩
      exact absurd (hx ⟨k, Nat.lt_succ_of_le hk⟩).1 (not_lt.mpr hle)
    · refine ⟨_, hA, ?_⟩
      rintro rfl i j hij
      have hk : j.val - i.val < order + 1 := by omega
      obtain ⟨-, v, hv⟩ := hx ⟨j.val - i.val, hk⟩
      have ha := Taylor.transition_alike (F := Machine) (p := .double) x hij hk
      exact ⟨v, hv.of_alike ha⟩

theorem transition_overflow_domain_half :
    let m (order : ℕ) : Motion Machine := ⟨.int order, .bool false, false, .real .double⟩
    (value? 0.5 = some (1 / 2) ∧ (∃ t, (m 170).transition (.real 0.5) = .ok t) ∧
        (m 171).transition (.real 0.5) = .error .overflow) ∧
      (∃ t, (m 200).transition (.int (-1)) = .ok t) ∧
      (m 1).transition (.int (2 ^ 1024)) = .error .overflow := by
  intro m
  have hhalf : value? 0.5 = some (1 / 2) := by
    have hu : packing64.unpack 0.5 = .finite .positive (2 ^ 52) (-53) (by decide) := rfl
    rw [value?, hu]
    norm_num [Unpacked.value?, Unpacked.signed]
  have hlarge : (2 : ℚ) ^ 1024 - 2 ^ 970 ≤ |(((2 ^ 1024 : ℤ) : ℚ) ^ 1 / Nat.factorial 1)| := by
    rw [pow_one, Nat.factorial_one, Nat.cast_one, div_one, Int.cast_pow, Int.cast_ofNat]
    exact (sub_le_self _ (by positivity)).trans (le_abs_self _)
  obtain ⟨-, hreal⟩ := transition_overflow_domain 170 (.bool false) false
  obtain ⟨-, hlate⟩ := transition_overflow_domain 171 (.bool false) false
  obtain ⟨hunit, -⟩ := transition_overflow_domain 200 (.bool false) false
  obtain ⟨hint, -⟩ := transition_overflow_domain 1 (.bool false) false
  refine ⟨⟨hhalf, (hreal 0.5).2 _ hhalf (by norm_num) (by decide), (hlate 0.5).1 le_rfl⟩,
    (hunit (-1)).2.1 (by decide), (hint (2 ^ 1024)).1.mpr ⟨1, le_rfl, hlarge⟩⟩

end Motion

end KalmanFilter
