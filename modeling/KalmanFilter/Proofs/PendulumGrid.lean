import Mathlib.Algebra.Order.Star.Real
import KalmanFilter.Proofs.ExactPendulum
import KalmanFilter.Proofs.Semidefinite

/-! The steps fill the elapsed time of a pendulum exactly. Whole multiples of the
step are divided into steps of that length, so one integration goes on where another
one has ended. -/

namespace KalmanFilter

open Matrix

lemma IsNearest.lt_max {x : ℝ} {i : ℤ} (h : IsNearest x i) : x < 1.5 * (max 1 i : ℤ) := by
  have hx := (abs_le.mp h.near).2
  rcases lt_trichotomy i 1 with hi | rfl | hi
  · have hi' : (i : ℝ) ≤ 0 := Int.cast_nonpos.mpr (Int.lt_add_one_iff.mp hi)
    rw [max_eq_left hi.le, Int.cast_one]
    linarith
  · rw [Int.cast_one] at hx
    rw [max_self, Int.cast_one]
    refine lt_of_le_of_ne (by linarith) ?_
    -- half a unit above one is rounded up, since one is not even
    rintro rfl
    exact absurd (h.even (by norm_num)) (by decide)
  · have hi' : (2 : ℝ) ≤ i := by exact_mod_cast Int.add_one_le_of_lt hi
    rw [max_eq_right hi.le]
    linarith

namespace Pendulum

variable {p : Precision} {P : Pendulum Exact} {elapsed previous time : Datum Exact}
  {r s σ t₀ t₁ : ℝ}

lemma exists_division (hs : P.step.StandsFor s) (hs0 : 0 < s) {dt : ℝ}
    (he : elapsed.StandsFor dt) (hdt : 0 ≤ dt) :
    ∃ (i : ℤ) (n : ℕ) (h : ℝ), IsNearest (dt / s) i ∧ (n : ℤ) = max 1 i ∧ n * h = dt ∧
      0 ≤ h ∧ h < 1.5 * s ∧ ∀ state, P.propagate state elapsed = P.integrate h n state := by
  obtain ⟨i, n, hi, hn, hp⟩ := exists_steps hs hs0.ne' he
  have hn0 : (0 : ℝ) < n := by
    have h : 0 < n := by omega
    exact Nat.cast_pos.mpr h
  refine ⟨i, n, dt / n, hi, hn, mul_div_cancel₀ dt hn0.ne', div_nonneg hdt hn0.le, ?_, hp⟩
  have hx := hi.lt_max
  rw [← hn, Int.cast_natCast, div_lt_iff₀ hs0] at hx
  rw [div_lt_iff₀ hn0]
  exact hx.trans_eq (mul_right_comm _ _ _)

lemma leap_zero (r : ℝ) (v : Fin 2 → ℝ) : leap r 0 v = v := by
  ext i
  fin_cases i <;> simp [leap, angle, velocity] <;> rfl

lemma shear_zero (r c : ℝ) : shear r 0 c = 1 := by
  simp [shear, one_fin_two]

lemma exists_propagate (hs : P.step.StandsFor s) (h0 : s ≠ 0) (k : ℕ)
    (he : elapsed.StandsFor (k * s)) (x : Vec (Exact p) 2) :
    ∃ (y : Vec (Exact p) 2) (A : Mat (Exact p) 2 2),
      P.propagate (TypedVec.tensor ⟨.real p, x⟩) elapsed = .ok (⟨.real p, y⟩, ⟨.real p, A⟩) ∧
        y.get = track P.ratio s k x.get ∧
        Mat.toMatrix A = shears P.ratio s (cosines P.ratio s k x.get) := by
  obtain ⟨i, n, hi, hn, hp⟩ := exists_steps hs h0 he
  rw [mul_div_cancel_right₀ _ h0, ← Int.cast_natCast] at hi
  obtain rfl := hi.eq_of_intCast
  rw [hp]
  cases k with
  | zero =>
    -- no time takes one step of no length, which changes nothing
    obtain rfl : n = 1 := by simpa using hn
    obtain ⟨y, A, ho, hy, hA⟩ := P.exists_integrate 0 1 x
    refine ⟨y, A, ?_, hy.trans (leap_zero _ _), hA.trans ?_⟩
    · simpa using ho
    · exact (Matrix.one_mul _).trans (shear_zero _ _)
  | succ k =>
    obtain rfl : n = k + 1 := by omega
    have hk : ((k + 1 : ℕ) : ℝ) ≠ 0 := Nat.cast_ne_zero.mpr k.succ_ne_zero
    rw [mul_div_cancel_left₀ _ hk]
    exact P.exists_integrate s (k + 1) x

lemma exists_propagate_add (hs : P.step.StandsFor s) (h0 : s ≠ 0) {a b : ℕ}
    {u v w : Datum Exact} (hu : u.StandsFor (a * s)) (hv : v.StandsFor (b * s))
    (hw : w.StandsFor ((a + b) * s)) (x : Vec (Exact p) 2) :
    ∃ (y z : Vec (Exact p) 2) (A B : Mat (Exact p) 2 2),
      P.propagate (TypedVec.tensor ⟨.real p, x⟩) u = .ok (⟨.real p, y⟩, ⟨.real p, A⟩) ∧
      P.propagate (TypedVec.tensor ⟨.real p, y⟩) v = .ok (⟨.real p, z⟩, ⟨.real p, B⟩) ∧
      P.propagate (TypedVec.tensor ⟨.real p, x⟩) w = .ok (⟨.real p, z⟩, ⟨.real p, B * A⟩) := by
  rw [← Nat.cast_add] at hw
  obtain ⟨y, A, ho, hy, hA⟩ := exists_propagate hs h0 a hu x
  obtain ⟨z, B, ho', hz, hB⟩ := exists_propagate hs h0 b hv y
  obtain ⟨z', C, ho'', hz', hC⟩ := exists_propagate hs h0 (a + b) hw x
  have hzz : z' = z := Vec.get_injective (by rw [hz', hz, hy, track_add])
  have hCC : C = (B * A : Mat ℝ 2 2) := Mat.toMatrix_injective (by
    rw [Mat.toMatrix_mul, hA, hB, hC, cosines_add, shears_append, hy])
  subst hzz hCC
  exact ⟨y, _, A, B, ho, ho', ho''⟩

noncomputable def accelerationNoise (σ t : ℝ) : Mat ℝ 2 2 :=
  .square (t ^ 3 / (3 : ℕ) * σ ^ 2) (t ^ 2 / (2 : ℕ) * σ ^ 2) (t ^ 2 / (2 : ℕ) * σ ^ 2) (t * σ ^ 2)

lemma accelerationNoise_zero (σ : ℝ) : accelerationNoise σ 0 = .square 0 0 0 0 := by
  simp [accelerationNoise]

lemma transpose_accelerationNoise (σ t : ℝ) :
    (accelerationNoise σ t).transpose = accelerationNoise σ t := by
  ext i j
  fin_cases i <;> fin_cases j <;> rfl

lemma det_accelerationNoise (σ t : ℝ) :
    (accelerationNoise σ t).toMatrix.det = σ ^ 4 * t ^ 4 / 12 := by
  rw [accelerationNoise, Mat.toMatrix_square, det_fin_two_of]
  push_cast
  ring

lemma posSemidef_accelerationNoise (σ : ℝ) {t : ℝ} (ht : 0 ≤ t) :
    (accelerationNoise σ t).toMatrix.PosSemidef := by
  have hA := congrArg Mat.toMatrix (transpose_accelerationNoise σ t)
  refine .of_dotProduct_mulVec_nonneg ((Mat.toMatrix_transpose _).symm.trans hA) fun v => ?_
  -- a square completed in the velocity leaves a square in the angle
  have hv : star v ⬝ᵥ ((accelerationNoise σ t).toMatrix *ᵥ v) =
      t * (σ * (velocity v + t / 2 * angle v)) ^ 2 + t * (σ * t * angle v) ^ 2 / 12 := by
    rw [star_trivial, accelerationNoise, Mat.toMatrix_square]
    simp only [mulVec, dotProduct, Fin.sum_univ_two, of_apply, cons_val_zero, cons_val_one]
    show v 0 * _ + v 1 * _ = t * (σ * (v 1 + t / 2 * v 0)) ^ 2 + t * (σ * t * v 0) ^ 2 / 12
    push_cast
    ring
  rw [hv]
  positivity

lemma noise_exact (hσ : P.deviation.StandsFor σ) (r : Number Exact) :
    P.noise (.real p) r =
      (.ok (accelerationNoise σ r.value) : Fallible Exact (Mat ℝ 2 2)) := by
  obtain ⟨d, hd, rfl⟩ := hσ.exists_toNumber
  obtain ⟨v, hv, hv'⟩ := d.exists_pow 2
  obtain ⟨t₃, h₃, h₃'⟩ := r.exists_pow 3
  obtain ⟨t₂, h₂, h₂'⟩ := r.exists_pow 2
  have q₃ : t₃.div (.int 3) = .ok _ := t₃.div_natCast three_ne_zero
  have q₂ : t₂.div (.int 2) = .ok _ := t₂.div_natCast two_ne_zero
  obtain ⟨a, ha, ha'⟩ := Number.exists_mul (.real (t₃.value / (3 : ℕ) : ℝ)) v
  obtain ⟨b, hb, hb'⟩ := Number.exists_mul (.real (t₂.value / (2 : ℕ) : ℝ)) v
  obtain ⟨c, hc, hc'⟩ := r.exists_mul v
  have hQ : P.noise (.real p) r = Mat.storeSquare (.real p) a b b c := by
    simp only [noise, hd, hv, h₃, h₂, q₃, q₂, ha, hb, hc, bind, Except.bind]
  rw [hQ, Mat.storeSquare_exact, ha', hb', hc', hv', accelerationNoise, ← h₃', ← h₂']
  rfl

lemma exists_elapsed (hσ : P.deviation.StandsFor σ) (h₀ : previous.StandsFor t₀)
    (h₁ : time.StandsFor t₁) (x : Vec (Exact p) 2) :
    ∃ elapsed : Datum Exact, elapsed.StandsFor (t₁ - t₀) ∧
      ∀ (y : Vec (Exact p) 2) (A : Mat (Exact p) 2 2),
        P.propagate (TypedVec.tensor ⟨.real p, x⟩) elapsed = .ok (⟨.real p, y⟩, ⟨.real p, A⟩) →
          P.evolution previous (TypedVec.tensor ⟨.real p, x⟩) time =
            .ok ⟨t₁, 2, ⟨.real p, y⟩, ⟨.real p, A⟩, ⟨.real p, accelerationNoise σ (t₁ - t₀)⟩⟩ := by
  obtain ⟨a, ha, rfl⟩ := h₀.exists_toNumber
  obtain ⟨b, hb, rfl⟩ := h₁.exists_toNumber
  obtain ⟨r, hr, hr'⟩ := b.exists_sub a
  refine ⟨r.toDatum, hr' ▸ Datum.standsFor_toDatum r, fun y A ho => ?_⟩
  have hQ := noise_exact (p := p) hσ r
  have ht := b.toReal_exact
  rw [← hr']
  refine Fallible.bind_eq_ok_iff.mpr ⟨b, hb, Fallible.bind_eq_ok_iff.mpr ⟨a, ha,
    Fallible.bind_eq_ok_iff.mpr ⟨r, hr, Fallible.bind_eq_ok_iff.mpr ⟨_, ho,
    Fallible.bind_eq_ok_iff.mpr ⟨_, hQ, Fallible.bind_eq_ok_iff.mpr ⟨_, ht, ?_⟩⟩⟩⟩⟩⟩
  exact Evolution.of_tensor _ _ _ _

lemma evolution_of_eq (hs : P.step.StandsFor s) (h0 : s ≠ 0) (hσ : P.deviation.StandsFor σ)
    (h₀ : previous.StandsFor t₀) (h₁ : time.StandsFor t₀) (x : Vec (Exact p) 2) :
    P.evolution previous (TypedVec.tensor ⟨.real p, x⟩) time =
      .ok ⟨t₀, 2, ⟨.real p, x⟩, ⟨.real p, Mat.identity⟩, ⟨.real p, .square 0 0 0 0⟩⟩ := by
  obtain ⟨elapsed, he, h⟩ := exists_elapsed hσ h₀ h₁ x
  rw [sub_self] at he h
  have he : elapsed.StandsFor ((0 : ℕ) * s) := by rwa [Nat.cast_zero, zero_mul]
  obtain ⟨y, A, ho, hy, hA⟩ := exists_propagate hs h0 0 he x
  obtain rfl : y = x := Vec.get_injective hy
  obtain rfl : A = (Mat.identity : Mat ℝ 2 2) :=
    Mat.toMatrix_injective (hA.trans Mat.toMatrix_identity.symm)
  rw [accelerationNoise_zero] at h
  exact h _ _ ho

lemma exists_evolution (hs : P.step.StandsFor s) (h0 : s ≠ 0) (hσ : P.deviation.StandsFor σ)
    (h₀ : previous.StandsFor t₀) (h₁ : time.StandsFor t₁) (x : Vec (Exact p) 2) :
    ∃ (y : Vec (Exact p) 2) (A : Mat (Exact p) 2 2),
      P.evolution previous (TypedVec.tensor ⟨.real p, x⟩) time =
        .ok ⟨t₁, 2, ⟨.real p, y⟩, ⟨.real p, A⟩, ⟨.real p, accelerationNoise σ (t₁ - t₀)⟩⟩ := by
  obtain ⟨elapsed, he, h⟩ := exists_elapsed hσ h₀ h₁ x
  obtain ⟨_, n, -, -, hp⟩ := exists_steps hs h0 he
  obtain ⟨y, A, ho, -, -⟩ := P.exists_integrate ((t₁ - t₀) / n) n x
  exact ⟨y, A, h y A ((hp _).trans ho)⟩

section

variable {length step deviation : Datum Exact} {l : ℝ}

theorem propagate_grid (hl : length.StandsFor l) (hl0 : l ≠ 0) (hs : step.StandsFor s)
    (hs0 : 0 < s) (hσ : deviation.StandsFor σ) :
    ∃ P, Pendulum.of length deviation step = .ok P ∧
      (∀ elapsed dt, elapsed.StandsFor dt → 0 ≤ dt →
        ∃ (i : ℤ) (n : ℕ) (h : ℝ), IsNearest (dt / s) i ∧ (n : ℤ) = max 1 i ∧ n * h = dt ∧
          0 ≤ h ∧ h < 1.5 * s ∧ ∀ state, P.propagate state elapsed = P.integrate h n state) ∧
      (∀ (a b : ℕ) (u v w : Datum Exact), u.StandsFor (a * s) → v.StandsFor (b * s) →
        w.StandsFor ((a + b) * s) → ∀ {p : Precision} (x : Vec (Exact p) 2),
          ∃ (y z : Vec (Exact p) 2) (A B : Mat (Exact p) 2 2),
            P.propagate (TypedVec.tensor ⟨.real p, x⟩) u = .ok (⟨.real p, y⟩, ⟨.real p, A⟩) ∧
            P.propagate (TypedVec.tensor ⟨.real p, y⟩) v = .ok (⟨.real p, z⟩, ⟨.real p, B⟩) ∧
            P.propagate (TypedVec.tensor ⟨.real p, x⟩) w =
              .ok (⟨.real p, z⟩, ⟨.real p, B * A⟩)) ∧
      ∀ (previous time : Datum Exact) (t₀ t₁ : ℝ), previous.StandsFor t₀ → time.StandsFor t₁ →
        ∀ {p : Precision} (x : Vec (Exact p) 2),
          (t₀ = t₁ → P.evolution previous (TypedVec.tensor ⟨.real p, x⟩) time =
            .ok ⟨t₁, 2, ⟨.real p, x⟩, ⟨.real p, Mat.identity⟩, ⟨.real p, .square 0 0 0 0⟩⟩) ∧
          (t₀ ≤ t₁ → ∃ (y : Vec (Exact p) 2) (A Q : Mat (Exact p) 2 2),
            P.evolution previous (TypedVec.tensor ⟨.real p, x⟩) time =
                .ok ⟨t₁, 2, ⟨.real p, y⟩, ⟨.real p, A⟩, ⟨.real p, Q⟩⟩ ∧
              Q.transpose = Q ∧ (Mat.toMatrix Q).PosSemidef ∧
              (Mat.toMatrix Q).det = σ ^ 4 * (t₁ - t₀) ^ 4 / 12) := by
  refine ⟨⟨(9.81 : ℝ) / l, deviation, step⟩, of_exact hl hl0 deviation step, ?_, ?_, ?_⟩
  · intro elapsed dt he hdt
    exact exists_division hs hs0 he hdt
  · intro a b u v w hu hv hw p x
    exact exists_propagate_add hs hs0.ne' hu hv hw x
  · intro previous time t₀ t₁ h₀ h₁ p x
    constructor
    · rintro rfl
      exact evolution_of_eq hs hs0.ne' hσ h₀ h₁ x
    · intro ht
      obtain ⟨y, A, h⟩ := exists_evolution (P := ⟨(9.81 : ℝ) / l, deviation, step⟩) hs hs0.ne' hσ
        h₀ h₁ x
      exact ⟨y, A, _, h, transpose_accelerationNoise _ _,
        posSemidef_accelerationNoise σ (sub_nonneg.mpr ht), det_accelerationNoise _ _⟩

end

theorem propagate_grid_halves :
    (Datum.int 1 : Datum Exact).StandsFor 1 ∧ (1 : ℝ) ≠ 0 ∧
      (Datum.real (1 / 2 : ℝ) : Datum Exact).StandsFor (1 / 2) ∧ (0 : ℝ) < 1 / 2 ∧
      (Datum.int 3 : Datum Exact).StandsFor 3 ∧
      ∃ P : Pendulum Exact, Pendulum.of (.int 1) (.int 3) (.real (1 / 2 : ℝ)) = .ok P ∧
        (∀ state, P.propagate state (.real (3 / 4 : ℝ)) = P.integrate (3 / 8 : ℝ) 2 state) ∧
        ∀ x : Vec (Exact .double) 2,
          P.evolution (.int 1) (TypedVec.tensor ⟨.real .double, x⟩) (.bool true) =
            .ok ⟨(1 : ℝ), 2, ⟨.real .double, x⟩, ⟨.real .double, Mat.identity⟩,
              ⟨.real .double, .square 0 0 0 0⟩⟩ := by
  have h1 : (Datum.int 1 : Datum Exact).StandsFor 1 := ⟨.int 1, rfl, Int.cast_one⟩
  have hs := Datum.standsFor_real (1 / 2)
  have hσ : (Datum.int 3 : Datum Exact).StandsFor 3 := ⟨.int 3, rfl, Int.cast_ofNat 3⟩
  have ht : (Datum.bool true : Datum Exact).StandsFor 1 := ⟨.int 1, rfl, Int.cast_one⟩
  obtain ⟨P, hP, hd, -, he⟩ := propagate_grid h1 one_ne_zero hs one_half_pos hσ
  refine ⟨h1, one_ne_zero, hs, one_half_pos, hσ, P, hP, fun state => ?_, fun x => ?_⟩
  · obtain ⟨i, n, h, hi, hn, hh, -, hlt, hp⟩ := hd _ _ (Datum.standsFor_real (3 / 4)) (by norm_num)
    have hi' : (i : ℝ) ≤ 2 := by linarith [(abs_le.mp hi.near).1]
    have hi' : i ≤ 2 := by exact_mod_cast hi'
    have hn1 : n ≠ 1 := by
      rintro rfl
      rw [Nat.cast_one, one_mul] at hh
      linarith
    obtain rfl : n = 2 := by omega
    obtain rfl : h = 3 / 8 := by
      rw [Nat.cast_ofNat] at hh
      linarith
    exact hp state
  · exact (he _ _ 1 1 h1 ht x).1 rfl

end Pendulum

end KalmanFilter
