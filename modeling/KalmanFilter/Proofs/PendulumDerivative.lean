import Mathlib.Analysis.SpecialFunctions.Trigonometric.Deriv
import Mathlib.Topology.Algebra.Module.FiniteDimension
import KalmanFilter.Proofs.ExactPendulum

/-! The jacobian that comes with the integration of the pendulum is its derivative,
however many steps there are, and it keeps areas. -/

namespace KalmanFilter

open Matrix

noncomputable def linearMap (A : Matrix (Fin 2) (Fin 2) ℝ) : (Fin 2 → ℝ) →L[ℝ] (Fin 2 → ℝ) :=
  A.mulVecLin.toContinuousLinearMap

lemma linearMap_mul (A B : Matrix (Fin 2) (Fin 2) ℝ) :
    linearMap (A * B) = (linearMap A).comp (linearMap B) := by
  ext1 v
  exact (mulVec_mulVec v A B).symm

lemma linearMap_one : linearMap 1 = .id ℝ (Fin 2 → ℝ) := by
  ext1 v
  exact one_mulVec v

namespace Pendulum

variable (r h : ℝ)

lemma det_shear (c : ℝ) : (shear r h c).det = 1 := by
  rw [shear, det_fin_two_of]
  ring

lemma det_shears (cs : List ℝ) : (shears r h cs).det = 1 := by
  induction cs with
  | nil => exact det_one
  | cons c cs ih => rw [shears, det_mul, ih, det_shear, one_mul]

lemma shear_mulVec (c : ℝ) (w : Fin 2 → ℝ) : shear r h c *ᵥ w =
    ![(1 - h ^ 2 * r * c) * angle w + h * velocity w, velocity w - h * r * c * angle w] := by
  ext i
  fin_cases i
  · simp [shear, angle, velocity]
  · simp [shear, angle, velocity]
    ring

lemma hasFDerivAt_leap (v : Fin 2 → ℝ) :
    HasFDerivAt (leap r h) (linearMap (shear r h (Real.cos (angle v)))) v := by
  have hx : HasFDerivAt angle (.proj 0 : (Fin 2 → ℝ) →L[ℝ] ℝ) v := hasFDerivAt_apply 0 v
  have hv : HasFDerivAt velocity (.proj 1 : (Fin 2 → ℝ) →L[ℝ] ℝ) v := hasFDerivAt_apply 1 v
  have hw := hv.sub (hx.sin.const_mul (h * r))
  refine hasFDerivAt_pi'.mpr fun i => ?_
  -- the angle moves with the new velocity, so its derivative holds that of the velocity
  fin_cases i
  · refine (hx.add (hw.const_mul h)).congr_fderiv (ContinuousLinearMap.ext fun w => ?_)
    show angle w + h * (velocity w - h * r * (Real.cos (angle v) * angle w)) =
      (shear r h (Real.cos (angle v)) *ᵥ w) 0
    rw [shear_mulVec, cons_val_zero]
    ring
  · refine hw.congr_fderiv (ContinuousLinearMap.ext fun w => ?_)
    show velocity w - h * r * (Real.cos (angle v) * angle w) =
      (shear r h (Real.cos (angle v)) *ᵥ w) 1
    rw [shear_mulVec, cons_val_one, cons_val_zero]
    ring

lemma hasFDerivAt_track (n : ℕ) (v : Fin 2 → ℝ) :
    HasFDerivAt (track r h n) (linearMap (shears r h (cosines r h n v))) v := by
  induction n generalizing v with
  | zero =>
    rw [cosines, shears, linearMap_one]
    exact hasFDerivAt_id v
  | succ n ih =>
    rw [cosines, shears, linearMap_mul]
    exact (ih (leap r h v)).comp v (hasFDerivAt_leap r h v)

lemma length_cosines (n : ℕ) (v : Fin 2 → ℝ) : (cosines r h n v).length = n := by
  induction n generalizing v with
  | zero => rfl
  | succ n ih => exact congrArg Nat.succ (ih (leap r h v))

section

variable {length step elapsed : Datum Exact} {l s dt : ℝ}

/-- The matrix that comes with a state is a product that depends on the cosines along the way, but
its determinant would be the same for any other numbers. -/
theorem propagate_derivative (hl : length.StandsFor l) (hl0 : l ≠ 0) (hs : step.StandsFor s)
    (hs0 : 0 < s) (he : elapsed.StandsFor dt) (deviation : Datum Exact) :
    ∃ P, Pendulum.of length deviation step = .ok P ∧
      ∃ (f : (Fin 2 → ℝ) → Fin 2 → ℝ) (J : (Fin 2 → ℝ) → Matrix (Fin 2) (Fin 2) ℝ),
        (∀ {p : Precision} (x : Vec (Exact p) 2), ∃ (y : Vec (Exact p) 2) (A : Mat (Exact p) 2 2),
          P.propagate (TypedVec.tensor ⟨.real p, x⟩) elapsed = .ok (⟨.real p, y⟩, ⟨.real p, A⟩) ∧
            y.get = f x.get ∧ Mat.toMatrix A = J x.get) ∧
        (∀ v, HasFDerivAt f (linearMap (J v)) v ∧ (J v).det = 1) ∧
        ∃ (n : ℕ) (h : ℝ), f = track (9.81 / l) h n ∧
          (∀ v, (cosines (9.81 / l) h n v).length = n ∧
            J v = shears (9.81 / l) h (cosines (9.81 / l) h n v)) ∧
          ∀ cs, (shears (9.81 / l) h cs).det = 1 := by
  refine ⟨_, of_exact hl hl0 deviation step, ?_⟩
  obtain ⟨_, n, -, -, hp⟩ := exists_steps (P := ⟨(9.81 : ℝ) / l, deviation, step⟩) hs hs0.ne' he
  refine ⟨track (9.81 / l) (dt / n) n,
    fun v => shears (9.81 / l) (dt / n) (cosines (9.81 / l) (dt / n) n v), fun x => ?_,
    fun v => ⟨hasFDerivAt_track _ _ n v, det_shears _ _ _⟩, n, dt / n, rfl,
    fun v => ⟨length_cosines _ _ n v, rfl⟩, det_shears _ _⟩
  rw [hp]
  exact exists_integrate _ _ n x

end

theorem propagate_derivative_whole :
    (Datum.int 2 : Datum Exact).StandsFor 2 ∧ (2 : ℝ) ≠ 0 ∧
      (Datum.real (1 / 2 : ℝ) : Datum Exact).StandsFor (1 / 2) ∧ (0 : ℝ) < 1 / 2 ∧
      (Datum.bool true : Datum Exact).StandsFor 1 ∧
      ∃ P : Pendulum Exact, Pendulum.of (.int 2) (.int 3) (.real (1 / 2 : ℝ)) = .ok P ∧
        ∃ (f : (Fin 2 → ℝ) → Fin 2 → ℝ) (J : (Fin 2 → ℝ) → Matrix (Fin 2) (Fin 2) ℝ),
          (∀ x : Vec (Exact .double) 2, ∃ (y : Vec (Exact .double) 2)
              (A : Mat (Exact .double) 2 2),
            P.propagate (TypedVec.tensor ⟨.real .double, x⟩) (.bool true) =
                .ok (⟨.real .double, y⟩, ⟨.real .double, A⟩) ∧
              y.get = f x.get ∧ Mat.toMatrix A = J x.get) ∧
          ∀ v, HasFDerivAt f (linearMap (J v)) v ∧ (J v).det = 1 := by
  have hl : (Datum.int 2 : Datum Exact).StandsFor 2 := ⟨.int 2, rfl, Int.cast_ofNat 2⟩
  have hs := Datum.standsFor_real (1 / 2)
  have he : (Datum.bool true : Datum Exact).StandsFor 1 := ⟨.int 1, rfl, Int.cast_one⟩
  obtain ⟨P, hP, f, J, hf, hJ, -⟩ :=
    propagate_derivative hl two_ne_zero hs one_half_pos he (.int 3)
  exact ⟨hl, two_ne_zero, hs, one_half_pos, he, P, hP, f, J, hf, hJ⟩

end Pendulum

end KalmanFilter
