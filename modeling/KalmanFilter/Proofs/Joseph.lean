import KalmanFilter.Proofs.WellPosed

/-! Without rounding, estimators that differ only in the form of the corrected
covariance have the same runs. -/

namespace KalmanFilter

variable {p : Precision} {m n : ℕ}

lemma Estimator.correct_eq_of_joseph {d : Decomposer Exact} (hd : d.SolvesSymmetric)
    (q : Process Exact) (debug i j : Bool) (time : ℝ) {b : Belief (Exact p) n}
    (hb : b.covariance.toMatrix.transpose = b.covariance.toMatrix)
    (z : Observation (Exact p) m n) :
    (Estimator.mk d q i debug).correct time b z = (Estimator.mk d q j debug).correct time b z := by
  refine Attempt.bind_congr (x := (Estimator.mk d q i debug).gain b z) fun K hK => ?_
  have h := Belief.correct_eq_of_isGain hb (isGain_of_solvesSymmetric hd hK) i j
  simp only [h]

theorem joseph_form_same_run (d : Decomposer Exact) (hd : d.SolvesSymmetric) (q : Process Exact)
    (debug : Bool) (x : Estimate Exact) (zs : List (Fallible Exact (Measurement Exact))) :
    let s := Session.opening ⟨d, q, true, debug⟩ x
    let t := Session.opening ⟨d, q, false, debug⟩ x
    s.attempts zs = t.attempts zs ∧ (s.run zs).cursor = (t.run zs).cursor := by
  refine Session.run_congr ?_ ⟨none, x⟩ 0 zs
  refine Estimator.step_congr rfl rfl ?_
  intro p m n time b t o
  exact Estimator.correct_eq_of_joseph hd q debug true false time (Belief.transpose_predict b t) o

theorem joseph_form_same_run_tilted :
    let d : Decomposer Exact := CholeskyDecomposer.defaults.decomposer
    let s (joseph : Bool) := Session.opening ⟨d, Tilted.process, joseph, false⟩ Tilted.initial
    d.SolvesSymmetric ∧ (s true).Succeeds Tilted.measurements ∧
      (s true).attempts Tilted.measurements = (s false).attempts Tilted.measurements ∧
      ((s true).run Tilted.measurements).cursor = ((s false).run Tilted.measurements).cursor := by
  intro d s
  have hd : d.SolvesSymmetric := CholeskyDecomposer.defaults.solvesSymmetric
  have hs := Session.succeeds_tilted CholeskyDecomposer.hasLimits_defaults (by norm_num) true false
  exact ⟨hd, hs, joseph_form_same_run d hd Tilted.process false Tilted.initial Tilted.measurements⟩

end KalmanFilter
