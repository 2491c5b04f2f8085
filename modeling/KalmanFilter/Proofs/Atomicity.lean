import KalmanFilter.Proofs.Run

/-! A step that fails leaves the cursor as it was, and one that succeeds moves
prediction and correction together, so both parts of the cursor always come from one
step. -/

namespace KalmanFilter

variable {F : Precision → Type} [Arithmetic F]

namespace Session

/-- The cursor is untouched, or it is what the last successful step on these measurements made. -/
def LastAdvance (e : Estimator F) (s : Session F) (zs : List (Fallible F (Measurement F))) : Prop :=
  (s.Stalls zs ∧ (s.run zs).cursor = s.cursor) ∨
    ∃ (us : List (Fallible F (Measurement F))) (m : Measurement F)
      (vs : List (Fallible F (Measurement F)))
      (a : Advance e (s.run us).queries (s.run us).cursor.corrected m),
      zs = us ++ .ok m :: vs ∧ ((s.run us).step (.ok m)).2.outcome = .ok a.corrected ∧
        (s.run (us ++ [.ok m])).Stalls vs ∧ (s.run zs).cursor = a.cursor

lemma lastAdvance {e : Estimator F} {s : Session F} (he : s.estimator = e)
    (zs : List (Fallible F (Measurement F))) : LastAdvance e s zs := by
  rcases stalls_or_last_advance he zs with hs | ⟨us, m, vs, a, rfl, hs⟩
  · exact .inl ⟨hs, cursor_run_of_stalls hs⟩
  · right
    obtain ⟨hc, ho⟩ := step_of_advance ((s.run_estimator us).trans he) a
    refine ⟨us, m, vs, a, rfl, ho, hs, ?_⟩
    rw [List.append_cons, run_append, cursor_run_of_stalls hs, run_append]
    exact hc

/-- The estimator is any, and so are its process and its decomposer: a linear one is the case of a
process that is linearized first. An `Advance` says what prediction and correction are. -/
theorem step_atomic (e : Estimator F) (x : Estimate F) (zs : List (Fallible F (Measurement F)))
    (z : Fallible F (Measurement F)) :
    let s := (opening e x).run zs
    (∀ f, (s.step z).2.outcome = .error f → (s.step z).1.cursor = s.cursor) ∧
      (∀ y, (s.step z).2.outcome = .ok y →
        ∃ (m : Measurement F) (a : Advance e s.queries s.cursor.corrected m), z = .ok m ∧
          (e.correct m.time a.prior a.observation).outcome = .ok a.posterior ∧
          y = .ofBelief m.time a.posterior ∧
          (s.step z).1.cursor =
            ⟨some (.ofBelief a.evolution.time (a.belief.predict a.transition)), y⟩) ∧
      LastAdvance e (opening e x) zs := by
  intro s
  have he : s.estimator = e := run_estimator (opening e x) zs
  refine ⟨fun f => cursor_of_error, ?_, lastAdvance rfl zs⟩
  intro y hy
  obtain ⟨m, a, rfl, hc, rfl⟩ := advance_of_ok he hy
  exact ⟨m, a, rfl, a.correct_outcome, rfl, hc⟩

end Session

end KalmanFilter
