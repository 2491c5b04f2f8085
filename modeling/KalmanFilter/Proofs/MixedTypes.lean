import KalmanFilter.Proofs.Ending
import KalmanFilter.Proofs.Regularity

/-! If both parts of the initial estimate are of one type, a step in time succeeds
or fails for a reason of the filter. If they are not, every such step is refused. -/

namespace KalmanFilter

variable {F : Precision → Type} {p : Precision} {n : ℕ}

def Attempt.Settles (a : Attempt F (Estimate F)) : Prop :=
  (∃ y, a.outcome = .ok y) ∨ ∃ f family, a.outcome = .error f ∧ f.class? = some family

lemma Attempt.not_settles_of_refused {a : Attempt F (Estimate F)}
    (h : a.outcome = .error .refused) : ¬ a.Settles := by
  rintro (⟨y, hy⟩ | ⟨f, family, hf, hfam⟩)
  · cases hy.symm.trans h
  · cases hf.symm.trans h
    cases hfam

variable [Arithmetic F]

lemma Ending.settles_of_shows {d : Factorizer F} {t : F .double} {b : Belief (F p) n}
    {z : Measurement F} {x : Evolution F} {w : Ending F} {a : Attempt F (Estimate F)}
    (ht : ¬ z.time < t) (hz : z.stateDimension = n) (hx : x.dimension = n)
    (hw : w.Applies d t b z (.ok (.evolution x))) (ha : w.Shows t b z a) : a.Settles := by
  cases hw with
  | outdated h => exact absurd h ht
  | misobserved _ h => exact absurd hz h
  | misevolved _ _ h => exact absurd hx h
  | rejected =>
    obtain ⟨_, _, ⟨-, -, ho, hf⟩, -⟩ := ha
    exact .inr ⟨_, _, ho, hf⟩
  | completed =>
    obtain ⟨_, _, -, -, c, hc⟩ := ha
    exact .inl ⟨_, hc⟩

def Skew.mixed : Estimate Machine :=
  ⟨0, 2, Machine.axis, Skew.matrix⟩

namespace Session

lemma run_cursor_of_mixed (e : Estimator F) {x : Estimate F}
    (h : x.state.type ≠ x.covariance.type) (zs : List (Fallible F (Measurement F))) :
    ((opening e x).run zs).cursor = ⟨none, x⟩ := by
  refine cursor_run_of_advance (· = ⟨none, x⟩) rfl rfl ?_
  rintro m c k a - rfl
  cases (Estimate.belief?_of_mixed h).symm.trans a.typed

lemma settles_step {d : Factorizer F} {s : Session F} {t : F .double} {b : Belief (F p) n}
    {z : Measurement F} {v : Evolution F} (hd : s.estimator.decomposer = d.decomposer)
    (hc : s.cursor.corrected = .ofBelief t b) (ht : ¬ z.time < t) (hz : z.stateDimension = n)
    (hr : s.estimator.process s.queries t (TypedVec.tensor ⟨.real p, b.state⟩) z.time =
      .ok (.evolution v))
    (hv : v.dimension = n) : (s.step (.ok z)).2.Settles := by
  obtain ⟨w, hw⟩ := Ending.exists_applies d t b z (.ok (.evolution v))
  have hs : s.cursor = ⟨s.cursor.predicted, .ofBelief t b⟩ := congrArg (Cursor.mk _) hc
  rw [step_of_measured, hs]
  exact Ending.settles_of_shows ht hz hv hw ((hr.symm ▸ hw).step hd)

theorem step_settles_iff (d : Factorizer F) (q : Process F) (joseph debug : Bool) (x : Estimate F)
    (c : Cursor F) (hx : Cursor.start x = .ok c) (zs : List (Fallible F (Measurement F)))
    (z : Measurement F) (v : Evolution F) :
    let s := (opening ⟨d.decomposer, q, joseph, debug⟩ x).run zs
    ¬ z.time < s.cursor.corrected.time → z.stateDimension = x.dimension →
      q s.queries s.cursor.corrected.time s.cursor.corrected.state.tensor z.time =
        .ok (.evolution v) → v.dimension = x.dimension →
      ((s.step (.ok z)).2.Settles ↔ x.state.type = x.covariance.type) ∧
        (x.state.type ≠ x.covariance.type → (s.step (.ok z)).2.outcome = .error .refused) := by
  intro s ht hz hr hv
  have he : s.estimator = ⟨d.decomposer, q, joseph, debug⟩ := run_estimator _ zs
  have hmixed : x.state.type ≠ x.covariance.type →
      (s.step (.ok z)).2.outcome = .error .refused := by
    intro h
    have hs : s.cursor = ⟨none, x⟩ := run_cursor_of_mixed _ h zs
    rw [hs] at ht hr
    have hb := Estimate.belief?_of_mixed h
    rw [step_of_measured, he, hs, Estimator.step_of_untyped ht hz hr hv hb]
    rfl
  refine ⟨⟨fun h => ?_, fun h => ?_⟩, hmixed⟩
  · by_contra hn
    exact Attempt.not_settles_of_refused (hmixed hn) h
  · obtain ⟨p, b, hb⟩ := Estimate.exists_eq_ofBelief hx h
    obtain ⟨t', b', hc⟩ := run_corrected ⟨d.decomposer, q, joseph, debug⟩ x.time b zs
    rw [← hb] at hc
    have hc : s.cursor.corrected = .ofBelief t' b' := hc
    rw [hc] at ht hr
    exact settles_step (congrArg Estimator.decomposer he) hc ht hz (he ▸ hr) hv

theorem step_settles_iff_skew :
    Cursor.start Skew.initial = .ok ⟨none, Skew.initial⟩ ∧
      ¬ (Skew.measurement.time : Float) < Skew.initial.time ∧
      Skew.initial.state.type = Skew.initial.covariance.type ∧
      (Skew.session.step (.ok Skew.measurement)).2.Settles := by
  have ht : ¬ (Skew.measurement.time : Float) < Skew.initial.time := by decide
  have h := step_settles_iff (.cholesky 1e-15 1e-10) Skew.process true false Skew.initial
    ⟨none, Skew.initial⟩ rfl [] Skew.measurement _ ht rfl rfl rfl
  exact ⟨rfl, ht, rfl, h.1.mpr rfl⟩

theorem step_settles_iff_mixed :
    Cursor.start Skew.mixed = .ok ⟨none, Skew.mixed⟩ ∧
      ¬ (Skew.measurement.time : Float) < Skew.mixed.time ∧
      ¬ ((opening Skew.estimator Skew.mixed).step (.ok Skew.measurement)).2.Settles := by
  have ht : ¬ (Skew.measurement.time : Float) < Skew.mixed.time := by decide
  refine ⟨rfl, ht, Attempt.not_settles_of_refused ?_⟩
  rw [step_of_measured]
  have hs := Estimator.step_of_untyped (e := Skew.estimator) (k := 0) (s := ⟨none, Skew.mixed⟩)
    (z := Skew.measurement) ht rfl rfl rfl (Estimate.belief?_of_mixed nofun)
  exact congrArg (fun a => Attempt.outcome ((·.corrected) <$> a)) hs

end Session

end KalmanFilter
