import KalmanFilter.Proofs.InnovationRejection
import KalmanFilter.Proofs.TimePolicy
import KalmanFilter.Text.Record

/-! A step that moves the cursor leaves two records, one that the decomposer has
rejected leaves a warning, and every other one leaves nothing. -/

namespace KalmanFilter

variable {F : Precision → Type} {α β : Type}

def Record.isStep : Record F → Bool
  | .step _ _ _ => true
  | _ => false

@[simp] lemma Attempt.records_map (f : α → β) (x : Attempt F α) :
    (f <$> x).records = x.records := by
  simp only [records, map_events]

variable [Arithmetic F]

namespace Pending

variable {e : Estimator F} {k : ℕ} {c : Cursor F} {z : Measurement F}

def IsRejected {y : Estimate F} (u : Pending e k y z) : Prop :=
  ∃ f, (e.decomposer.decompose (u.prior.innovationCovariance u.observation)).outcome = .error f

def report {y : Estimate F} (u : Pending e k y z) (w w' : Estimate F) : List (Record F) :=
  [.update z.time (Arithmetic.convert (u.prior.innovation u.observation).norm),
    .step w'.time w.totalVariance w'.totalVariance]

lemma nonempty_or_unrecorded (e : Estimator F) (k : ℕ) (c : Cursor F) (z : Measurement F) :
    Nonempty (Pending e k c.corrected z) ∨
      (e.step k c z).records = [] ∧ ∃ f, (e.step k c z).outcome = .error f := by
  by_cases ht : z.time < c.corrected.time
  case pos =>
    rw [Estimator.step_of_outdated ht]
    exact .inr ⟨rfl, _, rfl⟩
  by_cases hz : z.stateDimension = c.corrected.dimension
  case neg =>
    rw [Estimator.step_of_misobserved ht hz]
    exact .inr ⟨rfl, _, rfl⟩
  cases hr : e.process k c.corrected.time c.corrected.state.tensor z.time with
  | error f =>
    rw [Estimator.step_of_evolve_error ht hz (Estimator.evolve_of_error hr)]
    exact .inr ⟨rfl, _, rfl⟩
  | ok reply =>
    cases reply with
    | foreign kind =>
      rw [Estimator.step_of_evolve_error ht hz (Estimator.evolve_of_foreign hr)]
      exact .inr ⟨rfl, _, rfl⟩
    | evolution x =>
      by_cases hx : x.dimension = c.corrected.dimension
      case neg =>
        rw [Estimator.step_of_misevolved ht hz hr hx]
        exact .inr ⟨rfl, _, rfl⟩
      cases hb : c.corrected.belief? with
      | none =>
        rw [Estimator.step_of_untyped ht hz hr hx hb]
        exact .inr ⟨rfl, _, rfl⟩
      | some pb =>
        obtain ⟨p, b⟩ := pb
        exact .inl ⟨⟨p, b, x, ht, hz, hb, hr, hx⟩⟩

section

variable {d : Factorizer F} (hd : e.decomposer = d.decomposer)
include hd

lemma isRejected_iff {y : Estimate F} {u : Pending e k y z} :
    u.IsRejected ↔ ∃ r, d.Rejects r (u.prior.innovationCovariance u.observation) := by
  constructor
  · rintro ⟨f, hf⟩
    by_contra! h
    obtain ⟨solve, hs, -⟩ := Factorizer.decompose_of_not_rejects h
    rw [hd, hs] at hf
    cases hf
  · rintro ⟨r, h⟩
    refine ⟨r.failure, ?_⟩
    rw [hd, Factorizer.decompose_of_rejects h]

lemma IsRejected.step {u : Pending e k c.corrected z} (h : u.IsRejected) :
    ∃ r : Rejection, (e.step k c z).outcome = .error r.failure ∧
      (e.step k c z).records = [.rejection r] := by
  obtain ⟨r, hr⟩ := (isRejected_iff hd).mp h
  rw [step_of_rejects hd hr]
  exact ⟨r, rfl, rfl⟩

lemma step_of_not_isRejected (he : e.debug = true) {u : Pending e k c.corrected z}
    (h : ¬ u.IsRejected) :
    ∃ w w' : Estimate F, (e.step k c z).outcome = .ok ⟨some w, w'⟩ ∧
      (e.step k c z).records = u.report w w' := by
  rw [isRejected_iff hd, not_exists] at h
  obtain ⟨solve, hs, hX⟩ := Factorizer.decompose_of_not_rejects h
  obtain ⟨X, hX⟩ := hX (u.prior.crossCovariance u.observation)
  have hg : e.gain u.prior u.observation = ⟨_, _⟩ := Estimator.gain_of_solve (hd ▸ hs) hX
  have hu : e.update z.time u.belief u.evolution u.evolves u.observation = ⟨_, _⟩ :=
    Estimator.update_of_gain_ok (congrArg Attempt.outcome hg)
  have ha := (Estimator.step_of_update u.timely u.observes u.answers u.evolves u.typed).trans
    (congrArg (fun a : Attempt F (Cursor F) => Attempt.mk (_ :: a.events) a.outcome) hu)
  rw [ha]
  refine ⟨_, _, rfl, ?_⟩
  have hr : (e.gain u.prior u.observation).records = [] := by
    rw [hg]
    rfl
  simp only [Attempt.records, List.filterMap_cons, List.filterMap_append, Estimator.notes, he]
  exact congrArg (· ++ _) hr

end

end Pending

namespace Estimator

variable {e e' : Estimator F}

lemma step_of_debug (hd : e.decomposer = e'.decomposer) (hq : e.process = e'.process)
    (hj : e.joseph = e'.joseph) (k : ℕ) (c : Cursor F) (z : Measurement F) :
    (e.step k c z).outcome = (e'.step k c z).outcome ∧
      (e.step k c z).queryCount = (e'.step k c z).queryCount := by
  rcases step_eq_or_update hq k c z with hs | ⟨p, b, x, hx, o, t, t', y, hs, hs'⟩
  · rw [hs]
    exact ⟨rfl, rfl⟩
  rw [hs, hs', Attempt.queryCount_query, Attempt.queryCount_query, Attempt.queryCount_eq_length,
    Attempt.queryCount_eq_length, Attempt.queries, Attempt.queries]
  have hgain : e.gain (b.predict (x.linearized p hx)) o =
      e'.gain (b.predict (x.linearized p hx)) o := by
    rw [gain, gain, hd]
  cases hg : (e'.gain (b.predict (x.linearized p hx)) o).outcome with
  | error f =>
    rw [update_of_gain_error hg, update_of_gain_error (hgain ▸ hg), hgain]
    exact ⟨rfl, rfl⟩
  | ok K =>
    rw [update_of_gain_ok hg, update_of_gain_ok (hgain ▸ hg), hgain, hj]
    simp only [List.filterMap_append, filterMap_query?_notes, and_self]

end Estimator

namespace Session

variable {e e' : Estimator F} {s : Session F} {z : Fallible F (Measurement F)}
  {zs : List (Fallible F (Measurement F))}

lemma run_alike_of_step (h : ∀ k c m, (e.step k c m).outcome = (e'.step k c m).outcome ∧
      (e.step k c m).queryCount = (e'.step k c m).queryCount) (c : Cursor F) (k : ℕ)
    (zs : List (Fallible F (Measurement F))) :
    ((Session.mk e c k).attempts zs).map (·.outcome) =
        ((Session.mk e' c k).attempts zs).map (·.outcome) ∧
      ((Session.mk e c k).run zs).cursor = ((Session.mk e' c k).run zs).cursor := by
  induction zs generalizing c k with
  | nil => exact ⟨rfl, rfl⟩
  | cons z zs ih =>
    have hs : ∃ c' k', ((Session.mk e c k).step z).1 = ⟨e, c', k'⟩ ∧
        ((Session.mk e' c k).step z).1 = ⟨e', c', k'⟩ ∧
        ((Session.mk e c k).step z).2.outcome = ((Session.mk e' c k).step z).2.outcome := by
      cases z with
      | error f => exact ⟨c, k, rfl, rfl, rfl⟩
      | ok m =>
        obtain ⟨ho, hk⟩ := h k c m
        rw [step_of_measured, step_of_measured]
        simp only [settle, Attempt.map_outcome, ho, hk]
        exact ⟨_, _, rfl, rfl, trivial⟩
    obtain ⟨c', k', hs, hs', ho⟩ := hs
    obtain ⟨hm, hr⟩ := ih c' k'
    simp only [attempts, run, List.map_cons, hs, hs', ho, hm, hr, and_self]

def Rejects (s : Session F) (z : Fallible F (Measurement F)) : Prop :=
  ∃ m, z = .ok m ∧ ∃ u : Pending s.estimator s.queries s.cursor.corrected m, u.IsRejected

def log (s : Session F) (zs : List (Fallible F (Measurement F))) : List (Record F) :=
  (s.attempts zs).flatMap Attempt.records

section

variable {d : Factorizer F} (hd : s.estimator.decomposer = d.decomposer)
include hd

lemma Rejects.step (h : s.Rejects z) : ∃ r : Rejection,
    (s.step z).2.outcome = .error r.failure ∧ (s.step z).2.records = [.rejection r] := by
  obtain ⟨m, rfl, u, hu⟩ := h
  obtain ⟨r, ho, hr⟩ := hu.step hd
  rw [step_of_measured]
  simp only [settle, Attempt.map_outcome, Attempt.records_map, ho, hr]
  exact ⟨r, rfl, rfl⟩

lemma step_records (hb : s.estimator.debug = true) (h : ¬ s.Rejects z) :
    (∃ (m : Measurement F) (u : Pending s.estimator s.queries s.cursor.corrected m)
        (w w' : Estimate F), z = .ok m ∧ (s.step z).2.outcome = .ok w' ∧
        (s.step z).1.cursor = ⟨some w, w'⟩ ∧ (s.step z).2.records = u.report w w') ∨
      (∃ f, (s.step z).2.outcome = .error f) ∧ (s.step z).2.records = [] := by
  cases z with
  | error f => exact .inr ⟨⟨f, rfl⟩, rfl⟩
  | ok m =>
    rw [step_of_measured]
    rcases Pending.nonempty_or_unrecorded s.estimator s.queries s.cursor m with ⟨⟨u⟩⟩ | ⟨hn, f, hf⟩
    · obtain ⟨w, w', ho, hw⟩ := u.step_of_not_isRejected hd hb fun hu => h ⟨m, rfl, u, hu⟩
      refine .inl ⟨m, u, w, w', rfl, ?_⟩
      simp only [settle, Attempt.map_outcome, Attempt.records_map, ho, hw]
      exact ⟨rfl, trivial, trivial⟩
    · right
      simp only [settle, Attempt.map_outcome, Attempt.records_map, hf, hn]
      exact ⟨⟨f, rfl⟩, trivial⟩

lemma countP_log (hb : s.estimator.debug = true) (zs : List (Fallible F (Measurement F))) :
    (s.log zs).countP Record.isStep = (s.emitted zs).length := by
  induction zs generalizing s with
  | nil => rfl
  | cons z zs ih =>
    have hlog : s.log (z :: zs) = (s.step z).2.records ++ (s.step z).1.log zs := rfl
    have hrest : ((s.step z).1.log zs).countP Record.isStep = _ := ih hd hb
    rw [hlog, List.countP_append, hrest]
    by_cases h : s.Rejects z
    · obtain ⟨r, ho, hr⟩ := h.step hd
      rw [emitted_of_error ho, hr]
      exact Nat.zero_add _
    · rcases step_records hd hb h with ⟨m, u, w, w', -, ho, -, hr⟩ | ⟨⟨f, ho⟩, hr⟩
      · rw [emitted_of_ok ho, hr, List.length_cons, Nat.add_comm]
        rfl
      · rw [emitted_of_error ho, hr]
        exact Nat.zero_add _

end

/-- A step is taken after any run, whatever the earlier ones of it have ended in. -/
theorem log_tells_steps (d : Factorizer F) (q : Process F) (joseph : Bool) (x : Estimate F)
    (zs : List (Fallible F (Measurement F))) :
    let s := opening ⟨d.decomposer, q, joseph, true⟩ x
    let quiet := opening ⟨d.decomposer, q, joseph, false⟩ x
    let t := s.run zs
    (∀ z,
      (∀ y, (t.step z).2.outcome = .ok y →
        ∃ (m : Measurement F) (u : Pending t.estimator t.queries t.cursor.corrected m)
          (w : Estimate F), z = .ok m ∧ y.time = m.time ∧ (t.step z).1.cursor = ⟨some w, y⟩ ∧
          (t.step z).2.records =
            [.update m.time (Arithmetic.convert (u.prior.innovation u.observation).norm),
              .step y.time w.totalVariance y.totalVariance] ∧
          (t.step z).2.records.map (fun r => (r.level.name, r.logger.name, r.title)) =
            [("DEBUG", "torch_ekf.extended", "Update"),
              ("DEBUG", "torch_ekf.kalman_estimator", "Estimation step")]) ∧
      (t.Rejects z → ∃ r : Rejection,
        (t.step z).2.outcome = .error r.failure ∧ (t.step z).2.records = [.rejection r] ∧
          (t.step z).2.records.map (fun r => (r.level.name, r.logger.name)) =
            [("WARNING", "torch_ekf.decomposition")]) ∧
      ∀ f, (t.step z).2.outcome = .error f →
        (t.step z).1.cursor = t.cursor ∧ (¬ t.Rejects z → (t.step z).2.records = [])) ∧
    (s.log zs).countP Record.isStep = (s.emitted zs).length ∧
    (s.attempts zs).map (·.outcome) = (quiet.attempts zs).map (·.outcome) ∧
    ∀ k, (s.run (zs.take k)).cursor = (quiet.run (zs.take k)).cursor := by
  intro s quiet t
  have hdebug : ∀ k c m, (s.estimator.step k c m).outcome = (quiet.estimator.step k c m).outcome ∧
      (s.estimator.step k c m).queryCount = (quiet.estimator.step k c m).queryCount :=
    Estimator.step_of_debug rfl rfl rfl
  have hrun := run_alike_of_step hdebug ⟨none, x⟩ 0
  refine ⟨fun z => ?_, countP_log rfl rfl zs, (hrun zs).1, fun k => (hrun (zs.take k)).2⟩
  have ht : t.estimator = s.estimator := run_estimator _ _
  have hd : t.estimator.decomposer = d.decomposer := congrArg Estimator.decomposer ht
  have hs := step_records hd (congrArg Estimator.debug ht) (z := z)
  refine ⟨fun y hy => ?_, fun h => ?_, fun f hf => ⟨cursor_of_error hf, fun h => ?_⟩⟩
  · have hz : ¬ t.Rejects z := fun h => by
      obtain ⟨r, ho, -⟩ := h.step hd
      cases ho.symm.trans hy
    rcases hs hz with ⟨m, u, w, w', hm, ho, hc, hr⟩ | ⟨⟨f, ho⟩, -⟩
    · obtain rfl := Except.ok.inj (ho.symm.trans hy)
      refine ⟨m, u, w, hm, ?_, hc, hr, congrArg (List.map _) hr⟩
      obtain ⟨m', a, hm', -, rfl⟩ := advance_of_ok rfl hy
      exact congrArg Measurement.time (Except.ok.inj (hm'.symm.trans hm))
    · cases ho.symm.trans hy
  · obtain ⟨r, ho, hr⟩ := h.step hd
    exact ⟨r, ho, hr, congrArg (List.map _) hr⟩
  · rcases hs h with ⟨m, u, w, w', -, ho, -⟩ | ⟨-, hr⟩
    · cases ho.symm.trans hf
    · exact hr

end Session

namespace Skew

def logged : Session Machine :=
  .opening ⟨(Factorizer.cholesky (1e-15 : Float) (1e-10 : Float)).decomposer, process, true, true⟩
    (.ofBelief (0 : Float) belief)

lemma rejects_unknown : logged.Rejects (.ok unknown) := by
  have ht : ¬ unknown.time < logged.cursor.corrected.time := by decide +kernel
  obtain ⟨u, i, j, hu⟩ := exists_pending (e := logged.estimator) rfl (k := 0) rfl ht
  have hn : ¬ Scalar.IsNumber (u.prior.innovationCovariance u.observation i j) :=
    fun h => hu (Mat.isNumber_of_symmetrize h)
  obtain ⟨r, hr⟩ := Factorizer.rejects_innovationCovariance (1e-15 : Float) (1e-10 : Float) hn
  exact ⟨unknown, rfl, u, (Pending.isRejected_iff rfl).mpr ⟨r, hr⟩⟩

end Skew

namespace Session

theorem log_tells_steps_skew :
    Skew.logged.Rejects (.ok Skew.unknown) ∧
      (∃ y v w, (Skew.logged.step (.ok Skew.measurement)).2.outcome = .ok y ∧
        (Skew.logged.step (.ok Skew.measurement)).2.records =
          [.update Skew.measurement.time v,
            .step Skew.measurement.time w y.totalVariance]) ∧
      (Skew.logged.step (.ok Skew.unknown)).2.records.map (fun r => (r.level.name, r.logger.name)) =
        [("WARNING", "torch_ekf.decomposition")] := by
  have hs : (Skew.logged.step (.ok Skew.measurement)).2.outcome.isOk = true := by decide +kernel
  have h := (log_tells_steps (.cholesky (1e-15 : Float) (1e-10 : Float)) Skew.process true
    (.ofBelief (0 : Float) Skew.belief) []).1
  rw [run, ← Skew.logged] at h
  refine ⟨Skew.rejects_unknown, ?_, ?_⟩
  · cases ho : (Skew.logged.step (.ok Skew.measurement)).2.outcome with
    | error f =>
      rw [ho] at hs
      cases hs
    | ok y =>
      obtain ⟨m, u, w, hm, ht, -, hr, -⟩ := (h (.ok Skew.measurement)).1 y ho
      obtain rfl := Except.ok.inj hm
      rw [ht] at hr
      exact ⟨y, _, _, rfl, hr⟩
  · obtain ⟨r, -, -, hn⟩ := (h (.ok Skew.unknown)).2.1 Skew.rejects_unknown
    exact hn

end Session

end KalmanFilter
