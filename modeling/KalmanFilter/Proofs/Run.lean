import KalmanFilter.Filter.Setup
import KalmanFilter.Proofs.Step

/-! A step moves the cursor only by an advance, so what every advance preserves
holds after every run; and the cursor after a run is the one that the last
successful step has left. -/

namespace KalmanFilter

variable {F : Precision → Type} [Arithmetic F]

namespace Session

def opening (e : Estimator F) (x : Estimate F) : Session F :=
  ⟨e, ⟨none, x⟩, 0⟩

def settle (s : Session F) (a : Attempt F (Cursor F)) : Session F × Attempt F (Estimate F) :=
  let cursor := match a.outcome with
    | .ok c => c
    | .error _ => s.cursor
  (⟨s.estimator, cursor, s.queries + a.queryCount⟩, (·.corrected) <$> a)

def run (s : Session F) : List (Fallible F (Measurement F)) → Session F
  | [] => s
  | z :: zs => run (s.step z).1 zs

def attempts (s : Session F) : List (Fallible F (Measurement F)) → List (Attempt F (Estimate F))
  | [] => []
  | z :: zs => (s.step z).2 :: attempts (s.step z).1 zs

def Stalls (s : Session F) (zs : List (Fallible F (Measurement F))) : Prop :=
  ∀ t ∈ s.attempts zs, ∃ f, t.outcome = .error f

def Succeeds (s : Session F) (zs : List (Fallible F (Measurement F))) : Prop :=
  ∀ t ∈ s.attempts zs, ∃ y, t.outcome = .ok y

/-- Every transition that a successful step of a run is made of has a property. -/
def EveryTransition (P : Evolution F → Prop) (s : Session F) :
    List (Fallible F (Measurement F)) → Prop
  | [] => True
  | z :: zs =>
    (∀ m, z = .ok m → ∀ a : Advance s.estimator s.queries s.cursor.corrected m, P a.evolution) ∧
      EveryTransition P (s.step z).1 zs

variable {e : Estimator F} {s : Session F} {z : Fallible F (Measurement F)}
  {zs : List (Fallible F (Measurement F))}

lemma everyTransition_of_process {P : Evolution F → Prop} {s : Session F}
    (h : ∀ k t x t' y, s.estimator.process k t x t' = .ok (.evolution y) → P y)
    (zs : List (Fallible F (Measurement F))) : s.EveryTransition P zs := by
  induction zs generalizing s with
  | nil => trivial
  | cons z zs ih => exact ⟨fun m _ a => h _ _ _ _ _ a.answers, ih (s := (s.step z).1) h⟩

lemma succeeds_cons : s.Succeeds (z :: zs) ↔
    (∃ y, (s.step z).2.outcome = .ok y) ∧ (s.step z).1.Succeeds zs :=
  List.forall_mem_cons

lemma run_append (s : Session F) (us vs : List (Fallible F (Measurement F))) :
    s.run (us ++ vs) = (s.run us).run vs := by
  induction us generalizing s with
  | nil => rfl
  | cons z us ih => exact ih (s.step z).1

lemma attempts_append (s : Session F) (us vs : List (Fallible F (Measurement F))) :
    s.attempts (us ++ vs) = s.attempts us ++ (s.run us).attempts vs := by
  induction us generalizing s with
  | nil => rfl
  | cons z us ih => exact congrArg ((s.step z).2 :: ·) (ih (s.step z).1)

lemma run_estimator (s : Session F) (zs : List (Fallible F (Measurement F))) :
    (s.run zs).estimator = s.estimator := by
  induction zs generalizing s with
  | nil => rfl
  | cons z zs ih => exact ih (s.step z).1

lemma step_of_measured (s : Session F) (z : Measurement F) :
    s.step (.ok z) = s.settle (s.estimator.step s.queries s.cursor z) := by
  simp only [step, settle, Estimator.advance_eq, Attempt.queryCount, Attempt.map_events]
  cases (s.estimator.step s.queries s.cursor z).outcome <;> rfl

lemma step_of_outcome {z : Measurement F} {x : Cursor F}
    (h : (s.estimator.step s.queries s.cursor z).outcome = .ok x) :
    (s.step (.ok z)).1.cursor = x ∧ (s.step (.ok z)).2.outcome = .ok x.corrected := by
  rw [step_of_measured]
  simp only [settle, Attempt.map_outcome, h, true_and]
  rfl

lemma exists_step_outcome_iff {z : Measurement F} :
    (∃ y, (s.step (.ok z)).2.outcome = .ok y) ↔
      ∃ x, (s.estimator.step s.queries s.cursor z).outcome = .ok x := by
  constructor
  · rintro ⟨y, hy⟩
    rw [step_of_measured] at hy
    cases ho : (s.estimator.step s.queries s.cursor z).outcome with
    | error f =>
      simp only [settle, Attempt.map_outcome, ho] at hy
      cases hy
    | ok x => exact ⟨x, rfl⟩
  · rintro ⟨x, hx⟩
    exact ⟨x.corrected, (step_of_outcome hx).2⟩

lemma cursor_of_error {f : Failure F} (h : (s.step z).2.outcome = .error f) :
    (s.step z).1.cursor = s.cursor := by
  cases z with
  | error g => rfl
  | ok z =>
    rw [step_of_measured] at h ⊢
    simp only [settle, Attempt.map_outcome] at h ⊢
    cases ho : (s.estimator.step s.queries s.cursor z).outcome with
    | error g => rfl
    | ok c =>
      rw [ho] at h
      cases h

lemma advance_of_ok {y : Estimate F} (he : s.estimator = e)
    (h : (s.step z).2.outcome = .ok y) :
    ∃ (m : Measurement F) (a : Advance e s.queries s.cursor.corrected m),
      z = .ok m ∧ (s.step z).1.cursor = a.cursor ∧ y = a.corrected := by
  subst he
  cases z with
  | error g => cases h
  | ok z =>
    obtain ⟨c, ho⟩ := exists_step_outcome_iff.mp ⟨y, h⟩
    obtain ⟨a, rfl⟩ := Estimator.exists_advance ho
    obtain ⟨hc, hy⟩ := step_of_outcome ho
    exact ⟨z, a, rfl, hc, Except.ok.inj (h.symm.trans hy)⟩

lemma refusal_of_error {m : Measurement F} {f : Failure F}
    (h : (s.step (.ok m)).2.outcome = .error f) :
    Refusal s.estimator s.queries s.cursor.corrected m f := by
  rw [step_of_measured] at h
  simp only [settle, Attempt.map_outcome] at h
  cases ho : (s.estimator.step s.queries s.cursor m).outcome with
  | error g =>
    rw [ho] at h
    exact Except.error.inj h ▸ Estimator.refusal_of_error ho
  | ok c =>
    rw [ho] at h
    cases h

lemma step_of_advance {m : Measurement F} (he : s.estimator = e)
    (a : Advance e s.queries s.cursor.corrected m) :
    (s.step (.ok m)).1.cursor = a.cursor ∧ (s.step (.ok m)).2.outcome = .ok a.corrected := by
  subst he
  exact step_of_outcome (Estimator.step_of_advance a)

lemma run_congr {e' : Estimator F} (h : ∀ k c m, e.step k c m = e'.step k c m) (c : Cursor F)
    (k : Nat) (zs : List (Fallible F (Measurement F))) :
    (Session.mk e c k).attempts zs = (Session.mk e' c k).attempts zs ∧
      ((Session.mk e c k).run zs).cursor = ((Session.mk e' c k).run zs).cursor := by
  induction zs generalizing c k with
  | nil => exact ⟨rfl, rfl⟩
  | cons z zs ih =>
    have hs : ∃ c' k' a, (Session.mk e c k).step z = (⟨e, c', k'⟩, a) ∧
        (Session.mk e' c k).step z = (⟨e', c', k'⟩, a) := by
      cases z with
      | error f => exact ⟨c, k, _, rfl, rfl⟩
      | ok m =>
        rw [step_of_measured, step_of_measured]
        simp only [settle, h]
        exact ⟨_, _, _, rfl, rfl⟩
    obtain ⟨c', k', a, he, he'⟩ := hs
    simp only [attempts, run, he, he', ih c' k', and_self]

lemma cursor_run_of_everyTransition {Q : Evolution F → Prop} (P : Cursor F → Prop)
    (he : s.estimator = e) (h : P s.cursor) (ht : s.EveryTransition Q zs)
    (ha : ∀ (m : Measurement F) (c : Cursor F) (k : Nat) (a : Advance e k c.corrected m),
      .ok m ∈ zs → Q a.evolution → P c → P a.cursor) : P (s.run zs).cursor := by
  induction zs generalizing s with
  | nil => exact h
  | cons z zs ih =>
    refine ih (s := (s.step z).1) he ?_ ht.2
      fun m c k a hm => ha m c k a (List.mem_cons_of_mem z hm)
    cases ho : (s.step z).2.outcome with
    | error f => rwa [cursor_of_error ho]
    | ok y =>
      subst he
      obtain ⟨m, a, rfl, hc, -⟩ := advance_of_ok rfl ho
      rw [hc]
      exact ha m s.cursor s.queries a List.mem_cons_self (ht.1 m rfl a) h

lemma cursor_run_of_advance (P : Cursor F → Prop) (he : s.estimator = e) (h : P s.cursor)
    (ha : ∀ (m : Measurement F) (c : Cursor F) (k : Nat) (a : Advance e k c.corrected m),
      .ok m ∈ zs → P c → P a.cursor) : P (s.run zs).cursor :=
  cursor_run_of_everyTransition P he h (everyTransition_of_process (fun _ _ _ _ _ _ => trivial) zs)
    fun m c k a hm _ => ha m c k a hm

lemma cursor_run_of_stalls (h : s.Stalls zs) : (s.run zs).cursor = s.cursor := by
  induction zs generalizing s with
  | nil => rfl
  | cons z zs ih =>
    obtain ⟨f, hf⟩ := h (s.step z).2 List.mem_cons_self
    have ht := ih (s := (s.step z).1) fun t ht => h t (List.mem_cons_of_mem _ ht)
    exact ht.trans (cursor_of_error hf)

lemma stalls_or_last_advance (he : s.estimator = e) (zs : List (Fallible F (Measurement F))) :
    s.Stalls zs ∨ ∃ (us : List (Fallible F (Measurement F))) (m : Measurement F)
      (vs : List (Fallible F (Measurement F)))
      (_ : Advance e (s.run us).queries (s.run us).cursor.corrected m),
      zs = us ++ .ok m :: vs ∧ (s.run (us ++ [.ok m])).Stalls vs := by
  induction zs generalizing s with
  | nil => exact .inl fun t ht => nomatch ht
  | cons z zs ih =>
    -- a success in the rest is later than one of the first step
    rcases ih (s := (s.step z).1) he with hs | ⟨us, m, vs, a, rfl, hs⟩
    · cases ho : (s.step z).2.outcome with
      | error f =>
        left
        intro t ht
        rcases List.mem_cons.mp ht with rfl | ht
        · exact ⟨f, ho⟩
        · exact hs t ht
      | ok y =>
        obtain ⟨m, a, rfl, -, -⟩ := advance_of_ok he ho
        exact .inr ⟨[], m, zs, a, rfl, hs⟩
    · exact .inr ⟨z :: us, m, vs, a, rfl, hs⟩

end Session

omit [Arithmetic F] in
lemma InitialChoice.cursor_eq_ok_iff {i : InitialChoice F} {c : Cursor F} :
    i.cursor = .ok c ↔ ∃ x p, i = .estimate x ∧ c = ⟨none, x⟩ ∧ x.state.type = .real p := by
  cases i with
  | foreign kind =>
    constructor
    · intro h
      cases h
    · rintro ⟨_, _, h, -⟩
      cases h
  | estimate x =>
    simp only [cursor, Cursor.start]
    cases ht : x.state.type with
    | real p =>
      constructor
      · exact fun h => ⟨x, p, rfl, (Except.ok.inj h).symm, ht⟩
      · rintro ⟨_, _, h, rfl, -⟩
        rw [InitialChoice.estimate.inj h]
    | int64 =>
      constructor
      · intro h
        cases h
      · rintro ⟨_, _, h, -, hp⟩
        obtain rfl := InitialChoice.estimate.inj h
        cases ht.symm.trans hp

lemma Setup.session_eq_ok_iff {s : Setup F} {t : Session F} :
    s.session = .ok t ↔ ∃ q c d, s.process.processFor s.kind = .ok q ∧ s.initial.cursor = .ok c ∧
      s.decomposer.decomposer = .ok d ∧ t = ⟨⟨d, q, s.joseph, s.debug⟩, c, 0⟩ := by
  obtain ⟨kind, i, d, q, joseph, debug⟩ := s
  cases kind with
  | linear =>
    simp only [session, Fallible.bind_eq_ok_iff]
    constructor
    · rintro ⟨q, hq, c, hc, d, hd, h⟩
      exact ⟨q, c, d, hq, hc, hd, (Except.ok.inj h).symm⟩
    · rintro ⟨q, c, d, hq, hc, hd, rfl⟩
      exact ⟨q, hq, c, hc, d, hd, rfl⟩
  | extended =>
    simp only [session, Fallible.bind_eq_ok_iff]
    constructor
    · rintro ⟨c, hc, d, hd, q, hq, h⟩
      exact ⟨q, c, d, hq, hc, hd, (Except.ok.inj h).symm⟩
    · rintro ⟨q, c, d, hq, hc, hd, rfl⟩
      exact ⟨c, hc, d, hd, q, hq, rfl⟩

end KalmanFilter
