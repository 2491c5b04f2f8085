import KalmanFilter.Filter.Session
import KalmanFilter.Proofs.Attempt

/-! What a step of an estimator can do. A step that succeeds is an `Advance`, which
holds all that the step was made of; a step that fails is a `Refusal`, which says
why. -/

namespace KalmanFilter

variable {F : Precision → Type}

namespace Cursor.Action

variable {α β : Type} {c : Cursor F}

lemma read_bind (f : Cursor F → Cursor.Action F β) : (read >>= f) c = f c c :=
  rfl

lemma setPredicted_bind (x : Estimate F) (f : Unit → Cursor.Action F β) :
    (setPredicted x >>= f) c = f () ⟨some x, c.corrected⟩ :=
  rfl

lemma setCorrected_bind (x : Estimate F) (f : Unit → Cursor.Action F β) :
    (setCorrected x >>= f) c = f () ⟨c.predicted, x⟩ :=
  rfl

lemma attempt_bind_of_ok {x : Attempt F α} {a : α} (h : x.outcome = .ok a)
    (f : α → Cursor.Action F β) :
    (attempt x >>= f) c =
      ((f a c).1, ⟨x.events ++ (f a c).2.events, (f a c).2.outcome⟩) := by
  obtain ⟨es, o⟩ := x
  obtain rfl : o = .ok a := h
  rfl

lemma attempt_bind_of_error {x : Attempt F α} {e : Failure F} (h : x.outcome = .error e)
    (f : α → Cursor.Action F β) : (attempt x >>= f) c = (c, ⟨x.events, .error e⟩) := by
  obtain ⟨es, o⟩ := x
  obtain rfl : o = .error e := h
  rfl

end Cursor.Action

namespace Estimator

variable {p : Precision} {m n : Nat} {e : Estimator F} {k : Nat} {s : Cursor F} {z : Measurement F}
  {x : Evolution F}

lemma evolve_of_error {y : Estimate F} {time : F .double} {f : Failure F}
    (h : e.process k y.time y.state.tensor time = .error f) :
    e.evolve k y time = ⟨[.query y.time y.state.tensor time], .error f⟩ := by
  simp only [evolve, h, Attempt.happen_bind]
  rfl

lemma evolve_of_foreign {y : Estimate F} {time : F .double} {kind : Datum.Kind}
    (h : e.process k y.time y.state.tensor time = .ok (.foreign kind)) :
    e.evolve k y time =
      ⟨[.query y.time y.state.tensor time], .error (.foreignEvolution kind)⟩ := by
  simp only [evolve, h, Attempt.happen_bind, Attempt.of_ok_bind]
  rfl

lemma evolve_of_evolution {y : Estimate F} {time : F .double}
    (h : e.process k y.time y.state.tensor time = .ok (.evolution x)) :
    e.evolve k y time = ⟨[.query y.time y.state.tensor time], .ok x⟩ := by
  simp only [evolve, h, Attempt.happen_bind, Attempt.of_ok_bind]
  rfl

variable [Arithmetic F]

def update (e : Estimator F) (time : F .double) (b : Belief (F p) n) (x : Evolution F)
    (hx : x.dimension = n) (o : Observation (F p) m n) : Attempt F (Cursor F) := do
  let predicted := b.predict (x.linearized p hx)
  let corrected ← e.correct time predicted o
  if e.debug then
    .note (.step time (Arithmetic.convert predicted.covariance.trace)
      (Arithmetic.convert corrected.covariance.trace))
  return ⟨some (.ofBelief x.time predicted), .ofBelief time corrected⟩

def step (e : Estimator F) (queries : Nat) (s : Cursor F) (z : Measurement F) :
    Attempt F (Cursor F) := do
  let (predicted, corrected) ← e.estimates queries s.corrected z
  if e.debug then
    .note (.step corrected.time predicted.totalVariance corrected.totalVariance)
  return ⟨some predicted, corrected⟩

/-- The cursor is written to only when nothing can fail any more. -/
lemma advance_eq (e : Estimator F) (k : Nat) (z : Measurement F) (s : Cursor F) :
    e.advance k z s = ((e.step k s z).outcome.toOption.getD s, (·.corrected) <$> e.step k s z) := by
  simp only [advance, Cursor.Action.read_bind]
  rw [step]
  cases h : (e.estimates k s.corrected z).outcome with
  | error f =>
    rw [Cursor.Action.attempt_bind_of_error h, Attempt.bind_of_error h]
    rfl
  | ok y =>
    rw [Cursor.Action.attempt_bind_of_ok h, Attempt.bind_of_ok h, Attempt.map_eq]
    simp only [Cursor.Action.setPredicted_bind, Cursor.Action.setCorrected_bind]
    cases e.debug <;> rfl

lemma step_of_estimates_error {es : List (Event F)} {f : Failure F}
    (h : e.estimates k s.corrected z = ⟨es, .error f⟩) : e.step k s z = ⟨es, .error f⟩ := by
  rw [step, h]
  rfl

lemma step_of_outdated (ht : z.time < s.corrected.time) :
    e.step k s z = ⟨[], .error (.outdated z.time s.corrected.time)⟩ := by
  apply step_of_estimates_error
  simp only [estimates, if_pos ht]
  rfl

lemma step_of_misobserved (ht : ¬ z.time < s.corrected.time)
    (hz : z.stateDimension ≠ s.corrected.dimension) :
    e.step k s z = ⟨[], .error (.observedDimension z.stateDimension s.corrected.dimension)⟩ := by
  apply step_of_estimates_error
  simp only [estimates, if_neg ht, dif_neg hz]
  rfl

lemma step_of_evolve_error (ht : ¬ z.time < s.corrected.time)
    (hz : z.stateDimension = s.corrected.dimension) {es : List (Event F)} {f : Failure F}
    (he : e.evolve k s.corrected z.time = ⟨es, .error f⟩) : e.step k s z = ⟨es, .error f⟩ := by
  apply step_of_estimates_error
  simp only [estimates, if_neg ht, dif_pos hz, he]
  rfl

section

variable (ht : ¬ z.time < s.corrected.time) (hz : z.stateDimension = s.corrected.dimension)
  (hr : e.process k s.corrected.time s.corrected.state.tensor z.time = .ok (.evolution x))
include ht hz hr

lemma step_of_misevolved (hx : x.dimension ≠ s.corrected.dimension) :
    e.step k s z = ⟨[.query s.corrected.time s.corrected.state.tensor z.time],
      .error (.evolutionDimension x.dimension s.corrected.dimension)⟩ := by
  apply step_of_estimates_error
  simp only [estimates, if_neg ht, dif_pos hz, evolve_of_evolution hr]
  rw [Attempt.bind_of_ok rfl]
  simp only [dif_neg hx]
  rfl

lemma step_of_untyped (hx : x.dimension = s.corrected.dimension)
    (hb : s.corrected.belief? = none) :
    e.step k s z =
      ⟨[.query s.corrected.time s.corrected.state.tensor z.time], .error .refused⟩ := by
  apply step_of_estimates_error
  simp only [estimates, if_neg ht, dif_pos hz, evolve_of_evolution hr]
  rw [Attempt.bind_of_ok rfl]
  simp only [dif_pos hx, hb]
  rfl

lemma estimates_of_correct (hx : x.dimension = s.corrected.dimension)
    {b : Belief (F p) s.corrected.dimension} (hb : s.corrected.belief? = some ⟨p, b⟩) :
    e.estimates k s.corrected z =
      let a := e.correct z.time (b.predict (x.linearized p hx)) (z.observation p hz)
      ⟨.query s.corrected.time s.corrected.state.tensor z.time :: a.events,
        a.outcome.map fun c =>
          (.ofBelief x.time (b.predict (x.linearized p hx)), .ofBelief z.time c)⟩ := by
  simp only [estimates, if_neg ht, dif_pos hz, evolve_of_evolution hr]
  rw [Attempt.bind_of_ok rfl]
  simp only [dif_pos hx, hb]
  cases h : (e.correct z.time (b.predict (x.linearized p hx)) (z.observation p hz)).outcome with
  | error f =>
    rw [Attempt.bind_of_error h]
    rfl
  | ok c =>
    rw [Attempt.bind_of_ok h, Attempt.pure_events, List.append_nil]
    rfl

lemma step_of_update (hx : x.dimension = s.corrected.dimension)
    {b : Belief (F p) s.corrected.dimension} (hb : s.corrected.belief? = some ⟨p, b⟩) :
    e.step k s z =
      ⟨.query s.corrected.time s.corrected.state.tensor z.time ::
        (e.update z.time b x hx (z.observation p hz)).events,
        (e.update z.time b x hx (z.observation p hz)).outcome⟩ := by
  rw [step, estimates_of_correct ht hz hr hx hb, update]
  dsimp only
  cases h : (e.correct z.time (b.predict (x.linearized p hx)) (z.observation p hz)).outcome with
  | error f =>
    rw [Attempt.bind_of_error h]
    rfl
  | ok c =>
    rw [Attempt.bind_of_ok h]
    rfl

end

lemma gain_outcome_eq_ok_iff {b : Belief (F p) n} {o : Observation (F p) m n}
    {K : Mat (F p) n m} :
    (e.gain b o).outcome = .ok K ↔
      ∃ (solve : Solver F p m) (X : Mat (F p) m n),
        (e.decomposer.decompose (b.innovationCovariance o)).outcome = .ok solve ∧
          solve (b.crossCovariance o) = .ok X ∧ K = X.transpose := by
  rw [gain, Attempt.happen_bind]
  dsimp only
  rw [Attempt.bind_outcome_eq_ok_iff]
  constructor
  · rintro ⟨solve, hs, h⟩
    obtain ⟨X, hX, h⟩ := Attempt.bind_outcome_eq_ok_iff.mp h
    exact ⟨solve, X, hs, hX, (Except.ok.inj h).symm⟩
  · rintro ⟨solve, X, hs, hX, rfl⟩
    exact ⟨solve, hs, Attempt.bind_outcome_eq_ok_iff.mpr ⟨X, hX, rfl⟩⟩

lemma gain_outcome_eq_error_iff {b : Belief (F p) n} {o : Observation (F p) m n}
    {f : Failure F} :
    (e.gain b o).outcome = .error f ↔
      (e.decomposer.decompose (b.innovationCovariance o)).outcome = .error f ∨
        ∃ solve : Solver F p m,
          (e.decomposer.decompose (b.innovationCovariance o)).outcome = .ok solve ∧
            solve (b.crossCovariance o) = .error f := by
  rw [gain, Attempt.happen_bind]
  dsimp only
  rw [Attempt.bind_outcome_eq_error_iff]
  refine or_congr_right (exists_congr fun solve => and_congr_right fun _ => ?_)
  -- the answer of the solver is transposed, which cannot fail
  rw [Attempt.bind_outcome_eq_error_iff]
  constructor
  · rintro (h | ⟨X, -, h⟩)
    · exact h
    · cases h
  · exact .inl

lemma gain_of_decompose_error {b : Belief (F p) n} {o : Observation (F p) m n}
    {es : List (Event F)} {f : Failure F}
    (h : e.decomposer.decompose (b.innovationCovariance o) = ⟨es, .error f⟩) :
    e.gain b o =
      ⟨.decomposition (TypedMat.tensor ⟨.real p, b.innovationCovariance o⟩) :: es, .error f⟩ := by
  rw [gain, Attempt.happen_bind, h, Attempt.bind_of_error rfl]

lemma gain_of_solve {b : Belief (F p) n} {o : Observation (F p) m n} {es : List (Event F)}
    {solve : Solver F p m} {X : Mat (F p) m n}
    (h : e.decomposer.decompose (b.innovationCovariance o) = ⟨es, .ok solve⟩)
    (hX : solve (b.crossCovariance o) = .ok X) :
    e.gain b o =
      ⟨.decomposition (TypedMat.tensor ⟨.real p, b.innovationCovariance o⟩) :: es,
        .ok X.transpose⟩ := by
  rw [gain, Attempt.happen_bind, h, Attempt.bind_of_ok rfl, hX]
  simp

lemma correct_of_gain_error {time : F .double} {b : Belief (F p) n}
    {o : Observation (F p) m n} {f : Failure F} (h : (e.gain b o).outcome = .error f) :
    e.correct time b o = ⟨(e.gain b o).events, .error f⟩ :=
  Attempt.bind_of_error h _

lemma correct_of_gain_ok {time : F .double} {b : Belief (F p) n} {o : Observation (F p) m n}
    {K : Mat (F p) n m} (h : (e.gain b o).outcome = .ok K) :
    e.correct time b o =
      ⟨(e.gain b o).events ++
        if e.debug then [.record (.update time (Arithmetic.convert (b.innovation o).norm))] else [],
        .ok (b.correct e.joseph o K)⟩ := by
  rw [correct, Attempt.bind_of_ok h]
  cases e.debug <;> rfl

lemma correct_outcome_eq_ok_iff {time : F .double} {b c : Belief (F p) n}
    {o : Observation (F p) m n} :
    (e.correct time b o).outcome = .ok c ↔
      ∃ K, (e.gain b o).outcome = .ok K ∧ c = b.correct e.joseph o K := by
  constructor
  · intro h
    obtain ⟨K, hK, -⟩ := Attempt.bind_outcome_eq_ok_iff.mp h
    rw [correct_of_gain_ok hK] at h
    exact ⟨K, hK, (Except.ok.inj h).symm⟩
  · rintro ⟨K, hK, rfl⟩
    rw [correct_of_gain_ok hK]

def notes (e : Estimator F) (time : F .double) (b c : Belief (F p) n) (o : Observation (F p) m n) :
    List (Event F) :=
  if e.debug then
    [.record (.update time (Arithmetic.convert (b.innovation o).norm)),
      .record (.step time (Arithmetic.convert b.covariance.trace)
        (Arithmetic.convert c.covariance.trace))]
  else []

lemma filterMap_query?_notes (e : Estimator F) (time : F .double) (b c : Belief (F p) n)
    (o : Observation (F p) m n) : (e.notes time b c o).filterMap Event.query? = [] := by
  rw [notes]
  cases e.debug <;> rfl

lemma filterMap_matrix?_notes (e : Estimator F) (time : F .double) (b c : Belief (F p) n)
    (o : Observation (F p) m n) : (e.notes time b c o).filterMap Event.matrix? = [] := by
  rw [notes]
  cases e.debug <;> rfl

section

variable {time : F .double} {b : Belief (F p) n} {hx : x.dimension = n} {o : Observation (F p) m n}

lemma update_of_gain_error {f : Failure F}
    (h : (e.gain (b.predict (x.linearized p hx)) o).outcome = .error f) :
    e.update time b x hx o = ⟨(e.gain (b.predict (x.linearized p hx)) o).events, .error f⟩ := by
  simp only [update, correct_of_gain_error h]
  rfl

lemma update_of_gain_ok {K : Mat (F p) n m}
    (h : (e.gain (b.predict (x.linearized p hx)) o).outcome = .ok K) :
    e.update time b x hx o =
      ⟨(e.gain (b.predict (x.linearized p hx)) o).events ++
        e.notes time (b.predict (x.linearized p hx))
          ((b.predict (x.linearized p hx)).correct e.joseph o K) o,
        .ok ⟨some (.ofBelief x.time (b.predict (x.linearized p hx))),
          .ofBelief time ((b.predict (x.linearized p hx)).correct e.joseph o K)⟩⟩ := by
  rw [update]
  dsimp only
  rw [correct_of_gain_ok h, Attempt.bind_of_ok rfl, notes]
  cases e.debug
  · simp
  · simp only [if_true, List.append_assoc]
    rfl

end

end Estimator

variable [Arithmetic F]

/-- All that a successful step from an estimate is made of: its parts, and why they were taken. -/
structure Advance (e : Estimator F) (k : Nat) (y : Estimate F) (z : Measurement F) where
  precision : Precision
  belief : Belief (F precision) y.dimension
  evolution : Evolution F
  solve : Solver F precision z.dimension
  solution : Mat (F precision) z.dimension y.dimension
  timely : ¬ z.time < y.time
  observes : z.stateDimension = y.dimension
  typed : y.belief? = some ⟨precision, belief⟩
  answers : e.process k y.time y.state.tensor z.time = .ok (.evolution evolution)
  evolves : evolution.dimension = y.dimension
  accepts : (e.decomposer.decompose
    ((belief.predict (evolution.linearized precision evolves)).innovationCovariance
      (z.observation precision observes))).outcome = .ok solve
  solves : solve ((belief.predict (evolution.linearized precision evolves)).crossCovariance
    (z.observation precision observes)) = .ok solution

namespace Advance

variable {e : Estimator F} {k : Nat} {y : Estimate F} {z : Measurement F} (a : Advance e k y z)

def transition : Transition (F a.precision) y.dimension :=
  a.evolution.linearized a.precision a.evolves

def observation : Observation (F a.precision) z.dimension y.dimension :=
  z.observation a.precision a.observes

def prior : Belief (F a.precision) y.dimension :=
  a.belief.predict a.transition

def gain : Mat (F a.precision) y.dimension z.dimension :=
  a.solution.transpose

def posterior : Belief (F a.precision) y.dimension :=
  a.prior.correct e.joseph a.observation a.gain

def predicted : Estimate F :=
  .ofBelief a.evolution.time a.prior

def corrected : Estimate F :=
  .ofBelief z.time a.posterior

def cursor : Cursor F :=
  ⟨some a.predicted, a.corrected⟩

lemma gain_outcome : (e.gain a.prior a.observation).outcome = .ok a.gain :=
  Estimator.gain_outcome_eq_ok_iff.mpr ⟨a.solve, a.solution, a.accepts, a.solves, rfl⟩

lemma correct_outcome :
    (e.correct z.time a.prior a.observation).outcome = .ok a.posterior := by
  rw [Estimator.correct_of_gain_ok a.gain_outcome]
  rfl

end Advance

/-- Why a step from an estimate fails, in the order of the tests. -/
inductive Refusal (e : Estimator F) (k : Nat) (y : Estimate F) (z : Measurement F) :
    Failure F → Prop
  | outdated : z.time < y.time → Refusal e k y z (.outdated z.time y.time)
  | misobserved : ¬ z.time < y.time → z.stateDimension ≠ y.dimension →
      Refusal e k y z (.observedDimension z.stateDimension y.dimension)
  | raised {f : Failure F} : ¬ z.time < y.time → z.stateDimension = y.dimension →
      e.process k y.time y.state.tensor z.time = .error f → Refusal e k y z f
  | foreign {kind : Datum.Kind} : ¬ z.time < y.time → z.stateDimension = y.dimension →
      e.process k y.time y.state.tensor z.time = .ok (.foreign kind) →
      Refusal e k y z (.foreignEvolution kind)
  | misevolved {x : Evolution F} : ¬ z.time < y.time → z.stateDimension = y.dimension →
      e.process k y.time y.state.tensor z.time = .ok (.evolution x) → x.dimension ≠ y.dimension →
      Refusal e k y z (.evolutionDimension x.dimension y.dimension)
  | untyped {x : Evolution F} : ¬ z.time < y.time → z.stateDimension = y.dimension →
      e.process k y.time y.state.tensor z.time = .ok (.evolution x) → x.dimension = y.dimension →
      y.belief? = none → Refusal e k y z .refused
  | unsolved {x : Evolution F} {p : Precision} {b : Belief (F p) y.dimension} {f : Failure F} :
      ¬ z.time < y.time → (hz : z.stateDimension = y.dimension) →
      e.process k y.time y.state.tensor z.time = .ok (.evolution x) →
      (hx : x.dimension = y.dimension) → y.belief? = some ⟨p, b⟩ →
      (e.gain (b.predict (x.linearized p hx)) (z.observation p hz)).outcome = .error f →
      Refusal e k y z f

namespace Estimator

variable {e : Estimator F} {k : Nat} {s : Cursor F} {z : Measurement F} {c : Cursor F}

lemma step_congr {e' : Estimator F} (hq : e.process = e'.process) (hd : e.debug = e'.debug)
    (hc : ∀ {p : Precision} {m n : Nat} (time : F .double) (b : Belief (F p) n)
      (t : Transition (F p) n) (o : Observation (F p) m n),
      e.correct time (b.predict t) o = e'.correct time (b.predict t) o)
    (k : Nat) (s : Cursor F) (z : Measurement F) : e.step k s z = e'.step k s z := by
  simp only [step, estimates, evolve, hq, hd, hc]

lemma step_eq_or_update {e' : Estimator F} (hq : e.process = e'.process) (k : Nat) (c : Cursor F)
    (z : Measurement F) :
    e.step k c z = e'.step k c z ∨
      ∃ (p : Precision) (b : Belief (F p) c.corrected.dimension) (x : Evolution F)
        (hx : x.dimension = c.corrected.dimension) (o : Observation (F p) z.dimension _)
        (t t' : F .double) (y : Tensor F),
        e.step k c z = ⟨.query t y t' :: (e.update z.time b x hx o).events,
          (e.update z.time b x hx o).outcome⟩ ∧
        e'.step k c z = ⟨.query t y t' :: (e'.update z.time b x hx o).events,
          (e'.update z.time b x hx o).outcome⟩ := by
  by_cases ht : z.time < c.corrected.time
  case pos => exact .inl ((step_of_outdated ht).trans (step_of_outdated ht).symm)
  by_cases hz : z.stateDimension = c.corrected.dimension
  case neg => exact .inl ((step_of_misobserved ht hz).trans (step_of_misobserved ht hz).symm)
  cases hr : e.process k c.corrected.time c.corrected.state.tensor z.time with
  | error f =>
    have hr' := hq ▸ hr
    have h := step_of_evolve_error ht hz (evolve_of_error hr)
    exact .inl (h.trans (step_of_evolve_error ht hz (evolve_of_error hr')).symm)
  | ok reply =>
    have hr' := hq ▸ hr
    cases reply with
    | foreign kind =>
      have h := step_of_evolve_error ht hz (evolve_of_foreign hr)
      exact .inl (h.trans (step_of_evolve_error ht hz (evolve_of_foreign hr')).symm)
    | evolution x =>
      by_cases hx : x.dimension = c.corrected.dimension
      case neg =>
        exact .inl ((step_of_misevolved ht hz hr hx).trans (step_of_misevolved ht hz hr' hx).symm)
      cases hb : c.corrected.belief? with
      | none =>
        exact .inl ((step_of_untyped ht hz hr hx hb).trans (step_of_untyped ht hz hr' hx hb).symm)
      | some pb =>
        obtain ⟨p, b⟩ := pb
        exact .inr ⟨p, b, x, hx, _, _, _, _, step_of_update ht hz hr hx hb,
          step_of_update ht hz hr' hx hb⟩

lemma step_of_advance (a : Advance e k s.corrected z) : (e.step k s z).outcome = .ok a.cursor := by
  rw [step_of_update a.timely a.observes a.answers a.evolves a.typed]
  exact congrArg Attempt.outcome (update_of_gain_ok a.gain_outcome)

lemma advances_or_refuses (e : Estimator F) (k : Nat) (s : Cursor F) (z : Measurement F) :
    (∃ a : Advance e k s.corrected z, (e.step k s z).outcome = .ok a.cursor) ∨
      ∃ f, (e.step k s z).outcome = .error f ∧ Refusal e k s.corrected z f := by
  by_cases ht : z.time < s.corrected.time
  case pos => exact .inr ⟨_, congrArg Attempt.outcome (step_of_outdated ht), .outdated ht⟩
  by_cases hz : z.stateDimension = s.corrected.dimension
  case neg => exact .inr ⟨_, congrArg Attempt.outcome (step_of_misobserved ht hz), .misobserved ht hz⟩
  cases hr : e.process k s.corrected.time s.corrected.state.tensor z.time with
  | error f =>
    have h := step_of_evolve_error ht hz (evolve_of_error hr)
    exact .inr ⟨f, congrArg Attempt.outcome h, .raised ht hz hr⟩
  | ok reply =>
    cases reply with
    | foreign kind =>
      have h := step_of_evolve_error ht hz (evolve_of_foreign hr)
      exact .inr ⟨_, congrArg Attempt.outcome h, .foreign ht hz hr⟩
    | evolution x =>
      by_cases hx : x.dimension = s.corrected.dimension
      case neg =>
        have h := step_of_misevolved ht hz hr hx
        exact .inr ⟨_, congrArg Attempt.outcome h, .misevolved ht hz hr hx⟩
      cases hb : s.corrected.belief? with
      | none =>
        have h := step_of_untyped ht hz hr hx hb
        exact .inr ⟨_, congrArg Attempt.outcome h, .untyped ht hz hr hx hb⟩
      | some pb =>
        obtain ⟨p, b⟩ := pb
        cases hg : (e.gain (b.predict (x.linearized p hx)) (z.observation p hz)).outcome with
        | error f =>
          refine .inr ⟨f, ?_, .unsolved ht hz hr hx hb hg⟩
          rw [step_of_update ht hz hr hx hb, update_of_gain_error hg]
        | ok K =>
          obtain ⟨solve, X, hs, hX, rfl⟩ := gain_outcome_eq_ok_iff.mp hg
          let a : Advance e k s.corrected z := ⟨p, b, x, solve, X, ht, hz, hb, hr, hx, hs, hX⟩
          exact .inl ⟨a, step_of_advance a⟩

lemma exists_advance (h : (e.step k s z).outcome = .ok c) :
    ∃ a : Advance e k s.corrected z, c = a.cursor := by
  rcases advances_or_refuses e k s z with ⟨a, ha⟩ | ⟨f, hf, -⟩
  · exact ⟨a, Except.ok.inj (h.symm.trans ha)⟩
  · cases h.symm.trans hf

lemma refusal_of_error {f : Failure F} (h : (e.step k s z).outcome = .error f) :
    Refusal e k s.corrected z f := by
  rcases advances_or_refuses e k s z with ⟨a, ha⟩ | ⟨g, hg, hr⟩
  · cases h.symm.trans ha
  · rwa [Except.error.inj (h.symm.trans hg)]

end Estimator

end KalmanFilter
