import KalmanFilter.Proofs.Typing

namespace KalmanFilter

variable {F : Precision → Type} [Arithmetic F] {p : Precision} {n : Nat}

structure Cycle (e : Estimator F) (k : Nat) (t : F .double) (b : Belief (F p) n)
    (z : Measurement F) where
  evolution : Evolution F
  gain : Mat (F p) n z.dimension
  timely : ¬ z.time < t
  observes : z.stateDimension = n
  answers : e.process k t (TypedVec.tensor ⟨.real p, b.state⟩) z.time = .ok (.evolution evolution)
  evolves : evolution.dimension = n
  gains : (e.gain (b.predict (evolution.linearized p evolves)) (z.observation p observes)).outcome =
    .ok gain

namespace Cycle

variable {e : Estimator F} {k : Nat} {t : F .double} {b : Belief (F p) n} {z : Measurement F}

def prior (c : Cycle e k t b z) : Belief (F p) n :=
  b.predict (c.evolution.linearized p c.evolves)

def observation (c : Cycle e k t b z) : Observation (F p) z.dimension n :=
  z.observation p c.observes

def posterior (c : Cycle e k t b z) : Belief (F p) n :=
  c.prior.correct e.joseph c.observation c.gain

def cursor (c : Cycle e k t b z) : Cursor F :=
  ⟨some (.ofBelief c.evolution.time c.prior), .ofBelief z.time c.posterior⟩

lemma exists_advance (c : Cycle e k t b z) :
    ∃ a : Advance e k (.ofBelief t b) z, a.cursor = c.cursor := by
  obtain ⟨solve, X, hs, hX, hK⟩ := Estimator.gain_outcome_eq_ok_iff.mp c.gains
  refine ⟨⟨p, b, c.evolution, solve, X, c.timely, c.observes, Estimate.belief?_ofBelief t b,
    c.answers, c.evolves, hs, hX⟩, ?_⟩
  simp only [cursor, posterior, hK]
  rfl

lemma exists_of_advance (a : Advance e k (.ofBelief t b) z) :
    ∃ c : Cycle e k t b z, a.cursor = c.cursor := by
  have ht := Option.some.inj ((Estimate.belief?_ofBelief t b).symm.trans a.typed)
  obtain ⟨q, b', x, solve, X, ht', hz, hb, hr, hx, hs, hX⟩ := a
  obtain ⟨rfl, h⟩ := Sigma.mk.inj ht
  obtain rfl := eq_of_heq h
  have hK := Estimator.gain_outcome_eq_ok_iff.mpr ⟨solve, X, hs, hX, rfl⟩
  exact ⟨⟨x, X.transpose, ht', hz, hr, hx, hK⟩, rfl⟩

end Cycle

namespace Session

variable {e : Estimator F} {s : Session F} {t : F .double} {b : Belief (F p) n} {z : Measurement F}

lemma step_of_cycle (he : s.estimator = e) (hc : s.cursor.corrected = .ofBelief t b)
    (c : Cycle e s.queries t b z) :
    (s.step (.ok z)).1.cursor = c.cursor ∧ (s.step (.ok z)).2.outcome = .ok c.cursor.corrected := by
  obtain ⟨e', ⟨x, y⟩, k⟩ := s
  obtain rfl : y = .ofBelief t b := hc
  obtain ⟨a, ha⟩ := c.exists_advance
  rw [← ha]
  exact step_of_advance (s := ⟨e', ⟨x, .ofBelief t b⟩, k⟩) he a

lemma cycle_of_ok {y : Estimate F} (he : s.estimator = e) (hc : s.cursor.corrected = .ofBelief t b)
    (h : (s.step (.ok z)).2.outcome = .ok y) :
    ∃ c : Cycle e s.queries t b z,
      (s.step (.ok z)).1.cursor = c.cursor ∧ y = c.cursor.corrected := by
  obtain ⟨m, a, hm, ha, rfl⟩ := advance_of_ok he h
  obtain rfl := Except.ok.inj hm
  obtain ⟨e', ⟨x, y⟩, k⟩ := s
  obtain rfl : y = .ofBelief t b := hc
  obtain ⟨c, hc⟩ := Cycle.exists_of_advance a
  exact ⟨c, ha.trans hc, congrArg Cursor.corrected hc⟩

end Session

end KalmanFilter
