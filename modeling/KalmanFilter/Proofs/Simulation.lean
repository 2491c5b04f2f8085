import KalmanFilter.Proofs.Cycle
import KalmanFilter.Proofs.Related
import Mathlib.Data.List.Forall2

namespace KalmanFilter

open Fallible (Rel)

variable {F : Precision → Type} [Arithmetic F] {p : Precision} {m n : Nat}

namespace Estimator

variable {e e' : Estimator F} {k : Nat} {t : F .double} {b : Belief (F p) n} {z : Measurement F}
  {c : Option (Estimate F)}

lemma gain_outcome_eq_bind (e : Estimator F) (b : Belief (F p) n) (o : Observation (F p) m n) :
    (e.gain b o).outcome = (e.decomposer.decompose (b.innovationCovariance o)).outcome >>=
      fun solve => solve (b.crossCovariance o) >>= fun X => .ok X.transpose := by
  rw [gain, Attempt.happen_bind, Attempt.bind_outcome]
  refine bind_congr fun solve => ?_
  rw [Attempt.bind_outcome]
  rfl

lemma step_outcome_of_process_error {f : Failure F} (ht : ¬ z.time < t) (hz : z.stateDimension = n)
    (hr : e.process k t (TypedVec.tensor ⟨.real p, b.state⟩) z.time = .error f) :
    (e.step k ⟨c, .ofBelief t b⟩ z).outcome = .error f := by
  rw [step_of_evolve_error (s := ⟨c, .ofBelief t b⟩) ht hz (evolve_of_error hr)]

lemma step_outcome_of_process_ok {x : Evolution F} (ht : ¬ z.time < t) (hz : z.stateDimension = n)
    (hr : e.process k t (TypedVec.tensor ⟨.real p, b.state⟩) z.time = .ok (.evolution x))
    (hx : x.dimension = n) :
    (e.step k ⟨c, .ofBelief t b⟩ z).outcome =
      (e.gain (b.predict (x.linearized p hx)) (z.observation p hz)).outcome >>= fun K =>
        .ok ⟨some (.ofBelief x.time (b.predict (x.linearized p hx))), .ofBelief z.time
          ((b.predict (x.linearized p hx)).correct e.joseph (z.observation p hz) K)⟩ := by
  rw [step_ofBelief ht hz hr hx]
  cases hg : (e.gain (b.predict (x.linearized p hx)) (z.observation p hz)).outcome with
  | error f => rw [update_of_gain_error hg]; rfl
  | ok K => rw [update_of_gain_ok hg]; rfl

end Estimator

namespace Session

variable {e e' : Estimator F} {R : Cursor F → Cursor F → Prop} {S : Estimate F → Estimate F → Prop}
  {M : Measurement F → Measurement F → Prop}

lemma step_related {s s' : Session F} (hR : ∀ x x', R x x' → S x.corrected x'.corrected)
    (hc : R s.cursor s'.cursor) {z z' : Fallible F (Measurement F)} (hz : Rel M z z')
    (h : ∀ y y', M y y' → Rel R (s.estimator.step s.queries s.cursor y).outcome
      (s'.estimator.step s'.queries s'.cursor y').outcome) :
    Rel S (s.step z).2.outcome (s'.step z').2.outcome ∧
      R (s.step z).1.cursor (s'.step z').1.cursor := by
  cases hz with
  | error f => exact ⟨.error f, hc⟩
  | @ok y y' hy =>
    have hr := h y y' hy
    cases ho : (s.estimator.step s.queries s.cursor y).outcome with
    | error f =>
      rw [step_of_measured, step_of_measured]
      simp only [settle, Attempt.map_outcome, ho, hr.of_error ho]
      exact ⟨.error f, hc⟩
    | ok x =>
      obtain ⟨x', ho', hx⟩ := hr.of_ok ho
      obtain ⟨hm, ht⟩ := step_of_outcome ho
      obtain ⟨hm', ht'⟩ := step_of_outcome ho'
      rw [hm, hm', ht, ht']
      exact ⟨.ok (hR x x' hx), hx⟩

lemma run_related (hR : ∀ x x', R x x' → S x.corrected x'.corrected)
    (h : ∀ k k' x x' y y', R x x' → M y y' →
      Rel R (e.step k x y).outcome (e'.step k' x' y').outcome)
    {zs zs' : List (Fallible F (Measurement F))} (hz : List.Forall₂ (Rel M) zs zs')
    {s s' : Session F} (hs : s.estimator = e) (hs' : s'.estimator = e')
    (hc : R s.cursor s'.cursor) :
    List.Forall₂ (fun a a' => Rel S a.outcome a'.outcome) (s.attempts zs) (s'.attempts zs') ∧
      R (s.run zs).cursor (s'.run zs').cursor := by
  induction hz generalizing s s' with
  | nil => exact ⟨.nil, hc⟩
  | @cons z z' zs zs' hz _ ih =>
    obtain ⟨ho, hc'⟩ := step_related hR hc hz fun y y' hy => hs ▸ hs' ▸ h _ _ _ _ _ _ hc hy
    have he : (s.step z).1.estimator = e := hs
    have he' : (s'.step z').1.estimator = e' := hs'
    obtain ⟨hos, hr⟩ := ih he he' hc'
    exact ⟨.cons ho hos, hr⟩

end Session

end KalmanFilter
