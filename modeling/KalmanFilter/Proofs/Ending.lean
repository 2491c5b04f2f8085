import KalmanFilter.Proofs.Typing
import KalmanFilter.Proofs.Verdict
import Mathlib.Logic.ExistsUnique

/-! Exactly one of seven ways applies to every step, and it decides which error is
raised and what the process and the decomposer are asked before. -/

namespace KalmanFilter

variable {F : Precision → Type} [Arithmetic F] {p : Precision} {n : Nat}

def Belief.innovationCovarianceAt (b : Belief (F p) n) (x : Evolution F) (z : Measurement F)
    (hx : x.dimension = n) (hz : z.stateDimension = n) : Mat (F p) z.dimension z.dimension :=
  let P := (b.predict (x.linearized p hx)).covariance
  let o := z.observation p hz
  (o.matrix * P * o.matrix.transpose + o.noise).symmetrize

/-- The ways in which a step ends, in the order in which they are tested. -/
inductive Ending (F : Precision → Type)
  | outdated
  | misobserved
  | raised (f : Failure F)
  | foreign (kind : Datum.Kind)
  | misevolved (x : Evolution F)
  | rejected (x : Evolution F) (r : Rejection)
  | completed (x : Evolution F)

namespace Ending

inductive Applies (d : Factorizer F) (t : F .double) (b : Belief (F p) n) (z : Measurement F) :
    Fallible F (Reply F) → Ending F → Prop
  | outdated {reply : Fallible F (Reply F)} : z.time < t → Applies d t b z reply .outdated
  | misobserved {reply : Fallible F (Reply F)} : ¬ z.time < t → z.stateDimension ≠ n →
      Applies d t b z reply .misobserved
  | raised {f : Failure F} : ¬ z.time < t → z.stateDimension = n →
      Applies d t b z (.error f) (.raised f)
  | foreign {kind : Datum.Kind} : ¬ z.time < t → z.stateDimension = n →
      Applies d t b z (.ok (.foreign kind)) (.foreign kind)
  | misevolved {x : Evolution F} : ¬ z.time < t → z.stateDimension = n → x.dimension ≠ n →
      Applies d t b z (.ok (.evolution x)) (.misevolved x)
  | rejected {x : Evolution F} {r : Rejection} : ¬ z.time < t →
      (hz : z.stateDimension = n) → (hx : x.dimension = n) →
      d.Rejects r (b.innovationCovarianceAt x z hx hz) →
      Applies d t b z (.ok (.evolution x)) (.rejected x r)
  | completed {x : Evolution F} : ¬ z.time < t →
      (hz : z.stateDimension = n) → (hx : x.dimension = n) →
      (∀ r, ¬ d.Rejects r (b.innovationCovarianceAt x z hx hz)) →
      Applies d t b z (.ok (.evolution x)) (.completed x)

def Raises (a : Attempt F (Estimate F)) (queries : List (F .double × Tensor F × F .double))
    (matrices : List (Tensor F)) (f : Failure F) (family : FailureClass) : Prop :=
  a.queries = queries ∧ a.decompositions = matrices ∧ a.outcome = .error f ∧
    f.class? = some family

def Shows (t : F .double) (b : Belief (F p) n) (z : Measurement F)
    (a : Attempt F (Estimate F)) : Ending F → Prop
  | .outdated => Raises a [] [] (.outdated z.time t) .measurementOrder
  | .misobserved => Raises a [] [] (.observedDimension z.stateDimension n) .dimensionMismatch
  | .raised f =>
    a.queries = [(t, TypedVec.tensor ⟨.real p, b.state⟩, z.time)] ∧ a.decompositions = [] ∧
      a.outcome = .error f
  | .foreign kind =>
    Raises a [(t, TypedVec.tensor ⟨.real p, b.state⟩, z.time)] [] (.foreignEvolution kind)
      .configuration
  | .misevolved x =>
    Raises a [(t, TypedVec.tensor ⟨.real p, b.state⟩, z.time)] []
      (.evolutionDimension x.dimension n) .dimensionMismatch
  | .rejected x r =>
    ∃ hx hz, Raises a [(t, TypedVec.tensor ⟨.real p, b.state⟩, z.time)]
      [TypedMat.tensor ⟨.real p, b.innovationCovarianceAt x z hx hz⟩] r.failure r.family ∧
      r.family.parent? = some .matrixDecomposition
  | .completed x =>
    ∃ hx hz, a.queries = [(t, TypedVec.tensor ⟨.real p, b.state⟩, z.time)] ∧
      a.decompositions = [TypedMat.tensor ⟨.real p, b.innovationCovarianceAt x z hx hz⟩] ∧
      ∃ c : Belief (F p) n, a.outcome = .ok (.ofBelief z.time c)

variable {d : Factorizer F} {t : F .double} {b : Belief (F p) n} {z : Measurement F}
  {reply : Fallible F (Reply F)}

lemma Applies.unique {v w : Ending F} (hv : Applies d t b z reply v)
    (hw : Applies d t b z reply w) : v = w := by
  cases hv with
  | rejected _ _ _ h =>
    cases hw with
    | rejected _ _ _ h' => rw [h.unique h']
    | completed _ _ _ h' => exact absurd h (h' _)
    | _ => contradiction
  | completed _ _ _ h =>
    cases hw with
    | rejected _ _ _ h' => exact absurd h' (h _)
    | completed => rfl
    | _ => contradiction
  | _ => cases hw <;> first | rfl | contradiction

lemma exists_applies (d : Factorizer F) (t : F .double) (b : Belief (F p) n) (z : Measurement F)
    (reply : Fallible F (Reply F)) : ∃ w, Applies d t b z reply w := by
  by_cases ht : z.time < t
  case pos => exact ⟨_, .outdated ht⟩
  by_cases hz : z.stateDimension = n
  case neg => exact ⟨_, .misobserved ht hz⟩
  cases reply with
  | error f => exact ⟨_, .raised ht hz⟩
  | ok reply =>
    cases reply with
    | foreign kind => exact ⟨_, .foreign ht hz⟩
    | evolution x =>
      by_cases hx : x.dimension = n
      case neg => exact ⟨_, .misevolved ht hz hx⟩
      by_cases hr : ∃ r, d.Rejects r (b.innovationCovarianceAt x z hx hz)
      · obtain ⟨r, hr⟩ := hr
        exact ⟨_, .rejected ht hz hx hr⟩
      · exact ⟨_, .completed ht hz hx fun r h => hr ⟨r, h⟩⟩

section

variable {e : Estimator F} {k : Nat} {c : Option (Estimate F)}

lemma Applies.step (he : e.decomposer = d.decomposer) {w : Ending F}
    (h : Applies d t b z (e.process k t (TypedVec.tensor ⟨.real p, b.state⟩) z.time) w) :
    w.Shows t b z ((·.corrected) <$> e.step k ⟨c, .ofBelief t b⟩ z) := by
  -- the ways know the reply only, so it takes the place of the question before they are told apart
  generalize hr : e.process k t (TypedVec.tensor ⟨.real p, b.state⟩) z.time = reply at h
  cases h with
  | outdated ht =>
    rw [Estimator.step_of_outdated ht]
    exact ⟨rfl, rfl, rfl, rfl⟩
  | misobserved ht hz =>
    rw [Estimator.step_of_misobserved ht hz]
    exact ⟨rfl, rfl, rfl, rfl⟩
  | raised ht hz =>
    rw [Estimator.step_of_evolve_error ht hz (Estimator.evolve_of_error hr)]
    exact ⟨rfl, rfl, rfl⟩
  | foreign ht hz =>
    rw [Estimator.step_of_evolve_error ht hz (Estimator.evolve_of_foreign hr)]
    exact ⟨rfl, rfl, rfl, rfl⟩
  | misevolved ht hz hx =>
    rw [Estimator.step_of_misevolved ht hz hr hx]
    exact ⟨rfl, rfl, rfl, rfl⟩
  | @rejected x r ht hz hx hd =>
    have hg := Estimator.gain_of_decompose_error (e := e) (he ▸ Factorizer.decompose_of_rejects hd)
    rw [Estimator.step_ofBelief ht hz hr hx, Estimator.update_of_gain_error (by rw [hg]), hg]
    exact ⟨hx, hz, ⟨rfl, rfl, rfl, r.class_failure⟩, r.parent_family⟩
  | @completed x ht hz hx hd =>
    obtain ⟨solve, hs, hX⟩ := Factorizer.decompose_of_not_rejects hd
    obtain ⟨X, hX⟩ := hX ((b.predict (x.linearized p hx)).crossCovariance (z.observation p hz))
    have hg := Estimator.gain_of_solve (e := e) (he ▸ hs) hX
    rw [Estimator.step_ofBelief ht hz hr hx, Estimator.update_of_gain_ok (by rw [hg]), hg]
    refine ⟨hx, hz, ?_, ?_, _, rfl⟩
    · rw [Attempt.queries, Attempt.map_events]
      exact congrArg (_ :: ·) (e.filterMap_query?_notes ..)
    · rw [Attempt.decompositions, Attempt.map_events]
      exact congrArg (_ :: ·) (e.filterMap_matrix?_notes ..)

end

end Ending

namespace Session

/-- The two parts of the initial estimate are floats of one precision, as a belief has them. Every
state is reached by steps on some measurements, and the answer of the process to the question of
this step decides with the measurement how it ends. -/
theorem step_ends (d : Factorizer F) (q : Process F) (joseph debug : Bool) (t₀ : F .double)
    (b₀ : Belief (F p) n) (zs : List (Fallible F (Measurement F))) (z : Measurement F) :
    let s := (opening ⟨d.decomposer, q, joseph, debug⟩ (.ofBelief t₀ b₀)).run zs
    ∃ (t : F .double) (b : Belief (F p) n), s.cursor.corrected = .ofBelief t b ∧
      let reply := q s.queries t (TypedVec.tensor ⟨.real p, b.state⟩) z.time
      (∃! w : Ending F, w.Applies d t b z reply) ∧
        ∀ w : Ending F, w.Applies d t b z reply → w.Shows t b z (s.step (.ok z)).2 := by
  intro s
  obtain ⟨t, b, hc⟩ := run_corrected ⟨d.decomposer, q, joseph, debug⟩ t₀ b₀ zs
  refine ⟨t, b, hc, ?_⟩
  intro reply
  obtain ⟨w, hw⟩ := Ending.exists_applies d t b z reply
  refine ⟨⟨w, hw, fun v hv => hv.unique hw⟩, ?_⟩
  intro v hv
  have he : s.estimator = ⟨d.decomposer, q, joseph, debug⟩ := run_estimator _ zs
  have hs : s.cursor = ⟨s.cursor.predicted, .ofBelief t b⟩ := congrArg (Cursor.mk _) hc
  rw [step_of_measured, he, hs]
  exact hv.step rfl

end Session

end KalmanFilter
