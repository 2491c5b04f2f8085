import KalmanFilter.Proofs.MachineRounding
import KalmanFilter.Proofs.Run
import KalmanFilter.Decomposer.Cholesky

/-! Along a run the times never decrease, unless one of them is no number. What is
no number is not older than anything, and nothing is older than it: once such a time
is accepted, every time is. -/

namespace KalmanFilter

open Scalar (IsNumber)

variable {F : Precision → Type} [Arithmetic F]

lemma Estimator.step_events_ne_nil {e : Estimator F} {k : ℕ} {s : Cursor F} {z : Measurement F}
    (ht : ¬ z.time < s.corrected.time) (hz : z.stateDimension = s.corrected.dimension) :
    (e.step k s z).events ≠ [] := by
  have he : (e.evolve k s.corrected z.time).events ≠ [] := by
    rw [evolve, Attempt.happen_bind]
    exact List.cons_ne_nil _ _
  rw [step]
  apply Attempt.bind_events_ne_nil
  simp only [estimates, if_neg ht, dif_pos hz]
  exact Attempt.bind_events_ne_nil he _

namespace Walk

def unit : TypedMat Machine 1 1 :=
  ⟨.real .double, .identity⟩

def origin : TypedVec Machine 1 :=
  ⟨.real .double, #v[0]⟩

def initial : Estimate Machine :=
  ⟨1, 1, origin, unit⟩

def process : Process Machine :=
  fun _ _ _ time => .ok (.evolution ⟨time, 1, origin, unit, unit⟩)

def estimator : Estimator Machine :=
  ⟨CholeskyDecomposer.defaults.decomposer, process, false, false⟩

def session : Session Machine :=
  .opening estimator initial

def measurement (time : Float) : Measurement Machine :=
  ⟨time, 1, 1, origin, unit, unit⟩

def track (times : List Float) : List (Fallible Machine (Measurement Machine)) :=
  times.map fun t => .ok (measurement t)

end Walk

namespace Session

variable {s : Session F} {z : Measurement F}

def emitted (s : Session F) (zs : List (Fallible F (Measurement F))) : List (Estimate F) :=
  (s.attempts zs).filterMap (·.outcome.toOption)

lemma emitted_of_error {z : Fallible F (Measurement F)} {f : Failure F}
    (h : (s.step z).2.outcome = .error f) (zs : List (Fallible F (Measurement F))) :
    s.emitted (z :: zs) = (s.step z).1.emitted zs :=
  List.filterMap_cons_none (by rw [h]; rfl)

lemma emitted_of_ok {z : Fallible F (Measurement F)} {y : Estimate F}
    (h : (s.step z).2.outcome = .ok y) (zs : List (Fallible F (Measurement F))) :
    s.emitted (z :: zs) = y :: (s.step z).1.emitted zs :=
  List.filterMap_cons_some (by rw [h]; rfl)

def times (s : Session F) (zs : List (Fallible F (Measurement F))) : List (F .double) :=
  s.cursor.corrected.time :: (s.emitted zs).map (·.time)

lemma step_of_outdated (ht : z.time < s.cursor.corrected.time) :
    s.step (.ok z) = (s, ⟨[], .error (.outdated z.time s.cursor.corrected.time)⟩) := by
  rw [step_of_measured, Estimator.step_of_outdated ht]
  rfl

lemma step_eq_outdated_iff :
    s.step (.ok z) = (s, ⟨[], .error (.outdated z.time s.cursor.corrected.time)⟩) ↔
      z.time < s.cursor.corrected.time := by
  refine ⟨fun h => ?_, step_of_outdated⟩
  by_contra ht
  -- a process may raise this failure too, but it has been asked then
  have hz : z.stateDimension = s.cursor.corrected.dimension := by
    cases refusal_of_error (congrArg (·.2.outcome) h) with
    | outdated h => exact absurd h ht
    | raised _ hz => exact hz
    | unsolved _ hz => exact hz
  refine Estimator.step_events_ne_nil ht hz (e := s.estimator) (k := s.queries) ?_
  rw [step_of_measured] at h
  exact (Attempt.map_events (·.corrected) _).symm.trans (congrArg (·.2.events) h)

lemma time_of_ok {z : Fallible F (Measurement F)} {y : Estimate F}
    (h : (s.step z).2.outcome = .ok y) :
    (s.step z).1.cursor.corrected = y ∧ ¬ y.time < s.cursor.corrected.time := by
  obtain ⟨m, a, rfl, hc, rfl⟩ := advance_of_ok rfl h
  exact ⟨congrArg Cursor.corrected hc, a.timely⟩

lemma times_of_error {z : Fallible F (Measurement F)} {f : Failure F}
    (h : (s.step z).2.outcome = .error f) (zs : List (Fallible F (Measurement F))) :
    s.times (z :: zs) = (s.step z).1.times zs := by
  rw [times, times, emitted_of_error h, cursor_of_error h]

lemma times_of_ok {z : Fallible F (Measurement F)} {y : Estimate F}
    (h : (s.step z).2.outcome = .ok y) (zs : List (Fallible F (Measurement F))) :
    s.times (z :: zs) = s.cursor.corrected.time :: (s.step z).1.times zs := by
  rw [times, times, emitted_of_ok h, (time_of_ok h).1, List.map_cons]

variable [Rounded (F .double)]

lemma le_time_of_ok {z : Fallible F (Measurement F)} {y : Estimate F}
    (h : (s.step z).2.outcome = .ok y) (hs : IsNumber s.cursor.corrected.time)
    (hy : IsNumber y.time) : s.cursor.corrected.time ≤ y.time :=
  (Rounded.not_lt_iff hy hs).mp (time_of_ok h).2

lemma times_pairwise {zs : List (Fallible F (Measurement F))}
    (h : ∀ t ∈ s.times zs, IsNumber t) : (s.times zs).Pairwise (· ≤ ·) := by
  induction zs generalizing s with
  | nil => exact List.pairwise_singleton _ _
  | cons z zs ih =>
    cases ho : (s.step z).2.outcome with
    | error f =>
      rw [times_of_error ho] at h ⊢
      exact ih h
    | ok y =>
      rw [times_of_ok ho] at h ⊢
      obtain ⟨hs, hrest⟩ := List.forall_mem_cons.mp h
      have hnext := ih hrest
      have hle : s.cursor.corrected.time ≤ (s.step z).1.cursor.corrected.time := by
        rw [(time_of_ok ho).1]
        refine le_time_of_ok ho hs ?_
        rw [← (time_of_ok ho).1]
        exact hrest _ List.mem_cons_self
      refine List.pairwise_cons.mpr ⟨?_, hnext⟩
      intro t ht
      rcases List.mem_cons.mp ht with rfl | ht
      · exact hle
      · exact Rounded.le_trans hle (List.rel_of_pairwise_cons hnext ht)

lemma times_pairwise_iff {zs : List (Fallible F (Measurement F))} :
    (s.times zs).Pairwise (· ≤ ·) ↔ s.emitted zs = [] ∨ ∀ t ∈ s.times zs, IsNumber t := by
  constructor
  · intro h
    -- times that are in order with another one are numbers
    cases hy : s.emitted zs with
    | nil => exact .inl rfl
    | cons y ys =>
      right
      rw [times, hy, List.map_cons] at h ⊢
      have hle := (List.pairwise_cons.mp h).1
      refine List.forall_mem_cons.mpr ⟨?_, fun t ht => (Rounded.isNumber_of_le (hle t ht)).2⟩
      exact (Rounded.isNumber_of_le (hle y.time List.mem_cons_self)).1
  · rintro (h | h)
    · rw [times, h]
      exact List.pairwise_singleton _ _
    · exact times_pairwise h

/-- A measurement that is turned down for its time leaves the session as it was, and nothing has
happened before. The times along a run are those of the initial estimate and of all estimates that
were handed out. -/
theorem time_policy (e : Estimator F) (x : Estimate F) (zs : List (Fallible F (Measurement F)))
    (z : Measurement F) :
    let s := (opening e x).run zs
    (s.step (.ok z) = (s, ⟨[], .error (.outdated z.time s.cursor.corrected.time)⟩) ↔
        z.time < s.cursor.corrected.time) ∧
      (∀ y, (s.step (.ok z)).2.outcome = .ok y → y.time = z.time ∧
        (IsNumber s.cursor.corrected.time → IsNumber z.time →
          s.cursor.corrected.time ≤ z.time)) ∧
      (((opening e x).times zs).Pairwise (· ≤ ·) ↔
        (opening e x).emitted zs = [] ∨ ∀ t ∈ (opening e x).times zs, IsNumber t) := by
  intro s
  refine ⟨step_eq_outdated_iff, ?_, times_pairwise_iff⟩
  intro y hy
  have ht : y.time = z.time := by
    obtain ⟨m, a, hm, -, rfl⟩ := advance_of_ok rfl hy
    exact congrArg Measurement.time (Except.ok.inj hm).symm
  exact ⟨ht, fun hs hz => ht ▸ le_time_of_ok hy hs (ht.symm ▸ hz)⟩

theorem time_policy_walk :
    (∀ t ∈ Walk.session.times (Walk.track [3, 2, 3, 1 / 0]), IsNumber t) ∧
      (Walk.session.times (Walk.track [3, 2, 3, 1 / 0]) : List Float) = [1, 3, 3, 1 / 0] ∧
      (Walk.session.times (Walk.track [3, 2, 3, 1 / 0])).Pairwise (· ≤ ·) := by
  have ht : (Walk.session.times (Walk.track [3, 2, 3, 1 / 0]) : List Float) = [1, 3, 3, 1 / 0] := by
    decide +kernel
  have hn : ∀ t ∈ ([1, 3, 3, 1 / 0] : List Float), t ≤ t := by decide +kernel
  have h := time_policy Walk.estimator Walk.initial (Walk.track [3, 2, 3, 1 / 0])
    (Walk.measurement 2)
  rw [← ht, Walk.session] at hn
  exact ⟨hn, ht, h.2.2.mpr (.inr hn)⟩

theorem time_policy_undone :
    (Walk.session.step (.ok (Walk.measurement (0 / 0)))).2.outcome.isOk = true ∧
      ¬ (Walk.session.cursor.corrected.time : Float) ≤ (Walk.measurement (0 / 0)).time ∧
      (Walk.session.times (Walk.track [0 / 0, -5]) : List Float) = [1, 0 / 0, -5] ∧
      ¬ (Walk.session.times (Walk.track [0 / 0, -5]) : List Float).Pairwise (· ≤ ·) := by
  decide +kernel

end Session

end KalmanFilter
