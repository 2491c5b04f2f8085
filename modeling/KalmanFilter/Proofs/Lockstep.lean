import KalmanFilter.Proofs.Link
import KalmanFilter.Proofs.Typing

/-! Linear estimators that differ only in their states, measured values and commands
take the same branches, find the same gains and fail alike. -/

namespace KalmanFilter

open Fallible (Joint)

variable {F : Precision → Type} {ι α β : Type}

structure Attempt.Alike (R : (ι → α) → Prop) (a : ι → Attempt F α) : Prop where
  queries : ∃ n, ∀ i, (a i).queryCount = n
  outcome : Joint R fun i => (a i).outcome

lemma Attempt.Alike.of_failed {R : (ι → α) → Prop} {a : ι → Attempt F α} {es : ι → List (Event F)}
    {f : Failure F} {n : Nat} (ha : ∀ i, a i = ⟨es i, .error f⟩)
    (hn : ∀ i, (Attempt.mk (es i) (.error f : Fallible F α)).queryCount = n) : Alike R a where
  queries := ⟨n, fun i => (congrArg queryCount (ha i)).trans (hn i)⟩
  outcome := .of_error fun i => congrArg Attempt.outcome (ha i)

inductive Estimate.Linked (P : Link F ι) (p : Precision) : (ι → Estimate F) → Prop
  | of (time : F .double) {n : Nat} {v : ι → Vec (F p) n} (covariance : TypedMat F n n)
      (h : Vec.Linked P v) : Linked P p fun i => ⟨time, n, ⟨.real p, v i⟩, covariance⟩

inductive Cursor.Linked (P : Link F ι) (p : Precision) : (ι → Cursor F) → Prop
  | first {x : ι → Estimate F} (h : Estimate.Linked P p x) : Linked P p fun i => ⟨none, x i⟩
  | later {x y : ι → Estimate F} (hx : Estimate.Linked P p x) (hy : Estimate.Linked P p y) :
      Linked P p fun i => ⟨some (x i), y i⟩

lemma Cursor.Linked.corrected {P : Link F ι} {p : Precision} {c : ι → Cursor F}
    (h : Linked P p c) : Estimate.Linked P p fun i => (c i).corrected := by
  cases h with
  | first h => exact h
  | later _ h => exact h

variable [Arithmetic F] {p : Precision} {P : Link F ι} {m n : Nat}

inductive Measurement.Linked (P : Link F ι) (p : Precision) : (ι → Measurement F) → Prop
  | of (time : F .double) {m n : Nat} {y : ι → TypedVec F m} (matrix : TypedMat F m n)
      (covariance : TypedMat F m m) (h : Vec.Linked P fun i => (y i).toType (.real p)) :
      Linked P p fun i => ⟨time, m, n, y i, matrix, covariance⟩

namespace Estimator

def linear (d : Decomposer F) (q : LinearProcess F) (joseph debug : Bool) : Estimator F :=
  ⟨d, q.linearize, joseph, debug⟩

variable {d : Decomposer F} {q : ι → LinearProcess F} {joseph debug : Bool}

lemma update_alike (hP : P.IsLinear) {v w : ι → Vec (F p) n} {y : ι → Vec (F p) m}
    (hw : Vec.Linked P w) (hy : Vec.Linked P y) (time t : F .double) (C : Mat (F p) n n)
    (A Q : TypedMat F n n) (H : Mat (F p) m n) (R : Mat (F p) m m) :
    Attempt.Alike (Cursor.Linked P p) fun i => (linear d (q i) joseph debug).update time ⟨v i, C⟩
      ⟨t, n, ⟨.real p, w i⟩, A, Q⟩ rfl ⟨y i, H, R⟩ := by
  let C' : Mat (F p) n n :=
    (A.toType (.real p) * C * (A.toType (.real p)).transpose + Q.toType (.real p)).symmetrize
  let e (i : ι) : Estimator F := linear d (q i) joseph debug
  have hb : ∀ i, Belief.predict ⟨v i, C⟩
      (Evolution.linearized ⟨t, n, ⟨.real p, w i⟩, A, Q⟩ p rfl) = ⟨w i, C'⟩ := fun i => by
    simp only [Belief.predict, Evolution.linearized, TypedVec.toType_self, C']
  -- the state of a belief does not enter its gain, and the process is not asked again
  obtain ⟨g, hg⟩ : ∃ g, ∀ i, (e i).gain ⟨w i, C'⟩ ⟨y i, H, R⟩ = g :=
    ⟨(linear d (fun _ _ _ => refuse) joseph debug).gain ⟨.replicate n 0, C'⟩
      ⟨.replicate m 0, H, R⟩, fun i => rfl⟩
  cases ho : g.outcome with
  | error f =>
    have hu : ∀ i, (e i).update time ⟨v i, C⟩ ⟨t, n, ⟨.real p, w i⟩, A, Q⟩ rfl ⟨y i, H, R⟩ =
        ⟨g.events, .error f⟩ := fun i => by
      rw [update_of_gain_error (f := f), hb, hg]
      rw [hb, hg, ho]
    exact ⟨⟨_, fun i => congrArg Attempt.queryCount (hu i)⟩,
      .of_error fun i => congrArg Attempt.outcome (hu i)⟩
  | ok K =>
    let D : Mat (F p) n n :=
      (Belief.correct joseph ⟨.replicate n 0, C'⟩ ⟨.replicate m 0, H, R⟩ K).covariance
    have hu : ∀ i, (e i).update time ⟨v i, C⟩ ⟨t, n, ⟨.real p, w i⟩, A, Q⟩ rfl ⟨y i, H, R⟩ =
        ⟨g.events ++ (e i).notes time ⟨w i, C'⟩ ⟨w i + K * (y i - H * w i), D⟩ ⟨y i, H, R⟩,
          .ok ⟨some (.ofBelief t ⟨w i, C'⟩),
            .ofBelief time ⟨w i + K * (y i - H * w i), D⟩⟩⟩ := fun i => by
      rw [update_of_gain_ok (K := K), hb, hg]
      · rfl
      · rw [hb, hg, ho]
    refine ⟨⟨(g.events.filterMap Event.query?).length, fun i => ?_⟩,
      .of_ok (.later (.of t ⟨.real p, C'⟩ hw) (.of time ⟨.real p, D⟩ ?_))
        fun i => congrArg Attempt.outcome (hu i)⟩
    · rw [Attempt.queryCount_eq_length, hu, Attempt.queries, List.filterMap_append,
        filterMap_query?_notes, List.append_nil]
    · exact .add hP hw (.mulVec hP K (.sub hP hy (.mulVec hP H hw)))

lemma reply_joint (hP : P.IsLinear) {k : Nat} {t t' : F .double}
    (hq : Joint (LinearEvolution.Linked P p) fun i => q i k t t') {v : ι → Vec (F p) n}
    (hv : Vec.Linked P v) :
    (∃ f, ∀ i, (q i).linearize k t (TypedVec.tensor ⟨.real p, v i⟩) t' = .error f) ∨
      ∃ x, Evolution.Linked P p x ∧
        ∀ i, (q i).linearize k t (TypedVec.tensor ⟨.real p, v i⟩) t' = .ok (.evolution (x i)) := by
  have hx : Joint (Evolution.Linked P p) fun i =>
      q i k t t' >>= fun le => le.predict (.ok t') (TypedVec.tensor ⟨.real p, v i⟩) :=
    hq.bind fun le hle => hle.predict hP _ (Tensor.linked_tensor hv)
  have hr : ∀ i, (q i).linearize k t (TypedVec.tensor ⟨.real p, v i⟩) t' =
      (q i k t t' >>= fun le => le.predict (.ok t') (TypedVec.tensor ⟨.real p, v i⟩)) >>=
        fun x => .ok (.evolution x) := fun i => by
    rw [bind_assoc]
    rfl
  simp only [hr]
  rcases hx.error_or_ok with ⟨f, hf⟩ | ⟨x, hx, hxi⟩
  · exact .inl ⟨f, fun i => by rw [hf]; rfl⟩
  · exact .inr ⟨x, hx, fun i => by rw [hxi]; rfl⟩

lemma step_alike (hP : P.IsLinear)
    (hq : ∀ k t t', Joint (LinearEvolution.Linked P p) fun i => q i k t t') (k : Nat)
    (u : ι → Option (Estimate F)) {x : ι → Estimate F} (hx : Estimate.Linked P p x)
    {z : ι → Measurement F} (hz : Measurement.Linked P p z) :
    Attempt.Alike (Cursor.Linked P p) fun i =>
      (linear d (q i) joseph debug).step k ⟨u i, x i⟩ (z i) := by
  obtain @⟨t, n, v, C, hv⟩ := hx
  obtain @⟨t', m, n', y, H, R, hy⟩ := hz
  -- every test looks at what is the same in all computations
  by_cases ht : t' < t
  · exact .of_failed (f := .outdated t' t) (fun i => step_of_outdated ht) fun _ => rfl
  by_cases hn : n' ≠ n
  · exact .of_failed (f := .observedDimension n' n) (fun i => step_of_misobserved ht hn) fun _ => rfl
  obtain rfl : n' = n := Decidable.not_not.mp hn
  rcases reply_joint hP (hq k t t') hv with ⟨f, hr⟩ | ⟨x, hx, hr⟩
  · exact .of_failed (fun i => step_of_evolve_error ht rfl (evolve_of_error (hr i))) fun _ => rfl
  obtain @⟨t'', n, w, A, Q, hw⟩ := hx
  by_cases hn : n ≠ n'
  · have hs : ∀ i, (linear d (q i) joseph debug).step k ⟨u i, ⟨t, n', ⟨.real p, v i⟩, C⟩⟩
        ⟨t', m, n', y i, H, R⟩ = _ :=
      fun i => step_of_misevolved ht rfl (hr i) hn
    exact .of_failed (f := .evolutionDimension n n') hs fun _ => rfl
  obtain rfl : n = n' := Decidable.not_not.mp hn
  by_cases hC : C.type ≠ .real p
  · have hb : ∀ i, (Estimate.mk t n ⟨.real p, v i⟩ C).belief? = none := fun i =>
      Estimate.belief?_of_mixed (Ne.symm hC)
    exact .of_failed (fun i => step_of_untyped ht rfl (hr i) rfl (hb i)) fun _ => rfl
  obtain ⟨e, C⟩ := C
  obtain rfl : e = .real p := Decidable.not_not.mp hC
  let a (i : ι) : Attempt F (Cursor F) := (linear d (q i) joseph debug).update t' ⟨v i, C⟩
    ⟨t'', n, ⟨.real p, w i⟩, A, Q⟩ rfl ⟨(y i).toType (.real p), H.toType (.real p), R.toType (.real p)⟩
  have hs : ∀ i, (linear d (q i) joseph debug).step k
      ⟨u i, ⟨t, n, ⟨.real p, v i⟩, ⟨.real p, C⟩⟩⟩ ⟨t', m, n, y i, H, R⟩ =
        ⟨.query t (TypedVec.tensor ⟨.real p, v i⟩) t' :: (a i).events, (a i).outcome⟩ :=
    fun i => step_ofBelief (b := ⟨v i, C⟩) ht rfl (hr i) rfl
  obtain ⟨⟨k', hk⟩, ho⟩ : Attempt.Alike (Cursor.Linked P p) a := update_alike hP hw hy ..
  simp only [hs]
  exact ⟨⟨k' + 1, fun i => (Attempt.queryCount_query ..).trans (congrArg (· + 1) (hk i))⟩, ho⟩

end Estimator

namespace Session

variable (d : Decomposer F) {q : ι → LinearProcess F} (joseph debug : Bool)
  {L : List (ι → Fallible F (Measurement F))}

lemma step_alike (hP : P.IsLinear)
    (hq : ∀ k t t', Joint (LinearEvolution.Linked P p) fun i => q i k t t') {c : ι → Cursor F}
    (hc : Cursor.Linked P p c) (k : Nat) {z : ι → Fallible F (Measurement F)}
    (hz : Joint (Measurement.Linked P p) z) :
    ∃ (c' : ι → Cursor F) (k' : Nat) (a : ι → Attempt F (Estimate F)),
      (∀ i, (Session.mk (.linear d (q i) joseph debug) (c i) k).step (z i) =
        (⟨.linear d (q i) joseph debug, c' i, k'⟩, a i)) ∧
      Cursor.Linked P p c' ∧ Joint (Estimate.Linked P p) fun i => (a i).outcome := by
  rcases hz.error_or_ok with ⟨f, hf⟩ | ⟨m, hm, hzm⟩
  · refine ⟨c, k, fun _ => ⟨[], .error f⟩, fun i => ?_, hc, .error f⟩
    rw [hf]
    rfl
  · let a (i : ι) : Attempt F (Cursor F) :=
      Estimator.step (.linear d (q i) joseph debug) k (c i) (m i)
    obtain ⟨⟨k', hk⟩, ho⟩ : Attempt.Alike (Cursor.Linked P p) a :=
      Estimator.step_alike hP hq k _ hc.corrected hm
    have hs : ∀ i, (Session.mk (.linear d (q i) joseph debug) (c i) k).step (z i) =
        (Session.mk (.linear d (q i) joseph debug) (c i) k).settle (a i) := fun i => by
      rw [hzm, step_of_measured]
    simp only [hs, settle, hk]
    rcases ho.error_or_ok with ⟨f, hf⟩ | ⟨c', hc', ho⟩
    · refine ⟨c, k + k', fun i => (·.corrected) <$> a i, fun i => ?_, hc,
        .of_error (f := f) fun i => ?_⟩
      · rw [hf]
      · rw [Attempt.map_outcome, hf]
        rfl
    · refine ⟨c', k + k', fun i => (·.corrected) <$> a i, fun i => ?_, hc',
        .of_ok hc'.corrected fun i => ?_⟩
      · rw [ho]
      · rw [Attempt.map_outcome, ho]
        rfl

lemma run_alike (hP : P.IsLinear)
    (hq : ∀ k t t', Joint (LinearEvolution.Linked P p) fun i => q i k t t')
    (hL : ∀ z ∈ L, Joint (Measurement.Linked P p) z) {c : ι → Cursor F}
    (hc : Cursor.Linked P p c) (k : Nat) :
    (∃ A : List (ι → Attempt F (Estimate F)),
      (∀ i, (Session.mk (.linear d (q i) joseph debug) (c i) k).attempts (L.map (· i)) =
        A.map (· i)) ∧
      ∀ a ∈ A, Joint (Estimate.Linked P p) fun i => (a i).outcome) ∧
    Cursor.Linked P p fun i =>
      ((Session.mk (.linear d (q i) joseph debug) (c i) k).run (L.map (· i))).cursor := by
  -- cursors stay linked and the counts of questions equal, so that every step starts alike
  induction L generalizing c k with
  | nil => exact ⟨⟨[], fun i => rfl, nofun⟩, hc⟩
  | cons z L ih =>
    obtain ⟨c', k', a, hs, hc', ha⟩ :=
      step_alike d joseph debug hP hq hc k (hL z List.mem_cons_self)
    obtain ⟨⟨A, hA, hAa⟩, hr⟩ := ih (fun y hy => hL y (List.mem_cons_of_mem z hy)) hc' k'
    refine ⟨⟨a :: A, fun i => ?_, List.forall_mem_cons.mpr ⟨ha, hAa⟩⟩, ?_⟩
    · simp only [List.map_cons, attempts, hs, hA]
    · simpa only [List.map_cons, run, hs] using hr

end Session

end KalmanFilter
