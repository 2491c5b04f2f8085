import KalmanFilter.Proofs.Regularity
import KalmanFilter.Proofs.TimePolicy

/-! Pulls from any number of generators, and steps in between, are the steps on the
measurements that were pulled. Nothing but the corrected estimate is remembered from
one to the next. -/

namespace KalmanFilter

variable {F : Precision → Type} {ι κ : Type}

def Stream.HasAt (zs : Stream F) : Nat → List (Fallible F (Measurement F)) → Prop
  | _, [] => True
  | p, z :: ws => zs p = some z ∧ HasAt zs (p + 1) ws

def Process.IsPure (q : Process F) : Prop :=
  ∀ k k' t x t', q k t x t' = q k' t x t'

inductive Request (F : Precision → Type) (ι : Type)
  | step (z : Fallible F (Measurement F))
  | pull (i : ι)

def Request.direct? : Request F ι → Option (Fallible F (Measurement F))
  | .step z => some z
  | .pull _ => none

structure Taken (F : Precision → Type) (κ : Type) where
  source : Option κ
  measurement : Fallible F (Measurement F)

def Taken.measurements (ws : List (Taken F κ)) : List (Fallible F (Measurement F)) :=
  ws.map (·.measurement)

def Taken.ofSource [DecidableEq κ] (o : Option κ) (ws : List (Taken F κ)) :
    List (Fallible F (Measurement F)) :=
  Taken.measurements (ws.filter (·.source = o))

/-- An estimator with its generators. A source knows how far it was read, and a generator whether it
goes on; several generators may read one source. -/
structure Intake (F : Precision → Type) (ι κ : Type) where
  session : Session F
  position : κ → Nat
  live : ι → Bool

lemma Taken.measurements_append (us vs : List (Taken F κ)) :
    measurements (us ++ vs) = measurements us ++ measurements vs :=
  List.map_append

lemma Taken.ofSource_append [DecidableEq κ] (o : Option κ) (us vs : List (Taken F κ)) :
    ofSource o (us ++ vs) = ofSource o us ++ ofSource o vs := by
  rw [ofSource, List.filter_append, measurements_append]
  rfl

lemma Stream.hasAt_append {zs : Stream F} {p : Nat} {us vs : List (Fallible F (Measurement F))} :
    zs.HasAt p (us ++ vs) ↔ zs.HasAt p us ∧ zs.HasAt (p + us.length) vs := by
  induction us generalizing p with
  | nil => simp [HasAt]
  | cons z us ih =>
    have hp : p + (z :: us).length = p + 1 + us.length := by
      rw [List.length_cons, Nat.add_assoc, Nat.add_comm 1]
    rw [List.cons_append, HasAt, ih, HasAt, hp, and_assoc]

section

variable [Arithmetic F]

namespace Session

variable {s t : Session F} {zs : Stream F} {ws : List (Fallible F (Measurement F))} {p k : Nat}

lemma length_emitted_of_succeeds (hs : s.Succeeds ws) : (s.emitted ws).length = ws.length := by
  induction ws generalizing s with
  | nil => rfl
  | cons z ws ih =>
    obtain ⟨⟨y, hy⟩, hs⟩ := succeeds_cons.mp hs
    rw [emitted, attempts, List.filterMap_cons_some (by rw [hy]; rfl)]
    exact congrArg (· + 1) (ih hs)

lemma length_emitted_of_error (hs : s.Succeeds ws) {z : Fallible F (Measurement F)} {f : Failure F}
    (hf : ((s.run ws).step z).2.outcome = .error f) :
    (s.emitted (ws ++ [z])).length = ws.length := by
  have hz : (s.run ws).emitted [z] = [] := List.filterMap_cons_none (by rw [hf]; rfl)
  rw [emitted, attempts_append, List.filterMap_append, List.length_append]
  exact (congrArg₂ (· + ·) (length_emitted_of_succeeds hs) (congrArg List.length hz))

@[simp] lemma pull_of_dead (s : Session F) (zs : Stream F) (p : Nat) :
    s.pull zs ⟨p, false⟩ = (s, ⟨p, false⟩, none) :=
  rfl

lemma pull_of_end (h : zs p = none) : s.pull zs ⟨p, true⟩ = (s, ⟨p, false⟩, none) := by
  simp [pull, h]

lemma pull_of_ok {z : Fallible F (Measurement F)} {y : Estimate F} (h : zs p = some z)
    (ho : (s.step z).2.outcome = .ok y) :
    s.pull zs ⟨p, true⟩ = ((s.step z).1, ⟨p + 1, true⟩, some (s.step z).2) := by
  simp [pull, h, ho]

lemma pull_of_error {z : Fallible F (Measurement F)} {f : Failure F} (h : zs p = some z)
    (ho : (s.step z).2.outcome = .error f) :
    s.pull zs ⟨p, true⟩ = ((s.step z).1, ⟨p + 1, false⟩, some (s.step z).2) := by
  simp [pull, h, ho]

lemma exists_pull_of_some (s : Session F) {z : Fallible F (Measurement F)} (h : zs p = some z) :
    ∃ b, s.pull zs ⟨p, true⟩ = ((s.step z).1, ⟨p + 1, b⟩, some (s.step z).2) := by
  cases ho : (s.step z).2.outcome with
  | ok y => exact ⟨true, pull_of_ok h ho⟩
  | error f => exact ⟨false, pull_of_error h ho⟩

lemma pulls_of_dead (s : Session F) (zs : Stream F) (p k : Nat) :
    pulls zs k s ⟨p, false⟩ = (s, ⟨p, false⟩, []) := by
  cases k with
  | zero => rfl
  | succ k => simp [pulls]

lemma pulls_of_end (h : zs p = none) (k : Nat) :
    pulls zs (k + 1) s ⟨p, true⟩ = (s, ⟨p, false⟩, []) := by
  rw [pulls, pull_of_end h]

lemma pulls_of_error {z : Fallible F (Measurement F)} {f : Failure F} (h : zs p = some z)
    (ho : (s.step z).2.outcome = .error f) (k : Nat) :
    pulls zs (k + 1) s ⟨p, true⟩ = ((s.step z).1, ⟨p + 1, false⟩, [(s.step z).2]) := by
  rw [pulls, pull_of_error h ho]
  simp only [pulls_of_dead]

lemma pulls_of_succeeds (h : zs.HasAt p ws) (hs : s.Succeeds ws) (k : Nat) :
    pulls zs (ws.length + k) s ⟨p, true⟩ =
      ((pulls zs k (s.run ws) ⟨p + ws.length, true⟩).1,
        (pulls zs k (s.run ws) ⟨p + ws.length, true⟩).2.1,
        s.attempts ws ++ (pulls zs k (s.run ws) ⟨p + ws.length, true⟩).2.2) := by
  induction ws generalizing s p with
  | nil => simp [run, attempts]
  | cons z ws ih =>
    obtain ⟨hz, hw⟩ := h
    obtain ⟨⟨y, hy⟩, hs⟩ := succeeds_cons.mp hs
    -- one pull is one step, and the generator stands one place further
    have hl : (z :: ws).length + k = ws.length + k + 1 := by
      rw [List.length_cons, Nat.add_right_comm]
    have hp : p + (z :: ws).length = p + 1 + ws.length := by
      rw [List.length_cons, Nat.add_assoc, Nat.add_comm 1]
    rw [hl, hp, pulls, pull_of_ok hz hy]
    simp only [ih hw hs]
    rfl

section

variable (h : zs.HasAt 0 ws) (hs : s.Succeeds ws)
include h hs

lemma pulls_start_of_succeeds :
    pulls zs ws.length s .start = (s.run ws, ⟨ws.length, true⟩, s.attempts ws) := by
  have hp := pulls_of_succeeds h hs 0
  rwa [Nat.zero_add, Nat.add_zero, pulls, List.append_nil] at hp

lemma pulls_start_of_end (hz : zs ws.length = none) (hk : ws.length < k) :
    pulls zs k s .start = (s.run ws, ⟨ws.length, false⟩, s.attempts ws) := by
  obtain ⟨j, rfl⟩ := Nat.exists_eq_add_of_lt hk
  have hp := pulls_of_succeeds h hs (j + 1)
  rwa [Nat.zero_add, pulls_of_end hz, List.append_nil] at hp

lemma pulls_start_of_error {z : Fallible F (Measurement F)} {f : Failure F}
    (hz : zs ws.length = some z) (hf : ((s.run ws).step z).2.outcome = .error f)
    (hk : ws.length < k) :
    pulls zs k s .start =
      (s.run (ws ++ [z]), ⟨ws.length + 1, false⟩, s.attempts (ws ++ [z])) := by
  obtain ⟨j, rfl⟩ := Nat.exists_eq_add_of_lt hk
  have hp := pulls_of_succeeds h hs (j + 1)
  rw [Nat.zero_add, pulls_of_error hz hf] at hp
  rw [run_append, attempts_append]
  exact hp

end

end Session

namespace Intake

variable [DecidableEq ι] [DecidableEq κ]

def opening (s : Session F) : Intake F ι κ :=
  ⟨s, fun _ => 0, fun _ => true⟩

def serve (source : ι → κ) (zs : κ → Stream F) (c : Intake F ι κ) :
    Request F ι → Intake F ι κ × List (Attempt F (Estimate F))
  | .step z => ({ c with session := (c.session.step z).1 }, [(c.session.step z).2])
  | .pull i =>
    let (s, g, a) := c.session.pull (zs (source i)) ⟨c.position (source i), c.live i⟩
    (⟨s, Function.update c.position (source i) g.position, Function.update c.live i g.live⟩,
      a.toList)

def serveAll (source : ι → κ) (zs : κ → Stream F) (c : Intake F ι κ) :
    List (Request F ι) → Intake F ι κ × List (Attempt F (Estimate F))
  | [] => (c, [])
  | r :: rs =>
    let (c', as) := c.serve source zs r
    let (c'', as') := serveAll source zs c' rs
    (c'', as ++ as')

def takes (source : ι → κ) (zs : κ → Stream F) (c : Intake F ι κ) :
    Request F ι → List (Taken F κ)
  | .step z => [⟨none, z⟩]
  | .pull i =>
    if c.live i then
      (zs (source i) (c.position (source i))).toList.map fun z => ⟨some (source i), z⟩
    else []

def takesAll (source : ι → κ) (zs : κ → Stream F) (c : Intake F ι κ) :
    List (Request F ι) → List (Taken F κ)
  | [] => []
  | r :: rs => c.takes source zs r ++ takesAll source zs (c.serve source zs r).1 rs

variable {source : ι → κ} {zs : κ → Stream F} {c c' c'' : Intake F ι κ} {us vs : List (Taken F κ)}
  {as bs : List (Attempt F (Estimate F))}

structure Serves (zs : κ → Stream F) (c c' : Intake F ι κ) (rs : List (Request F ι))
    (ws : List (Taken F κ)) (as : List (Attempt F (Estimate F))) : Prop where
  session : c'.session = c.session.run (Taken.measurements ws)
  attempts : as = c.session.attempts (Taken.measurements ws)
  direct : Taken.ofSource none ws = rs.filterMap Request.direct?
  read : ∀ j, (zs j).HasAt (c.position j) (Taken.ofSource (some j) ws)
  position : ∀ j, c'.position j = c.position j + (Taken.ofSource (some j) ws).length

omit [DecidableEq ι] in
lemma Serves.append {rs rs' : List (Request F ι)} (h : Serves zs c c' rs us as)
    (h' : Serves zs c' c'' rs' vs bs) : Serves zs c c'' (rs ++ rs') (us ++ vs) (as ++ bs) where
  session := by
    rw [h'.session, h.session, Taken.measurements_append, Session.run_append]
  attempts := by
    rw [h'.attempts, h.attempts, h.session, Taken.measurements_append, Session.attempts_append]
  direct := by
    rw [Taken.ofSource_append, h.direct, h'.direct, List.filterMap_append]
  read j := by
    rw [Taken.ofSource_append, Stream.hasAt_append, ← h.position]
    exact ⟨h.read j, h'.read j⟩
  position j := by
    rw [h'.position, h.position, Taken.ofSource_append, List.length_append, Nat.add_assoc]

lemma serves_serve (source : ι → κ) (zs : κ → Stream F) (c : Intake F ι κ) (r : Request F ι) :
    Serves zs c (c.serve source zs r).1 [r] (c.takes source zs r) (c.serve source zs r).2 := by
  cases r with
  | step z => exact ⟨rfl, rfl, rfl, fun j => trivial, fun j => rfl⟩
  | pull i =>
    -- an exhausted generator, or one at the end of its source, takes nothing
    have hd : ∀ b, Serves zs c
        ⟨c.session, Function.update c.position (source i) (c.position (source i)), b⟩
        [.pull i] [] [] :=
      fun b => ⟨rfl, rfl, rfl, fun j => trivial, fun j => by rw [Function.update_eq_self]; rfl⟩
    cases hl : c.live i with
    | false => simpa [serve, takes, hl] using hd _
    | true =>
      cases hz : zs (source i) (c.position (source i)) with
      | none => simpa [serve, takes, hl, hz, Session.pull_of_end hz] using hd _
      | some z =>
        obtain ⟨b, hp⟩ := c.session.exists_pull_of_some hz
        simp only [serve, takes, hl, hz, hp]
        -- the source of the generator is read, and every other one stays where it is
        refine ⟨rfl, rfl, rfl, fun j => ?_, fun j => ?_⟩
        · by_cases hj : source i = j
          · subst hj
            simpa [Taken.ofSource, Taken.measurements, Stream.HasAt] using hz
          · simp [Taken.ofSource, Taken.measurements, Stream.HasAt, hj]
        · by_cases hj : source i = j
          · subst hj
            simp [Taken.ofSource, Taken.measurements]
          · simp [Taken.ofSource, Taken.measurements, hj, Function.update_of_ne (Ne.symm hj)]

lemma serves_serveAll (source : ι → κ) (zs : κ → Stream F) (c : Intake F ι κ)
    (rs : List (Request F ι)) :
    Serves zs c (c.serveAll source zs rs).1 rs (c.takesAll source zs rs)
      (c.serveAll source zs rs).2 := by
  induction rs generalizing c with
  | nil => exact ⟨rfl, rfl, rfl, fun j => trivial, fun j => rfl⟩
  | cons r rs ih => exact (serves_serve source zs c r).append (ih _)

end Intake

/-! Nothing but the corrected estimate counts for what follows. -/

lemma Estimator.step_of_isPure {e : Estimator F} (h : e.process.IsPure) (k k' : Nat)
    (u u' : Option (Estimate F)) (y : Estimate F) (z : Measurement F) :
    e.step k ⟨u, y⟩ z = e.step k' ⟨u', y⟩ z := by
  simp only [step, estimates, evolve, h k k']

namespace Session

lemma step_forgets {s t : Session F} (he : t.estimator = s.estimator)
    (h : s.estimator.process.IsPure) (hc : t.cursor.corrected = s.cursor.corrected)
    (z : Fallible F (Measurement F)) :
    (t.step z).2 = (s.step z).2 ∧
      (t.step z).1.cursor.corrected = (s.step z).1.cursor.corrected ∧
        ((∃ f, (s.step z).2.outcome = .error f) ∨ (t.step z).1.cursor = (s.step z).1.cursor) := by
  obtain ⟨e, ⟨u, y⟩, k⟩ := s
  obtain ⟨e', ⟨u', y'⟩, k'⟩ := t
  obtain rfl : e' = e := he
  obtain rfl : y' = y := hc
  cases z with
  | error f => exact ⟨rfl, rfl, .inl ⟨f, rfl⟩⟩
  | ok z =>
    have ha := Estimator.step_of_isPure h k' k u' u y' z
    rw [step_of_measured, step_of_measured]
    simp only [settle, ha, Attempt.map_outcome, true_and]
    cases (e'.step k ⟨u, y'⟩ z).outcome with
    | ok c => exact ⟨rfl, .inr rfl⟩
    | error f => exact ⟨rfl, .inl ⟨f, rfl⟩⟩

lemma run_forgets {s t : Session F} (he : t.estimator = s.estimator)
    (h : s.estimator.process.IsPure) (hc : t.cursor.corrected = s.cursor.corrected)
    (ws : List (Fallible F (Measurement F))) :
    t.attempts ws = s.attempts ws ∧
      (t.run ws).cursor.corrected = (s.run ws).cursor.corrected ∧
        (s.Stalls ws ∨ (t.run ws).cursor = (s.run ws).cursor) := by
  induction ws generalizing s t with
  | nil => exact ⟨rfl, hc, .inl nofun⟩
  | cons z ws ih =>
    obtain ⟨ha, hz, hf⟩ := step_forgets he h hc z
    have he' : (t.step z).1.estimator = (s.step z).1.estimator := he
    obtain ⟨has, hw, hs⟩ := ih he' h hz
    refine ⟨congrArg₂ List.cons ha has, hw, ?_⟩
    rcases hs with hs | hs
    · rcases hf with hf | hf
      · exact .inl (List.forall_mem_cons.mpr ⟨hf, hs⟩)
      · -- the first step was the last one to succeed
        have ht : (t.step z).1.Stalls ws := by rwa [Stalls, has]
        exact .inr ((cursor_run_of_stalls ht).trans (hf.trans (cursor_run_of_stalls hs).symm))
    · exact .inr hs

end Session

lemma Setup.session_restart {s : Setup F} {t : Session F} (h : s.session = .ok t)
    (us : List (Fallible F (Measurement F))) :
    ({ s with initial := .estimate (t.run us).cursor.corrected } : Setup F).session =
      .ok (.opening t.estimator (t.run us).cursor.corrected) := by
  obtain ⟨q, c, d, hq, hc, hd, rfl⟩ := session_eq_ok_iff.mp h
  obtain ⟨x, p, -, rfl, hp⟩ := InitialChoice.cursor_eq_ok_iff.mp hc
  have ht := (Session.run_dimension_type ⟨d, q, s.joseph, s.debug⟩ x us).2
  exact session_eq_ok_iff.mpr
    ⟨q, _, d, hq, InitialChoice.cursor_eq_ok_iff.mpr ⟨_, p, rfl, rfl, ht.trans hp⟩, hd, rfl⟩

namespace Skew

def setup : Setup Machine :=
  ⟨.extended, .estimate initial, .cholesky .defaults, .general process, true, false⟩

def stream : Stream Machine :=
  .ofList [.ok measurement, refuse, .ok measurement]

end Skew

namespace Session

/-- A generator is pulled as often as there are measurements whose steps succeed, or more often. Any
number of generators may be on one session, on sources of their own or on common ones; what is read
from a source is what it begins with. A session that is made anew from a corrected estimate brings
what the old one would have brought. -/
theorem pulls_fold (setup : Setup F) (s : Session F) (h : setup.session = .ok s) :
    (∀ (t : Session F) (zs : Stream F) (ws : List (Fallible F (Measurement F))),
      zs.HasAt 0 ws → t.Succeeds ws →
        pulls zs ws.length t .start = (t.run ws, ⟨ws.length, true⟩, t.attempts ws) ∧
        (zs ws.length = none → ∀ k, ws.length < k →
          pulls zs k t .start = (t.run ws, ⟨ws.length, false⟩, t.attempts ws)) ∧
        ∀ z f, zs ws.length = some z → ((t.run ws).step z).2.outcome = .error f →
          (∀ k, ws.length < k → pulls zs k t .start =
            (t.run (ws ++ [z]), ⟨ws.length + 1, false⟩, t.attempts (ws ++ [z]))) ∧
          (t.emitted (ws ++ [z])).length = ws.length ∧
          (t.run (ws ++ [z])).cursor = (t.run ws).cursor) ∧
      (∀ (t : Session F) (zs : Stream F) (p : Nat),
        t.pull zs ⟨p, false⟩ = (t, ⟨p, false⟩, none)) ∧
      (∀ (ι κ : Type) [DecidableEq ι] [DecidableEq κ] (source : ι → κ) (zs : κ → Stream F)
        (rs : List (Request F ι)),
        let c : Intake F ι κ := .opening s
        Intake.Serves zs c (c.serveAll source zs rs).1 rs (c.takesAll source zs rs)
          (c.serveAll source zs rs).2) ∧
      (s.estimator.process.IsPure → ∀ us : List (Fallible F (Measurement F)),
        let t := s.run us
        let t' := Session.opening s.estimator t.cursor.corrected
        ({ setup with initial := .estimate t.cursor.corrected } : Setup F).session = .ok t' ∧
          ∀ ws, t'.attempts ws = t.attempts ws ∧
            (t'.run ws).cursor.corrected = (t.run ws).cursor.corrected ∧
            (t.Stalls ws ∨ (t'.run ws).cursor = (t.run ws).cursor)) := by
  refine ⟨?_, fun t zs p => pull_of_dead t zs p, ?_, ?_⟩
  · intro t zs ws hz ht
    refine ⟨pulls_start_of_succeeds hz ht, fun he k hk => pulls_start_of_end hz ht he hk, ?_⟩
    intro z f he hf
    refine ⟨fun k hk => pulls_start_of_error hz ht he hf hk, length_emitted_of_error ht hf, ?_⟩
    rw [run_append]
    exact cursor_of_error hf
  · intro ι κ _ _ source zs rs c
    exact Intake.serves_serveAll source zs c rs
  · intro hq us t t'
    have he : t.estimator = s.estimator := run_estimator s us
    refine ⟨Setup.session_restart h us, fun ws => ?_⟩
    exact run_forgets (s := t) (t := t') he.symm (he.symm ▸ hq) rfl ws

theorem pulls_fold_skew :
    Skew.setup.session = .ok Skew.session ∧ Skew.session.estimator.process.IsPure ∧
      Skew.stream.HasAt 0 [.ok Skew.measurement] ∧
      Skew.session.Succeeds [.ok Skew.measurement] ∧
      (∀ k, 1 < k → pulls Skew.stream k Skew.session .start =
        (Skew.session.run [.ok Skew.measurement, refuse], ⟨2, false⟩,
          Skew.session.attempts [.ok Skew.measurement, refuse])) ∧
      ∃ t, ({ Skew.setup with
          initial := .estimate (Skew.session.run [.ok Skew.measurement]).cursor.corrected } :
            Setup Machine).session = .ok t ∧
        ∀ ws, t.attempts ws = (Skew.session.run [.ok Skew.measurement]).attempts ws := by
  have hs : Skew.setup.session = .ok Skew.session := rfl
  have hq : Skew.session.estimator.process.IsPure := fun _ _ _ _ _ => rfl
  have hz : Skew.stream.HasAt 0 [.ok Skew.measurement] := ⟨rfl, trivial⟩
  have ho : (Skew.session.step (.ok Skew.measurement)).2.outcome.isOk = true := by
    decide +kernel
  have ht : Skew.session.Succeeds [.ok Skew.measurement] := by
    refine succeeds_cons.mpr ⟨?_, nofun⟩
    cases hy : (Skew.session.step (.ok Skew.measurement)).2.outcome with
    | ok y => exact ⟨y, rfl⟩
    | error f =>
      rw [hy] at ho
      cases ho
  obtain ⟨hone, -, -, hanew⟩ := pulls_fold Skew.setup Skew.session hs
  obtain ⟨hnew, hsame⟩ := hanew hq [.ok Skew.measurement]
  obtain ⟨hk, -⟩ := (hone Skew.session Skew.stream [.ok Skew.measurement] hz ht).2.2 refuse .refused
    rfl rfl
  exact ⟨hs, hq, hz, ht, hk, _, hnew, fun ws => (hsame ws).1⟩

end Session

end

end KalmanFilter
