import KalmanFilter.Attempt
import Mathlib.Tactic.Lemma

namespace KalmanFilter

variable {F : Precision → Type} {α β : Type}

lemma Fallible.bind_eq_ok_iff {x : Fallible F α} {f : α → Fallible F β} {b : β} :
    x >>= f = .ok b ↔ ∃ a, x = .ok a ∧ f a = .ok b := by
  cases x with
  | error e =>
    constructor
    · intro h
      cases h
    · rintro ⟨_, h, _⟩
      cases h
  | ok a =>
    constructor
    · exact fun h => ⟨a, rfl, h⟩
    · rintro ⟨_, h, hf⟩
      cases h
      exact hf

lemma Fallible.bind_eq_error_iff {x : Fallible F α} {f : α → Fallible F β} {e : Failure F} :
    x >>= f = .error e ↔ x = .error e ∨ ∃ a, x = .ok a ∧ f a = .error e := by
  cases x with
  | error g =>
    constructor
    · exact fun h => .inl (congrArg Except.error (Except.error.inj h))
    · rintro (h | ⟨_, h, _⟩)
      · exact congrArg Except.error (Except.error.inj h)
      · cases h
  | ok a =>
    constructor
    · exact fun h => .inr ⟨a, rfl, h⟩
    · rintro (h | ⟨_, h, hf⟩)
      · cases h
      · cases h
        exact hf

def Event.query? : Event F → Option (F .double × Tensor F × F .double)
  | .query previousTime previousState time => some (previousTime, previousState, time)
  | _ => none

def Event.matrix? : Event F → Option (Tensor F)
  | .decomposition A => some A
  | _ => none

namespace Attempt

def queries (x : Attempt F α) : List (F .double × Tensor F × F .double) :=
  x.events.filterMap Event.query?

def decompositions (x : Attempt F α) : List (Tensor F) :=
  x.events.filterMap Event.matrix?

@[simp] lemma pure_events (a : α) : (pure a : Attempt F α).events = [] := rfl

@[simp] lemma pure_outcome (a : α) : (pure a : Attempt F α).outcome = .ok a := rfl

lemma bind_of_ok {x : Attempt F α} {a : α} (h : x.outcome = .ok a) (f : α → Attempt F β) :
    x >>= f = ⟨x.events ++ (f a).events, (f a).outcome⟩ := by
  obtain ⟨es, o⟩ := x
  obtain rfl : o = .ok a := h
  rfl

lemma bind_of_error {x : Attempt F α} {e : Failure F} (h : x.outcome = .error e)
    (f : α → Attempt F β) : x >>= f = ⟨x.events, .error e⟩ := by
  obtain ⟨es, o⟩ := x
  obtain rfl : o = .error e := h
  rfl

@[simp] lemma of_ok_bind (a : α) (f : α → Attempt F β) : of (.ok a) >>= f = f a :=
  bind_of_ok rfl f

@[simp] lemma happen_bind (e : Event F) (f : Unit → Attempt F β) :
    happen e >>= f = ⟨e :: (f ()).events, (f ()).outcome⟩ :=
  bind_of_ok rfl f

lemma bind_events_ne_nil {x : Attempt F α} (h : x.events ≠ []) (f : α → Attempt F β) :
    (x >>= f).events ≠ [] := by
  cases ho : x.outcome with
  | ok a =>
    rw [bind_of_ok ho]
    exact List.append_ne_nil_of_left_ne_nil h _
  | error e => rwa [bind_of_error ho]

lemma bind_outcome (x : Attempt F α) (f : α → Attempt F β) :
    (x >>= f).outcome = x.outcome >>= fun a => (f a).outcome := by
  cases h : x.outcome with
  | ok a => rw [bind_of_ok h]; rfl
  | error e => rw [bind_of_error h]; rfl

lemma bind_outcome_eq_ok_iff {x : Attempt F α} {f : α → Attempt F β} {b : β} :
    (x >>= f).outcome = .ok b ↔ ∃ a, x.outcome = .ok a ∧ (f a).outcome = .ok b := by
  rw [bind_outcome]
  exact Fallible.bind_eq_ok_iff

lemma bind_outcome_eq_error_iff {x : Attempt F α} {f : α → Attempt F β} {e : Failure F} :
    (x >>= f).outcome = .error e ↔
      x.outcome = .error e ∨ ∃ a, x.outcome = .ok a ∧ (f a).outcome = .error e := by
  rw [bind_outcome]
  exact Fallible.bind_eq_error_iff

lemma bind_congr {x : Attempt F α} {f g : α → Attempt F β}
    (h : ∀ a, x.outcome = .ok a → f a = g a) : x >>= f = x >>= g := by
  cases hx : x.outcome with
  | ok a => rw [bind_of_ok hx, bind_of_ok hx, h a hx]
  | error e => rw [bind_of_error hx, bind_of_error hx]

lemma map_eq (f : α → β) (x : Attempt F α) : f <$> x = ⟨x.events, f <$> x.outcome⟩ := by
  show (x >>= fun a => pure (f a)) = _
  cases h : x.outcome with
  | ok a =>
    rw [bind_of_ok h, pure_events, List.append_nil]
    rfl
  | error e => exact bind_of_error h _

@[simp] lemma map_events (f : α → β) (x : Attempt F α) : (f <$> x).events = x.events := by
  rw [map_eq]

@[simp] lemma map_outcome (f : α → β) (x : Attempt F α) :
    (f <$> x).outcome = f <$> x.outcome := by
  rw [map_eq]

lemma queries_bind {x : Attempt F α} {f : α → Attempt F β} (hx : x.queries = [])
    (hf : ∀ a, (f a).queries = []) : (x >>= f).queries = [] := by
  cases h : x.outcome with
  | error e => rwa [bind_of_error h]
  | ok a =>
    rw [bind_of_ok h, queries, List.filterMap_append, ← queries, ← queries, hx, hf]
    rfl

lemma queryCount_eq_length (x : Attempt F α) : x.queryCount = x.queries.length := by
  rw [queryCount, queries, List.length_filterMap_eq_countP]
  congr 1
  funext e
  cases e <;> rfl

lemma queryCount_query (t : F .double) (x : Tensor F) (t' : F .double) (a : Attempt F α) :
    (Attempt.mk (.query t x t' :: a.events) a.outcome).queryCount = a.queryCount + 1 :=
  List.countP_cons_of_pos rfl

end Attempt

end KalmanFilter
