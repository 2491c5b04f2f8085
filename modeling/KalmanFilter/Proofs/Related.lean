import KalmanFilter.Motion.Taylor
import KalmanFilter.Proofs.Attempt

namespace KalmanFilter

variable {F : Precision → Type} {α β γ δ : Type} {n : Nat}

namespace Fallible

inductive Rel (R : α → β → Prop) : Fallible F α → Fallible F β → Prop
  | ok {a : α} {b : β} (h : R a b) : Rel R (.ok a) (.ok b)
  | error (f : Failure F) : Rel R (.error f) (.error f)

namespace Rel

variable {R : α → β → Prop} {S : γ → δ → Prop} {x : Fallible F α} {y : Fallible F β}

lemma refl {R : α → α → Prop} (h : ∀ a, R a a) (x : Fallible F α) : Rel R x x := by
  cases x with
  | ok a => exact .ok (h a)
  | error f => exact .error f

lemma bind {f : α → Fallible F γ} {g : β → Fallible F δ} (h : Rel R x y)
    (hf : ∀ a b, R a b → Rel S (f a) (g b)) : Rel S (x >>= f) (y >>= g) := by
  cases h with
  | ok h => exact hf _ _ h
  | error f => exact .error f

lemma bind_same {S : γ → δ → Prop} {x : Fallible F α} {f : α → Fallible F γ}
    {g : α → Fallible F δ} (hf : ∀ a, x = .ok a → Rel S (f a) (g a)) :
    Rel S (x >>= f) (x >>= g) := by
  cases x with
  | ok a => exact hf a rfl
  | error f => exact .error f

lemma of_ok {a : α} (h : Rel R x y) (hx : x = .ok a) : ∃ b, y = .ok b ∧ R a b := by
  subst hx
  cases h with
  | ok h => exact ⟨_, rfl, h⟩

lemma of_error {f : Failure F} (h : Rel R x y) (hx : x = .error f) : y = .error f := by
  subst hx
  cases h with
  | error f => rfl

end Rel

end Fallible

lemma sequence_succ (f : Fin (n + 1) → Fallible F α) : sequence f = (do
    let a ← f 0
    let x ← sequence fun i => f i.succ
    return Vec.cons a x) :=
  rfl

lemma sequence_eq_ok_iff {f : Fin n → Fallible F α} {x : Vec α n} :
    sequence f = .ok x ↔ ∀ i, f i = .ok (x i) := by
  induction n with
  | zero =>
    refine ⟨fun _ i => i.elim0, fun _ => ?_⟩
    exact congrArg Except.ok (Vec.ext fun i => i.elim0)
  | succ n ih =>
    rw [sequence_succ, Fallible.bind_eq_ok_iff]
    constructor
    · rintro ⟨a, ha, h⟩ i
      obtain ⟨y, hy, h⟩ := Fallible.bind_eq_ok_iff.mp h
      obtain rfl := Except.ok.inj h
      cases i using Fin.cases with
      | zero => rw [ha, Vec.cons_zero]
      | succ i => rw [ih.mp hy i, Vec.cons_succ]
    · intro h
      refine ⟨x 0, h 0, Fallible.bind_eq_ok_iff.mpr
        ⟨Vector.ofFn fun i => x i.succ, ih.mpr fun i => ?_,
          congrArg Except.ok (Vec.ext fun i => ?_)⟩⟩
      · rw [Vec.ofFn_entry]
        exact h i.succ
      · cases i using Fin.cases with
        | zero => rw [Vec.cons_zero]
        | succ i => rw [Vec.cons_succ, Vec.ofFn_entry]

lemma Fallible.Rel.sequence {R : α → β → Prop} {f : Fin n → Fallible F α} {g : Fin n → Fallible F β}
    (h : ∀ i, Rel R (f i) (g i)) :
    Rel (fun x y : Vector _ n => ∀ i, R (x.get i) (y.get i)) (sequence f)
      (KalmanFilter.sequence g) := by
  induction n with
  | zero => exact .ok fun i => i.elim0
  | succ n ih =>
    refine (h 0).bind fun a b hab => (ih fun i => h i.succ).bind fun x y hxy => .ok fun i => ?_
    cases i using Fin.cases with
    | zero => simpa using hab
    | succ i => simpa using hxy i

lemma Vec.get_ofFn (f : Fin n → α) : (Vector.ofFn f).get = f :=
  funext (Vec.ofFn_entry f)

lemma sequence_of_ok {f : Fin n → Fallible F α} {x : Fin n → α} (h : ∀ i, f i = .ok (x i)) :
    sequence f = .ok (Vector.ofFn x) :=
  sequence_eq_ok_iff.mpr fun i => by rw [h, Vec.ofFn_entry]

lemma sequence_const (x : Fallible F α) (hn : 0 < n) :
    sequence (fun _ : Fin n => x) = x.map (Vector.replicate n) := by
  cases x with
  | ok a => exact sequence_eq_ok_iff.mpr fun i => congrArg Except.ok (Vec.replicate_entry a i).symm
  | error f =>
    cases n with
    | zero => exact absurd hn (Nat.lt_irrefl 0)
    | succ n => rfl

end KalmanFilter
