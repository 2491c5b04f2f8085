import KalmanFilter.Proofs.TensorForm

/-! Several computations that differ in some of their numbers. What links the
numbers at one place of all of them, and is kept by linear operations, links the
tensors that come out. -/

namespace KalmanFilter

variable {F : Precision → Type} {ι α β : Type}

inductive Fallible.Joint (R : (ι → α) → Prop) : (ι → Fallible F α) → Prop
  | ok {a : ι → α} (h : R a) : Joint R fun i => .ok (a i)
  | error (f : Failure F) : Joint R fun _ => .error f

namespace Fallible.Joint

variable {R : (ι → α) → Prop} {S : (ι → β) → Prop} {x : ι → Fallible F α}

lemma bind {f : ι → α → Fallible F β} (h : Joint R x)
    (hf : ∀ a, R a → Joint S fun i => f i (a i)) : Joint S fun i => x i >>= f i := by
  cases h with
  | ok h => exact hf _ h
  | error f => exact .error f

lemma bind_const {S : (ι → β) → Prop} {x : Fallible F α} {f : ι → α → Fallible F β}
    (hf : ∀ a, x = .ok a → Joint S fun i => f i a) : Joint S fun i => x >>= f i := by
  cases x with
  | ok a => exact hf a rfl
  | error f => exact .error f

lemma of_ok {a : ι → α} (ha : R a) (h : ∀ i, x i = .ok (a i)) : Joint R x :=
  funext h ▸ .ok ha

lemma of_error {f : Failure F} (h : ∀ i, x i = .error f) : Joint R x :=
  (funext h : x = fun _ => .error f) ▸ .error f

lemma congr {y : ι → Fallible F α} (h : Joint R x) (hy : ∀ i, y i = x i) : Joint R y :=
  funext hy ▸ h

lemma error_or_ok (h : Joint R x) :
    (∃ f, ∀ i, x i = .error f) ∨ ∃ a, R a ∧ ∀ i, x i = .ok (a i) := by
  cases h with
  | ok h => exact .inr ⟨_, h, fun _ => rfl⟩
  | error f => exact .inl ⟨f, fun _ => rfl⟩

end Fallible.Joint

open Fallible (Joint)

/-- A condition on what one number is in each of several computations. -/
abbrev Link (F : Precision → Type) (ι : Type) :=
  (p : Precision) → (ι → F p) → Prop

variable [Arithmetic F] {p : Precision} {P : Link F ι} {m n : Nat}

structure Link.IsLinear (P : Link F ι) : Prop where
  zero (p : Precision) : P p fun _ => 0
  add {p : Precision} {x y : ι → F p} : P p x → P p y → P p fun i => x i + y i
  sub {p : Precision} {x y : ι → F p} : P p x → P p y → P p fun i => x i - y i
  mul {p : Precision} {x : ι → F p} (a : F p) : P p x → P p fun i => a * x i

omit [Arithmetic F] in
lemma Shape.offset_index {s : Shape} {k : Nat} (hk : k < s.size) : s.offset (s.index k) = k := by
  induction s generalizing k with
  | nil => exact (Nat.lt_one_iff.mp hk).symm
  | cons n s ih =>
    have hs : 0 < Shape.size s := Nat.pos_of_lt_mul_left hk
    rw [index, offset, ih (Nat.mod_lt k hs), Nat.div_add_mod']

lemma Link.IsLinear.total (hP : P.IsLinear) {f : ι → Fin n → F p}
    (h : ∀ k, P p fun i => f i k) : P p fun i => KalmanFilter.total (f i) := by
  induction n with
  | zero => exact hP.zero p
  | succ n ih =>
    simp only [KalmanFilter.total, Fin.foldl_succ_last]
    exact hP.add (ih fun k => h k.castSucc) (h (Fin.last n))

def Vec.Linked (P : Link F ι) (v : ι → Vec (F p) n) : Prop :=
  ∀ k, P p fun i => v i k

namespace Vec.Linked

variable {v w : ι → Vec (F p) n}

lemma add (hP : P.IsLinear) (hv : Linked P v) (hw : Linked P w) :
    Linked P fun i => v i + w i := by
  intro k
  simp only [add_entry]
  exact hP.add (hv k) (hw k)

lemma sub (hP : P.IsLinear) (hv : Linked P v) (hw : Linked P w) :
    Linked P fun i => v i - w i := by
  intro k
  simp only [sub_entry]
  exact hP.sub (hv k) (hw k)

lemma mulVec (hP : P.IsLinear) (A : Mat (F p) m n) (hv : Linked P v) :
    Linked P fun i => A * v i := by
  intro k
  simp only [Mat.mulVec_entry]
  exact hP.total fun j => hP.mul (A k j) (hv j)

omit [Arithmetic F] in
lemma cast (h : n = m) (hv : Linked P v) : Linked P fun i => (v i).cast h := by
  subst h
  exact hv

end Vec.Linked

namespace Tensor

inductive Linked (P : Link F ι) (p : Precision) : (ι → Tensor F) → Prop
  | of (s : Shape) (v : ι → Vec (F p) s.size) (h : Vec.Linked P v) :
      Linked P p fun i => ⟨.real p, s, v i⟩

variable {t u : ι → Tensor F}

omit [Arithmetic F] in
lemma linked_tensor {v : ι → Vec (F p) n} (hv : Vec.Linked P v) :
    Linked P p fun i => TypedVec.tensor ⟨.real p, v i⟩ :=
  .of [n] _ (hv.cast _)

omit [Arithmetic F] in
lemma linked_ofIndex (s : Shape) {f : ι → List Nat → F p} (h : ∀ j, P p fun i => f i j) :
    Linked P p fun i => ofIndex (.real p) s (f i) := by
  refine .of s _ fun k => ?_
  simp only [Vec.ofFn_entry]
  exact h _

lemma linked_get (hP : P.IsLinear) {s : Shape} {v : ι → Vec (F p) s.size} (hv : Vec.Linked P v)
    (j : List Nat) : P p fun i => get ⟨.real p, s, v i⟩ j := by
  by_cases hj : s.offset j < s.size
  · have h : ∀ i, get ⟨.real p, s, v i⟩ j = v i ⟨s.offset j, hj⟩ := fun i => by
      rw [get, Vector.getElem?_eq_getElem hj]
      rfl
    simp only [h]
    exact hv _
  · have h : ∀ i, get ⟨.real p, s, v i⟩ j = 0 := fun i => by
      rw [get, Vector.getElem?_eq_none (Nat.le_of_not_lt hj)]
      rfl
    simp only [h]
    exact hP.zero p

lemma linked_vec {s : Shape} {v : ι → Vec (F p) s.size} (hv : Vec.Linked P v) (hs : s = [n]) :
    Vec.Linked P fun i => (vec ⟨.real p, s, v i⟩ hs).toType (.real p) := by
  simp only [vec, TypedVec.toType_self]
  exact hv.cast (by simp [hs])

lemma add?_of_broadcast {d : ElementType} {s s' r : Shape} (h : s.broadcast? s' = some r)
    (v : Vec (Elem F d) s.size) (w : Vec (Elem F d) s'.size) :
    add? ⟨d, s, v⟩ ⟨d, s', w⟩ = .ok (ofIndex d r fun j =>
      get ⟨d, s, v⟩ (s.project j) + get ⟨d, s', w⟩ (s'.project j)) := by
  have hd : d.promote d (!s.isEmpty) (!s'.isEmpty) = d := by
    cases d with
    | real p => exact if_pos rfl
    | int64 => rfl
  simp only [add?, zipWith?, h]
  rw [hd]
  simp only [Elem.cast_self]

lemma toType_eq_ofIndex (e : ElementType) (t : Tensor F) :
    t.toType e = ofIndex e t.shape fun j => Elem.cast e (t.get j) := by
  refine congrArg (mk e t.shape) (Vec.ext fun k => ?_)
  have hk : t.get (t.shape.index k) = t.entries.get k := by
    rw [Tensor.get, Shape.offset_index k.isLt, Vector.getElem?_eq_getElem k.isLt]
    rfl
  rw [Vec.map_entry, Vec.ofFn_entry, ← hk]

lemma linked_toType {s : Shape} (hs : ∀ i, (u i).shape = s)
    (h : ∀ j, P p fun i => Elem.cast (.real p) ((u i).get j)) :
    Linked P p fun i => (u i).toType (.real p) := by
  simp only [toType_eq_ofIndex, hs]
  exact linked_ofIndex s h

omit [Arithmetic F] in
lemma reshape?_type {a b : Tensor F} {s : Shape} (h : a.reshape? s = .ok b) : b.type = a.type := by
  rw [reshape?] at h
  split at h
  · cases h
    rfl
  · cases h

namespace Linked

omit [Arithmetic F] in
lemma reshape? (ht : Linked P p t) (s : Shape) :
    Joint (Linked P p) fun i => (t i).reshape? s := by
  obtain ⟨s', v, hv⟩ := ht
  by_cases h : s'.size = s.size
  · simp only [Tensor.reshape?, dif_pos h]
    exact .ok (.of s _ (hv.cast h))
  · simp only [Tensor.reshape?, dif_neg h]
    exact .error .refused

variable {a : Tensor F}

lemma stackedProduct? (hP : P.IsLinear) (ha : a.type = .real p) (ht : Linked P p t) :
    Joint (Linked P p) fun i => a.stackedProduct? (t i) := by
  obtain ⟨e, s, v⟩ := a
  obtain rfl : e = .real p := ha
  obtain ⟨s', w, hw⟩ := ht
  simp only [Tensor.stackedProduct?]
  cases s.stack? with
  | none => exact .error .refused
  | some a =>
    cases s'.stack? with
    | none => exact .error .refused
    | some b =>
      obtain ⟨r, m, k⟩ := a
      obtain ⟨r', k', n⟩ := b
      dsimp only
      cases r.broadcast? r' with
      | none => exact .error .refused
      | some stack =>
        dsimp only
        split
        · refine .ok (linked_ofIndex _ fun j => hP.total fun c => hP.mul _ ?_)
          simp only [Elem.cast_self]
          exact linked_get hP hw _
        · exact .error .refused

lemma product? (hP : P.IsLinear) (ha : a.type = .real p) (ht : Linked P p t) :
    Joint (Linked P p) fun i => a.product? (t i) := by
  have hs := fun {u : ι → Tensor F} => stackedProduct? (t := u) hP ha
  have hr := fun {b : Tensor F} {s : Shape} (h : a.reshape? s = .ok b) {u : ι → Tensor F} =>
    stackedProduct? (t := u) hP ((reshape?_type h).trans ha)
  obtain ⟨e, s, v⟩ := a
  obtain rfl : e = .real p := ha
  cases ht with
  | of s' w hw =>
  have ht := Linked.of s' w hw
  simp only [Tensor.product?, ne_eq, not_true, if_false]
  rcases s with _ | ⟨k, _ | ⟨l, _ | ⟨r, s⟩⟩⟩
  · exact .error .refused
  · rcases s' with _ | ⟨k', _ | ⟨l', s'⟩⟩
    · exact .error .refused
    · exact .bind_const fun b hb => (ht.reshape? _).bind fun c hc =>
        (hr hb hc).bind fun d hd => hd.reshape? _
    · exact .bind_const fun b hb => (hr hb ht).bind fun d hd => hd.reshape? _
  · rcases s' with _ | ⟨k', _ | ⟨l', s'⟩⟩
    · exact .error .refused
    · by_cases h : k' = l
      · simp only [dif_pos h]
        exact .ok (linked_tensor (.mulVec hP _ (linked_vec hw (h ▸ rfl))))
      · simp only [dif_neg h]
        exact .error .refused
    · exact hs ht
  · rcases s' with _ | ⟨k', _ | ⟨l', s'⟩⟩
    · exact .error .refused
    · exact (ht.reshape? _).bind fun c hc => (hs hc).bind fun d hd => hd.reshape? _
    · exact hs ht

lemma add? (hP : P.IsLinear) (ht : Linked P p t) (hu : Linked P p u) :
    Joint (Linked P p) fun i => (t i).add? (u i) := by
  obtain ⟨s, v, hv⟩ := ht
  obtain ⟨s', w, hw⟩ := hu
  cases hs : s.broadcast? s' with
  | none =>
    simp only [Tensor.add?, zipWith?, hs]
    exact .error .refused
  | some r =>
    simp only [add?_of_broadcast hs]
    exact .ok (linked_ofIndex r fun j => hP.add (linked_get hP hv _) (linked_get hP hw _))

end Linked

end Tensor

inductive Evolution.Linked (P : Link F ι) (p : Precision) : (ι → Evolution F) → Prop
  | of (time : F .double) {n : Nat} {v : ι → Vec (F p) n} (transition noise : TypedMat F n n)
      (h : Vec.Linked P v) : Linked P p fun i => ⟨time, n, ⟨.real p, v i⟩, transition, noise⟩

inductive LinearEvolution.Linked (P : Link F ι) (p : Precision) : (ι → LinearEvolution F) → Prop
  | free (transition noise : Tensor F) : Linked P p fun _ => ⟨transition, noise, none⟩
  | driven (transition noise matrix : Tensor F) {u : ι → Tensor F}
      (h : Tensor.Linked P p fun i => (u i).toType (.real p)) :
      Linked P p fun i => ⟨transition, noise, some ⟨matrix, u i⟩⟩

omit [Arithmetic F] in
lemma Tensor.Linked.evolution {t : ι → Tensor F} (ht : Linked P p t) (time : F .double)
    (A Q : Tensor F) : Joint (Evolution.Linked P p) fun i => Evolution.of time (t i) A Q := by
  obtain ⟨s, v, hv⟩ := ht
  simp only [Evolution.of]
  rcases s with _ | ⟨k, _ | ⟨l, s⟩⟩
  · exact .error _
  · by_cases hA : A.shape = [k, k]
    · by_cases hQ : Q.shape = [k, k]
      · simp only [dif_pos hA, dif_pos hQ]
        exact .ok (.of time _ _ (hv.cast (Shape.eq_size_single k).symm))
      · simp only [dif_pos hA, dif_neg hQ]
        exact .error _
    · simp only [dif_neg hA]
      exact .error _
  · exact .error _

lemma LinearEvolution.Linked.predict (hP : P.IsLinear) {le : ι → LinearEvolution F}
    (hle : Linked P p le) (time : Fallible F (F .double)) {t : ι → Tensor F}
    (ht : Tensor.Linked P p t) :
    Joint (Evolution.Linked P p) fun i => (le i).predict time (t i) := by
  have htype : ∀ i, (t i).type = .real p := by
    obtain ⟨s, v, hv⟩ := ht
    exact fun i => rfl
  simp only [LinearEvolution.predict, htype]
  cases hle with
  | free A Q =>
    refine (ht.product? (a := A.toType (.real p)) hP rfl).bind fun x hx => ?_
    exact .bind_const fun t' _ => hx.evolution t' (A.toType (.real p)) Q
  | driven A Q B hu =>
    refine (ht.product? (a := A.toType (.real p)) hP rfl).bind fun x hx => ?_
    refine (hu.product? (a := B.toType (.real p)) hP rfl).bind fun b hb => ?_
    exact (hx.add? hP hb).bind fun y hy => .bind_const fun t' _ =>
      hy.evolution t' (A.toType (.real p)) Q

end KalmanFilter
