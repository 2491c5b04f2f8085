import KalmanFilter.Machine
import KalmanFilter.Proofs.Attempt
import KalmanFilter.Proofs.Link

namespace KalmanFilter

variable {F : Precision → Type} {m n c : Nat}

lemma Tensor.exists_mat {t : Tensor F} (h : t.shape = [m, n]) :
    ∃ A : TypedMat F m n, t = A.tensor := by
  obtain ⟨e, s, v⟩ := t
  obtain rfl : s = [m, n] := h
  refine ⟨⟨e, .ofFlat (v.cast (Shape.eq_size_pair m n).symm)⟩, ?_⟩
  rw [TypedMat.tensor, Mat.flatten_ofFlat]
  rfl

lemma Tensor.exists_vec {t : Tensor F} (h : t.shape = [n]) : ∃ x : TypedVec F n, t = x.tensor := by
  obtain ⟨e, s, v⟩ := t
  obtain rfl : s = [n] := h
  exact ⟨⟨e, v.cast (Shape.eq_size_single n).symm⟩, rfl⟩

namespace Shape

lemma length_broadcastReversed? {s t r : Shape} (h : broadcastReversed? s t = some r) :
    s.length ≤ r.length ∧ t.length ≤ r.length := by
  induction s generalizing t r with
  | nil =>
    obtain rfl : t = r := by simpa [broadcastReversed?] using h
    exact ⟨Nat.zero_le _, Nat.le_refl _⟩
  | cons a s ih =>
    cases t with
    | nil =>
      obtain rfl : a :: s = r := by simpa [broadcastReversed?] using h
      exact ⟨Nat.le_refl _, Nat.zero_le _⟩
    | cons b t =>
      have hd : ∃ d, (broadcastReversed? s t).map (d :: ·) = some r := by
        simp only [broadcastReversed?] at h
        split at h
        · exact ⟨_, h⟩
        · split at h
          · exact ⟨_, h⟩
          · split at h
            · exact ⟨_, h⟩
            · cases h
      obtain ⟨d, hd⟩ := hd
      obtain ⟨r, hr, rfl⟩ := Option.map_eq_some_iff.mp hd
      obtain ⟨hs, ht⟩ := ih hr
      exact ⟨Nat.succ_le_succ hs, Nat.succ_le_succ ht⟩

lemma length_broadcast? {s t r : Shape} (h : s.broadcast? t = some r) :
    s.length ≤ r.length ∧ t.length ≤ r.length := by
  obtain ⟨r', hr, rfl⟩ := Option.map_eq_some_iff.mp h
  simpa using length_broadcastReversed? hr

lemma broadcast?_self_single (n : Nat) : broadcast? [n] [n] = some [n] := by
  simp [broadcast?, broadcastReversed?]

lemma project_index_single (k : Fin n) : project [n] (index [n] k.val) = [k.val] := by
  by_cases hn : n = 1
  · subst hn
    simp [project, index]
  · simp [project, index, hn]

end Shape

variable [Arithmetic F] {d : ElementType} {t u v : Tensor F}

namespace Tensor

lemma length_of_add? (h : t.add? u = .ok v) : u.shape.length ≤ v.shape.length := by
  rw [add?, zipWith?] at h
  split at h
  · rename_i s hs
    obtain rfl := Except.ok.inj h
    exact (Shape.length_broadcast? hs).2
  · cases h

lemma length_of_stackedProduct? (h : t.stackedProduct? u = .ok v) : 2 ≤ v.shape.length := by
  rw [stackedProduct?] at h
  split at h
  · split at h
    · split at h
      · obtain rfl := Except.ok.inj h
        simp [ofIndex]
      · cases h
    · cases h
  · cases h

lemma length_of_product? {a b : Nat} {s : Shape} (ht : t.shape = [m, n])
    (hu : u.shape = a :: b :: s) (h : t.product? u = .ok v) : 2 ≤ v.shape.length := by
  obtain ⟨e, t, x⟩ := t
  obtain ⟨e', u, y⟩ := u
  obtain rfl : t = [m, n] := ht
  obtain rfl : u = a :: b :: s := hu
  rw [product?] at h
  split at h
  · cases h
  · exact length_of_stackedProduct? h

lemma shape_of_product? {l : Nat} (ht : t.shape = [m, n]) (hu : u.shape = [l])
    (h : t.product? u = .ok v) : l = n ∧ v.shape = [m] := by
  obtain ⟨e, t, x⟩ := t
  obtain ⟨e', u, y⟩ := u
  obtain rfl : t = [m, n] := ht
  obtain rfl : u = [l] := hu
  rw [product?] at h
  split at h
  · cases h
  · dsimp only at h
    split at h
    · rename_i hl
      obtain rfl := Except.ok.inj h
      exact ⟨hl, rfl⟩
    · cases h

lemma add?_tensor (x y : Vec (Elem F d) n) :
    (TypedVec.tensor ⟨d, x⟩).add? (TypedVec.tensor ⟨d, y⟩) =
      .ok (TypedVec.tensor ⟨d, x + y⟩) := by
  refine (add?_of_broadcast (Shape.broadcast?_self_single n) _ _).trans (congrArg Except.ok ?_)
  refine congrArg (mk d [n]) (Vec.ext fun k => ?_)
  have hk : k.val < n := by simpa using k.isLt
  have hs : ∀ z : Vec (Elem F d) n, (TypedVec.tensor ⟨d, z⟩).get
      (Shape.project [n] (Shape.index [n] k.val)) = z ⟨k.val, hk⟩ := fun z => by
    rw [Shape.project_index_single ⟨k.val, hk⟩]
    exact TypedVec.get_tensor ⟨d, z⟩ ⟨k.val, hk⟩
  have hk' : ((x + y).cast (Shape.eq_size_single n)).get k = x ⟨k.val, hk⟩ + y ⟨k.val, hk⟩ :=
    Vec.add_entry x y ⟨k.val, hk⟩
  rw [Vec.ofFn_entry, hk', ← hs x, ← hs y]
  rfl

end Tensor

omit [Arithmetic F] in
lemma Evolution.shapes_of_ok {time : F .double} {x A Q : Tensor F}
    {y : Evolution F} (h : Evolution.of time x A Q = .ok y) :
    ∃ n, x.shape = [n] ∧ A.shape = [n, n] ∧ Q.shape = [n, n] := by
  rw [Evolution.of] at h
  split at h
  · rename_i n hx
    split at h
    · rename_i hA
      split at h
      · rename_i hQ
        exact ⟨n, hx, hA, hQ⟩
      · cases h
    · cases h
  · cases h

namespace LinearEvolution

def IsBuilt (x : LinearEvolution F) : Prop :=
  ∃ A Q B u, of A Q B u = .ok x

inductive Fits (n : Nat) : LinearEvolution F → Prop
  | free (A Q : TypedMat F n n) : Fits n ⟨A.tensor, Q.tensor, none⟩
  | driven {c : Nat} (A Q : TypedMat F n n) (B : TypedMat F n c) (u : TypedVec F c) :
      Fits n ⟨A.tensor, Q.tensor, some ⟨B.tensor, u.tensor⟩⟩

variable {x : LinearEvolution F} {y : Evolution F} {time : F .double}

omit [Arithmetic F] in
lemma IsBuilt.control (h : x.IsBuilt) {u : Control F} (hu : x.control = some u) :
    ∃ m s c r, x.transition.shape = m :: s ∧ u.command.shape = c :: r ∧ u.matrix.shape = [m, c] := by
  obtain ⟨A, Q, _ | B, _ | w, h⟩ := h
  · obtain rfl := Except.ok.inj h
    cases hu
  · cases h
  · cases h
  · rw [of] at h
    split at h
    · rename_i m s c r hA hw
      split at h
      · rename_i hB
        obtain rfl := Except.ok.inj h
        obtain rfl := Option.some.inj hu
        exact ⟨m, s, c, r, hA, hw, hB⟩
      · cases h
    · cases h

lemma predict_eq_ok_iff {v : Tensor F} :
    x.predict (.ok time) v = .ok y ↔ ∃ f w, (x.transition.toType v.type).product? v = .ok f ∧
      (x.control = none ∧ w = f ∨ ∃ u b, x.control = some u ∧
        (u.matrix.toType v.type).product? (u.command.toType v.type) = .ok b ∧ f.add? b = .ok w) ∧
      Evolution.of time w (x.transition.toType v.type) x.noise = .ok y := by
  obtain ⟨A, Q, u⟩ := x
  rw [predict, Fallible.bind_eq_ok_iff]
  refine exists_congr fun f => ?_
  cases u with
  | none =>
    constructor
    · rintro ⟨hf, h⟩
      exact ⟨f, hf, .inl ⟨rfl, rfl⟩, h⟩
    · rintro ⟨w, hf, ⟨-, rfl⟩ | ⟨_, _, hu, -⟩, h⟩
      · exact ⟨hf, h⟩
      · cases hu
  | some u =>
    constructor
    · rintro ⟨hf, h⟩
      obtain ⟨b, hb, h⟩ := Fallible.bind_eq_ok_iff.mp h
      obtain ⟨w, hw, h⟩ := Fallible.bind_eq_ok_iff.mp h
      exact ⟨w, hf, .inr ⟨u, b, rfl, hb, hw⟩, h⟩
    · rintro ⟨w, hf, ⟨hu, -⟩ | ⟨_, b, hu, hb, hw⟩, h⟩
      · cases hu
      · obtain rfl := Option.some.inj hu
        exact ⟨hf, Fallible.bind_eq_ok_iff.mpr ⟨b, hb, Fallible.bind_eq_ok_iff.mpr ⟨w, hw, h⟩⟩⟩

lemma fits_of_predict (hx : x.IsBuilt) {v : Tensor F} (hv : v.shape = [n])
    (h : x.predict (.ok time) v = .ok y) : x.Fits n := by
  obtain ⟨f, w, hf, hw, h⟩ := predict_eq_ok_iff.mp h
  obtain ⟨m, hm, hA, hQ⟩ := Evolution.shapes_of_ok h
  obtain ⟨rfl, -⟩ := Tensor.shape_of_product? hA hv hf
  obtain ⟨A, Q, u⟩ := x
  obtain ⟨A, rfl⟩ := Tensor.exists_mat (t := A) hA
  obtain ⟨Q, rfl⟩ := Tensor.exists_mat (t := Q) hQ
  rcases hw with ⟨rfl, -⟩ | ⟨u, b, rfl, hb, hw⟩
  · exact .free A Q
  obtain ⟨k, s, c, r, hk, hu, hB⟩ := hx.control rfl
  obtain rfl : n = k := (List.cons.inj hk).1
  obtain ⟨B, u⟩ := u
  obtain ⟨B, rfl⟩ := Tensor.exists_mat (t := B) hB
  cases r with
  | nil =>
    obtain ⟨u, rfl⟩ := Tensor.exists_vec (t := u) hu
    exact .driven A Q B u
  | cons d r =>
    -- the product is a stack of matrices, and no sum with a stack is a vector
    have hb := Tensor.length_of_product? (u := u.toType v.type) rfl hu hb
    have hw := Tensor.length_of_add? hw
    rw [hm] at hw
    exact absurd (Nat.le_trans hb hw) (Nat.not_succ_le_self 1)

lemma predict_free (A Q : TypedMat F n n) (x : Vec (Elem F d) n) :
    predict ⟨A.tensor, Q.tensor, none⟩ (.ok time) (TypedVec.tensor ⟨d, x⟩) =
      .ok ⟨time, n, ⟨d, A.toType d * x⟩, ⟨d, A.toType d⟩, Q⟩ := by
  refine predict_eq_ok_iff.mpr
    ⟨TypedVec.tensor ⟨d, A.toType d * x⟩, _, ?_, .inl ⟨rfl, rfl⟩, ?_⟩
  · rw [TypedMat.toType_tensor]
    exact Tensor.product?_tensor _ x
  · rw [TypedMat.toType_tensor]
    exact Evolution.of_tensor time _ _ Q

lemma predict_driven (A Q : TypedMat F n n) (B : TypedMat F n c) (u : TypedVec F c)
    (x : Vec (Elem F d) n) :
    predict ⟨A.tensor, Q.tensor, some ⟨B.tensor, u.tensor⟩⟩ (.ok time) (TypedVec.tensor ⟨d, x⟩) =
      .ok ⟨time, n, ⟨d, A.toType d * x + B.toType d * u.toType d⟩, ⟨d, A.toType d⟩, Q⟩ := by
  refine predict_eq_ok_iff.mpr ⟨TypedVec.tensor ⟨d, A.toType d * x⟩, _, ?_,
    .inr ⟨_, TypedVec.tensor ⟨d, B.toType d * u.toType d⟩, rfl, ?_, Tensor.add?_tensor _ _⟩, ?_⟩
  · rw [TypedMat.toType_tensor]
    exact Tensor.product?_tensor _ x
  · rw [TypedMat.toType_tensor, TypedVec.toType_tensor]
    exact Tensor.product?_tensor _ _
  · rw [TypedMat.toType_tensor]
    exact Evolution.of_tensor time _ _ Q

omit [Arithmetic F] in
lemma Fits.exists_mats (h : x.Fits n) : ∃ A Q : TypedMat F n n,
    x.transition = A.tensor ∧ x.noise = Q.tensor := by
  cases h with
  | free A Q => exact ⟨A, Q, rfl, rfl⟩
  | driven A Q B u => exact ⟨A, Q, rfl, rfl⟩

inductive LeadsTo (A : TypedMat F n n) (v : Vec (Elem F d) n) :
    Option (Control F) → Vec (Elem F d) n → Prop
  | free : LeadsTo A v none (A.toType d * v)
  | driven {c : Nat} (u : Control F) (hB : u.matrix.shape = [n, c]) (hu : u.command.shape = [c]) :
      LeadsTo A v (some u)
        (A.toType d * v + (u.matrix.mat hB).toType d * (u.command.vec hu).toType d)

lemma LeadsTo.predict {A Q : TypedMat F n n} {u : Option (Control F)} {v w : Vec (Elem F d) n}
    (h : LeadsTo A v u w) : predict ⟨A.tensor, Q.tensor, u⟩ (.ok time) (TypedVec.tensor ⟨d, v⟩) =
      .ok ⟨time, n, ⟨d, w⟩, ⟨d, A.toType d⟩, Q⟩ := by
  cases h with
  | free => exact predict_free A Q v
  | driven u hB hu =>
    obtain ⟨B, u⟩ := u
    obtain ⟨B, rfl⟩ := Tensor.exists_mat (t := B) hB
    obtain ⟨u, rfl⟩ := Tensor.exists_vec (t := u) hu
    rw [B.mat_tensor, Tensor.vec_of_eq rfl hu]
    exact predict_driven A Q B u v

lemma Fits.exists_leadsTo (h : x.Fits n) (v : Vec (Elem F d) n) {A : TypedMat F n n}
    (hA : x.transition = A.tensor) : ∃ w, LeadsTo A v x.control w := by
  cases h with
  | free => exact ⟨_, .free⟩
  | driven A' Q B u => exact ⟨_, .driven ⟨B.tensor, u.tensor⟩ rfl rfl⟩

lemma exists_time_of_predict {t : Fallible F (F .double)} {v : Tensor F}
    (h : x.predict t v = .ok y) : ∃ time, t = .ok time := by
  obtain ⟨A, Q, u⟩ := x
  rw [predict, Fallible.bind_eq_ok_iff] at h
  obtain ⟨f, -, h⟩ := h
  cases u with
  | none =>
    obtain ⟨w, -, h⟩ := Fallible.bind_eq_ok_iff.mp h
    obtain ⟨time, ht, -⟩ := Fallible.bind_eq_ok_iff.mp h
    exact ⟨time, ht⟩
  | some u =>
    obtain ⟨b, -, h⟩ := Fallible.bind_eq_ok_iff.mp h
    obtain ⟨w, -, h⟩ := Fallible.bind_eq_ok_iff.mp h
    obtain ⟨time, ht, -⟩ := Fallible.bind_eq_ok_iff.mp h
    exact ⟨time, ht⟩

theorem predict_without_broadcast (x : LinearEvolution F) (hx : x.IsBuilt)
    (t : Fallible F (F .double)) (n : Nat) (v : TypedVec F n) :
    (∀ y, x.predict t v.tensor = .ok y ↔
      ∃ (time : F .double) (hA : x.transition.shape = [n, n]) (hQ : x.noise.shape = [n, n])
        (w : Vec (Elem F v.type) n),
        t = .ok time ∧ LeadsTo (x.transition.mat hA) v.entries x.control w ∧
          y = ⟨time, n, ⟨v.type, w⟩, ⟨v.type, (x.transition.mat hA).toType v.type⟩,
            x.noise.mat hQ⟩) ∧
      (¬ x.Fits n → ∃ f, x.predict t v.tensor = .error f) := by
  refine ⟨fun y => ⟨fun h => ?_, ?_⟩, fun hn => ?_⟩
  · obtain ⟨time, rfl⟩ := exists_time_of_predict h
    have hf := fits_of_predict hx rfl h
    obtain ⟨A, Q, hA, hQ⟩ := hf.exists_mats
    obtain ⟨w, hw⟩ := hf.exists_leadsTo v.entries hA
    obtain ⟨A', Q', u⟩ := x
    obtain rfl : A' = A.tensor := hA
    obtain rfl : Q' = Q.tensor := hQ
    refine ⟨time, rfl, rfl, w, rfl, ?_, ?_⟩
    · rw [A.mat_tensor]
      exact hw
    · rw [A.mat_tensor, Q.mat_tensor]
      exact Except.ok.inj (h.symm.trans hw.predict)
  · rintro ⟨time, hA, hQ, w, rfl, hw, rfl⟩
    obtain ⟨A, Q, u⟩ := x
    obtain ⟨A, rfl⟩ := Tensor.exists_mat (t := A) hA
    obtain ⟨Q, rfl⟩ := Tensor.exists_mat (t := Q) hQ
    rw [A.mat_tensor] at hw
    rw [A.mat_tensor, Q.mat_tensor]
    exact hw.predict
  · cases h : x.predict t v.tensor with
    | error f => exact ⟨f, rfl⟩
    | ok y =>
      obtain ⟨time, rfl⟩ := exists_time_of_predict h
      exact absurd (fits_of_predict hx rfl h) hn

end LinearEvolution

namespace Pushed

def transition : Tensor Machine :=
  .doubleMatrix (.square 1 2 0 1)

def noise : Tensor Machine :=
  .doubleMatrix (.square 1 0 0 1)

def direction : Tensor Machine :=
  .doubleMatrix (.ofFn fun (_ : Fin 2) (_ : Fin 1) => 0.5)

def model (command : Tensor Machine) : LinearEvolution Machine :=
  ⟨transition, noise, some ⟨direction, command⟩⟩

def command : TypedVec Machine 1 :=
  ⟨.real .double, #v[4]⟩

def commands : TypedMat Machine 1 2 :=
  ⟨.real .double, .ofFn fun _ _ => 4⟩

def state : TypedVec Machine 2 :=
  ⟨.real .single, #v[3, 5]⟩

lemma model_isBuilt {u : Tensor Machine} {s : Shape} (hu : u.shape = 1 :: s) :
    (model u).IsBuilt := by
  refine ⟨transition, noise, some direction, some u, ?_⟩
  simp [LinearEvolution.of, hu, transition, direction, Tensor.doubleMatrix, TypedMat.tensor, model]

lemma not_fits : ¬ (model commands.tensor).Fits 2 := by
  intro h
  generalize hx : model commands.tensor = x at h
  have hc : ∀ u, x.control = some u → u.command.shape = [1, 2] := by
    rintro u hu
    obtain rfl := hx
    obtain rfl := Option.some.inj hu
    rfl
  cases h with
  | free A Q => cases congrArg (·.control.isSome) hx
  | driven A Q B u => cases hc _ rfl

end Pushed

namespace LinearEvolution

theorem predict_without_broadcast_pushed :
    (Pushed.model Pushed.command.tensor).IsBuilt ∧
      (Pushed.model Pushed.commands.tensor).IsBuilt ∧
      ((Pushed.model Pushed.command.tensor).predict (.ok 1) Pushed.state.tensor).isOk = true ∧
      ∃ f, (Pushed.model Pushed.commands.tensor).predict (.ok 1) Pushed.state.tensor =
        .error f := by
  have h₁ := Pushed.model_isBuilt (u := Pushed.command.tensor) rfl
  have h₂ := Pushed.model_isBuilt (u := Pushed.commands.tensor) rfl
  refine ⟨h₁, h₂, ?_, (predict_without_broadcast _ h₂ (.ok 1) 2 Pushed.state).2 Pushed.not_fits⟩
  rw [((predict_without_broadcast _ h₁ (.ok 1) 2 Pushed.state).1 _).mpr
    ⟨1, rfl, rfl, _, rfl, .driven _ rfl rfl, rfl⟩]
  rfl

end LinearEvolution

end KalmanFilter
