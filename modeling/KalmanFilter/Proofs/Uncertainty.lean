import KalmanFilter.Decomposer.Cholesky
import KalmanFilter.Machine
import KalmanFilter.Proofs.Lockstep
import KalmanFilter.Proofs.Simulation

/-! What a linear estimator knows about its errors depends on times and matrices
alone, in whatever arithmetic. -/

namespace KalmanFilter

open Fallible (Rel Joint)

variable {F : Precision → Type} {α β : Type}

def Estimate.SameUncertainty (x y : Estimate F) : Prop :=
  ∃ v, y = { x with state := ⟨x.state.type, v⟩ }

structure Cursor.SameUncertainty (c c' : Cursor F) : Prop where
  predicted : Option.Rel Estimate.SameUncertainty c.predicted c'.predicted
  corrected : c.corrected.SameUncertainty c'.corrected

def Measurement.SameSetting (z w : Measurement F) : Prop :=
  ∃ v, w = { z with value := v }

structure LinearEvolution.SameModel (x y : LinearEvolution F) : Prop where
  transition : y.transition = x.transition
  noise : y.noise = x.noise
  control : Option.Rel (fun u w => w.matrix = u.matrix ∧ w.command.shape = u.command.shape)
    x.control y.control

def LinearProcess.SameModel (q q' : LinearProcess F) : Prop :=
  ∀ k t t', Rel LinearEvolution.SameModel (q k t t') (q' k t t')

lemma Fallible.Joint.of_rel {R : α → α → Prop} {S : (Bool → α) → Prop} {x y : Fallible F α}
    (h : Rel R x y) (hS : ∀ a b, R a b → S fun i => cond i b a) :
    Joint S fun i => cond i y x := by
  cases h with
  | ok h => exact .of_ok (hS _ _ h) fun i => by cases i <;> rfl
  | error f => exact .of_error (f := f) fun i => by cases i <;> rfl

lemma Fallible.Joint.rel {R : α → α → Prop} {S : (Bool → α) → Prop} {x : Bool → Fallible F α}
    (h : Joint S x) (hS : ∀ a, S a → R (a false) (a true)) : Rel R (x false) (x true) := by
  cases h with
  | ok h => exact .ok (hS _ h)
  | error f => exact .error f

lemma exists_pairs_of_forall₂ {R : α → α → Prop} {xs ys : List α} (h : List.Forall₂ R xs ys) :
    ∃ L : List (Bool → α), L.map (· false) = xs ∧ L.map (· true) = ys ∧
      ∀ z ∈ L, ∃ x y, R x y ∧ z = fun i => cond i y x := by
  induction h with
  | nil => exact ⟨[], rfl, rfl, nofun⟩
  | @cons x y xs ys hxy _ ih =>
    obtain ⟨L, rfl, rfl, hL⟩ := ih
    exact ⟨(fun i => cond i y x) :: L, rfl, rfl,
      List.forall_mem_cons.mpr ⟨⟨x, y, hxy, rfl⟩, hL⟩⟩

def Link.free : Link F Bool :=
  fun _ _ => True

variable [Arithmetic F] {p : Precision}

lemma Link.free_isLinear : (Link.free : Link F Bool).IsLinear :=
  ⟨fun _ => trivial, fun _ _ => trivial, fun _ _ => trivial, fun _ _ => trivial⟩

lemma Measurement.SameSetting.linked {z w : Measurement F} (h : z.SameSetting w) :
    Linked Link.free p fun i => cond i w z := by
  obtain ⟨v, rfl⟩ := h
  have hz : (fun i => cond i { z with value := v } z) = fun i =>
      (⟨z.time, z.dimension, z.stateDimension, cond i v z.value, z.matrix, z.covariance⟩ :
        Measurement F) := by
    funext i
    cases i <;> rfl
  exact hz ▸ .of _ _ _ fun _ => trivial

lemma LinearEvolution.SameModel.linked {x y : LinearEvolution F} (h : x.SameModel y) :
    Linked Link.free p fun i => cond i y x := by
  obtain ⟨A', Q', u⟩ := x
  obtain ⟨A, Q, u'⟩ := y
  obtain ⟨rfl, rfl, hu⟩ := h
  cases hu with
  | none =>
    have hc : (fun i => cond i ⟨A, Q, none⟩ ⟨A, Q, none⟩) =
        fun _ : Bool => (⟨A, Q, none⟩ : LinearEvolution F) :=
      funext fun i => by cases i <;> rfl
    exact hc ▸ .free A Q
  | @some u u' hu =>
    obtain ⟨B', u⟩ := u
    obtain ⟨B, u'⟩ := u'
    obtain ⟨rfl, hs⟩ := hu
    have hc : (fun i => cond i ⟨A, Q, some ⟨B, u'⟩⟩ ⟨A, Q, some ⟨B, u⟩⟩) =
        fun i => (⟨A, Q, some ⟨B, cond i u' u⟩⟩ : LinearEvolution F) :=
      funext fun i => by cases i <;> rfl
    refine hc ▸ .driven A Q B (Tensor.linked_toType (s := u.shape) (fun i => ?_) fun _ => trivial)
    cases i with
    | false => rfl
    | true => exact hs

omit [Arithmetic F] in
lemma Estimate.Linked.sameUncertainty {P : Link F Bool} {x : Bool → Estimate F}
    (h : Linked P p x) : (x false).SameUncertainty (x true) := by
  obtain ⟨t, C, hv⟩ := h
  exact ⟨_, rfl⟩

omit [Arithmetic F] in
lemma Cursor.Linked.sameUncertainty {P : Link F Bool} {c : Bool → Cursor F} (h : Linked P p c) :
    (c false).SameUncertainty (c true) := by
  cases h with
  | first h => exact ⟨.none, h.sameUncertainty⟩
  | later hx hy => exact ⟨.some hx.sameUncertainty, hy.sameUncertainty⟩

namespace Steered

def model (u : Vec Float 1) : LinearEvolution Machine :=
  ⟨.doubleMatrix (.square 1 1 0 1), .doubleMatrix (.diagonal #v[1, 1]),
    some ⟨.doubleMatrix (.ofFn fun (_ : Fin 2) (_ : Fin 1) => 0.5), .doubles u⟩⟩

def process (u : Vec Float 1) : LinearProcess Machine :=
  fun _ _ _ => .ok (model u)

def session (u : Vec Float 1) (x : Vec Float 2) : Session Machine :=
  .opening (.linear CholeskyDecomposer.defaults.decomposer (process u) true true)
    ⟨0, 2, ⟨.real .double, x⟩, ⟨.real .double, .identity⟩⟩

def measurement (value : TypedVec Machine 1) : Fallible Machine (Measurement Machine) :=
  .ok ⟨1, 1, 2, value, ⟨.int64, .ofFn fun _ j => if j = 0 then 1 else 0⟩, ⟨.int64, .identity⟩⟩

end Steered

namespace Session

/-- No law of arithmetic is assumed. The processes count the questions that they were asked, and may
answer by that. -/
theorem uncertainty_same_run (d : Decomposer F) (joseph debug : Bool) {q q' : LinearProcess F}
    (hq : q.SameModel q') (p : Precision) {n : Nat} (t : F .double) (C : TypedMat F n n)
    (x x' : Vec (F p) n) {zs zs' : List (Fallible F (Measurement F))}
    (hz : List.Forall₂ (Rel Measurement.SameSetting) zs zs') :
    let s := opening (.linear d q joseph debug) ⟨t, n, ⟨.real p, x⟩, C⟩
    let s' := opening (.linear d q' joseph debug) ⟨t, n, ⟨.real p, x'⟩, C⟩
    List.Forall₂ (fun a a' => Rel Estimate.SameUncertainty a.outcome a'.outcome) (s.attempts zs)
        (s'.attempts zs') ∧
      ∀ k, (s.run (zs.take k)).cursor.SameUncertainty (s'.run (zs'.take k)).cursor := by
  intro s s'
  -- the two runs are one family over the truth values
  have hc : Cursor.Linked Link.free p fun i =>
      ⟨none, ⟨t, n, ⟨.real p, cond i x' x⟩, C⟩⟩ :=
    .first (.of t C fun _ => trivial)
  have hq : ∀ k t t', Joint (LinearEvolution.Linked Link.free p) fun i =>
      (cond i q' q : LinearProcess F) k t t' := fun k t t' =>
    (Joint.of_rel (hq k t t') fun _ _ h => h.linked).congr fun i => by cases i <;> rfl
  obtain ⟨L, hf, ht, hL⟩ := exists_pairs_of_forall₂ hz
  have hm : ∀ z ∈ L, Joint (Measurement.Linked Link.free p) z := by
    intro z hz
    obtain ⟨y, y', hy, rfl⟩ := hL z hz
    exact .of_rel hy fun _ _ h => h.linked
  constructor
  · obtain ⟨⟨A, hA, ha⟩, -⟩ := run_alike d joseph debug Link.free_isLinear hq hm hc 0
    have hs : s.attempts zs = A.map (· false) := hf ▸ hA false
    have hs' : s'.attempts zs' = A.map (· true) := ht ▸ hA true
    rw [hs, hs', List.forall₂_map_left_iff, List.forall₂_map_right_iff, List.forall₂_same]
    exact fun a hm => (ha a hm).rel fun x hx => hx.sameUncertainty
  · intro k
    obtain ⟨-, hr⟩ := run_alike d joseph debug Link.free_isLinear hq
      (fun z (hz : z ∈ L.take k) => hm z (List.mem_of_mem_take hz)) hc 0
    have hs := hr.sameUncertainty
    simp only [List.map_take, hf, ht] at hs
    exact hs

theorem uncertainty_same_run_steered :
    let zs := [Steered.measurement ⟨.int64, #v[1]⟩]
    let zs' := [Steered.measurement ⟨.real .double, #v[-2.5]⟩]
    let s := Steered.session #v[1] #v[0, 0]
    let s' := Steered.session #v[-3] #v[4, 7]
    (Steered.process #v[1]).SameModel (Steered.process #v[-3]) ∧
      List.Forall₂ (Rel Measurement.SameSetting) zs zs' ∧
      (s.attempts zs).all (·.outcome.isOk) = true ∧
      (s.run zs).cursor.SameUncertainty (s'.run zs').cursor := by
  intro zs zs' s s'
  have hq : (Steered.process #v[1]).SameModel (Steered.process #v[-3]) :=
    fun _ _ _ => .ok ⟨rfl, rfl, .some ⟨rfl, rfl⟩⟩
  have hz : List.Forall₂ (Rel Measurement.SameSetting) zs zs' := .cons (.ok ⟨_, rfl⟩) .nil
  refine ⟨hq, hz, by decide +kernel, ?_⟩
  exact (uncertainty_same_run _ true true hq .double 0 ⟨.real .double, .identity⟩ #v[0, 0] #v[4, 7]
    hz).2 1

end Session

end KalmanFilter
