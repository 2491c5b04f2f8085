import KalmanFilter.Proofs.Columns
import KalmanFilter.Proofs.MotionStep

/-! The matrices of a motion hold the same entries for every dimension in both
layouts, so without rounding the layout makes no difference for a run. -/

namespace KalmanFilter

open Fallible (Rel)

variable {p : Precision} {k a m n n' : ℕ}

namespace ConstantDerivative

section

variable {F : Precision → Type} [Arithmetic F] {c : ConstantDerivative F}

def Spreads (c : ConstantDerivative F) (n : ℕ) (B : Vec (Tensor F) c.dimension) (T : Tensor F) :
    Prop :=
  ∃ (A : Fin c.dimension → Mat (Elem F c.motion.type) n n)
    (M : Mat (Elem F c.motion.type) (c.dimension * n) (c.dimension * n)),
    (∀ d, B d = TypedMat.tensor ⟨c.motion.type, A d⟩) ∧
      T = TypedMat.tensor ⟨c.motion.type, M⟩ ∧
      ∀ d i e j, M (c.layout.position d i) (c.layout.position e j) = if d = e then A d i j else 0

lemma spreads_sequence (f : Fin c.dimension → Fallible F (Mat (Elem F c.motion.type) n n)) :
    Rel (c.Spreads n) (sequence fun d => do return TypedMat.tensor ⟨c.motion.type, ← f d⟩)
      (do return (c.spread (← sequence f).get).tensor) := by
  rw [← bind_pure (sequence fun d => _)]
  have hf : ∀ d, Rel (fun T A => T = TypedMat.tensor ⟨c.motion.type, A⟩)
      (do return TypedMat.tensor ⟨c.motion.type, ← f d⟩) (f d) := by
    intro d
    cases f d with
    | error g => exact .error g
    | ok A => exact .ok rfl
  exact (Rel.sequence hf).bind fun B A hBA =>
    .ok ⟨A.get, _, hBA, rfl, fun d i e j => Layout.spread_position c.layout A.get d e i j⟩

section

variable (h : c.motion.HasOrder k a) (hd : 0 < c.dimension) (elapsed : Datum F)
include h hd

lemma transition_spreads :
    Rel (c.Spreads (k + 1)) (sequence fun _ => c.motion.transition elapsed)
      (c.transition elapsed) := by
  have hA : c.transition elapsed = do
      return (c.spread (← sequence fun _ => c.motion.transitionOf (k + 1) elapsed).get).tensor := by
    rw [transition_eq h hd, sequence_const _ hd]
    cases c.motion.transitionOf (k + 1) elapsed with
    | error f => rfl
    | ok A =>
      have hr : (fun _ => A) = (Vector.replicate c.dimension A).get :=
        funext fun d => (Vec.replicate_entry A d).symm
      exact congrArg (fun B => (.ok (c.spread B).tensor : Fallible F (Tensor F))) hr
  simp only [Motion.transition_eq h]
  rw [hA]
  exact spreads_sequence _

lemma noise_spreads :
    Rel (c.Spreads (k + 1))
      (sequence fun d => c.motion.noise (.datum (c.deviations d).toDatum) elapsed)
      (c.noise elapsed) := by
  simp only [Motion.noise_eq h]
  rw [noise_eq h hd]
  exact spreads_sequence _

end

abbrev laidOut (c : ConstantDerivative F) (l : Layout) : ConstantDerivative F :=
  { c with layout := l }

def SameReading (c : ConstantDerivative F) (n : ℕ) (l l' : Layout) (z z' : Measurement F) : Prop :=
  ∃ (time : F .double) (value : TypedVec F c.dimension)
    (s : Fin c.dimension → Elem F c.motion.type),
    z = (c.laidOut l).sensed time value n s ∧ z' = (c.laidOut l').sensed time value n s

lemma of_related (l l' : Layout) (time : F .double) (z : Tensor F)
    (s : Fin c.dimension → Elem F c.motion.type) :
    let R : TypedMat F c.dimension c.dimension :=
      ⟨c.motion.type, .diagonal (Vector.ofFn fun d => s d * s d)⟩
    let H (l : Layout) : TypedMat F c.dimension (c.dimension * n) :=
      ⟨c.motion.type, l.values (Elem F c.motion.type) c.dimension n⟩
    Rel (c.SameReading n l l') (Measurement.of time z (H l).tensor R.tensor)
      (Measurement.of time z (H l').tensor R.tensor) := by
  intro R H
  obtain ⟨e, shape, x⟩ := z
  match shape with
  | [] => exact .error _
  | _ :: _ :: _ => exact .error _
  | [q] =>
    by_cases hq : c.dimension = q
    case neg =>
      have hr (l : Layout) : Measurement.of time ⟨e, [q], x⟩ (H l).tensor R.tensor =
          .error (.measurementMatrixShape [c.dimension, c.dimension * n] q) :=
        dif_neg hq
      rw [hr, hr]
      exact .error _
    subst hq
    let v : TypedVec F c.dimension := (Tensor.mk e [c.dimension] x).vec rfl
    have hr (l : Layout) : Measurement.of time v.tensor (H l).tensor R.tensor =
        .ok ((c.laidOut l).sensed time v n s) :=
      Measurement.of_tensor time v (H l) R
    have hv : Tensor.mk e [c.dimension] x = v.tensor := rfl
    rw [hv, hr, hr]
    exact .ok ⟨time, v, s, rfl, rfl⟩

lemma measure_related (h : c.motion.HasOrder k a) (hd : 0 < c.dimension) (l l' : Layout)
    (time : F .double) (value deviation : Argument F) :
    Rel (c.SameReading (k + 1) l l') ((c.laidOut l).measure (.ok time) value deviation)
      ((c.laidOut l').measure (.ok time) value deviation) := by
  rw [measure_eq (c := c.laidOut l) h hd, measure_eq (c := c.laidOut l') h hd]
  refine Rel.bind_same fun y _ => Rel.bind_same fun s _ => Rel.bind_same fun z _ => ?_
  exact of_related l l' time z s

end

end ConstantDerivative

lemma Estimator.gain_related {e e' : Estimator Exact} (hd : e.decomposer = e'.decomposer)
    (hs : e'.decomposer.SolvesColumnwise) {f : Fin n' → Fin n} (hf : Function.Injective f)
    (b : Belief (Exact p) n) {o : Observation (Exact p) m n}
    (ho : Supported id f (Mat.toMatrix o.matrix)) :
    Rel (fun K K' => K = K'.select f id) (e.gain (b.select f) (o.select id f)).outcome
      (e'.gain b o).outcome := by
  have hS := Belief.innovationCovariance_select (b := b) hf ho
  have hB := Belief.crossCovariance_select (b := b) hf ho
  rw [Mat.select_id] at hS
  rw [gain_outcome_eq_bind, gain_outcome_eq_bind, hd, ← hS, ← hB]
  refine Rel.bind_same fun solve hsolve => ?_
  have hc : solve ((b.crossCovariance o).select id f) =
      Mat.columns f <$> solve (b.crossCovariance o) :=
    hs _ solve hsolve f (b.crossCovariance o)
  rw [hc]
  cases solve (b.crossCovariance o) with
  | error g => exact .error g
  | ok X => exact .ok (Mat.transpose_select id f X)

namespace ConstantDerivative

variable {c : ConstantDerivative Exact}

lemma priorOf_laidOut (l l' : Layout) (b : Belief (Exact p) (c.dimension * n))
    (A : Mat (Elem Exact c.motion.type) n n)
    (Q : Fin c.dimension → Mat (Elem Exact c.motion.type) n n) :
    ((c.laidOut l').priorOf b A Q).select (l.embed l' id) =
      (c.laidOut l).priorOf (b.select (l.embed l' id)) A Q :=
  Layout.predict_select Function.injective_id b (blockIn p A) fun d => blockIn p (Q d)

lemma observationOf_laidOut (l l' : Layout) (v : TypedVec Exact c.dimension)
    (s : Fin c.dimension → Elem Exact c.motion.type) :
    ((c.laidOut l').observationOf p n v s).select id (l.embed l' id) =
      (c.laidOut l).observationOf p n v s := by
  rw [observationOf, observationOf, Layout.observation_select Function.injective_id,
    Vec.select_id, Vec.select_id]

lemma step_related (h : c.motion.HasOrder k a) (hd : 0 < c.dimension) {d : Decomposer Exact}
    (hs : d.SolvesColumnwise) (joseph debug : Bool) (l l' : Layout) (i i' : ℕ)
    {x x' : Cursor Exact} {z z' : Measurement Exact}
    (hx : x.Agrees p (k + 1) l l' (id : Fin c.dimension → _) x')
    (hz : c.SameReading (k + 1) l l' z z') :
    Rel (Cursor.Agrees p (k + 1) l l' (id : Fin c.dimension → _))
      (Estimator.step ⟨d, (c.laidOut l).process, joseph, debug⟩ i x z).outcome
      (Estimator.step ⟨d, (c.laidOut l').process, joseph, debug⟩ i' x' z').outcome := by
  obtain ⟨u, y⟩ := x
  obtain ⟨u', y'⟩ := x'
  obtain ⟨t, b, b', hy, hy', hb⟩ := hx.corrected
  obtain rfl : y = .ofBelief t b := hy
  obtain rfl : y' = .ofBelief t b' := hy'
  obtain rfl := Belief.agrees_iff.mp hb
  obtain ⟨time, v, s, rfl, rfl⟩ := hz
  by_cases ht : time < t
  case pos =>
    rw [Estimator.step_of_outdated ht, Estimator.step_of_outdated ht]
    exact .error _
  rw [step_outcome (c := c.laidOut l) h hd rfl i u ht,
    step_outcome (c := c.laidOut l') h hd rfl i' u' ht]
  refine Rel.bind_same fun A _ => Rel.bind_same fun Q _ => ?_
  have hf : Function.Injective (l.embed l' id : Fin (c.dimension * (k + 1)) → _) :=
    Layout.embed_injective Function.injective_id
  have hH : Supported id (l.embed l' id)
      (Mat.toMatrix ((c.laidOut l').observationOf p (k + 1) v s).matrix) :=
    Layout.supported_values
  rw [← priorOf_laidOut, ← observationOf_laidOut l l']
  refine (Estimator.gain_related rfl hs hf _ hH).bind fun K K' hK => .ok ?_
  have hK' : Supported (l.embed l' id) id K'.toMatrix :=
    supported_of_surjective Function.surjective_id _ _
  rw [hK, ← Belief.correct_select hf hH Function.injective_id hK']
  have hb (b : Belief (Exact p) (c.dimension * (k + 1))) :
      (b.select (l.embed l' id)).Agrees l l' id b := Belief.agrees_iff.mpr rfl
  exact ⟨.some ⟨time, _, _, rfl, rfl, hb _⟩, time, _, _, rfl, rfl, hb _⟩

section

variable {F : Precision → Type}

structure Reading (F : Precision → Type) where
  time : F .double
  value : Argument F
  deviation : Argument F

def read [Arithmetic F] (c : ConstantDerivative F) (r : Reading F) : Fallible F (Measurement F) :=
  c.measure (.ok r.time) r.value r.deviation

end

/-- The first part holds in any arithmetic. Failures are the same in both layouts, as they are those
of the matrices of one dimension. By `DecomposerChoice.solvesColumnwise`, every decomposer that can
be chosen is meant. -/
theorem layouts_agree :
    (∀ {F : Precision → Type} [Arithmetic F] (c : ConstantDerivative F) (k a : ℕ),
      c.motion.HasOrder k a → 0 < c.dimension →
      (∀ elapsed, Rel (c.Spreads (k + 1)) (sequence fun _ => c.motion.transition elapsed)
        (c.transition elapsed)) ∧
      (∀ elapsed, Rel (c.Spreads (k + 1))
        (sequence fun d => c.motion.noise (.datum (c.deviations d).toDatum) elapsed)
        (c.noise elapsed)) ∧
      ∃ H : Mat (Elem F c.motion.type) c.dimension (c.dimension * (k + 1)),
        c.projectionTensor = .ok (TypedMat.tensor ⟨c.motion.type, H⟩) ∧
        ∀ d e i, H d (c.layout.position e i) = if d = e ∧ i.val = 0 then 1 else 0) ∧
    ∀ (c : ConstantDerivative Exact) (k a : ℕ), c.motion.HasOrder k a → 0 < c.dimension →
      ∀ d : Decomposer Exact, d.SolvesColumnwise → ∀ (joseph debug : Bool) (p : Precision)
        (l l' : Layout) (x x' : Estimate Exact),
        x.Agrees p (k + 1) l l' (id : Fin c.dimension → _) x' → ∀ rs : List (Reading Exact),
          let s := Session.opening ⟨d, (c.laidOut l).process, joseph, debug⟩ x
          let s' := Session.opening ⟨d, (c.laidOut l').process, joseph, debug⟩ x'
          let zs := rs.map (c.laidOut l).read
          let zs' := rs.map (c.laidOut l').read
          List.Forall₂ (fun y y' => Rel (Estimate.Agrees p (k + 1) l l' (id : Fin c.dimension → _))
            y.outcome y'.outcome) (s.attempts zs) (s'.attempts zs') ∧
          (s.run zs).cursor.Agrees p (k + 1) l l' (id : Fin c.dimension → _)
            (s'.run zs').cursor := by
  constructor
  · intro F _ c k a h hd
    exact ⟨transition_spreads h hd, noise_spreads h hd, _, projectionTensor_eq h hd,
      fun d e i => Layout.values_position c.layout d e i⟩
  · intro c k a h hd d hs joseph debug p l l' x x' hx rs s s' zs zs'
    have hz : List.Forall₂ (Rel (c.SameReading (k + 1) l l')) zs zs' := by
      rw [List.forall₂_map_left_iff, List.forall₂_map_right_iff, List.forall₂_same]
      exact fun r _ => measure_related h hd l l' r.time r.value r.deviation
    exact Session.run_related (fun y y' hy => hy.corrected)
      (fun i i' y y' z z' hy hz => step_related h hd hs joseph debug l l' i i' hy hz) hz rfl rfl
      ⟨.none, hx⟩

theorem layouts_agree_plane :
    let c := Plane.process
    let d := Plane.decomposer.decomposer
    let x' : Estimate Exact := .ofBelief 0 Plane.belief
    let f : Fin (2 * 2) → Fin (2 * 2) := Layout.byDimension.embed .byDerivative id
    let x : Estimate Exact := .ofBelief 0 (Plane.belief.select f)
    let rs : List (Reading Exact) := [⟨1, .tensor Plane.value.tensor, .datum (.real 1)⟩]
    c.motion.HasOrder 1 0 ∧ 0 < c.dimension ∧ d.SolvesColumnwise ∧
      x.Agrees .double 2 .byDimension .byDerivative (id : Fin c.dimension → _) x' ∧
      Rel (c.Spreads 2) (sequence fun _ => c.motion.transition (.real 1)) (c.transition (.real 1)) ∧
      (((Session.opening ⟨d, (c.laidOut .byDimension).process, false, false⟩ x).run
        (rs.map (c.laidOut .byDimension).read)).cursor.Agrees .double 2 .byDimension .byDerivative
          (id : Fin c.dimension → _)
        ((Session.opening ⟨d, (c.laidOut .byDerivative).process, false, false⟩ x').run
          (rs.map (c.laidOut .byDerivative).read)).cursor) := by
  intro c d x' f x rs
  have hd : d.SolvesColumnwise := Plane.decomposer.solvesColumnwise
  have hx : x.Agrees .double 2 .byDimension .byDerivative (id : Fin c.dimension → _) x' :=
    ⟨0, _, _, rfl, rfl, Belief.agrees_iff.mpr rfl⟩
  exact ⟨Plane.hasOrder, Plane.dimension_pos, hd, hx,
    (layouts_agree.1 c 1 0 Plane.hasOrder Plane.dimension_pos).1 (.real 1),
    (layouts_agree.2 c 1 0 Plane.hasOrder Plane.dimension_pos d hd false false .double
      .byDimension .byDerivative x x' hx rs).2⟩

end ConstantDerivative

end KalmanFilter
