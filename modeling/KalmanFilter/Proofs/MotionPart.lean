import KalmanFilter.Proofs.DiagonalSystem
import KalmanFilter.Proofs.MotionStep

namespace KalmanFilter

variable {p : Precision} {k a m m' n : ℕ}

section

variable {F : Precision → Type} {e : ElementType}

def TypedVec.select (ρ : Fin m' → Fin m) (x : TypedVec F m) : TypedVec F m' :=
  ⟨x.type, x.entries.select ρ⟩

def alone (d : Fin m) : Fin 1 → Fin m :=
  fun _ => d

lemma alone_injective (d : Fin m) : Function.Injective (alone d) :=
  Function.injective_of_subsingleton _

lemma TypedVec.toType_select [Arithmetic F] (ρ : Fin m' → Fin m) (x : TypedVec F m) :
    (x.select ρ).toType e = (x.toType e).select ρ := by
  refine Vec.ext fun i => ?_
  rw [toType, Vec.map_entry, select, Vec.select_entry, Vec.select_entry, toType, Vec.map_entry]

structure Sample (F : Precision → Type) (m : ℕ) where
  time : F .double
  value : TypedVec F m
  deviation : TypedVec F m

def Sample.select (ρ : Fin m' → Fin m) (r : Sample F m) : Sample F m' :=
  ⟨r.time, r.value.select ρ, r.deviation.select ρ⟩

namespace ConstantDerivative

abbrev part (c : ConstantDerivative F) (ρ : Fin m → Fin c.dimension) : ConstantDerivative F :=
  ⟨c.motion, c.layout, m, fun d => c.deviations (ρ d)⟩

variable [Arithmetic F]

def sample (c : ConstantDerivative F) (r : Sample F c.dimension) : Fallible F (Measurement F) :=
  c.measure (.ok r.time) (.tensor r.value.tensor) (.tensor r.deviation.tensor)

lemma sample_eq {c : ConstantDerivative F} (h : c.motion.HasOrder k a) (hd : 0 < c.dimension)
    (r : Sample F c.dimension) :
    c.sample r = .ok (c.sensed r.time ⟨c.motion.type, r.value.toType c.motion.type⟩ (k + 1)
      (r.deviation.toType c.motion.type).get) := by
  have hs : (r.deviation.tensor.toType c.motion.type).spread? c.motion.type c.dimension =
      .ok (r.deviation.toType c.motion.type).get := by
    rw [TypedVec.toType_tensor, spread?_tensor]
  rw [sample, measure_eq h hd]
  refine Fallible.bind_eq_ok_iff.mpr ⟨_, rfl, Fallible.bind_eq_ok_iff.mpr ⟨_, hs,
    Fallible.bind_eq_ok_iff.mpr ⟨r.value.tensor.toType c.motion.type, rfl,
      Fallible.bind_eq_ok_iff.mpr ⟨r.time, rfl, ?_⟩⟩⟩⟩
  rw [TypedVec.toType_tensor]
  exact Measurement.of_tensor ..

lemma sample_part {c : ConstantDerivative F} (h : c.motion.HasOrder k a) (hm : 0 < m)
    (ρ : Fin m → Fin c.dimension) (r : Sample F c.dimension) :
    (c.part ρ).sample (r.select ρ) = .ok ((c.part ρ).sensed r.time
      (TypedVec.select ρ ⟨c.motion.type, r.value.toType c.motion.type⟩) (k + 1)
      fun i => (r.deviation.toType c.motion.type).get (ρ i)) := by
  have h' : (c.part ρ).motion.HasOrder k a := h
  rw [sample_eq h' hm, Sample.select, TypedVec.toType_select, TypedVec.toType_select,
    Vec.get_select]
  rfl

end ConstantDerivative

end

noncomputable def Belief.cursor (b : Belief (Exact p) n) (joseph : Bool) (time : ℝ)
    (z : Observation (Exact p) m n) (K : Mat (Exact p) n m) : Cursor Exact :=
  ⟨some (.ofBelief time b), .ofBelief time (b.correct joseph z K)⟩

namespace ConstantDerivative

variable {c : ConstantDerivative Exact}

structure Moves (c : ConstantDerivative Exact) (k a : ℕ) (elapsed : ℝ)
    (A : Mat (Elem Exact c.motion.type) (k + 1) (k + 1))
    (Q : Fin c.dimension → Mat (Elem Exact c.motion.type) (k + 1) (k + 1)) : Prop where
  transition : c.motion.transitionOf (k + 1) (.real elapsed) = .ok A
  noise : ∀ d, c.motion.noiseBlock k a (c.deviations d).toDatum (.real elapsed) = .ok (Q d)

noncomputable def estimator (c : ConstantDerivative Exact) (d : CholeskyDecomposer Exact)
    (joseph debug : Bool) : Estimator Exact :=
  ⟨d.decomposer, c.process, joseph, debug⟩

lemma step_outcome_eq_ok_iff (h : c.motion.HasOrder k a) (hd : 0 < c.dimension)
    (D : CholeskyDecomposer Exact) (joseph debug : Bool) (i : ℕ) (u : Option (Estimate Exact))
    {t time : ℝ} (ht : ¬ time < t) (b : Belief (Exact p) (c.dimension * (k + 1)))
    (v : TypedVec Exact c.dimension) (s : Fin c.dimension → Elem Exact c.motion.type)
    {y : Cursor Exact} :
    ((c.estimator D joseph debug).step i ⟨u, .ofBelief t b⟩ (c.sensed time v (k + 1) s)).outcome =
        .ok y ↔
      ∃ A Q K, c.Moves k a (time - t) A Q ∧
        ((c.estimator D joseph debug).gain (c.priorOf b A Q)
          (c.observationOf p (k + 1) v s)).outcome = .ok K ∧
        y = (c.priorOf b A Q).cursor joseph time (c.observationOf p (k + 1) v s) K := by
  rw [step_outcome h hd rfl i u ht]
  constructor
  · intro ho
    obtain ⟨A, hA, ho⟩ := Fallible.bind_eq_ok_iff.mp ho
    obtain ⟨Q, hQ, ho⟩ := Fallible.bind_eq_ok_iff.mp ho
    obtain ⟨K, hK, ho⟩ := Fallible.bind_eq_ok_iff.mp ho
    exact ⟨A, Q.get, K, ⟨hA, sequence_eq_ok_iff.mp hQ⟩, hK, (Except.ok.inj ho).symm⟩
  · rintro ⟨A, Q, K, hM, hK, rfl⟩
    rw [hM.transition]
    refine Fallible.bind_eq_ok_iff.mpr ⟨A, rfl, Fallible.bind_eq_ok_iff.mpr ⟨Vector.ofFn Q,
      sequence_of_ok hM.noise, Fallible.bind_eq_ok_iff.mpr ⟨K, ?_, ?_⟩⟩⟩
    · rwa [Vec.get_ofFn]
    · rw [Vec.get_ofFn]
      rfl

end ConstantDerivative

def Belief.Uncorrelated (l : Layout) (b : Belief ℝ (m * n)) : Prop :=
  ∀ (d e : Fin m) (i j : Fin n), d ≠ e → b.covariance (l.position d i) (l.position e j) = 0

lemma Belief.uncorrelated_iff {l : Layout} {b : Belief ℝ (m * n)} :
    b.Uncorrelated l ↔
      Separates (l.dimensionOf : Fin (m * n) → Fin m) l.dimensionOf b.covariance.toMatrix := by
  constructor
  · intro h r s hrs
    rw [Mat.toMatrix_apply, ← l.position_dimensionOf_derivativeOf r,
      ← l.position_dimensionOf_derivativeOf s]
    exact h _ _ _ _ hrs
  · intro h d e i j hde
    exact h _ _ (by simpa using hde)

lemma Belief.uncorrelated_identity (l : Layout) (x : Vec ℝ (m * n)) :
    Belief.Uncorrelated l ⟨x, .identity⟩ := by
  rw [uncorrelated_iff, Mat.toMatrix_identity]
  exact separates_one _

def Estimate.Uncorrelated (p : Precision) (m n : ℕ) (l : Layout) (x : Estimate Exact) : Prop :=
  ∃ (t : ℝ) (b : Belief (Exact p) (m * n)), x = .ofBelief t b ∧ Belief.Uncorrelated l b

structure Cursor.Uncorrelated (p : Precision) (m n : ℕ) (l : Layout) (x : Cursor Exact) : Prop where
  predicted : ∀ y ∈ x.predicted, y.Uncorrelated p m n l
  corrected : x.corrected.Uncorrelated p m n l

namespace Layout

variable {l : Layout}

lemma uncorrelated_predict {b : Belief ℝ (m * n)} (hb : b.Uncorrelated l) (A : Mat ℝ n n)
    (Q : Fin m → Mat ℝ n n) : (b.predict (l.transition A Q b.state)).Uncorrelated l :=
  Belief.uncorrelated_iff.mpr (Belief.separates_predict (Belief.uncorrelated_iff.mp hb)
    (l.separates_spread fun _ => A) (l.separates_spread Q))

section

variable {D : CholeskyDecomposer Exact} {r s : ℝ} (hD : D.HasLimits r s) {e e' : Estimator Exact}
  (he : e.decomposer = D.decomposer) (he' : e'.decomposer = D.decomposer)
  {b : Belief (Exact p) (m * n)} (hb : Belief.Uncorrelated l b) (value variance : Vec (Exact p) m)
include hb

lemma isDiag_innovationCovariance :
    (Mat.toMatrix (b.innovationCovariance (l.observation n value variance))).IsDiag := by
  have h := Belief.separates_innovationCovariance (Belief.uncorrelated_iff.mp hb)
    (l.separates_observation n value variance) (l.separates_observation_noise n value variance)
  exact fun _ _ hde => h _ _ hde

include hD he in
lemma gain_outcome_iff_alone (e' : Fin m → Estimator Exact)
    (he' : ∀ d, (e' d).decomposer = D.decomposer) :
    (∃ K, (e.gain b (l.observation n value variance)).outcome = .ok K) ↔
      ∀ d, ∃ K, ((e' d).gain (b.select (l.embed l (alone d) : Fin (1 * n) → _))
        ((l.observation n value variance).select (alone d) (l.embed l (alone d)))).outcome =
          .ok K := by
  have hS := isDiag_innovationCovariance hb value variance
  rw [hD.gain_outcome_iff_of_isDiag he hS]
  refine forall_congr' fun d => ?_
  rw [hD.gain_select_outcome_iff (he' d) hS (embed_injective (alone_injective d))
    (alone_injective d) (supported_observation l l n (alone d) value variance)]
  exact ⟨fun h _ => h, fun h => h 0⟩

variable {K : Mat (Exact p) (m * n) m}
  (hK : (e.gain b (l.observation n value variance)).outcome = .ok K)
include hD he hK

lemma separates_gain : Separates l.dimensionOf id (Mat.toMatrix K) := by
  have hS := isDiag_innovationCovariance hb value variance
  exact (Estimator.isGain_of_solvesSymmetric (he ▸ D.solvesSymmetric) hK).separates hS
    (hD.pivot_ne_zero he hS hK)
    (Belief.separates_crossCovariance (Belief.uncorrelated_iff.mp hb)
      (l.separates_observation n value variance))

lemma uncorrelated_correct (ht : (Mat.toMatrix b.covariance).transpose = Mat.toMatrix b.covariance)
    (joseph : Bool) :
    Belief.Uncorrelated l (b.correct joseph (l.observation n value variance) K) := by
  have hG := Estimator.isGain_of_solvesSymmetric (he ▸ D.solvesSymmetric) hK
  have hK' := separates_gain hD he hb value variance hK
  exact Belief.uncorrelated_iff.mpr (Belief.separates_correct (Belief.uncorrelated_iff.mp hb)
    (l.separates_observation n value variance) (l.separates_observation_noise n value variance) hK'
    ht hG joseph)

variable {ρ : Fin m' → Fin m} (hρ : Function.Injective ρ)
include hρ

lemma correct_part (joseph : Bool) :
    (b.correct joseph (l.observation n value variance) K).select (l.embed l ρ) =
      (b.select (l.embed l ρ)).correct joseph
        ((l.observation n value variance).select ρ (l.embed l ρ)) (K.select (l.embed l ρ) ρ) := by
  have hK' : Supported (l.embed l ρ : Fin (m' * n) → _) ρ (Mat.toMatrix K) :=
    (separates_gain hD he hb value variance hK).supported fun d _ h =>
      ⟨l.dimensionOf d, (dimensionOf_embed d).symm.trans h⟩
  exact Belief.correct_select (embed_injective hρ) (supported_observation l l n ρ value variance) hρ
    hK' joseph

include he' in
lemma gain_part :
    (e'.gain (b.select (l.embed l ρ : Fin (m' * n) → _))
      ((l.observation n value variance).select ρ (l.embed l ρ))).outcome =
        .ok (K.select (l.embed l ρ) ρ) :=
  hD.gain_select he' (isDiag_innovationCovariance hb value variance) (embed_injective hρ) hρ
    (supported_observation l l n ρ value variance) he hK

end

end Layout

namespace ConstantDerivative

variable {c : ConstantDerivative Exact} {elapsed : ℝ}
  {A : Mat (Elem Exact c.motion.type) (k + 1) (k + 1)}
  {Q : Fin c.dimension → Mat (Elem Exact c.motion.type) (k + 1) (k + 1)}

namespace Moves

lemma part (h : c.Moves k a elapsed A Q) (ρ : Fin m → Fin c.dimension) :
    (c.part ρ).Moves k a elapsed A fun d => Q (ρ d) :=
  ⟨h.transition, fun d => h.noise (ρ d)⟩

lemma unique {A' : Mat (Elem Exact c.motion.type) (k + 1) (k + 1)}
    {Q' : Fin c.dimension → Mat (Elem Exact c.motion.type) (k + 1) (k + 1)}
    (h : c.Moves k a elapsed A Q) (h' : c.Moves k a elapsed A' Q') : A = A' ∧ Q = Q' :=
  ⟨Except.ok.inj (h.transition.symm.trans h'.transition),
    funext fun d => Except.ok.inj ((h.noise d).symm.trans (h'.noise d))⟩

end Moves

lemma exists_moves (hd : 0 < c.dimension)
    (h : ∀ d, ∃ A Q, (c.part (alone d)).Moves k a elapsed A Q) :
    ∃ A Q, c.Moves k a elapsed A Q := by
  choose A Q hM using h
  exact ⟨A ⟨0, hd⟩, fun d => Q d 0, (hM ⟨0, hd⟩).transition, fun d => (hM d).noise 0⟩

section

variable {ρ : Fin m → Fin c.dimension} (hρ : Function.Injective ρ)
include hρ

lemma priorOf_part (b : Belief (Exact p) (c.dimension * n))
    (A : Mat (Elem Exact c.motion.type) n n)
    (Q : Fin c.dimension → Mat (Elem Exact c.motion.type) n n) :
    (c.priorOf b A Q).select (c.layout.embed c.layout ρ) =
      (c.part ρ).priorOf (b.select (c.layout.embed c.layout ρ)) A fun d => Q (ρ d) :=
  Layout.predict_select hρ b (blockIn p A) fun d => blockIn p (Q d)

lemma observationOf_part (v : TypedVec Exact c.dimension)
    (s : Fin c.dimension → Elem Exact c.motion.type) :
    (c.observationOf p n v s).select ρ (c.layout.embed c.layout ρ) =
      (c.part ρ).observationOf p n (v.select ρ) fun d => s (ρ d) := by
  have hr : Vec.select ρ ((Vector.ofFn fun d => s d * s d).map (Elem.cast (.real p))) =
      (Vector.ofFn fun d => s (ρ d) * s (ρ d)).map (Elem.cast (.real p)) := by
    refine Vec.ext fun i => ?_
    rw [Vec.select_entry, Vec.map_entry, Vec.map_entry, Vec.ofFn_entry, Vec.ofFn_entry]
  rw [observationOf, observationOf, Layout.observation_select hρ, TypedVec.toType_select, hr]

end

section

variable (h : c.motion.HasOrder k a) (hd : 0 < c.dimension) {D : CholeskyDecomposer Exact} {r l : ℝ}
  (hD : D.HasLimits r l) (joseph debug : Bool) (i : ℕ) (u : Option (Estimate Exact)) {t time : ℝ}
  (ht : ¬ time < t) {b : Belief (Exact p) (c.dimension * (k + 1))} (hb : b.Uncorrelated c.layout)
  {v : TypedVec Exact c.dimension} {s : Fin c.dimension → Elem Exact c.motion.type}
include h hd hD ht hb

lemma exists_step_part {y : Cursor Exact} (hm : 0 < m) {ρ : Fin m → Fin c.dimension}
    (hρ : Function.Injective ρ) (j : ℕ) (w : Option (Estimate Exact))
    (ho : ((c.estimator D joseph debug).step i ⟨u, .ofBelief t b⟩
      (c.sensed time v (k + 1) s)).outcome = .ok y) :
    ∃ y', (((c.part ρ).estimator D joseph debug).step j
        ⟨w, .ofBelief t (b.select (c.layout.embed c.layout ρ))⟩
        ((c.part ρ).sensed time (v.select ρ) (k + 1) fun d => s (ρ d))).outcome = .ok y' ∧
      y'.Agrees p (k + 1) c.layout c.layout ρ y := by
  obtain ⟨A, Q, K, hM, hK, rfl⟩ := (step_outcome_eq_ok_iff h hd D joseph debug i u ht b v s).mp ho
  have hP : Belief.Uncorrelated c.layout (c.priorOf b A Q) := c.layout.uncorrelated_predict hb _ _
  have he : ((c.part ρ).estimator D joseph debug).decomposer = D.decomposer := rfl
  have hK' : (((c.part ρ).estimator D joseph debug).gain
      ((c.priorOf b A Q).select (c.layout.embed c.layout ρ))
      ((c.observationOf p (k + 1) v s).select ρ (c.layout.embed c.layout ρ))).outcome =
        .ok (K.select (c.layout.embed c.layout ρ) ρ) :=
    Layout.gain_part hD rfl he hP _ _ hK hρ
  have hc : ((c.priorOf b A Q).correct joseph (c.observationOf p (k + 1) v s) K).select
      (c.layout.embed c.layout ρ) =
        ((c.priorOf b A Q).select (c.layout.embed c.layout ρ)).correct joseph
          ((c.observationOf p (k + 1) v s).select ρ (c.layout.embed c.layout ρ))
          (K.select (c.layout.embed c.layout ρ) ρ) :=
    Layout.correct_part hD rfl hP _ _ hK hρ joseph
  rw [priorOf_part hρ, observationOf_part hρ] at hK'
  have h' : (c.part ρ).motion.HasOrder k a := h
  refine ⟨_, (step_outcome_eq_ok_iff h' hm D joseph debug j w ht _ _ _).mpr
    ⟨A, _, _, hM.part ρ, hK', rfl⟩, ?_⟩
  have hp := Belief.agrees_iff.mpr (priorOf_part hρ b A Q).symm
  refine ⟨.some ⟨time, _, _, rfl, rfl, hp⟩, time, _, _, rfl, rfl, Belief.agrees_iff.mpr ?_⟩
  rw [hc, priorOf_part hρ, observationOf_part hρ]

lemma uncorrelated_of_step {y : Cursor Exact}
    (ho : ((c.estimator D joseph debug).step i ⟨u, .ofBelief t b⟩
      (c.sensed time v (k + 1) s)).outcome = .ok y) :
    y.Uncorrelated p c.dimension (k + 1) c.layout := by
  obtain ⟨A, Q, K, hM, hK, rfl⟩ := (step_outcome_eq_ok_iff h hd D joseph debug i u ht b v s).mp ho
  have hP : Belief.Uncorrelated c.layout (c.priorOf b A Q) := c.layout.uncorrelated_predict hb _ _
  have hC : Belief.Uncorrelated c.layout
      ((c.priorOf b A Q).correct joseph (c.observationOf p (k + 1) v s) K) :=
    Layout.uncorrelated_correct hD rfl hP _ _ hK (Belief.transpose_predict _ _) joseph
  refine ⟨?_, time, _, rfl, hC⟩
  rintro x hx
  obtain rfl := Option.some.inj hx
  exact ⟨time, _, rfl, hP⟩

lemma exists_step_of_alone (j : Fin c.dimension → ℕ)
    (w : Fin c.dimension → Option (Estimate Exact))
    (ho : ∀ d, ∃ y, (((c.part (alone d)).estimator D joseph debug).step (j d)
      ⟨w d, .ofBelief t (b.select (c.layout.embed c.layout (alone d)))⟩
      ((c.part (alone d)).sensed time (v.select (alone d)) (k + 1)
        fun i => s (alone d i))).outcome = .ok y) :
    ∃ y, ((c.estimator D joseph debug).step i ⟨u, .ofBelief t b⟩
      (c.sensed time v (k + 1) s)).outcome = .ok y := by
  have h' : ∀ d, (c.part (alone d)).motion.HasOrder k a := fun _ => h
  have ho' := fun d => (ho d).imp fun _ =>
    (step_outcome_eq_ok_iff (h' d) Nat.one_pos D joseph debug (j d) (w d) ht _ _ _).mp
  -- all dimensions move by one matrix, and each brings its own noise
  obtain ⟨A, Q, hM⟩ := exists_moves hd fun d => by
    obtain ⟨-, A, Q, -, hM, -⟩ := ho' d
    exact ⟨A, Q, hM⟩
  have hP : Belief.Uncorrelated c.layout (c.priorOf b A Q) := c.layout.uncorrelated_predict hb _ _
  have hK : ∃ K, ((c.estimator D joseph debug).gain (c.priorOf b A Q)
      (c.observationOf p (k + 1) v s)).outcome = .ok K := by
    refine (Layout.gain_outcome_iff_alone hD rfl hP _ _
      (fun d => (c.part (alone d)).estimator D joseph debug) fun _ => rfl).mpr fun d => ?_
    obtain ⟨-, A', Q', K, hM', hK, -⟩ := ho' d
    obtain ⟨rfl, rfl⟩ := hM'.unique (hM.part (alone d))
    rw [← priorOf_part (alone_injective d), ← observationOf_part (alone_injective d)] at hK
    exact ⟨K, hK⟩
  obtain ⟨K, hK⟩ := hK
  exact ⟨_, (step_outcome_eq_ok_iff h hd D joseph debug i u ht b v s).mpr ⟨A, Q, K, hM, hK, rfl⟩⟩

end

end ConstantDerivative

end KalmanFilter
