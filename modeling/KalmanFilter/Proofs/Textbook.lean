import KalmanFilter.Proofs.ExactStep
import KalmanFilter.Proofs.RegularSystem
import KalmanFilter.Proofs.WellPosed

/-! A decomposer that gives the only solution of the gain equation gives the gain
with the inverse of the innovation covariance, so runs with two of them are one run.
-/

namespace KalmanFilter

open Matrix

variable {F : Precision → Type} {p : Precision} {m n : ℕ} {α β : Type}

namespace Advance

variable {e : Estimator Exact} {k : ℕ} {y : Estimate Exact} {z : Measurement Exact}

/-- The equations of prediction and update, with the gain as a product with an inverse. If the state
has no entry, the matrix to be inverted is arbitrary. -/
def IsTextbook (a : Advance e k y z) : Prop :=
  let x := a.evolution.state.tensor.vector y.dimension
  let A := a.evolution.transition.tensor.matrix y.dimension y.dimension
  let Q := a.evolution.noise.tensor.matrix y.dimension y.dimension
  let H := z.matrix.tensor.matrix z.dimension y.dimension
  let P := symmetricPart (A * y.covariance.real * Aᵀ + Q)
  let S := H * P * Hᵀ + symmetricPart z.covariance.real
  let K := P * Hᵀ * S⁻¹
  (0 < y.dimension → IsUnit S.det) ∧
    a.prior.state.get = x ∧ Mat.toMatrix a.prior.covariance = P ∧
    Mat.toMatrix a.gain = K ∧
    a.posterior.state.get = x + K *ᵥ (z.value.real - H *ᵥ x) ∧
    Mat.toMatrix a.posterior.covariance = P - K * H * P

lemma transpose_prior (a : Advance e k y z) :
    (Mat.toMatrix a.prior.covariance)ᵀ = Mat.toMatrix a.prior.covariance :=
  Belief.transpose_predict _ _

lemma toMatrix_innovationCovariance (a : Advance e k y z) :
    Mat.toMatrix (a.prior.innovationCovariance a.observation) =
      z.matrix.tensor.matrix z.dimension y.dimension * Mat.toMatrix a.prior.covariance *
          (z.matrix.tensor.matrix z.dimension y.dimension)ᵀ +
        symmetricPart z.covariance.real := by
  rw [Belief.innovationCovariance_eq a.transpose_prior, observation, Measurement.observation_matrix,
    Measurement.observation_noise, TypedMat.toMatrix_toType]

lemma isUnit_innovationCovariance (he : e.decomposer.SolvesUniquely) (a : Advance e k y z)
    (hn : 0 < y.dimension) :
    IsUnit (Mat.toMatrix (a.prior.innovationCovariance a.observation)).det :=
  Mat.isUnit_det_of_unique ⟨0, hn⟩ (he.solution _ a.solve _ a.solution
    (Belief.transpose_innovationCovariance ..) a.accepts a.solves)

lemma isTextbook (he : e.decomposer.SolvesUniquely) (a : Advance e k y z) : a.IsTextbook := by
  have hG := Estimator.isGain_of_solvesSymmetric he.solvesSymmetric a.gain_outcome
  have hK : Mat.toMatrix a.gain = Mat.toMatrix a.prior.covariance *
      (z.matrix.tensor.matrix z.dimension y.dimension)ᵀ *
        (Mat.toMatrix (a.prior.innovationCovariance a.observation))⁻¹ := by
    rcases Nat.eq_zero_or_pos y.dimension with hn | hn
    · ext i
      exact absurd i.pos hn.not_gt
    · have hS := a.isUnit_innovationCovariance he hn
      rw [← Measurement.observation_matrix a.observes, ← observation,
        ← hG.mul_innovationCovariance a.transpose_prior, mul_nonsing_inv_cancel_right _ _ hS]
  have hC : Mat.toMatrix a.posterior.covariance = Mat.toMatrix a.prior.covariance -
      Mat.toMatrix a.gain * z.matrix.tensor.matrix z.dimension y.dimension *
        Mat.toMatrix a.prior.covariance := by
    rw [posterior, Belief.toMatrix_correct_eq a.transpose_prior hG, observation,
      Measurement.observation_matrix, Matrix.sub_mul, Matrix.one_mul]
  have hS := a.isUnit_innovationCovariance he
  rw [toMatrix_innovationCovariance, prior_covariance] at hS hK
  have hx := a.posterior_state
  rw [hK, prior_state] at hx
  rw [hK, prior_covariance] at hC
  exact ⟨hS, a.prior_state, a.prior_covariance, hK, hx, hC⟩

end Advance

def Attempt.Accepts (a : Attempt F α) : Prop :=
  a.decompositions ≠ [] → ∃ x, a.outcome = .ok x

lemma Attempt.accepts_map {f : α → β} {a : Attempt F α} (h : (f <$> a).Accepts) : a.Accepts := by
  intro ha
  rw [Attempt.decompositions, ← map_events f a] at ha
  obtain ⟨y, hy⟩ := h ha
  rw [map_outcome] at hy
  cases ho : a.outcome with
  | ok x => exact ⟨x, rfl⟩
  | error e =>
    rw [ho] at hy
    cases hy

def Session.Accepts [Arithmetic F] (s : Session F) (zs : List (Fallible F (Measurement F))) : Prop :=
  ∀ a ∈ s.attempts zs, a.Accepts

inductive Decomposer.IsExact : Decomposer Exact → Prop
  | cholesky (d : CholeskyDecomposer Exact) : IsExact d.decomposer
  | lu (d : LUDecomposer Exact) : IsExact d.decomposer
  | custom {d : Decomposer Exact} (h : d.SolvesUniquely) : IsExact d

lemma Decomposer.IsExact.solvesUniquely {d : Decomposer Exact} (h : d.IsExact) :
    d.SolvesUniquely := by
  cases h with
  | cholesky d => exact d.solvesUniquely
  | lu d => exact d.solvesUniquely
  | custom h => exact h

namespace Estimator

section

variable {e : Estimator Exact} {b : Belief (Exact p) n} {o : Observation (Exact p) m n} {time : ℝ}
  {x : Evolution Exact} {hx : x.dimension = n}

lemma queries_gain (he : e.decomposer.SolvesUniquely) (b : Belief (Exact p) n)
    (o : Observation (Exact p) m n) : (e.gain b o).queries = [] := by
  refine Attempt.queries_bind rfl fun _ => Attempt.queries_bind (he.queries _) fun solve => ?_
  exact Attempt.queries_bind rfl fun _ => rfl

lemma decompositions_gain (e : Estimator Exact) (b : Belief (Exact p) n)
    (o : Observation (Exact p) m n) : (e.gain b o).decompositions ≠ [] := by
  rw [gain, Attempt.happen_bind]
  exact List.cons_ne_nil _ _

lemma exists_gain_of_accepts (h : (e.update time b x hx o).Accepts) :
    ∃ K, (e.gain (b.predict (x.linearized p hx)) o).outcome = .ok K := by
  cases hg : (e.gain (b.predict (x.linearized p hx)) o).outcome with
  | ok K => exact ⟨K, rfl⟩
  | error f =>
    rw [update_of_gain_error hg] at h
    obtain ⟨c, hc⟩ := h (e.decompositions_gain _ o)
    cases hc

lemma queries_update (he : e.decomposer.SolvesUniquely) {K : Mat (Exact p) n m}
    (h : (e.gain (b.predict (x.linearized p hx)) o).outcome = .ok K) :
    (e.update time b x hx o).queries = [] := by
  rw [update_of_gain_ok h, Attempt.queries, List.filterMap_append, filterMap_query?_notes,
    List.append_nil]
  exact queries_gain he _ o

end

variable {e e' : Estimator Exact} (he : e.decomposer.SolvesUniquely)
  (he' : e'.decomposer.SolvesUniquely)
include he he'

lemma gain_unique {b : Belief (Exact p) n} {o : Observation (Exact p) m n} {K K' : Mat (Exact p) n m}
    (h : (e.gain b o).outcome = .ok K) (h' : (e'.gain b o).outcome = .ok K') : K = K' := by
  obtain ⟨solve, X, hs, hX, rfl⟩ := gain_outcome_eq_ok_iff.mp h
  have hK' := isGain_of_solvesSymmetric he'.solvesSymmetric h'
  -- the other gain is an answer to the same system
  have hX' := (he.solution _ solve _ X (b.transpose_innovationCovariance o) hs hX _).mp hK'
  rw [← hX', Mat.transpose_transpose]

lemma update_agrees (hj : e.joseph = e'.joseph) {time : ℝ} {b : Belief (Exact p) n}
    {x : Evolution Exact} {hx : x.dimension = n} {o : Observation (Exact p) m n}
    (h : (e.update time b x hx o).Accepts) (h' : (e'.update time b x hx o).Accepts) :
    (e.update time b x hx o).outcome = (e'.update time b x hx o).outcome ∧
      (e.update time b x hx o).queries = (e'.update time b x hx o).queries := by
  obtain ⟨K, hK⟩ := exists_gain_of_accepts h
  obtain ⟨K', hK'⟩ := exists_gain_of_accepts h'
  obtain rfl : K = K' := gain_unique he he' hK hK'
  refine ⟨?_, (queries_update he hK).trans (queries_update he' hK').symm⟩
  rw [update_of_gain_ok hK, update_of_gain_ok hK', hj]

lemma step_agrees (hq : e.process = e'.process) (hj : e.joseph = e'.joseph) {k : ℕ}
    {c : Cursor Exact} {z : Measurement Exact} (h : (e.step k c z).Accepts)
    (h' : (e'.step k c z).Accepts) :
    (e.step k c z).outcome = (e'.step k c z).outcome ∧
      (e.step k c z).queryCount = (e'.step k c z).queryCount := by
  rcases step_eq_or_update hq k c z with hs | ⟨p, b, x, hx, o, t, t', y, hs, hs'⟩
  · exact ⟨congrArg Attempt.outcome hs, congrArg Attempt.queryCount hs⟩
  · rw [hs] at h ⊢
    rw [hs'] at h' ⊢
    obtain ⟨ho, hq⟩ := update_agrees he he' hj h h'
    refine ⟨ho, ?_⟩
    rw [Attempt.queryCount_query, Attempt.queryCount_query, Attempt.queryCount_eq_length, hq,
      Attempt.queryCount_eq_length]

end Estimator

namespace Session

variable {e e' : Estimator Exact}

lemma step_agrees (he : e.decomposer.SolvesUniquely) (he' : e'.decomposer.SolvesUniquely)
    (hq : e.process = e'.process) (hj : e.joseph = e'.joseph) {c : Cursor Exact} {k : ℕ}
    {z : Fallible Exact (Measurement Exact)} (h : ((Session.mk e c k).step z).2.Accepts)
    (h' : ((Session.mk e' c k).step z).2.Accepts) :
    ∃ (c' : Cursor Exact) (k' : ℕ), ((Session.mk e c k).step z).1 = ⟨e, c', k'⟩ ∧
      ((Session.mk e' c k).step z).1 = ⟨e', c', k'⟩ ∧
      ((Session.mk e c k).step z).2.outcome = ((Session.mk e' c k).step z).2.outcome := by
  cases z with
  | error f => exact ⟨c, k, rfl, rfl, rfl⟩
  | ok m =>
    rw [step_of_measured] at h h' ⊢
    rw [step_of_measured]
    obtain ⟨ho, hk⟩ := Estimator.step_agrees he he' hq hj (Attempt.accepts_map h)
      (Attempt.accepts_map h')
    refine ⟨_, _, rfl, ?_, ?_⟩
    · simp only [settle, ho, hk]
    · simp only [settle, Attempt.map_outcome, ho]

lemma run_agrees (he : e.decomposer.SolvesUniquely) (he' : e'.decomposer.SolvesUniquely)
    (hq : e.process = e'.process) (hj : e.joseph = e'.joseph) {c : Cursor Exact} {k : ℕ}
    {zs : List (Fallible Exact (Measurement Exact))} (h : (Session.mk e c k).Accepts zs)
    (h' : (Session.mk e' c k).Accepts zs) :
    ((Session.mk e c k).attempts zs).map (·.outcome) =
        ((Session.mk e' c k).attempts zs).map (·.outcome) ∧
      ((Session.mk e c k).run zs).cursor = ((Session.mk e' c k).run zs).cursor := by
  induction zs generalizing c k with
  | nil => exact ⟨rfl, rfl⟩
  | cons z zs ih =>
    obtain ⟨h₁, h⟩ := List.forall_mem_cons.mp h
    obtain ⟨h₁', h'⟩ := List.forall_mem_cons.mp h'
    obtain ⟨c', k', hs, hs', ho⟩ := step_agrees he he' hq hj h₁ h₁'
    rw [hs] at h
    rw [hs'] at h'
    obtain ⟨hm, hr⟩ := ih h h'
    simp only [attempts, run, List.map_cons, hs, hs', ho, hm, hr, and_self]

lemma Accepts.take {s : Session Exact} {zs : List (Fallible Exact (Measurement Exact))}
    (h : s.Accepts zs) (k : ℕ) : s.Accepts (zs.take k) := by
  intro a ha
  refine h a ?_
  rw [← List.take_append_drop k zs, attempts_append]
  exact List.mem_append_left _ ha

/-- Runs agree as long as both decomposers accept what they are asked in their own run. Every step
that succeeds is one of the textbook, also from a state that no run reaches. -/
theorem exact_decomposers_agree {d d' : Decomposer Exact} (hd : d.IsExact) (hd' : d'.IsExact)
    (q : Process Exact) (joseph debug : Bool) (x : Estimate Exact)
    (zs : List (Fallible Exact (Measurement Exact))) :
    let s := opening ⟨d, q, joseph, debug⟩ x
    let s' := opening ⟨d', q, joseph, debug⟩ x
    (s.Accepts zs → s'.Accepts zs →
      (s.attempts zs).map (·.outcome) = (s'.attempts zs).map (·.outcome) ∧
        ∀ k, (s.run (zs.take k)).cursor = (s'.run (zs.take k)).cursor) ∧
    ∀ (t : Session Exact) (z : Measurement Exact) (w : Estimate Exact),
      t.estimator = ⟨d, q, joseph, debug⟩ → (t.step (.ok z)).2.outcome = .ok w →
      ∃ a : Advance ⟨d, q, joseph, debug⟩ t.queries t.cursor.corrected z,
        (t.step (.ok z)).1.cursor = a.cursor ∧ a.IsTextbook := by
  have he : (Estimator.mk d q joseph debug).decomposer.SolvesUniquely := hd.solvesUniquely
  have he' : (Estimator.mk d' q joseph debug).decomposer.SolvesUniquely := hd'.solvesUniquely
  refine ⟨fun hs hs' => ⟨?_, fun k => ?_⟩, fun t z w ht hw => ?_⟩
  · exact (run_agrees he he' rfl rfl hs hs').1
  · exact (run_agrees he he' rfl rfl (hs.take k) (hs'.take k)).2
  · obtain ⟨m, a, hm, hc, -⟩ := advance_of_ok ht hw
    obtain rfl := Except.ok.inj hm
    exact ⟨a, hc, a.isTextbook he⟩

theorem exact_decomposers_agree_tilted :
    let s (d : Decomposer Exact) := opening ⟨d, Tilted.process, true, false⟩ Tilted.initial
    let d : Decomposer Exact := CholeskyDecomposer.defaults.decomposer
    let zs := Tilted.measurements
    (s d).Accepts zs ∧ (∃ y, ((s d).step (.ok Tilted.measurement)).2.outcome = .ok y) ∧
      ∀ d' ∈ [LUDecomposer.decomposer ⟨.real 0⟩, .plain], d'.IsExact ∧ (s d').Accepts zs ∧
        ((s d).attempts zs).map (·.outcome) = ((s d').attempts zs).map (·.outcome) ∧
        ((s d).run zs).cursor = ((s d').run zs).cursor ∧
        ∃ a : Advance ⟨d, Tilted.process, true, false⟩ 0 Tilted.initial Tilted.measurement,
          ((s d).run zs).cursor = a.cursor ∧ a.IsTextbook := by
  intro s d zs
  have hs : (s d).Succeeds zs :=
    succeeds_tilted CholeskyDecomposer.hasLimits_defaults (by norm_num) true false
  have ha : (s d).Accepts zs := fun a ha _ => hs a ha
  obtain ⟨y, hy⟩ := hs _ List.mem_cons_self
  -- the systems of the step are regular, so it succeeds with the other decomposers too
  have ht : ∀ d' : Decomposer Exact, d'.AcceptsRegular → (s d').Accepts zs := by
    intro d' hd' a ha _
    obtain rfl := List.mem_singleton.mp ha
    obtain ⟨a⟩ := Tilted.nonempty_advance (e := ⟨d', Tilted.process, true, false⟩) rfl hd'
    exact ⟨_, (step_of_advance (s := s d') rfl a).2⟩
  have hl : ∀ d' ∈ [LUDecomposer.decomposer ⟨.real 0⟩, .plain], d'.IsExact ∧ d'.AcceptsRegular :=
    List.forall_mem_cons.mpr ⟨⟨.lu _, LUDecomposer.acceptsRegular (Datum.isLimit_real 0) le_rfl⟩,
      List.forall_mem_singleton.mpr
        ⟨.custom Decomposer.plain_solvesUniquely, Decomposer.plain_acceptsRegular⟩⟩
  refine ⟨ha, ⟨y, hy⟩, fun d' hd' => ?_⟩
  obtain ⟨he, hd'⟩ := hl d' hd'
  obtain ⟨hrun, hstep⟩ := exact_decomposers_agree (.cholesky .defaults) he Tilted.process true false
    Tilted.initial zs
  obtain ⟨hm, hc⟩ := hrun ha (ht d' hd')
  exact ⟨he, ht d' hd', hm, hc 1, hstep (s d) Tilted.measurement y rfl hy⟩

end Session

end KalmanFilter
