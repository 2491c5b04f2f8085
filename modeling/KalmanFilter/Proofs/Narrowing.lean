import KalmanFilter.Proofs.BayesianUpdate
import KalmanFilter.Proofs.ExactStep
import KalmanFilter.Proofs.Simultaneous
import KalmanFilter.Proofs.TimePolicy
import KalmanFilter.Proofs.WellPosed

/-! What a correction takes off the covariance is a congruence of the innovation
covariance, which is positive semidefinite, so measurements never add uncertainty.
-/

namespace KalmanFilter

open Matrix

variable {F : Precision → Type} {p : Precision} {m n : ℕ}

lemma trace_symmetricPart (A : Matrix (Fin n) (Fin n) ℝ) : (symmetricPart A).trace = A.trace := by
  rw [symmetricPart, trace_smul, trace_add, trace_transpose, smul_eq_mul]
  ring

lemma Mat.trace_eq (A : Mat ℝ n n) : A.trace = A.toMatrix.trace :=
  total_eq_sum _

namespace Belief

variable {b c : Belief ℝ n}

structure IsNarrower (c b : Belief ℝ n) : Prop where
  order : (b.covariance.toMatrix - c.covariance.toMatrix).PosSemidef
  form : ∀ v : Fin n → ℝ, v ⬝ᵥ (c.covariance.toMatrix *ᵥ v) ≤ v ⬝ᵥ (b.covariance.toMatrix *ᵥ v)
  variance : ∀ i, c.covariance i i ≤ b.covariance i i
  trace : c.covariance.trace ≤ b.covariance.trace

lemma isNarrower_of_order (h : (b.covariance.toMatrix - c.covariance.toMatrix).PosSemidef) :
    c.IsNarrower b where
  order := h
  form v := by
    have hv := h.dotProduct_mulVec_nonneg v
    rw [star_trivial, sub_mulVec, dotProduct_sub] at hv
    exact sub_nonneg.mp hv
  variance _ := sub_nonneg.mp h.diag_nonneg
  trace := by
    rw [Mat.trace_eq, Mat.trace_eq, ← sub_nonneg, ← trace_sub]
    exact h.trace_nonneg

section

variable {z : Observation ℝ m n} {K : Mat ℝ n m}

lemma IsGain.sub_correct (hb : b.covariance.toMatrixᵀ = b.covariance.toMatrix) (h : b.IsGain z K)
    (joseph : Bool) :
    b.covariance.toMatrix - (b.correct joseph z K).covariance.toMatrix =
      K.toMatrix * (b.innovationCovariance z).toMatrix * K.toMatrixᵀ := by
  rw [toMatrix_correct_eq hb h, Matrix.mul_assoc K.toMatrix, isGain_iff.mp h,
    Matrix.sub_mul, Matrix.one_mul, sub_sub_cancel, Matrix.mul_assoc]

lemma IsGain.isNarrower (hb : b.covariance.toMatrix.PosSemidef)
    (hz : (symmetricPart z.noise.toMatrix).PosSemidef) (h : b.IsGain z K) (joseph : Bool) :
    (b.correct joseph z K).IsNarrower b := by
  apply isNarrower_of_order
  rw [h.sub_correct hb.isHermitian joseph]
  exact posSemidef_congruence (posSemidef_innovationCovariance hb hz) _

end

section

variable {z : Observation ℝ 0 n} {K : Mat ℝ n 0}

lemma correct_of_empty (hb : b.covariance.toMatrixᵀ = b.covariance.toMatrix) (joseph : Bool) :
    b.correct joseph z K = b := by
  have hG : b.IsGain z K := Mat.ext fun i => i.elim0
  have hH : z.matrix.toMatrix = 0 := Subsingleton.elim _ _
  have hs : (b.correct joseph z K).state = b.state := by
    apply Vec.get_injective
    rw [state_correct, Subsingleton.elim (z.value.get - _) 0, mulVec_zero, add_zero]
  have hc : (b.correct joseph z K).covariance = b.covariance := by
    apply Mat.toMatrix_injective
    rw [toMatrix_correct_eq hb hG, hH, Matrix.mul_zero, sub_zero, Matrix.one_mul]
  exact congrArg₂ Belief.mk hs hc

lemma posDef_innovationCovariance_of_empty (b : Belief ℝ n) (z : Observation ℝ 0 n) :
    (b.innovationCovariance z).toMatrix.PosDef := by
  rw [Subsingleton.elim (b.innovationCovariance z).toMatrix 1]
  exact .one

end

end Belief

structure Evolution.IsShift (x : Evolution Exact) : Prop where
  transition : x.transition.real = 1
  noise : x.noise.real = 0

lemma Evolution.IsShift.predict {x : Evolution Exact} (hx : x.IsShift) (h : x.dimension = n)
    (b : Belief (Exact p) n) :
    Mat.toMatrix (b.predict (x.linearized p h)).covariance =
      symmetricPart (Mat.toMatrix b.covariance) := by
  subst h
  have hA : Mat.toMatrix (x.linearized p rfl).matrix = 1 :=
    (x.transition.toMatrix_toType p).trans hx.transition
  have hQ : Mat.toMatrix (x.linearized p rfl).noise = 0 :=
    (x.noise.toMatrix_toType p).trans hx.noise
  rw [Belief.toMatrix_predict, hA, hQ, Matrix.one_mul, transpose_one, Matrix.mul_one, add_zero]

lemma Evolution.IsShift.isSemidefinite {x : Evolution Exact} (hx : x.IsShift) :
    x.noise.IsSemidefinite := by
  rw [TypedMat.IsSemidefinite, hx.noise]
  exact posSemidef_symmetricPart .zero

lemma Process.isShift_resting (k : ℕ) (t : ℝ) (x : Tensor Exact) (t' : ℝ) (y : Evolution Exact)
    (h : resting p n k t x t' = .ok (.evolution y)) : y.IsShift := by
  obtain ⟨w, hw, h⟩ := Fallible.bind_eq_ok_iff.mp h
  obtain rfl := Reply.evolution.inj (Except.ok.inj h)
  obtain ⟨v, rfl⟩ := Evolution.exists_of_ok hw
  constructor
  · exact (TypedMat.real_mk _).trans Mat.toMatrix_identity
  · rw [TypedMat.real_mk]
    ext i j
    exact Mat.ofFn_entry _ i j

lemma Process.exists_resting_isWellPosed (k : ℕ) (t : ℝ) (x : Vec (Exact p) n) (t' : ℝ) :
    ∃ y, resting p n k t (TypedVec.tensor ⟨.real p, x⟩) t' = .ok (.evolution y) ∧
      y.IsWellPosed n := by
  obtain ⟨y, hn, hy, -⟩ := exists_resting k t t' x
  exact ⟨y, hy, hn, (isShift_resting k t _ t' y hy).isSemidefinite⟩

lemma Measurement.IsWellPosed.isSemidefinite {z : Measurement Exact} (h : z.IsWellPosed n 0) :
    z.covariance.IsSemidefinite := by
  obtain ⟨r, hr, hB⟩ := h.bounded
  exact hB.isSemidefinite hr.le

lemma Measurement.isWellPosed_ofObservation {z : Observation (Exact p) m n}
    (hz : z.noise = .identity) {s : ℝ} (hs : s < 1) (time : ℝ) :
    (ofObservation time z).IsWellPosed n s := by
  have hR : (ofObservation (F := Exact) time z).covariance.real = 1 := by
    refine (TypedMat.real_mk z.noise).trans ?_
    rw [hz]
    exact Mat.toMatrix_identity
  refine ⟨rfl, 1, hs, fun v => ?_⟩
  rw [hR, one_mulVec, one_mul]

lemma Advance.trace_corrected_le {e : Estimator Exact} (he : e.decomposer.SolvesSymmetric) {k : ℕ}
    {y : Estimate Exact} {z : Measurement Exact} (a : Advance e k y z) (hx : a.evolution.IsShift)
    (hy : y.covariance.IsSemidefinite) (hz : z.covariance.IsSemidefinite) :
    a.corrected.IsSemidefinite ∧ a.corrected.covariance.real.trace ≤ y.covariance.real.trace := by
  have hP : Mat.toMatrix a.prior.covariance = symmetricPart y.covariance.real := by
    rw [prior, transition, hx.predict, belief_covariance]
  have hp : (Mat.toMatrix a.prior.covariance).PosSemidef := hP ▸ hy
  have hR := Measurement.semidefinite_observation (p := a.precision) hz a.observes
  have hG := Estimator.isGain_of_solvesSymmetric he a.gain_outcome
  refine ⟨Estimate.isSemidefinite_ofBelief (Belief.posSemidef_correct hp hR hG e.joseph), ?_⟩
  calc a.corrected.covariance.real.trace
      = Mat.trace a.posterior.covariance := by
        rw [corrected, Estimate.ofBelief, TypedMat.real_mk, Mat.trace_eq]
    _ ≤ Mat.trace a.prior.covariance := (hG.isNarrower hp hR e.joseph).trace
    _ = y.covariance.real.trace := by rw [Mat.trace_eq, hP, trace_symmetricPart]

namespace Session

noncomputable def traces (s : Session Exact) (zs : List (Fallible Exact (Measurement Exact))) :
    List ℝ :=
  s.cursor.corrected.covariance.real.trace :: (s.emitted zs).map (·.covariance.real.trace)

variable {e : Estimator Exact} {s : Session Exact} {zs : List (Fallible Exact (Measurement Exact))}

lemma isChain_traces (he : e.decomposer.SolvesSymmetric) (hs : s.estimator = e)
    (hx : s.cursor.corrected.covariance.IsSemidefinite)
    (hz : ∀ m : Measurement Exact, .ok m ∈ zs → m.covariance.IsSemidefinite)
    (ht : s.EveryTransition Evolution.IsShift zs) : (s.traces zs).IsChain (· ≥ ·) := by
  induction zs generalizing s with
  | nil => exact .singleton _
  | cons z zs ih =>
    have hrest := fun m hm => hz m (List.mem_cons_of_mem z hm)
    cases ho : (s.step z).2.outcome with
    | error f =>
      have h := ih (s := (s.step z).1) hs (by rwa [cursor_of_error ho]) hrest ht.2
      rwa [traces, cursor_of_error ho, ← emitted_of_error ho] at h
    | ok y =>
      obtain ⟨m, a, rfl, hc, rfl⟩ := advance_of_ok rfl ho
      obtain ⟨hy, hle⟩ := a.trace_corrected_le (hs ▸ he) (ht.1 m rfl a) hx
        (hz m List.mem_cons_self)
      have hc' : (s.step (.ok m)).1.cursor.corrected = a.corrected := congrArg Cursor.corrected hc
      have h := ih (s := (s.step (.ok m)).1) hs (by rw [hc']; exact hy.covariance) hrest ht.2
      rw [traces, hc'] at h
      rw [traces, emitted_of_ok ho, List.map_cons]
      exact List.isChain_cons_cons.mpr ⟨hle, h⟩

/-- Steps may fail along the run; they hand nothing out. If a measurement has a noise that is not
positive semidefinite, the trace may grow. -/
theorem measurements_narrow (he : e.decomposer.SolvesSymmetric) :
    (∀ {p : Precision} {m n : ℕ} (time : ℝ) (b c : Belief (Exact p) n)
        (z : Observation (Exact p) m n), b.covariance.toMatrix.PosSemidef →
      (symmetricPart z.noise.toMatrix).PosSemidef → (e.correct time b z).outcome = .ok c →
      ∃ K, (e.gain b z).outcome = .ok K ∧
        b.covariance.toMatrix - c.covariance.toMatrix =
          K.toMatrix * (b.innovationCovariance z).toMatrix * K.toMatrixᵀ ∧
        c.IsNarrower b) ∧
      (∀ {p : Precision} {n : ℕ} (time : ℝ) (b : Belief (Exact p) n)
          (z : Observation (Exact p) 0 n), b.covariance.toMatrix.PosSemidef →
        (∀ c, (e.correct time b z).outcome = .ok c → c = b) ∧
          (e.decomposer.AcceptsDefinite → (e.correct time b z).outcome = .ok b)) ∧
      ∀ (x : Estimate Exact) (zs : List (Fallible Exact (Measurement Exact))),
        x.covariance.IsSemidefinite →
        (∀ m : Measurement Exact, .ok m ∈ zs → m.covariance.IsSemidefinite) →
        (opening e x).EveryTransition Evolution.IsShift zs →
          ((opening e x).traces zs).Pairwise (· ≥ ·) := by
  refine ⟨?_, ?_, fun x zs hx hz ht => (isChain_traces he rfl hx hz ht).pairwise⟩
  · intro p m n time b c z hb hz h
    obtain ⟨K, hK, rfl⟩ := Estimator.correct_outcome_eq_ok_iff.mp h
    have hG := Estimator.isGain_of_solvesSymmetric he hK
    exact ⟨K, hK, hG.sub_correct hb.isHermitian e.joseph, hG.isNarrower hb hz e.joseph⟩
  · intro p n time b z hb
    have hc : ∀ K, b.correct e.joseph z K = b := fun K => Belief.correct_of_empty hb.isHermitian _
    constructor
    · intro c h
      obtain ⟨K, -, rfl⟩ := Estimator.correct_outcome_eq_ok_iff.mp h
      exact hc K
    · intro ha
      obtain ⟨K, hK⟩ := Estimator.exists_gain_of_acceptsDefinite ha
        (b.posDef_innovationCovariance_of_empty z)
      exact Estimator.correct_outcome_eq_ok_iff.mpr ⟨K, hK, (hc K).symm⟩

theorem measurements_narrow_resting :
    let e : Estimator Exact := ⟨Fix.decomposer.decomposer, .resting .double 2, true, false⟩
    let z : Observation (Exact .double) 1 2 := ⟨#v[3], ⟨#v[#v[1, 1]]⟩, .identity⟩
    let u : Observation (Exact .double) 0 2 := ⟨#v[], ⟨#v[]⟩, .identity⟩
    let zs := [Measurement.ofObservation 1 z, .ofObservation 1 u, .ofObservation 2 z]
    let s := opening e Crossing.start.corrected
    e.decomposer.SolvesSymmetric ∧ e.decomposer.AcceptsDefinite ∧
      Crossing.belief.covariance.toMatrix.PosSemidef ∧
      (symmetricPart z.noise.toMatrix).PosSemidef ∧
      (∃ c, (e.correct 1 Crossing.belief z).outcome = .ok c ∧ c.IsNarrower Crossing.belief) ∧
      (e.correct 1 Crossing.belief u).outcome = .ok Crossing.belief ∧
      (∀ m ∈ zs, m.covariance.IsSemidefinite) ∧
      s.EveryTransition Evolution.IsShift (zs.map .ok) ∧ s.Succeeds (zs.map .ok) ∧
      (s.traces (zs.map .ok)).Pairwise (· ≥ ·) := by
  intro e z u zs s
  have hd : Fix.decomposer.HasLimits 0 0 :=
    CholeskyDecomposer.hasLimits_real le_rfl le_rfl
  have he : e.decomposer.SolvesSymmetric := Fix.decomposer.solvesSymmetric
  have hb : Crossing.belief.covariance.toMatrix.PosSemidef := by
    rw [Crossing.belief, Mat.toMatrix_identity]
    exact .one
  have hx : Crossing.start.corrected.covariance.IsSemidefinite :=
    (Estimate.isSemidefinite_ofBelief (t := 0) hb).covariance
  have hR : (symmetricPart z.noise.toMatrix).PosDef := by
    simp only [z, Mat.toMatrix_identity, symmetricPart_of_symm transpose_one]
    exact .one
  have hw : ∀ m ∈ zs, m.IsWellPosed 2 0 := by
    simp only [zs, List.forall_mem_cons]
    exact ⟨Measurement.isWellPosed_ofObservation rfl zero_lt_one 1,
      Measurement.isWellPosed_ofObservation rfl zero_lt_one 1,
      Measurement.isWellPosed_ofObservation rfl zero_lt_one 2, List.forall_mem_nil _⟩
  have hz : ∀ m ∈ zs, m.covariance.IsSemidefinite := fun m hm => (hw m hm).isSemidefinite
  have ht := everyTransition_of_process (s := s) Process.isShift_resting (zs.map .ok)
  have hc : ((0 : ℝ) :: zs.map (·.time)).IsChain (· ≤ ·) := by
    simp [zs, Measurement.ofObservation]
  have ha : s.EveryAnswer (·.IsWellPosed 2) zs :=
    everyAnswer_of_forward (b := Crossing.belief)
      (fun k t x t' _ => Process.exists_resting_isWellPosed k t x t') rfl rfl hc
  have hs : s.Succeeds (zs.map .ok) :=
    attempts_succeed (b := Crossing.belief) hd rfl rfl (posSemidef_symmetricPart hb) ha hc hw
  obtain ⟨K, hK⟩ := Estimator.exists_gain_of_acceptsDefinite (e := e) hd.acceptsDefinite
    (Belief.posDef_innovationCovariance hb hR)
  have hc : (e.correct 1 Crossing.belief z).outcome = .ok (Crossing.belief.correct true z K) :=
    Estimator.correct_outcome_eq_ok_iff.mpr ⟨K, hK, rfl⟩
  obtain ⟨hone, hempty, hrun⟩ := measurements_narrow he
  obtain ⟨-, -, -, hn⟩ := hone 1 Crossing.belief _ z hb hR.posSemidef hc
  refine ⟨he, hd.acceptsDefinite, hb, hR.posSemidef, ⟨_, hc, hn⟩,
    (hempty 1 Crossing.belief u hb).2 hd.acceptsDefinite, hz, ht, hs, hrun _ _ hx ?_ ht⟩
  intro m hm
  obtain ⟨m', hm', h⟩ := List.mem_map.mp hm
  exact Except.ok.inj h ▸ hz m' hm'

end Session

end KalmanFilter
