import Mathlib.Analysis.SpecialFunctions.Log.Basic
import KalmanFilter.Proofs.Cycle
import KalmanFilter.Proofs.Semidefinite
import KalmanFilter.Proofs.SymmetricSystem

/-! If the covariances that a run asks for are positive semidefinite, and the noise
of every measurement is bounded from below beyond the limit of the Cholesky
decomposer, then every step succeeds. -/

namespace KalmanFilter

open Matrix

variable {p : Precision} {m n : ℕ}

lemma dotProduct_symmetricPart (A : Matrix (Fin n) (Fin n) ℝ) (v : Fin n → ℝ) :
    v ⬝ᵥ (symmetricPart A *ᵥ v) = v ⬝ᵥ (A *ᵥ v) := by
  have h : v ⬝ᵥ (Aᵀ *ᵥ v) = v ⬝ᵥ (A *ᵥ v) := by
    rw [mulVec_transpose, dotProduct_comm, ← dotProduct_mulVec]
  rw [symmetricPart, smul_mulVec, dotProduct_smul, add_mulVec, dotProduct_add, h, smul_eq_mul]
  ring

def TypedMat.IsBoundedBelow (A : TypedMat Exact n n) (r : ℝ) : Prop :=
  ∀ v : Fin n → ℝ, r * (v ⬝ᵥ v) ≤ v ⬝ᵥ (A.real *ᵥ v)

lemma TypedMat.IsBoundedBelow.isSemidefinite {A : TypedMat Exact n n} {r : ℝ}
    (h : A.IsBoundedBelow r) (hr : 0 ≤ r) : A.IsSemidefinite := by
  refine .of_dotProduct_mulVec_nonneg (transpose_symmetricPart A.real) fun v => ?_
  rw [star_trivial, dotProduct_symmetricPart]
  exact (mul_nonneg hr (dotProduct_self_star_nonneg v)).trans (h v)

lemma Belief.innovationCovariance_bounded {b : Belief ℝ n} (hb : b.covariance.toMatrix.PosSemidef)
    (z : Observation ℝ m n) {r : ℝ}
    (hz : ∀ v : Fin m → ℝ, r * (v ⬝ᵥ v) ≤ v ⬝ᵥ (z.noise.toMatrix *ᵥ v)) (v : Fin m → ℝ) :
    r * (v ⬝ᵥ v) ≤ v ⬝ᵥ ((b.innovationCovariance z).toMatrix *ᵥ v) := by
  have hP := (posSemidef_congruence hb z.matrix.toMatrix).dotProduct_mulVec_nonneg v
  rw [star_trivial] at hP
  rw [toMatrix_innovationCovariance, dotProduct_symmetricPart, add_mulVec, dotProduct_add]
  exact (hz v).trans (le_add_of_nonneg_left hP)

lemma Measurement.observation_bounded {z : Measurement Exact} {r : ℝ}
    (hz : z.covariance.IsBoundedBelow r) (h : z.stateDimension = n) (v : Fin z.dimension → ℝ) :
    r * (v ⬝ᵥ v) ≤ v ⬝ᵥ (Mat.toMatrix (z.observation p h).noise *ᵥ v) := by
  rw [Measurement.observation_noise, TypedMat.toMatrix_toType]
  exact hz v

structure Evolution.IsWellPosed (x : Evolution Exact) (n : ℕ) : Prop where
  evolves : x.dimension = n
  semidefinite : x.noise.IsSemidefinite

section

variable {e : Estimator Exact} {d : CholeskyDecomposer Exact} {r s : ℝ} {k : ℕ} {t : ℝ}
  {b : Belief (Exact p) n} {z : Measurement Exact} {x : Evolution Exact}

structure Measurement.IsWellPosed (z : Measurement Exact) (n : ℕ) (s : ℝ) : Prop where
  observes : z.stateDimension = n
  bounded : ∃ r, s < r ∧ z.covariance.IsBoundedBelow r

lemma exists_cycle (hd : d.HasLimits r s) (he : e.decomposer = d.decomposer)
    (ha : e.process k t (TypedVec.tensor ⟨.real p, b.state⟩) z.time = .ok (.evolution x))
    (hx : x.IsWellPosed n) (hb : (symmetricPart b.covariance.toMatrix).PosSemidef)
    (ht : t ≤ z.time) (hz : z.IsWellPosed n s) :
    ∃ c : Cycle e k t b z, c.posterior.covariance.toMatrix.PosSemidef := by
  obtain ⟨hn, hQ⟩ := hx
  obtain ⟨ρ, hρ, hR⟩ := hz.bounded
  have hpos : 0 < ρ := hd.absolute_nonneg.trans_lt hρ
  have hP : (b.predict (x.linearized p hn)).covariance.toMatrix.PosSemidef :=
    Belief.posSemidef_predict hb (Evolution.semidefinite_linearized hQ hn)
  obtain ⟨L, hL, hi⟩ := Mat.exists_cholesky?
    (Belief.transpose_innovationCovariance _ (z.observation p hz.observes)) hpos
    (Belief.innovationCovariance_bounded hP _ (Measurement.observation_bounded hR hz.observes))
  obtain ⟨K, hK⟩ := (hd.gain_outcome_iff he _ _).mpr ⟨L, hL, fun i => hρ.trans_le (hi i)⟩
  refine ⟨⟨x, K, not_lt.mpr ht, hz.observes, ha, hn, hK⟩, ?_⟩
  have hG := Estimator.isGain_of_solvesSymmetric (he ▸ d.solvesSymmetric) hK
  exact Belief.posSemidef_correct hP
    (Measurement.semidefinite_observation (hR.isSemidefinite hpos.le) hz.observes) hG e.joseph

end

namespace Tilted

lemma isSemidefinite_smul_tilt {a : ℝ} (ha : 0 ≤ a) :
    TypedMat.IsSemidefinite ⟨.real .double, (a * tilt : Mat ℝ 2 2)⟩ := by
  have h : (TypedMat.mk (.real .double) (a * tilt : Mat ℝ 2 2)).real = a • tilt.toMatrix := by
    ext i j
    exact Mat.smul_entry ..
  rw [TypedMat.IsSemidefinite, h, symmetricPart_smul, symmetricPart_tilt]
  exact .smul .one ha

lemma exists_growing {t t' : ℝ} (h : t ≤ t') (k : ℕ) (x : Tensor Exact) :
    ∃ y, growing k t x t' = .ok (.evolution y) ∧ y.IsWellPosed 2 :=
  ⟨_, rfl, rfl, isSemidefinite_smul_tilt (sub_nonneg.mpr h)⟩

lemma isWellPosed_measurement {s : ℝ} (hs : s < 1) : measurement.IsWellPosed 2 s := by
  refine ⟨rfl, 1, hs, fun v => ?_⟩
  have h : symmetricPart measurement.covariance.real = 1 := symmetricPart_tilt
  rw [← dotProduct_symmetricPart, h, one_mulVec, one_mul]

end Tilted

namespace Session

/-- Every question of the run is answered by an evolution with this property. -/
def EveryAnswer (P : Evolution Exact → Prop) (s : Session Exact) : List (Measurement Exact) → Prop
  | [] => True
  | z :: zs =>
    (∃ y, s.estimator.process s.queries s.cursor.corrected.time s.cursor.corrected.state.tensor
      z.time = .ok (.evolution y) ∧ P y) ∧ EveryAnswer P (s.step (.ok z)).1 zs

section

variable {d : CholeskyDecomposer Exact} {r l t : ℝ} {s : Session Exact} {b : Belief (Exact p) n}
  {zs : List (Measurement Exact)}

lemma everyAnswer_of_forward {P : Evolution Exact → Prop} {q : Process Exact}
    (h : ∀ (k : ℕ) (t : ℝ) (x : Vec (Exact p) n) (t' : ℝ), t ≤ t' →
      ∃ y, q k t (TypedVec.tensor ⟨.real p, x⟩) t' = .ok (.evolution y) ∧ P y)
    (hq : s.estimator.process = q) (hc : s.cursor.corrected = .ofBelief t b)
    (ht : (t :: zs.map (·.time)).IsChain (· ≤ ·)) : s.EveryAnswer P zs := by
  induction zs generalizing s t b with
  | nil => trivial
  | cons z zs ih =>
    rw [List.map_cons, List.isChain_cons_cons] at ht
    refine ⟨?_, ?_⟩
    · rw [hq, hc]
      exact h s.queries t b.state z.time ht.1
    cases ho : (s.step (.ok z)).2.outcome with
    | error f =>
      have hc' := (congrArg Cursor.corrected (cursor_of_error ho)).trans hc
      exact ih (s := (s.step (.ok z)).1) hq hc' (ht.2.imp_head ht.1.trans)
    | ok y =>
      obtain ⟨c, hc', -⟩ := cycle_of_ok rfl hc ho
      exact ih (s := (s.step (.ok z)).1) hq (congrArg Cursor.corrected hc') ht.2

lemma attempts_succeed (hd : d.HasLimits r l) (he : s.estimator.decomposer = d.decomposer)
    (hc : s.cursor.corrected = .ofBelief t b)
    (hb : (symmetricPart b.covariance.toMatrix).PosSemidef)
    (ha : s.EveryAnswer (·.IsWellPosed n) zs) (ht : (t :: zs.map (·.time)).IsChain (· ≤ ·))
    (hz : ∀ z ∈ zs, z.IsWellPosed n l) : s.Succeeds (zs.map .ok) := by
  induction zs generalizing s t b with
  | nil => nofun
  | cons z zs ih =>
    rw [List.map_cons, List.isChain_cons_cons] at ht
    obtain ⟨⟨x, hx, hw⟩, ha⟩ := ha
    rw [hc] at hx
    obtain ⟨c, hP⟩ := exists_cycle hd he hx hw hb ht.1 (hz z List.mem_cons_self)
    obtain ⟨hc', ho⟩ := step_of_cycle rfl hc c
    refine succeeds_cons.mpr ⟨⟨_, ho⟩, ?_⟩
    exact ih (s := (s.step (.ok z)).1) he (congrArg Cursor.corrected hc')
      (posSemidef_symmetricPart hP) ha ht.2 fun z' h => hz z' (List.mem_cons_of_mem z h)

lemma succeeds_tilted (hd : d.HasLimits r l) (hl : l < 1) (joseph debug : Bool) :
    (opening ⟨d.decomposer, Tilted.process, joseph, debug⟩ Tilted.initial).Succeeds
      Tilted.measurements := by
  have ha : (opening ⟨d.decomposer, Tilted.process, joseph, debug⟩ Tilted.initial).EveryAnswer
      (·.IsWellPosed 2) [Tilted.measurement] :=
    ⟨⟨_, rfl, rfl, Tilted.isSemidefinite_tilt⟩, trivial⟩
  have ht : ((0 : ℝ) :: [Tilted.measurement].map (·.time)).IsChain (· ≤ ·) := by
    simp [Tilted.measurement]
  exact attempts_succeed (b := ⟨#v[0, 0], Tilted.tilt⟩) hd rfl rfl Tilted.isSemidefinite_tilt ha ht
    (List.forall_mem_singleton.mpr (Tilted.isWellPosed_measurement hl))

end

/-- Times do not decrease, from that of the initial estimate on. -/
theorem wellPosed_run_succeeds (d : CholeskyDecomposer Exact) {r l : ℝ} (hd : d.HasLimits r l)
    (q : Process Exact) (joseph debug : Bool) (t : ℝ) (b : Belief (Exact p) n)
    (hb : (Estimate.ofBelief t b).covariance.IsSemidefinite) (zs : List (Measurement Exact))
    (ht : (t :: zs.map (·.time)).IsChain (· ≤ ·)) (hz : ∀ z ∈ zs, z.IsWellPosed n l) :
    let s := opening ⟨d.decomposer, q, joseph, debug⟩ (.ofBelief t b)
    s.EveryAnswer (·.IsWellPosed n) zs → ∀ a ∈ s.attempts (zs.map .ok), ∃ y, a.outcome = .ok y := by
  intro s ha
  refine attempts_succeed (b := b) hd rfl rfl ?_ ha ht hz
  rwa [TypedMat.IsSemidefinite, ← TypedMat.toMatrix_toType _ p, Estimate.ofBelief,
    TypedMat.toType_self] at hb

theorem wellPosed_run_succeeds_growing :
    let s := opening ⟨CholeskyDecomposer.defaults.decomposer, Tilted.growing, false, false⟩
      Tilted.initial
    let zs := [Tilted.measurement, Tilted.measurement]
    CholeskyDecomposer.HasLimits .defaults 1e-15 1e-10 ∧
      Tilted.initial.covariance.IsSemidefinite ∧
      ((0 : ℝ) :: zs.map (·.time)).IsChain (· ≤ ·) ∧ (∀ z ∈ zs, z.IsWellPosed 2 1e-10) ∧
      s.EveryAnswer (·.IsWellPosed 2) zs ∧
      ∀ a ∈ s.attempts (zs.map .ok), ∃ y, a.outcome = .ok y := by
  intro s zs
  have hd := CholeskyDecomposer.hasLimits_defaults
  have hb := Tilted.isSemidefinite_tilt
  have ht : ((0 : ℝ) :: zs.map (·.time)).IsChain (· ≤ ·) := by
    simp [zs, Tilted.measurement]
  have hz : ∀ z ∈ zs, z.IsWellPosed 2 1e-10 := by
    intro z h
    obtain rfl : z = Tilted.measurement := by simpa [zs] using h
    exact Tilted.isWellPosed_measurement (by norm_num)
  have ha : s.EveryAnswer (·.IsWellPosed 2) zs :=
    everyAnswer_of_forward (fun k _ x _ h => Tilted.exists_growing h k _) rfl rfl ht
  exact ⟨hd, hb, ht, hz, ha, wellPosed_run_succeeds .defaults hd Tilted.growing false false 0
    ⟨#v[0, 0], Tilted.tilt⟩ hb zs ht hz ha⟩

end Session

end KalmanFilter
