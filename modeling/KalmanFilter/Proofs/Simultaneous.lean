import KalmanFilter.Proofs.Cycle
import KalmanFilter.Proofs.Stack
import KalmanFilter.Proofs.SymmetricSystem
import KalmanFilter.Proofs.TensorForm

/-! If the process stands still, two measurements may be taken in any order or
stacked to one, and the corrected estimate is the same. -/

namespace KalmanFilter

open Matrix

variable {p : Precision} {k m n : ℕ}

section

variable {F : Precision → Type}

def Measurement.ofObservation (time : F .double) (z : Observation (F p) m n) : Measurement F :=
  ⟨time, m, n, ⟨.real p, z.value⟩, ⟨.real p, z.matrix⟩, ⟨.real p, z.noise⟩⟩

lemma Measurement.observation_ofObservation [Arithmetic F] (time : F .double)
    (z : Observation (F p) m n) (h : (ofObservation time z).stateDimension = n) :
    (ofObservation time z).observation p h = z := by
  obtain ⟨v, H, R⟩ := z
  show Observation.mk _ _ _ = _
  simp only [ofObservation, TypedVec.toType_self, TypedMat.toType_self]

end

def Transition.still (x : Vec ℝ n) : Transition ℝ n :=
  ⟨x, .identity, .ofFn fun _ _ => 0⟩

lemma Belief.predict_still {b : Belief ℝ n} (hb : b.covariance.toMatrixᵀ = b.covariance.toMatrix) :
    b.predict (.still b.state) = b := by
  have hz : (Transition.still b.state).noise.toMatrix = 0 := by
    ext i j
    simp [Transition.still]
  have hA : (Transition.still b.state).matrix.toMatrix = 1 := Mat.toMatrix_identity
  have hc : (b.predict (.still b.state)).covariance = b.covariance := by
    apply Mat.toMatrix_injective
    rw [toMatrix_predict, hz, hA, Matrix.one_mul, transpose_one, Matrix.mul_one, add_zero,
      symmetricPart_of_symm hb]
  exact congrArg (Belief.mk b.state) hc

def Process.IsStill (q : Process Exact) (p : Precision) (n : ℕ) (t : ℝ) : Prop :=
  ∀ (k : ℕ) (x : Vec (Exact p) n), ∃ (y : Evolution Exact) (h : y.dimension = n),
    q k t (TypedVec.tensor ⟨.real p, x⟩) t = .ok (.evolution y) ∧ y.linearized p h = .still x

namespace Belief

variable {b c : Belief ℝ n} {y : Observation ℝ m n} {z : Observation ℝ k n} {K : Mat ℝ n m}
  {L : Mat ℝ n k}

lemma Joins.eq_correct {G : Mat ℝ n (m + k)} (h : Joins b y z K L c)
    (hb : b.covariance.toMatrixᵀ = b.covariance.toMatrix)
    (hS : IsUnit (b.innovationCovariance (y.stack z)).toMatrix.det)
    (hG : b.IsGain (y.stack z) G) (joseph : Bool) : c = b.correct joseph (y.stack z) G := by
  rw [← (h.isGain hb).unique hG hS, h.correct_stack hb]

end Belief

def Cursor.HasPrior (x : Cursor Exact) (q : Process Exact) (k : ℕ) (t : ℝ)
    (P : Belief (Exact p) n) : Prop :=
  ∃ (t₀ : ℝ) (b : Belief (Exact p) n) (y : Evolution Exact) (h : y.dimension = n),
    x.corrected = .ofBelief t₀ b ∧ t₀ ≤ t ∧
      q k t₀ (TypedVec.tensor ⟨.real p, b.state⟩) t = .ok (.evolution y) ∧
      P = b.predict (y.linearized p h)

namespace Cursor

lemma hasPrior_of_isStill {x : Cursor Exact} {q : Process Exact} {t : ℝ} {c : Belief (Exact p) n}
    (hq : q.IsStill p n t) (hx : x.corrected = .ofBelief t c)
    (hc : c.covariance.toMatrixᵀ = c.covariance.toMatrix) (k : ℕ) : x.HasPrior q k t c := by
  obtain ⟨y, hn, hy, hl⟩ := hq k c.state
  refine ⟨t, c, y, hn, hx, le_rfl, hy, ?_⟩
  rw [hl, Belief.predict_still hc]

namespace HasPrior

variable {s : Session Exact} {t : ℝ} {P : Belief (Exact p) n} {y z : Measurement Exact}

lemma symm {x : Cursor Exact} {q : Process Exact} (h : x.HasPrior q k t P) :
    P.covariance.toMatrixᵀ = P.covariance.toMatrix := by
  obtain ⟨t₀, b, y, hn, -, -, -, rfl⟩ := h
  exact Belief.transpose_predict b (y.linearized p hn)

variable (h : s.cursor.HasPrior s.estimator.process s.queries t P)
include h

lemma step_of_gain (ht : z.time = t) (hz : z.stateDimension = n) {K : Mat (Exact p) n z.dimension}
    (hK : (s.estimator.gain P (z.observation p hz)).outcome = .ok K) :
    (s.step (.ok z)).1.cursor.corrected =
        .ofBelief t (P.correct s.estimator.joseph (z.observation p hz) K) ∧
      ∃ x, (s.step (.ok z)).2.outcome = .ok x := by
  obtain ⟨t₀, b, x, hn, hs, h₀, hx, rfl⟩ := h
  subst ht
  obtain ⟨hc, ho⟩ := Session.step_of_cycle rfl hs ⟨x, K, h₀.not_gt, hz, hx, hn, hK⟩
  exact ⟨congrArg Cursor.corrected hc, _, ho⟩

lemma exists_gain_of_ok (ht : z.time = t) (hz : z.stateDimension = n) {x : Estimate Exact}
    (ho : (s.step (.ok z)).2.outcome = .ok x) :
    ∃ K, (s.estimator.gain P (z.observation p hz)).outcome = .ok K := by
  obtain ⟨t₀, b, x, hn, hs, -, hx, rfl⟩ := h
  subst ht
  obtain ⟨⟨x', K, -, _, hx', _, hK⟩, -⟩ := Session.cycle_of_ok rfl hs ho
  obtain rfl := Reply.evolution.inj (Except.ok.inj (hx.symm.trans hx'))
  exact ⟨K, hK⟩

variable (hd : s.estimator.decomposer.SolvesSymmetric)
include hd

lemma exists_isGain_of_ok (ht : z.time = t) (hz : z.stateDimension = n) {x : Estimate Exact}
    (ho : (s.step (.ok z)).2.outcome = .ok x) :
    ∃ K, P.IsGain (z.observation p hz) K ∧ (s.step (.ok z)).1.cursor.corrected =
      .ofBelief t (P.correct s.estimator.joseph (z.observation p hz) K) := by
  obtain ⟨K, hK⟩ := h.exists_gain_of_ok ht hz ho
  exact ⟨K, Estimator.isGain_of_solvesSymmetric hd hK, (h.step_of_gain ht hz hK).1⟩

variable (hq : s.estimator.process.IsStill p n t) (hty : y.time = t) (htz : z.time = t)
  (hy : y.stateDimension = n) (hz : z.stateDimension = n)
include hq hty htz

lemma exists_joins (hs : s.Succeeds [.ok y, .ok z]) :
    ∃ K L, ∃ c : Belief (Exact p) n,
      P.Joins (y.observation p hy) (z.observation p hz) K L c ∧
        (s.run [.ok y, .ok z]).cursor.corrected = .ofBelief t c := by
  obtain ⟨⟨u, hu⟩, hs⟩ := Session.succeeds_cons.mp hs
  obtain ⟨⟨v, hv⟩, -⟩ := Session.succeeds_cons.mp hs
  obtain ⟨K, hK, hc⟩ := h.exists_isGain_of_ok hd hty hy hu
  -- the first step leaves its posterior as the prior of the second
  have hP := hasPrior_of_isStill hq hc (Belief.transpose_correct P _ _ K)
    (s.step (.ok y)).1.queries
  obtain ⟨L, hL, hr⟩ := exists_isGain_of_ok (s := (s.step (.ok y)).1) hP hd htz hz hv
  exact ⟨_, L, _, Belief.joins_of_correct h.symm hK hL, hr⟩

lemma succeeds_of_isUnit (hr : s.estimator.decomposer.AcceptsRegular)
    (hS : IsUnit (P.innovationCovariance (y.observation p hy)).toMatrix.det)
    (hSS : IsUnit (P.innovationCovariance
      ((y.observation p hy).stack (z.observation p hz))).toMatrix.det) :
    s.Succeeds [.ok y, .ok z] := by
  obtain ⟨K, hK⟩ := Estimator.exists_gain_of_acceptsRegular hr hS
  obtain ⟨hc, hu⟩ := h.step_of_gain hty hy hK
  have hG := Estimator.isGain_of_solvesSymmetric hd hK
  have hP := hasPrior_of_isStill hq hc (Belief.transpose_correct P _ _ K)
    (s.step (.ok y)).1.queries
  obtain ⟨L, hL⟩ := Estimator.exists_gain_of_acceptsRegular hr
    (Belief.isUnit_innovationCovariance_correct h.symm hG hSS)
  have hv := (step_of_gain (s := (s.step (.ok y)).1) hP htz hz hL).2
  exact Session.succeeds_cons.mpr ⟨hu, Session.succeeds_cons.mpr ⟨hv, nofun⟩⟩

end HasPrior

end Cursor

namespace Process

def resting (p : Precision) (n : ℕ) : Process Exact :=
  fun _ _ state time => do
    return .evolution (← Evolution.of time state
      (TypedMat.tensor (F := Exact) (m := n) ⟨.real p, (.identity : Mat ℝ n n)⟩)
      (TypedMat.tensor (F := Exact) (m := n) ⟨.real p, (.ofFn fun _ _ => 0 : Mat ℝ n n)⟩))

lemma exists_resting (k : ℕ) (t t' : ℝ) (x : Vec (Exact p) n) :
    ∃ (y : Evolution Exact) (h : y.dimension = n),
      resting p n k t (TypedVec.tensor ⟨.real p, x⟩) t' = .ok (.evolution y) ∧
        y.linearized p h = .still x := by
  refine ⟨⟨t', n, ⟨.real p, x⟩, ⟨.real p, (.identity : Mat ℝ n n)⟩,
    ⟨.real p, (.ofFn fun _ _ => 0 : Mat ℝ n n)⟩⟩, rfl, ?_, ?_⟩
  · rw [resting, Evolution.of_tensor]
    rfl
  · show Transition.mk _ _ _ = _
    simp only [TypedVec.toType_self, TypedMat.toType_self, Transition.still]

lemma isStill_resting (t : ℝ) : (resting p n).IsStill p n t :=
  fun k x => exists_resting k t t x

end Process

namespace Crossing

def belief : Belief (Exact .double) 2 :=
  ⟨Vector.replicate 2 0, .identity⟩

def along (a b value : ℝ) : Measurement Exact :=
  .ofObservation (p := .double) (m := 1) (n := 2) 1 ⟨#v[value], ⟨#v[#v[a, b]]⟩, .identity⟩

def start : Cursor Exact :=
  ⟨none, .ofBelief 0 belief⟩

lemma hasPrior_start : start.HasPrior (.resting .double 2) 0 1 belief := by
  have hb : belief.covariance.toMatrixᵀ = belief.covariance.toMatrix := by
    rw [belief, Mat.toMatrix_identity, transpose_one]
  obtain ⟨y, hn, hy, hl⟩ := Process.exists_resting 0 0 1 belief.state
  refine ⟨0, belief, y, hn, rfl, zero_le_one, hy, ?_⟩
  rw [hl, Belief.predict_still hb]

lemma isUnit_innovationCovariance {z : Observation ℝ m 2} (hz : z.noise = .identity) :
    IsUnit (belief.innovationCovariance z).toMatrix.det := by
  have hb : belief.covariance.toMatrix.PosSemidef := by
    rw [belief, Mat.toMatrix_identity]
    exact .one
  have hR : (symmetricPart z.noise.toMatrix).PosDef := by
    rw [hz, Mat.toMatrix_identity, symmetricPart_of_symm transpose_one]
    exact .one
  exact (isUnit_iff_isUnit_det _).mp (Belief.posDef_innovationCovariance hb hR).isUnit

lemma noise_along (a b value : ℝ) (h : (along a b value).stateDimension = 2) :
    ((along a b value).observation .double h).noise = (.identity : Mat ℝ 1 1) := by
  rw [Measurement.observation_noise]
  exact TypedMat.toType_self (F := Exact) _

lemma noise_stack {y : Observation ℝ m n} {z : Observation ℝ k n} (hy : y.noise = .identity)
    (hz : z.noise = .identity) : (y.stack z).noise = .identity := by
  ext i j
  cases i using Fin.addCases <;> cases j using Fin.addCases <;>
    simp [hy, hz, Observation.stack, Mat.identity, Fin.ext_iff] <;> omega

end Crossing

namespace Session

/-- Nothing is asked about the second of two steps: what it has to decompose is invertible if the
innovation covariance of the stack is. -/
theorem simultaneous_measurements_agree (d : Decomposer Exact) (hd : d.SolvesSymmetric)
    (q : Process Exact) (t : ℝ) (hq : q.IsStill p n t) (x : Cursor Exact) (k : ℕ)
    (P : Belief (Exact p) n) (h : x.HasPrior q k t P) (y z : Measurement Exact)
    (hty : y.time = t) (htz : z.time = t) (hy : y.stateDimension = n) (hz : z.stateDimension = n)
    (hSy : IsUnit (P.innovationCovariance (y.observation p hy)).toMatrix.det)
    (hSz : IsUnit (P.innovationCovariance (z.observation p hz)).toMatrix.det)
    (hS : IsUnit (P.innovationCovariance
      ((y.observation p hy).stack (z.observation p hz))).toMatrix.det) :
    let w : Measurement Exact := .ofObservation t ((y.observation p hy).stack (z.observation p hz))
    ∃ c : Belief (Exact p) n, ∀ joseph debug,
      let s : Session Exact := ⟨⟨d, q, joseph, debug⟩, x, k⟩
      ∀ zs ∈ [[.ok y, .ok z], [.ok z, .ok y], [.ok w]],
        (s.Succeeds zs → (s.run zs).cursor.corrected = .ofBelief t c) ∧
          (d.AcceptsRegular → s.Succeeds zs) := by
  intro w
  have hn : w.stateDimension = n := rfl
  have hw : w.observation p hn = (y.observation p hy).stack (z.observation p hz) :=
    Measurement.observation_ofObservation t _ hn
  obtain ⟨G, hG⟩ := Belief.exists_isGain hS
  refine ⟨P.correct false ((y.observation p hy).stack (z.observation p hz)) G, ?_⟩
  intro joseph debug s zs hzs
  have hs : s.cursor.HasPrior s.estimator.process s.queries t P := h
  rw [Belief.correct_eq_of_isGain h.symm hG false joseph]
  simp only [List.mem_cons, List.not_mem_nil, or_false] at hzs
  rcases hzs with rfl | rfl | rfl
  · refine ⟨fun ho => ?_, fun hr => hs.succeeds_of_isUnit hd hq hty htz hy hz hr hSy hS⟩
    obtain ⟨K, L, c, hj, hc⟩ := hs.exists_joins hd hq hty htz hy hz ho
    rw [hc, hj.eq_correct h.symm hS hG joseph]
  · refine ⟨fun ho => ?_, fun hr => hs.succeeds_of_isUnit hd hq htz hty hz hy hr hSz
      (Belief.isUnit_stack_comm h.symm hS)⟩
    obtain ⟨K, L, c, hj, hc⟩ := hs.exists_joins hd hq htz hty hz hy ho
    rw [hc, hj.symm.eq_correct h.symm hS hG joseph]
  · constructor
    · intro ho
      obtain ⟨⟨u, hu⟩, -⟩ := succeeds_cons.mp ho
      obtain ⟨K, hK, hc⟩ := hs.exists_isGain_of_ok (z := w) hd rfl hn hu
      rw [hw] at hK hc
      obtain rfl := hK.unique hG hS
      exact hc
    · intro hr
      obtain ⟨K, hK⟩ := Estimator.exists_gain_of_acceptsRegular (e := s.estimator) hr hS
      rw [← hw] at hK
      exact succeeds_cons.mpr ⟨(hs.step_of_gain (z := w) rfl hn hK).2, nofun⟩

theorem simultaneous_measurements_agree_crossing :
    let q : Process Exact := .resting .double 2
    let y := Crossing.along 1 0 1
    let z := Crossing.along 1 1 3
    let w : Measurement Exact :=
      .ofObservation 1 ((y.observation .double rfl).stack (z.observation .double rfl))
    Decomposer.byInverse.SolvesSymmetric ∧ Decomposer.byInverse.AcceptsRegular ∧
      q.IsStill .double 2 1 ∧ Crossing.start.HasPrior q 0 1 Crossing.belief ∧
      IsUnit (Crossing.belief.innovationCovariance (y.observation .double rfl)).toMatrix.det ∧
      IsUnit (Crossing.belief.innovationCovariance (z.observation .double rfl)).toMatrix.det ∧
      IsUnit (Crossing.belief.innovationCovariance
        ((y.observation .double rfl).stack (z.observation .double rfl))).toMatrix.det ∧
      ∃ c : Belief (Exact .double) 2, ∀ joseph debug,
        let s : Session Exact := ⟨⟨.byInverse, q, joseph, debug⟩, Crossing.start, 0⟩
        ∀ zs ∈ [[.ok y, .ok z], [.ok z, .ok y], [.ok w]],
          s.Succeeds zs ∧ (s.run zs).cursor.corrected = .ofBelief 1 c := by
  intro q y z w
  have hd : Decomposer.byInverse.SolvesSymmetric :=
    Decomposer.byInverse_solvesSymmetric
  have hr : Decomposer.byInverse.AcceptsRegular := Decomposer.byInverse_acceptsRegular
  have hq : q.IsStill .double 2 1 := Process.isStill_resting 1
  have hy : (y.observation .double rfl).noise = (.identity : Mat ℝ 1 1) :=
    Crossing.noise_along 1 0 1 rfl
  have hz : (z.observation .double rfl).noise = (.identity : Mat ℝ 1 1) :=
    Crossing.noise_along 1 1 3 rfl
  have hSy := Crossing.isUnit_innovationCovariance hy
  have hSz := Crossing.isUnit_innovationCovariance hz
  have hS := Crossing.isUnit_innovationCovariance (Crossing.noise_stack hy hz)
  obtain ⟨c, hc⟩ := simultaneous_measurements_agree .byInverse hd q 1 hq Crossing.start 0
    Crossing.belief Crossing.hasPrior_start y z rfl rfl rfl rfl hSy hSz hS
  refine ⟨hd, hr, hq, Crossing.hasPrior_start, hSy, hSz, hS, c, ?_⟩
  intro joseph debug s zs hzs
  obtain ⟨hagree, hsucceeds⟩ := hc joseph debug zs hzs
  exact ⟨hsucceeds hr, hagree (hsucceeds hr)⟩

end Session

end KalmanFilter
