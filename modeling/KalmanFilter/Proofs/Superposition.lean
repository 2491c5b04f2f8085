import Mathlib.Analysis.SpecialFunctions.Log.Basic
import KalmanFilter.Proofs.ExactStep
import KalmanFilter.Proofs.LinearPrediction
import KalmanFilter.Proofs.Lockstep

/-! The estimates of a linear filter are an affine function of its initial state,
commands and measured values. Their error comes from the one before and from that of
the measured value alone. -/

namespace KalmanFilter

open Fallible (Joint)
open Matrix

variable {p : Precision} {n : ℕ}

def Link.mixed (l : ℝ) : Link Exact (Fin 3) :=
  fun _ x => x 2 = (1 - l) * x 0 + l * x 1

lemma Link.mixed_isLinear (l : ℝ) : (mixed l).IsLinear where
  zero _ := by
    simp [mixed]
  add {p x y} hx hy := by
    simp only [mixed] at hx hy ⊢
    rw [hx, hy]
    ring
  sub {p x y} hx hy := by
    simp only [mixed] at hx hy ⊢
    rw [hx, hy]
    ring
  mul {p x} a hx := by
    simp only [mixed] at hx ⊢
    rw [hx]
    ring

namespace LinearEvolution

noncomputable def drive (le : LinearEvolution Exact) (x : Fin n → ℝ) : Fin n → ℝ :=
  le.transition.matrix n n *ᵥ x + match le.control with
    | none => 0
    | some u => u.matrix.matrix n (u.command.shape.headD 0) *ᵥ
        u.command.vector (u.command.shape.headD 0)

lemma drive_sub (le : LinearEvolution Exact) (x y : Fin n → ℝ) :
    le.drive x - le.drive y = le.transition.matrix n n *ᵥ (x - y) := by
  rw [drive, drive, add_sub_add_right_eq_sub, mulVec_sub]

lemma predict_exact {le : LinearEvolution Exact} (hle : le.IsBuilt) {x : TypedVec Exact n}
    (hx : x.type = .real p) {time : ℝ} {y : Evolution Exact}
    (h : le.predict (.ok time) x.tensor = .ok y) :
    y.state.tensor.vector n = le.drive x.real := by
  obtain ⟨d, x⟩ := x
  obtain rfl : d = .real p := hx
  cases fits_of_predict hle rfl h with
  | free A Q =>
    obtain rfl := Except.ok.inj ((predict_free A Q x).symm.trans h)
    have hs : Vector.get (α := ℝ) (A.toType (.real p) * x) = A.real *ᵥ x.get := by
      rw [Mat.get_mulVec, A.toMatrix_toType]
    simp only [Tensor.vector_tensor, TypedVec.real_mk, drive, Tensor.matrix_tensor, add_zero]
    exact hs
  | @driven c A Q B u =>
    obtain rfl := Except.ok.inj ((predict_driven A Q B u x).symm.trans h)
    have hu : B.tensor.matrix n (u.tensor.shape.headD 0) *ᵥ u.tensor.vector (u.tensor.shape.headD 0) =
        B.real *ᵥ u.real := by
      show B.tensor.matrix n c *ᵥ u.tensor.vector c = _
      rw [Tensor.matrix_tensor, Tensor.vector_tensor]
    have hs : Vector.get (α := ℝ)
        (A.toType (.real p) * x + B.toType (.real p) * u.toType (.real p)) =
          A.real *ᵥ x.get + B.real *ᵥ u.real := by
      rw [Vec.get_add, Mat.get_mulVec, Mat.get_mulVec, A.toMatrix_toType, B.toMatrix_toType,
        u.get_toType]
    simp only [Tensor.vector_tensor, TypedVec.real_mk, drive, Tensor.matrix_tensor]
    exact hs.trans (congrArg _ hu.symm)

end LinearEvolution

noncomputable def Measurement.error (z : Measurement Exact) (x : Fin n → ℝ) : Fin z.dimension → ℝ :=
  z.value.real - z.matrix.tensor.matrix z.dimension n *ᵥ x

def LinearProcess.IsBuilt (q : LinearProcess Exact) : Prop :=
  ∀ k t t' le, q k t t' = .ok le → le.IsBuilt

def Estimate.IsAt (y : Estimate Exact) (x : Fin n → ℝ) : Prop :=
  y.dimension = n ∧ y.state.tensor.vector n = x

def Cursor.IsAt (c : Cursor Exact) (x : Fin n → ℝ) : Prop :=
  (∀ y ∈ c.predicted, y.IsAt x) ∧ c.corrected.IsAt x

lemma Estimate.isAt_ofBelief (time : ℝ) (b : Belief (Exact p) n) :
    (ofBelief time b).IsAt b.state.get := by
  refine ⟨rfl, ?_⟩
  rw [ofBelief, Tensor.vector_tensor, TypedVec.real_mk]

namespace Advance

variable {d : Decomposer Exact} {q : LinearProcess Exact} {joseph debug : Bool} {k : ℕ}
  {y : Estimate Exact} {z : Measurement Exact} {le : LinearEvolution Exact}

lemma exists_drive (hq : q.IsBuilt) (a : Advance (.linear d q joseph debug) k y z) :
    ∃ le, q k y.time z.time = .ok le ∧ a.prior.state.get = le.drive y.state.real := by
  obtain ⟨le, hle, hr⟩ := Fallible.bind_eq_ok_iff.mp a.answers
  obtain ⟨x, hx, hr⟩ := Fallible.bind_eq_ok_iff.mp hr
  obtain rfl : x = a.evolution := by
    cases hr
    rfl
  have hp := (Estimate.types_of_belief? a.typed).1
  exact ⟨le, hle, a.prior_state.trans (LinearEvolution.predict_exact (hq _ _ _ _ hle) hp hx)⟩

lemma error_eq (a : Advance (.linear d q joseph debug) k y z)
    (ha : a.prior.state.get = le.drive y.state.real) (x : Fin y.dimension → ℝ) :
    le.drive x - a.posterior.state.get =
      (1 - Mat.toMatrix a.gain * z.matrix.tensor.matrix z.dimension y.dimension) *ᵥ
          (le.transition.matrix y.dimension y.dimension *ᵥ (x - y.state.real)) -
        Mat.toMatrix a.gain *ᵥ z.error (le.drive x) := by
  rw [a.posterior_state, ha, ← LinearEvolution.drive_sub, Measurement.error, sub_mulVec, one_mulVec,
    ← mulVec_mulVec]
  simp only [mulVec_sub]
  abel

/-- What a step makes of the distance to a true state, if the process answers so. -/
structure CarriesError (a : Advance (.linear d q joseph debug) k y z) (le : LinearEvolution Exact) :
    Prop where
  answers : q k y.time z.time = .ok le
  isGain : d.SolvesSymmetric → a.prior.IsGain a.observation a.gain
  error (x : Fin y.dimension → ℝ) :
    let A := le.transition.matrix y.dimension y.dimension
    let H := z.matrix.tensor.matrix z.dimension y.dimension
    let K := Mat.toMatrix a.gain
    le.drive x - a.posterior.state.get =
      (1 - K * H) *ᵥ (A *ᵥ (x - y.state.real)) - K *ᵥ z.error (le.drive x)

lemma exists_carriesError (hq : q.IsBuilt) (a : Advance (.linear d q joseph debug) k y z) :
    ∃ le, a.CarriesError le := by
  obtain ⟨le, hle, ha⟩ := a.exists_drive hq
  exact ⟨le, hle, fun hd => Estimator.isGain_of_solvesSymmetric hd a.gain_outcome,
    fun x => a.error_eq ha x⟩

lemma isAt_cursor (hq : q.IsBuilt) (a : Advance (.linear d q joseph debug) k y z)
    {x : Fin n → ℝ} (hy : y.IsAt x) (hle : q k y.time z.time = .ok le)
    (hz : z.error (le.drive x) = 0) : a.cursor.IsAt (le.drive x) := by
  obtain ⟨rfl, rfl⟩ := hy
  rw [Tensor.vector_tensor] at hz ⊢
  obtain ⟨le', hle', ha⟩ := a.exists_drive hq
  obtain rfl := Except.ok.inj (hle.symm.trans hle')
  -- the estimate before is the true state and the value has no error, so nothing is left
  have he := a.error_eq ha y.state.real
  rw [hz, sub_self, mulVec_zero, mulVec_zero, mulVec_zero, sub_zero, sub_eq_zero] at he
  constructor
  · rintro w hw
    obtain rfl := Option.some.inj hw
    exact ha ▸ Estimate.isAt_ofBelief _ a.prior
  · exact he ▸ Estimate.isAt_ofBelief _ a.posterior

end Advance

namespace Session

noncomputable def after (s : Session Exact) (zs : ℕ → Measurement Exact) (k : ℕ) : Session Exact :=
  s.run ((List.range k).map fun i => .ok (zs i))

lemma after_succ (s : Session Exact) (zs : ℕ → Measurement Exact) (k : ℕ) :
    s.after zs (k + 1) = ((s.after zs k).step (.ok (zs k))).1 := by
  rw [after, List.range_succ, List.map_append, run_append]
  rfl

/-- From a true state at which the estimate is, the process goes on to true states, and these are
measured without error. -/
structure Follows (s : Session Exact) (q : LinearProcess Exact) (zs : ℕ → Measurement Exact)
    (x : ℕ → Fin n → ℝ) (N : ℕ) : Prop where
  start : s.cursor.IsAt (x 0)
  driven : ∀ k < N, ∃ le, q (s.after zs k).queries (s.after zs k).cursor.corrected.time
    (zs k).time = .ok le ∧ x (k + 1) = le.drive (x k)
  measured : ∀ k < N, (zs k).error (x (k + 1)) = 0
  succeeds : ∀ k < N, ∃ y, ((s.after zs k).step (.ok (zs k))).2.outcome = .ok y

lemma Follows.isAt_after {s : Session Exact} {d : Decomposer Exact} {q : LinearProcess Exact}
    {joseph debug : Bool} (he : s.estimator = .linear d q joseph debug) (hq : q.IsBuilt)
    {zs : ℕ → Measurement Exact} {x : ℕ → Fin n → ℝ} {N : ℕ} (h : s.Follows q zs x N) {k : ℕ}
    (hk : k ≤ N) : (s.after zs k).cursor.IsAt (x k) := by
  induction k with
  | zero => exact h.start
  | succ k ih =>
    obtain ⟨le, hle, hxk⟩ := h.driven k hk
    obtain ⟨y, hy⟩ := h.succeeds k hk
    obtain ⟨m, a, hm, hc, -⟩ := advance_of_ok (s := s.after zs k) ((run_estimator s _).trans he) hy
    obtain rfl := Except.ok.inj hm
    have hzk := h.measured k hk
    rw [hxk] at hzk ⊢
    rw [after_succ, hc]
    exact a.isAt_cursor hq (ih (Nat.le_of_succ_le hk)).2 hle hzk

end Session

namespace Coasting

def one : TypedMat Exact 1 1 :=
  ⟨.real .double, .identity⟩

def model (u : ℝ) : LinearEvolution Exact :=
  ⟨one.tensor, one.tensor, some ⟨one.tensor, TypedVec.tensor ⟨.real .double, #v[u]⟩⟩⟩

def process (u : ℝ) : LinearProcess Exact :=
  fun _ _ _ => .ok (model u)

def initial (x : ℝ) : Estimate Exact :=
  ⟨0, 1, ⟨.real .double, #v[x]⟩, one⟩

def measurement (y : ℝ) : Measurement Exact :=
  ⟨1, 1, 1, ⟨.real .double, #v[y]⟩, one, one⟩

noncomputable def session (u x : ℝ) : Session Exact :=
  .opening (.linear .byInverse (process u) true false) (initial x)

lemma isBuilt_process (u : ℝ) : (process u).IsBuilt := by
  intro k t t' le h
  obtain rfl := Except.ok.inj h
  exact ⟨one.tensor, one.tensor, some one.tensor, some (TypedVec.tensor ⟨.real .double, #v[u]⟩), rfl⟩

lemma real_one : one.real = 1 := by
  rw [← TypedMat.toMatrix_toType one .double, one, TypedMat.toType_self, Mat.toMatrix_identity]

lemma real_single (c : ℝ) : (⟨.real .double, #v[c]⟩ : TypedVec Exact 1).real = fun _ => c := by
  rw [TypedVec.real_mk]
  funext i
  fin_cases i
  rfl

lemma one_mulVec (x : Fin 1 → ℝ) : one.tensor.matrix 1 1 *ᵥ x = x := by
  rw [Tensor.matrix_tensor, real_one, Matrix.one_mulVec]

lemma isAt_initial (x : ℝ) : (initial x).IsAt fun _ : Fin 1 => x :=
  ⟨rfl, (Tensor.vector_tensor _).trans (real_single x)⟩

lemma drive_model (u x : ℝ) : (model u).drive (fun _ : Fin 1 => x) = fun _ => x + u := by
  have hu : (TypedVec.tensor ⟨.real .double, #v[u]⟩).vector 1 = fun _ => u :=
    (Tensor.vector_tensor _).trans (real_single u)
  show one.tensor.matrix 1 1 *ᵥ _ + one.tensor.matrix 1 1 *ᵥ Tensor.vector _ 1 = _
  rw [one_mulVec, one_mulVec, hu]
  rfl

lemma error_measurement (y x : ℝ) : (measurement y).error (fun _ : Fin 1 => x) = fun _ => y - x := by
  show TypedVec.real ⟨.real .double, #v[y]⟩ - one.tensor.matrix 1 1 *ᵥ _ = _
  rw [one_mulVec, real_single]
  rfl

lemma linked {l : ℝ} {c : Fin 3 → ℝ} (h : c 2 = (1 - l) * c 0 + l * c 1) :
    Estimate.Linked (.mixed l) .double (fun i => initial (c i)) ∧
      (∀ k t t', Joint (LinearEvolution.Linked (.mixed l) .double) fun i =>
        process (c i) k t t') ∧
      Measurement.Linked (.mixed l) .double fun i => measurement (c i) := by
  have hv : Vec.Linked (.mixed l) fun i => (#v[c i] : Vec (Exact .double) 1) := by
    intro k
    fin_cases k
    exact h
  refine ⟨.of 0 one hv, fun _ _ _ => .ok (.driven _ _ _ ?_), .of 1 one one ?_⟩
  · simp only [TypedVec.toType_tensor, TypedVec.toType_self]
    exact Tensor.linked_tensor hv
  · simp only [TypedVec.toType_self]
    exact hv

lemma step_succeeds (u x y : ℝ) :
    ∃ w, ((session u x).step (.ok (measurement y))).2.outcome = .ok w := by
  let v : TypedVec Exact 1 := ⟨.real .double, #v[u]⟩
  let b : Belief (Exact .double) 1 := ⟨#v[x], .identity⟩
  let z : Observation (Exact .double) 1 1 := (measurement y).observation .double rfl
  let e : Evolution Exact :=
    ⟨1, 1, ⟨.real .double, one.toType (.real .double) * b.state +
      one.toType (.real .double) * v.toType (.real .double)⟩,
      ⟨.real .double, one.toType (.real .double)⟩, one⟩
  have hI : symmetricPart (Mat.toMatrix (one.toType (.real .double))) = 1 := by
    rw [TypedMat.toMatrix_toType, real_one, symmetricPart_of_symm transpose_one]
  have hb : symmetricPart b.covariance.toMatrix = 1 := by
    rw [Mat.toMatrix_identity, symmetricPart_of_symm transpose_one]
  have hP : (b.predict (e.linearized .double rfl)).covariance.toMatrix.PosSemidef :=
    Belief.posSemidef_predict (hb ▸ .one) (hI ▸ .one)
  have hS : ((b.predict (e.linearized .double rfl)).innovationCovariance z).toMatrix.PosDef :=
    Belief.posDef_innovationCovariance hP (hI ▸ .one)
  have hr : (process u).linearize 0 0 (initial x).state.tensor 1 = .ok (.evolution e) := by
    show (model u).predict (.ok 1) (TypedVec.tensor ⟨.real .double, b.state⟩) >>= (fun e =>
      (.ok (.evolution e) : Fallible Exact (Reply Exact))) = _
    rw [model, LinearEvolution.predict_driven]
    rfl
  have a : Advance (session u x).estimator 0 (initial x) (measurement y) := {
    precision := .double
    belief := b
    evolution := e
    solve := _
    solution := _
    timely := not_lt.mpr zero_le_one
    observes := rfl
    typed := Estimate.belief?_ofBelief 0 b
    answers := hr
    evolves := rfl
    accepts := congrArg Attempt.outcome
      (Decomposer.byInverse_of_isUnit ((Matrix.isUnit_iff_isUnit_det _).mp hS.isUnit))
    solves := rfl }
  exact ⟨_, (Session.step_of_advance rfl a).2⟩

end Coasting

namespace Session

/-- Of three runs the last one is the combination of the others, step by step. -/
structure Superposes (l : ℝ) (p : Precision) (s : Fin 3 → Session Exact)
    (zs : List (Fin 3 → Fallible Exact (Measurement Exact))) : Prop where
  attempts : ∃ as : List (Fin 3 → Attempt Exact (Estimate Exact)),
    (∀ i, (s i).attempts (zs.map (· i)) = as.map (· i)) ∧
      ∀ a ∈ as, Joint (Estimate.Linked (.mixed l) p) fun i => (a i).outcome
  cursors (k : ℕ) : Cursor.Linked (.mixed l) p fun i => ((s i).run ((zs.take k).map (· i))).cursor

/-- Whatever the decomposer is, the same steps fail; if a step succeeds, the error that follows is
that of any true state from which the process takes it on. -/
theorem linear_run_superposes (d : Decomposer Exact) (joseph debug : Bool) :
    (∀ (l : ℝ) (p : Precision) (q : Fin 3 → LinearProcess Exact) (x : Fin 3 → Estimate Exact)
      (zs : List (Fin 3 → Fallible Exact (Measurement Exact))),
      (∀ k t t', Joint (LinearEvolution.Linked (.mixed l) p) fun i => q i k t t') →
      Estimate.Linked (.mixed l) p x →
      (∀ z ∈ zs, Joint (Measurement.Linked (.mixed l) p) z) →
      Superposes l p (fun i => opening (.linear d (q i) joseph debug) (x i)) zs) ∧
    ∀ q : LinearProcess Exact, q.IsBuilt →
      (∀ (s : Session Exact) (z : Measurement Exact) (w : Estimate Exact),
        s.estimator = .linear d q joseph debug → (s.step (.ok z)).2.outcome = .ok w →
        ∃ (a : Advance (.linear d q joseph debug) s.queries s.cursor.corrected z)
          (le : LinearEvolution Exact),
          (s.step (.ok z)).1.cursor = a.cursor ∧ a.CarriesError le) ∧
      ∀ (s : Session Exact) (n : ℕ) (zs : ℕ → Measurement Exact) (x : ℕ → Fin n → ℝ) (N : ℕ),
        s.estimator = .linear d q joseph debug → s.Follows q zs x N →
        ∀ k ≤ N, (s.after zs k).cursor.IsAt (x k) := by
  refine ⟨?_, fun q hq => ⟨?_, ?_⟩⟩
  · intro l p q x zs hq hx hz
    have hP := Link.mixed_isLinear l
    refine ⟨(run_alike d joseph debug hP hq hz (.first hx) 0).1, fun k => ?_⟩
    exact (run_alike d joseph debug hP hq (fun z h => hz z (List.mem_of_mem_take h))
      (.first hx) 0).2
  · intro s z w he hw
    obtain ⟨m, a, hm, hc, -⟩ := advance_of_ok he hw
    obtain rfl := Except.ok.inj hm
    obtain ⟨le, hle⟩ := a.exists_carriesError hq
    exact ⟨a, le, hc, hle⟩
  · intro s n zs x N he h k hk
    exact h.isAt_after he hq hk

theorem linear_run_superposes_coasting :
    let u : Fin 3 → ℝ := ![1, 3, 2]
    let s (i : Fin 3) := Coasting.session (u i) (u i)
    let z (i : Fin 3) := Coasting.measurement (2 * u i)
    let y := (s 0).cursor.corrected
    (∀ i, ∃ w, ((s i).step (.ok (z i))).2.outcome = .ok w) ∧
      Cursor.Linked (.mixed (1 / 2)) .double (fun i => ((s i).run [.ok (z i)]).cursor) ∧
      (∃ (le : LinearEvolution Exact) (a : Advance (s 0).estimator 0 y (z 0)),
        ∀ x : Fin y.dimension → ℝ, le.drive x - a.posterior.state.get =
          (1 - Mat.toMatrix a.gain * (z 0).matrix.tensor.matrix (z 0).dimension y.dimension) *ᵥ
            (le.transition.matrix y.dimension y.dimension *ᵥ (x - y.state.real)) -
              Mat.toMatrix a.gain *ᵥ (z 0).error (le.drive x)) ∧
      ((s 0).run [.ok (z 0)]).cursor.IsAt (fun _ : Fin 1 => (2 : ℝ)) := by
  intro u s z y
  have hs : ∀ i, ∃ w, ((s i).step (.ok (z i))).2.outcome = .ok w :=
    fun i => Coasting.step_succeeds ..
  have hu : u 2 = (1 - 1 / 2) * u 0 + 1 / 2 * u 1 := by
    simp only [u, cons_val]
    norm_num
  have hz : 2 * u 2 = (1 - 1 / 2) * (2 * u 0) + 1 / 2 * (2 * u 1) := by
    rw [hu]
    ring
  obtain ⟨hmix, hall⟩ := linear_run_superposes .byInverse true false
  obtain ⟨herror, htruth⟩ := hall _ (Coasting.isBuilt_process 1)
  refine ⟨hs, ?_, ?_, ?_⟩
  · obtain ⟨hx, hq, -⟩ := Coasting.linked hu
    refine (hmix _ _ _ _ [fun i => .ok (z i)] hq hx (List.forall_mem_singleton.mpr ?_)).cursors 1
    exact .ok (Coasting.linked (c := fun i => 2 * u i) hz).2.2
  · obtain ⟨w, hw⟩ := hs 0
    obtain ⟨a, le, -, ha⟩ := herror (s 0) (z 0) w rfl hw
    exact ⟨le, a, ha.error⟩
  · let x : ℕ → Fin 1 → ℝ := fun k _ => Nat.casesOn k 1 fun _ => 2
    have hx : x 1 = (Coasting.model 1).drive (x 0) := by
      rw [Coasting.drive_model]
      norm_num [x]
    have he : (z 0).error (x 1) = 0 := by
      rw [Coasting.error_measurement]
      funext
      norm_num [u]
    have hk : ∀ {P : ℕ → Prop}, P 0 → ∀ k < 1, P k := fun h k hk => Nat.lt_one_iff.mp hk ▸ h
    exact htruth (s 0) 1 (fun _ => z 0) x 1 rfl
      ⟨⟨nofun, Coasting.isAt_initial 1⟩, hk ⟨_, rfl, hx⟩, hk he, hk (hs 0)⟩ 1 le_rfl

end Session

end KalmanFilter
