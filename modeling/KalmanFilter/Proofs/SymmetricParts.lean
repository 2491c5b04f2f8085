import KalmanFilter.Proofs.ExactStep
import KalmanFilter.Proofs.Related

/-! Of every covariance that is given to the filter only the symmetric part is ever
used: the step that takes it in ends with a symmetric part of its own. -/

namespace KalmanFilter

open Matrix
open Fallible (Rel)

variable {p : Precision} {m n : ℕ}

lemma symmetricPart_transpose (A : Matrix (Fin n) (Fin n) ℝ) :
    symmetricPart Aᵀ = symmetricPart A := by
  rw [symmetricPart, symmetricPart, transpose_transpose, add_comm]

def TypedMat.SameForm (A B : TypedMat Exact n n) : Prop :=
  symmetricPart A.real = symmetricPart B.real

lemma TypedMat.SameForm.of_transpose {A B : TypedMat Exact n n} (h : B.real = A.realᵀ) :
    A.SameForm B := by
  rw [SameForm, h, symmetricPart_transpose]

lemma TypedMat.SameForm.of_symmetricPart {A B : TypedMat Exact n n}
    (h : B.real = symmetricPart A.real) : A.SameForm B := by
  rw [SameForm, h, symmetricPart_of_symm (transpose_symmetricPart _)]

lemma TypedMat.sameForm_transpose (A : Mat (Exact p) n n) :
    SameForm ⟨.real p, A⟩ ⟨.real p, A.transpose⟩ := by
  apply SameForm.of_transpose
  rw [real_mk, real_mk]
  exact Mat.toMatrix_transpose A

lemma TypedMat.sameForm_symmetrize (A : Mat (Exact p) n n) :
    SameForm ⟨.real p, A⟩ ⟨.real p, A.symmetrize⟩ := by
  apply SameForm.of_symmetricPart
  rw [real_mk, real_mk]
  exact Mat.toMatrix_symmetrize A

structure Transition.SameForm (t t' : Transition ℝ n) : Prop where
  state : t.state = t'.state
  matrix : t.matrix = t'.matrix
  noise : symmetricPart t.noise.toMatrix = symmetricPart t'.noise.toMatrix

structure Observation.SameForm (z z' : Observation ℝ m n) : Prop where
  value : z.value = z'.value
  matrix : z.matrix = z'.matrix
  noise : symmetricPart z.noise.toMatrix = symmetricPart z'.noise.toMatrix

namespace Belief

variable {b b' : Belief ℝ n} {t t' : Transition ℝ n} {z z' : Observation ℝ m n}

lemma predict_eq_of_sameForm
    (hb : symmetricPart b.covariance.toMatrix = symmetricPart b'.covariance.toMatrix)
    (ht : t.SameForm t') : b.predict t = b'.predict t' := by
  have hc : (b.predict t).covariance = (b'.predict t').covariance := by
    apply Mat.toMatrix_injective
    simp only [toMatrix_predict, symmetricPart_add, symmetricPart_congruence, hb, ht.matrix,
      ht.noise]
  exact congrArg₂ Belief.mk ht.state hc

lemma innovationCovariance_eq_of_sameForm (b : Belief ℝ n) (h : z.SameForm z') :
    b.innovationCovariance z = b.innovationCovariance z' := by
  apply Mat.toMatrix_injective
  simp only [toMatrix_innovationCovariance, symmetricPart_add, h.matrix, h.noise]

lemma correct_eq_of_sameForm (b : Belief ℝ n) (joseph : Bool) (h : z.SameForm z') (K : Mat ℝ n m) :
    b.correct joseph z K = b.correct joseph z' K := by
  have hs : (b.correct joseph z K).state = (b.correct joseph z' K).state := by
    simp only [correct, innovation, h.value, h.matrix]
  have hc : (b.correct joseph z K).covariance = (b.correct joseph z' K).covariance := by
    cases joseph with
    | false => simp only [correct, h.matrix, Bool.false_eq_true, if_false]
    | true =>
      apply Mat.toMatrix_injective
      simp only [correct, if_true, Mat.toMatrix_symmetrize, Mat.toMatrix_add, Mat.toMatrix_mul,
        Mat.toMatrix_transpose, symmetricPart_add, symmetricPart_congruence, h.matrix, h.noise]
  exact congrArg₂ Belief.mk hs hc

end Belief

def Estimate.SameForm (x y : Estimate Exact) : Prop :=
  ∃ C, x.covariance.SameForm C ∧ C.type = x.covariance.type ∧ y = { x with covariance := C }

def Evolution.SameForm (x y : Evolution Exact) : Prop :=
  ∃ Q, x.noise.SameForm Q ∧ y = { x with noise := Q }

def Measurement.SameForm (z w : Measurement Exact) : Prop :=
  ∃ R, z.covariance.SameForm R ∧ w = { z with covariance := R }

inductive Reply.SameForm : Reply Exact → Reply Exact → Prop
  | evolution {x y : Evolution Exact} (h : x.SameForm y) : SameForm (.evolution x) (.evolution y)
  | foreign (kind : Datum.Kind) : SameForm (.foreign kind) (.foreign kind)

def Process.SameForm (q q' : Process Exact) : Prop :=
  ∀ k t x t', Rel Reply.SameForm (q k t x t') (q' k t x t')

structure Cursor.SameForm (c c' : Cursor Exact) : Prop where
  predicted : c.predicted = c'.predicted
  corrected : c.corrected.SameForm c'.corrected

lemma Cursor.SameForm.refl (c : Cursor Exact) : c.SameForm c :=
  ⟨rfl, c.corrected.covariance, rfl, rfl, rfl⟩

inductive LinearEvolution.SameForm : LinearEvolution Exact → LinearEvolution Exact → Prop
  | refl (x : LinearEvolution Exact) : SameForm x x
  | noise (transition : Tensor Exact) {n : ℕ} {A B : TypedMat Exact n n} (h : A.SameForm B)
      (control : Option (Control Exact)) :
      SameForm ⟨transition, A.tensor, control⟩ ⟨transition, B.tensor, control⟩

def LinearProcess.SameForm (q q' : LinearProcess Exact) : Prop :=
  ∀ k t t', Rel LinearEvolution.SameForm (q k t t') (q' k t t')

lemma Evolution.rel_of_sameForm {A B : TypedMat Exact n n} (h : A.SameForm B) (time : ℝ)
    (x transition : Tensor Exact) :
    Rel SameForm (of time x transition A.tensor) (of time x transition B.tensor) := by
  unfold of
  split
  case h_1 k hs =>
    split
    case isFalse => exact .error _
    case isTrue ha =>
      by_cases hk : n = k
      · subst hk
        have hA : A.tensor.shape = [n, n] := rfl
        have hB : B.tensor.shape = [n, n] := rfl
        rw [dif_pos hA, dif_pos hB, A.mat_tensor, B.mat_tensor]
        exact .ok ⟨B, h, rfl⟩
      · have hA : ¬ A.tensor.shape = [k, k] := fun h => hk (List.cons.inj h).1
        have hB : ¬ B.tensor.shape = [k, k] := hA
        rw [dif_neg hA, dif_neg hB]
        exact .error (.noiseShape [n, n] k)
  case h_2 => exact .error _

lemma LinearEvolution.SameForm.predict {x y : LinearEvolution Exact} (h : x.SameForm y)
    (time : Fallible Exact ℝ) (state : Tensor Exact) :
    Rel Evolution.SameForm (x.predict time state) (y.predict time state) := by
  cases h with
  | refl => exact .refl (fun w => ⟨w.noise, rfl, rfl⟩) _
  | @noise transition n A B h control =>
    have hv (v : Tensor Exact) : Rel Evolution.SameForm
        (time >>= fun t => Evolution.of t v (transition.toType state.type) A.tensor)
        (time >>= fun t => Evolution.of t v (transition.toType state.type) B.tensor) :=
      .bind_same fun t _ => Evolution.rel_of_sameForm h t v _
    cases control with
    | none => exact .bind_same fun free _ => hv free
    | some u =>
      exact .bind_same fun free _ => .bind_same fun driven _ => .bind_same fun v _ => hv v

lemma LinearProcess.SameForm.linearize {q q' : LinearProcess Exact} (h : q.SameForm q') :
    Process.SameForm q.linearize q'.linearize := by
  intro k t x t'
  refine (h k t t').bind fun u u' hu => (hu.predict (.ok t') x).bind fun y y' hy => ?_
  exact .ok (.evolution hy)

namespace Evolution.SameForm

variable {x y : Evolution Exact} (h : x.SameForm y)
include h

lemma time : y.time = x.time := by
  obtain ⟨Q, -, rfl⟩ := h
  rfl

lemma dimension : y.dimension = x.dimension := by
  obtain ⟨Q, -, rfl⟩ := h
  rfl

lemma linearized (hx : x.dimension = n) (hy : y.dimension = n) :
    Transition.SameForm (x.linearized p hx) (y.linearized p hy) := by
  obtain ⟨Q, hQ, rfl⟩ := h
  subst hx
  refine ⟨rfl, rfl, ?_⟩
  show symmetricPart (Mat.toMatrix (x.noise.toType (.real p))) =
    symmetricPart (Mat.toMatrix (Q.toType (.real p)))
  rw [TypedMat.toMatrix_toType, TypedMat.toMatrix_toType, hQ]

end Evolution.SameForm

lemma Measurement.sameForm_observation {z : Measurement Exact}
    {R : TypedMat Exact z.dimension z.dimension} (h : z.covariance.SameForm R)
    (hz : z.stateDimension = n) :
    Observation.SameForm (z.observation p hz)
      (Measurement.observation { z with covariance := R } p hz) := by
  subst hz
  refine ⟨rfl, rfl, ?_⟩
  show symmetricPart (Mat.toMatrix (z.covariance.toType (.real p))) =
    symmetricPart (Mat.toMatrix (R.toType (.real p)))
  rw [TypedMat.toMatrix_toType, TypedMat.toMatrix_toType, h]

section

variable {x : Estimate Exact} {C : TypedMat Exact x.dimension x.dimension}

lemma Estimate.belief?_with_covariance (hf : C.type = x.covariance.type) :
    Estimate.belief? { x with covariance := C } =
      x.belief?.map fun b => ⟨b.1, ⟨b.2.state, C.toType (.real b.1)⟩⟩ := by
  obtain ⟨t, n, ⟨d, v⟩, ⟨d', A⟩⟩ := x
  obtain ⟨d'', C⟩ := C
  obtain rfl : d'' = d' := hf
  cases d with
  | int64 => rfl
  | real p =>
    cases d'' with
    | int64 => rfl
    | real q =>
      simp only [belief?]
      split <;> rfl

lemma Estimate.beliefs_of_sameForm (hC : x.covariance.SameForm C)
    (hf : C.type = x.covariance.type) :
    (x.belief? = none ∧ Estimate.belief? { x with covariance := C } = none) ∨
      ∃ (p : Precision) (b b' : Belief (Exact p) x.dimension), x.belief? = some ⟨p, b⟩ ∧
        Estimate.belief? { x with covariance := C } = some ⟨p, b'⟩ ∧
        symmetricPart (Mat.toMatrix b.covariance) = symmetricPart (Mat.toMatrix b'.covariance) := by
  rw [belief?_with_covariance hf]
  cases hb : x.belief? with
  | none => exact .inl ⟨rfl, rfl⟩
  | some pb =>
    obtain ⟨p, b⟩ := pb
    refine .inr ⟨p, b, ⟨b.state, C.toType (.real p)⟩, rfl, rfl, ?_⟩
    rw [eq_of_belief? hb, TypedMat.toMatrix_toType, TypedMat.toMatrix_toType, hC]

lemma Estimator.evolutions_of_sameForm {e : Estimator Exact} {q : Process Exact}
    (hq : e.process.SameForm q) (k : ℕ) (x : Estimate Exact)
    (C : TypedMat Exact x.dimension x.dimension) (time : ℝ) :
    (∃ es f, e.evolve k x time = ⟨es, .error f⟩ ∧
        Estimator.evolve { e with process := q } k { x with covariance := C } time =
          ⟨es, .error f⟩) ∨
      ∃ y y' : Evolution Exact, y.SameForm y' ∧
        e.process k x.time x.state.tensor time = .ok (.evolution y) ∧
        q k x.time x.state.tensor time = .ok (.evolution y') := by
  have hr := hq k x.time x.state.tensor time
  cases ho : e.process k x.time x.state.tensor time with
  | error f => exact .inl ⟨_, f, evolve_of_error ho, evolve_of_error (hr.of_error ho)⟩
  | ok reply =>
    obtain ⟨reply', ho', hr⟩ := hr.of_ok ho
    cases hr with
    | foreign kind => exact .inl ⟨_, _, evolve_of_foreign ho, evolve_of_foreign ho'⟩
    | evolution h => exact .inr ⟨_, _, h, rfl, ho'⟩

end

namespace Estimator

variable {e : Estimator Exact} {q : Process Exact}

lemma correct_eq_of_sameForm (e : Estimator Exact) (q : Process Exact) (time : ℝ)
    (b : Belief (Exact p) n) {z z' : Observation (Exact p) m n} (h : z.SameForm z') :
    e.correct time b z = Estimator.correct { e with process := q } time b z' := by
  have hi : b.innovation z = b.innovation z' := by
    simp only [Belief.innovation, h.value, h.matrix]
  have hx : b.crossCovariance z = b.crossCovariance z' := by
    simp only [Belief.crossCovariance, h.matrix]
  have hS := b.innovationCovariance_eq_of_sameForm h
  have hc := b.correct_eq_of_sameForm e.joseph h
  simp only [correct, gain, hS, hx, hc, hi]

lemma update_eq_of_sameForm (e : Estimator Exact) (q : Process Exact) (time : ℝ)
    {b b' : Belief (Exact p) n}
    (hb : symmetricPart b.covariance.toMatrix = symmetricPart b'.covariance.toMatrix)
    {x y : Evolution Exact} (h : x.SameForm y) (hx : x.dimension = n) (hy : y.dimension = n)
    {z z' : Observation (Exact p) m n} (hz : z.SameForm z') :
    e.update time b x hx z = Estimator.update { e with process := q } time b' y hy z' := by
  have hP := Belief.predict_eq_of_sameForm hb (h.linearized (p := p) hx hy)
  have hc := e.correct_eq_of_sameForm q time (b'.predict (y.linearized p hy)) hz
  simp only [update, hP, h.time, hc]

lemma step_eq_of_sameForm (hq : e.process.SameForm q) (k : ℕ) {c c' : Cursor Exact}
    (hc : c.SameForm c') {z z' : Measurement Exact} (hz : z.SameForm z') :
    e.step k c z = Estimator.step { e with process := q } k c' z' := by
  obtain ⟨u, x⟩ := c
  obtain ⟨u', x'⟩ := c'
  obtain ⟨C, hC, hf, rfl⟩ : x.SameForm x' := hc.corrected
  obtain ⟨R, hR, rfl⟩ := hz
  -- no test looks at the entries of a covariance
  by_cases ht : z.time < x.time
  case pos =>
    rw [step_of_outdated ht]
    symm
    exact step_of_outdated ht
  by_cases hn : z.stateDimension = x.dimension
  case neg =>
    rw [step_of_misobserved ht hn]
    symm
    exact step_of_misobserved ht hn
  rcases evolutions_of_sameForm hq k x C z.time with ⟨es, f, ho, ho'⟩ | ⟨y, y', h, ho, ho'⟩
  · rw [step_of_evolve_error ht hn ho]
    symm
    exact step_of_evolve_error ht hn ho'
  have hd := h.dimension
  by_cases hy : y.dimension = x.dimension
  case neg =>
    rw [step_of_misevolved ht hn ho hy, ← hd]
    symm
    exact step_of_misevolved ht hn ho' (hd ▸ hy)
  rcases Estimate.beliefs_of_sameForm hC hf with ⟨hb, hb'⟩ | ⟨p, b, b', hb, hb', hP⟩
  · rw [step_of_untyped ht hn ho hy hb]
    symm
    exact step_of_untyped ht hn ho' (hd.trans hy) hb'
  · have hu := e.update_eq_of_sameForm q z.time hP h hy (hd.trans hy)
      (Measurement.sameForm_observation (p := p) hR hn)
    rw [step_of_update ht hn ho hy hb, hu]
    symm
    exact step_of_update ht hn ho' (hd.trans hy) hb'

end Estimator

namespace Session

variable {e : Estimator Exact} {q : Process Exact}

lemma run_eq_of_sameForm (hq : e.process.SameForm q)
    {zs zs' : List (Fallible Exact (Measurement Exact))}
    (hz : List.Forall₂ (Rel Measurement.SameForm) zs zs') {c c' : Cursor Exact}
    (hc : c.SameForm c') (k : ℕ) :
    (Session.mk e c k).attempts zs =
        (Session.mk { e with process := q } c' k).attempts zs' ∧
      ((Session.mk e c k).run zs).cursor.SameForm
        ((Session.mk { e with process := q } c' k).run zs').cursor := by
  induction hz generalizing c c' k with
  | nil => exact ⟨rfl, hc⟩
  | @cons z z' zs zs' h hz ih =>
    -- a step that fails leaves both cursors, and one that succeeds makes them equal
    have hs : ∃ u u' k' a,
        (Session.mk e c k).step z = (⟨e, u, k'⟩, a) ∧
        (Session.mk { e with process := q } c' k).step z' = (⟨{ e with process := q }, u', k'⟩, a) ∧
        u.SameForm u' := by
      cases h with
      | error f => exact ⟨c, c', k, _, rfl, rfl, hc⟩
      | @ok z z' h =>
        have he := Estimator.step_eq_of_sameForm hq k hc h
        rw [step_of_measured, step_of_measured]
        simp only [settle, he]
        cases ho : (Estimator.step { e with process := q } k c' z').outcome with
        | error f => exact ⟨c, c', _, _, rfl, rfl, hc⟩
        | ok u => exact ⟨u, u, _, _, rfl, rfl, .refl u⟩
    obtain ⟨u, u', k', a, hs, hs', hu⟩ := hs
    simp only [attempts, run, hs, hs', ih hu k', and_self]

/-- The decomposer may be any one. What a step brings is its corrected estimate, or why it failed,
and all that has happened on the way; the prediction that belongs to it is kept by the cursor. -/
theorem symmetric_parts_same_run {x x' : Estimate Exact} (hx : x.SameForm x')
    (hq : e.process.SameForm q) {zs zs' : List (Fallible Exact (Measurement Exact))}
    (hz : List.Forall₂ (Rel Measurement.SameForm) zs zs') :
    let s := opening e x
    let s' := opening { e with process := q } x'
    s.attempts zs = s'.attempts zs' ∧
      ∀ k, (s.run (zs.take k)).cursor.predicted = (s'.run (zs'.take k)).cursor.predicted := by
  have hc : Cursor.SameForm ⟨none, x⟩ ⟨none, x'⟩ := ⟨rfl, hx⟩
  refine ⟨(run_eq_of_sameForm hq hz hc 0).1, fun k => ?_⟩
  exact (run_eq_of_sameForm hq (List.forall₂_take k hz) hc 0).2.predicted

theorem symmetric_parts_same_run_tilted :
    let A : TypedMat Exact 2 2 := ⟨.real .double, Tilted.tilt⟩
    let B : TypedMat Exact 2 2 := ⟨.real .double, Tilted.tilt.transpose⟩
    let C : TypedMat Exact 2 2 := ⟨.real .double, Tilted.tilt.symmetrize⟩
    let x : Estimate Exact := { Tilted.initial with covariance := B }
    let q : Process Exact := fun _ _ _ time =>
      .ok (.evolution { Tilted.evolution time with noise := C })
    let l (Q : TypedMat Exact 2 2) : LinearProcess Exact := fun _ _ _ =>
      .ok ⟨A.tensor, Q.tensor, none⟩
    let z : Measurement Exact := { Tilted.measurement with covariance := B }
    Tilted.initial.SameForm x ∧ Tilted.process.SameForm q ∧
      Process.SameForm (l A).linearize (l B).linearize ∧
      List.Forall₂ (Rel Measurement.SameForm) Tilted.measurements [.ok z] ∧
      ∀ joseph, let e := Tilted.estimator joseph
        (∃ y, ((opening e Tilted.initial).step (.ok Tilted.measurement)).2.outcome = .ok y) ∧
        (opening e Tilted.initial).attempts Tilted.measurements =
          (opening { e with process := q } x).attempts [.ok z] ∧
        (∀ k, ((opening e Tilted.initial).run (Tilted.measurements.take k)).cursor.predicted =
          ((opening { e with process := q } x).run ([.ok z].take k)).cursor.predicted) ∧
        (opening { e with process := (l A).linearize } Tilted.initial).attempts
            Tilted.measurements =
          (opening { e with process := (l B).linearize } x).attempts [.ok z] := by
  intro A B C x q l z
  have hB : A.SameForm B := TypedMat.sameForm_transpose (p := .double) Tilted.tilt
  have hC : A.SameForm C := TypedMat.sameForm_symmetrize (p := .double) Tilted.tilt
  have hx : Tilted.initial.SameForm x := ⟨B, hB, rfl, rfl⟩
  have hq : Tilted.process.SameForm q := fun _ _ _ _ => .ok (.evolution ⟨C, hC, rfl⟩)
  have hl : Process.SameForm (l A).linearize (l B).linearize :=
    LinearProcess.SameForm.linearize fun _ _ _ => .ok (.noise A.tensor hB none)
  have hz : List.Forall₂ (Rel Measurement.SameForm) Tilted.measurements [.ok z] :=
    .cons (.ok ⟨B, hB, rfl⟩) .nil
  refine ⟨hx, hq, hl, hz, fun joseph => ?_⟩
  obtain ⟨a⟩ := Tilted.nonempty_advance (e := Tilted.estimator joseph) rfl
    Decomposer.byInverse_acceptsRegular
  have hy := (step_of_advance (s := Tilted.session joseph) rfl a).2
  obtain ⟨ha, hk⟩ := symmetric_parts_same_run (e := Tilted.estimator joseph) hx hq hz
  obtain ⟨hla, -⟩ := symmetric_parts_same_run
    (e := { Tilted.estimator joseph with process := (l A).linearize }) hx hl hz
  exact ⟨⟨_, hy⟩, ha, hk, hla⟩

end Session

end KalmanFilter
