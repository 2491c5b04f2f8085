import KalmanFilter.Proofs.MotionNoise

/-! If the initial covariance has no entry between different dimensions, the filter
of all dimensions is made of a filter for each of them. -/

namespace KalmanFilter

variable {p : Precision} {k a m n : ℕ}

/-- The cursors `y` of the single dimensions say all that the cursor `x` says. -/
structure Cursor.Splits (p : Precision) (n : ℕ) (l : Layout) (x : Cursor Exact)
    (y : Fin m → Cursor Exact) : Prop where
  uncorrelated : x.Uncorrelated p m n l
  agrees : ∀ d, (y d).Agrees p n l l (alone d) x

lemma Cursor.Splits.exists_belief {l : Layout} {x : Cursor Exact} {y : Fin m → Cursor Exact}
    (h : x.Splits p n l y) :
    ∃ (t : ℝ) (b : Belief (Exact p) (m * n)) (u : Option (Estimate Exact))
      (w : Fin m → Option (Estimate Exact)), Belief.Uncorrelated l b ∧ x = ⟨u, .ofBelief t b⟩ ∧
        y = fun d => ⟨w d, .ofBelief t (b.select (l.embed l (alone d)))⟩ := by
  obtain ⟨t, b, hx, hb⟩ := h.uncorrelated.corrected
  refine ⟨t, b, x.predicted, fun d => (y d).predicted, hb, congrArg (Cursor.mk x.predicted) hx,
    funext fun d => ?_⟩
  obtain ⟨t', b₁, b₂, hy, hx', ha⟩ := (h.agrees d).corrected
  obtain ⟨rfl, rfl⟩ := Estimate.ofBelief_inj (hx.symm.trans hx')
  rw [Belief.agrees_iff.mp ha] at hy
  exact congrArg (Cursor.mk (y d).predicted) hy

namespace ConstantDerivative

section

variable {c : ConstantDerivative Exact} (h : c.motion.HasOrder k a) (hd : 0 < c.dimension)
  {D : CholeskyDecomposer Exact} {r l : ℝ} (hD : D.HasLimits r l) (joseph debug : Bool)
include h hd hD

lemma step_splits {x : Cursor Exact} {y : Fin c.dimension → Cursor Exact}
    (hx : x.Splits p (k + 1) c.layout y) (i : ℕ) (j : Fin c.dimension → ℕ) (time : ℝ)
    (v : TypedVec Exact c.dimension) (s : Fin c.dimension → Elem Exact c.motion.type) :
    let e := c.estimator D joseph debug
    let e' d := (c.part (alone d)).estimator D joseph debug
    let z := c.sensed time v (k + 1) s
    let z' d := (c.part (alone d)).sensed time (v.select (alone d)) (k + 1) fun i => s (alone d i)
    ((∃ x', (e.step i x z).outcome = .ok x') ↔
        ∀ d, ∃ y', ((e' d).step (j d) (y d) (z' d)).outcome = .ok y') ∧
      ∀ x' y', (e.step i x z).outcome = .ok x' →
        (∀ d, ((e' d).step (j d) (y d) (z' d)).outcome = .ok (y' d)) →
          x'.Splits p (k + 1) c.layout y' := by
  intro e e' z z'
  obtain ⟨t, b, u, w, hb, rfl, rfl⟩ := hx.exists_belief
  by_cases ht : time < t
  case pos =>
    have ho : ∀ d, (e' d).step (j d)
        ⟨w d, .ofBelief t (b.select (c.layout.embed c.layout (alone d)))⟩ (z' d) =
          ⟨[], .error (.outdated time t)⟩ :=
      fun d => Estimator.step_of_outdated ht
    rw [Estimator.step_of_outdated ht]
    refine ⟨⟨nofun, fun hy => ?_⟩, nofun⟩
    obtain ⟨y', hy'⟩ := hy ⟨0, hd⟩
    rw [ho] at hy'
    cases hy'
  refine ⟨⟨?_, exists_step_of_alone h hd hD joseph debug i u ht hb j _⟩, ?_⟩
  · rintro ⟨x', hx'⟩ d
    obtain ⟨y', hy', -⟩ := exists_step_part h hd hD joseph debug i u ht hb Nat.one_pos
      (alone_injective d) (j d) (w d) hx'
    exact ⟨y', hy'⟩
  · intro x' y' hx' hy'
    refine ⟨uncorrelated_of_step h hd hD joseph debug i u ht hb hx', fun d => ?_⟩
    obtain ⟨y₁, hy₁, ha⟩ := exists_step_part h hd hD joseph debug i u ht hb Nat.one_pos
      (alone_injective d) (j d) (w d) hx'
    obtain rfl := Except.ok.inj (hy₁.symm.trans (hy' d))
    exact ha

lemma session_step_splits {s : Session Exact} {t : Fin c.dimension → Session Exact}
    (hs : s.estimator = c.estimator D joseph debug)
    (ht : ∀ d, (t d).estimator = (c.part (alone d)).estimator D joseph debug)
    (hx : s.cursor.Splits p (k + 1) c.layout fun d => (t d).cursor)
    (q : Sample Exact c.dimension) :
    let z := c.sample q
    let z' d := (c.part (alone d)).sample (q.select (alone d))
    ((∃ y, (s.step z).2.outcome = .ok y) ↔ ∀ d, ∃ y, ((t d).step (z' d)).2.outcome = .ok y) ∧
      ((∃ y, (s.step z).2.outcome = .ok y) →
        (s.step z).1.cursor.Splits p (k + 1) c.layout fun d => ((t d).step (z' d)).1.cursor) := by
  intro z z'
  obtain ⟨hiff, hsplits⟩ := step_splits h hd hD joseph debug hx s.queries (fun d => (t d).queries)
    q.time ⟨c.motion.type, q.value.toType c.motion.type⟩ (q.deviation.toType c.motion.type).get
  have hz : z = _ := sample_eq h hd q
  have hz' : z' = _ := funext fun d => sample_part h Nat.one_pos (alone d) q
  rw [← hs] at hiff hsplits
  simp only [← ht] at hiff hsplits
  have hok : (∃ y, (s.step z).2.outcome = .ok y) ↔
      ∀ d, ∃ y, ((t d).step (z' d)).2.outcome = .ok y := by
    rw [hz, hz', Session.exists_step_outcome_iff, hiff]
    exact forall_congr' fun d => Session.exists_step_outcome_iff.symm
  refine ⟨hok, fun ho => ?_⟩
  have ho' := hok.mp ho
  rw [hz, Session.exists_step_outcome_iff] at ho
  obtain ⟨x', hx'⟩ := ho
  simp only [hz', Session.exists_step_outcome_iff] at ho'
  choose y' hy' using ho'
  rw [hz, hz', (Session.step_of_outcome hx').1]
  simp only [fun d => (Session.step_of_outcome (hy' d)).1]
  exact hsplits x' y' hx' hy'

lemma run_splits {s : Session Exact} {t : Fin c.dimension → Session Exact}
    (hs : s.estimator = c.estimator D joseph debug)
    (ht : ∀ d, (t d).estimator = (c.part (alone d)).estimator D joseph debug)
    (hx : s.cursor.Splits p (k + 1) c.layout fun d => (t d).cursor)
    (qs : List (Sample Exact c.dimension)) :
    let zs := qs.map c.sample
    let zs' d := qs.map fun q => (c.part (alone d)).sample (q.select (alone d))
    (s.Succeeds zs ↔ ∀ d, (t d).Succeeds (zs' d)) ∧
      (s.Succeeds zs →
        (s.run zs).cursor.Splits p (k + 1) c.layout fun d => ((t d).run (zs' d)).cursor) := by
  -- `Splits` is what a step needs and what it leaves, if it succeeds
  induction qs generalizing s t with
  | nil => exact ⟨⟨fun _ _ => nofun, fun _ => nofun⟩, fun _ => hx⟩
  | cons q qs ih =>
    obtain ⟨hok, hstep⟩ := session_step_splits h hd hD joseph debug hs ht hx q
    have ih := fun ho => ih (s := (s.step (c.sample q)).1)
      (t := fun d => ((t d).step ((c.part (alone d)).sample (q.select (alone d)))).1) hs ht
      (hstep ho)
    simp only [List.map_cons, Session.succeeds_cons, forall_and, ← hok]
    exact ⟨and_congr_right fun ho => (ih ho).1, fun ho => (ih ho.1).2 ho.2⟩

end

/-- Measured values and deviations are lists, and each dimension is given a list of one. The initial
covariance need not be symmetric. -/
theorem dimensions_independent (c : ConstantDerivative Exact) (h : c.motion.HasOrder k a)
    (hd : 0 < c.dimension) (D : CholeskyDecomposer Exact) {r l : ℝ} (hD : D.HasLimits r l)
    (joseph debug : Bool) (x : Estimate Exact) (y : Fin c.dimension → Estimate Exact)
    (hx : x.Uncorrelated p c.dimension (k + 1) c.layout)
    (hy : ∀ d, (y d).Agrees p (k + 1) c.layout c.layout (alone d) x)
    (qs : List (Sample Exact c.dimension)) :
    let s := Session.opening (c.estimator D joseph debug) x
    let t d := Session.opening ((c.part (alone d)).estimator D joseph debug) (y d)
    let zs := qs.map c.sample
    let zs' d := qs.map fun q => (c.part (alone d)).sample (q.select (alone d))
    (s.Succeeds zs ↔ ∀ d, (t d).Succeeds (zs' d)) ∧
      (s.Succeeds zs →
        ((s.run zs).cursor.Splits p (k + 1) c.layout fun d => ((t d).run (zs' d)).cursor) ∧
        ∀ q, (∃ u, ((s.run zs).step (c.sample q)).2.outcome = .ok u) ↔
          ∀ d, ∃ u, (((t d).run (zs' d)).step
            ((c.part (alone d)).sample (q.select (alone d)))).2.outcome = .ok u) := by
  intro s t zs zs'
  have hxy : s.cursor.Splits p (k + 1) c.layout fun d => (t d).cursor :=
    ⟨⟨nofun, hx⟩, fun d => ⟨.none, hy d⟩⟩
  obtain ⟨hok, hrun⟩ := run_splits h hd hD joseph debug (s := s) (t := t) rfl (fun _ => rfl) hxy qs
  have hs : (s.run zs).estimator = c.estimator D joseph debug := s.run_estimator zs
  have ht : ∀ d, ((t d).run (zs' d)).estimator = (c.part (alone d)).estimator D joseph debug :=
    fun d => (t d).run_estimator (zs' d)
  exact ⟨hok, fun ho => ⟨hrun ho, fun q =>
    (session_step_splits h hd hD joseph debug hs ht (hrun ho) q).1⟩⟩

theorem dimensions_independent_plane :
    let c := Plane.process
    let b : Belief (Exact .double) (c.dimension * 2) := Plane.belief
    let x : Estimate Exact := .ofBelief 0 b
    let y (d : Fin c.dimension) : Estimate Exact :=
      .ofBelief 0 (b.select (c.layout.embed c.layout (alone d)))
    let q : Sample Exact c.dimension := ⟨1, Plane.value, Plane.value⟩
    let s := Session.opening (c.estimator Plane.decomposer false false) x
    let t d := Session.opening ((c.part (alone d)).estimator Plane.decomposer false false) (y d)
    let zs := [c.sample q]
    let zs' d := [(c.part (alone d)).sample (q.select (alone d))]
    c.motion.HasOrder 1 0 ∧ 0 < c.dimension ∧ Plane.decomposer.HasLimits 0 0 ∧
      x.Uncorrelated .double c.dimension 2 c.layout ∧
      (∀ d, (y d).Agrees .double 2 c.layout c.layout (alone d) x) ∧ s.Succeeds zs ∧
      (s.run zs).cursor.Splits .double 2 c.layout fun d => ((t d).run (zs' d)).cursor := by
  intro c b x y q s t zs zs'
  have hD : Plane.decomposer.HasLimits 0 0 :=
    CholeskyDecomposer.hasLimits_real le_rfl le_rfl
  have hx : x.Uncorrelated .double c.dimension 2 c.layout :=
    ⟨0, b, rfl, Belief.uncorrelated_identity c.layout b.state⟩
  have hy : ∀ d, (y d).Agrees .double 2 c.layout c.layout (alone d) x :=
    fun d => ⟨0, _, _, rfl, rfl, Belief.agrees_iff.mpr rfl⟩
  have hs : s.Succeeds zs := by
    have hb : (symmetricPart (Mat.toMatrix b.covariance)).PosSemidef := by
      refine posSemidef_symmetricPart ?_
      rw [show b.covariance = .identity from rfl, Mat.toMatrix_identity]
      exact .one
    refine Session.succeeds_cons.mpr ⟨?_, nofun⟩
    rw [sample_eq Plane.hasOrder Plane.dimension_pos q, Session.exists_step_outcome_iff]
    refine exists_step (q := .double) rfl Plane.hasOrder Plane.dimension_pos hD false false 0 none
      (not_lt.mpr zero_le_one) hb zero_lt_one fun d => ?_
    exact (Plane.one_le_value_mul_self d).trans_eq
      (Elem.cast_self (F := Exact) (e := .real .double) _).symm
  have hi := dimensions_independent c Plane.hasOrder Plane.dimension_pos Plane.decomposer hD false
    false x y hx hy [q]
  exact ⟨Plane.hasOrder, Plane.dimension_pos, hD, hx, hy, hs, (hi.2 hs).1⟩

end ConstantDerivative

end KalmanFilter
