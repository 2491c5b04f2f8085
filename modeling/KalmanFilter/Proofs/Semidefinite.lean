import KalmanFilter.Proofs.ExactDecomposer
import KalmanFilter.Proofs.Typing

/-! Positive semidefiniteness as an invariant of runs whose covariances, as far as
they are used, have positive semidefinite symmetric parts. -/

namespace KalmanFilter

variable {p : Precision} {m n : ℕ}

noncomputable def TypedMat.real (A : TypedMat Exact m n) : Matrix (Fin m) (Fin n) ℝ :=
  Matrix.of fun i j => Elem.toDouble (A.entries i j)

lemma TypedMat.toMatrix_toType (A : TypedMat Exact m n) (p : Precision) :
    Mat.toMatrix (A.toType (.real p)) = A.real := by
  obtain ⟨d, A⟩ := A
  ext i j
  show (A.map (Elem.cast (.real p))) i j = Elem.toDouble (A i j)
  rw [Mat.map_entry]
  cases d with
  | real q => simp [Elem.toDouble, Elem.cast]
  | int64 => rfl

lemma TypedMat.real_mk (A : Mat (Exact p) m n) :
    (⟨.real p, A⟩ : TypedMat Exact m n).real = Mat.toMatrix A := by
  rw [← toMatrix_toType _ p, toType_self]

/-- The symmetric part is positive semidefinite; the matrix itself need not be symmetric. -/
def TypedMat.IsSemidefinite (A : TypedMat Exact n n) : Prop :=
  (symmetricPart A.real).PosSemidef

lemma Evolution.semidefinite_linearized {x : Evolution Exact} (hx : x.noise.IsSemidefinite)
    (h : x.dimension = n) : (symmetricPart (x.linearized p h).noise.toMatrix).PosSemidef := by
  subst h
  change (symmetricPart (Mat.toMatrix (x.noise.toType (.real p)))).PosSemidef
  rwa [TypedMat.toMatrix_toType]

lemma Measurement.semidefinite_observation {z : Measurement Exact}
    (hz : z.covariance.IsSemidefinite) (h : z.stateDimension = n) :
    (symmetricPart (Mat.toMatrix (z.observation p h).noise)).PosSemidef := by
  rw [observation_noise, TypedMat.toMatrix_toType]
  exact hz

namespace Advance

variable {e : Estimator Exact} {k : ℕ} {y : Estimate Exact} {z : Measurement Exact}

lemma posSemidef_prior (a : Advance e k y z) (hy : y.covariance.IsSemidefinite)
    (hq : a.evolution.noise.IsSemidefinite) : a.prior.covariance.toMatrix.PosSemidef := by
  refine Belief.posSemidef_predict ?_ (Evolution.semidefinite_linearized hq a.evolves)
  rw [Estimate.eq_of_belief? a.typed, TypedMat.toMatrix_toType]
  exact hy

lemma posSemidef_posterior (a : Advance e k y z) (he : e.decomposer.SolvesSymmetric)
    (hp : a.prior.covariance.toMatrix.PosSemidef) (hz : z.covariance.IsSemidefinite) :
    a.posterior.covariance.toMatrix.PosSemidef :=
  Belief.posSemidef_correct hp (Measurement.semidefinite_observation hz a.observes)
    (Estimator.isGain_of_solvesSymmetric he a.gain_outcome) e.joseph

end Advance

def Estimate.IsSemidefinite (y : Estimate Exact) : Prop :=
  y.covariance.real.PosSemidef

lemma Estimate.isSemidefinite_ofBelief {t : ℝ} {b : Belief (Exact p) n}
    (h : b.covariance.toMatrix.PosSemidef) : (Estimate.ofBelief t b).IsSemidefinite := by
  rwa [IsSemidefinite, ofBelief, TypedMat.real_mk]

lemma Estimate.IsSemidefinite.covariance {y : Estimate Exact} (h : y.IsSemidefinite) :
    y.covariance.IsSemidefinite :=
  posSemidef_symmetricPart h

namespace Tilted

lemma isSemidefinite_tilt : TypedMat.IsSemidefinite ⟨.real .double, tilt⟩ := by
  have h : symmetricPart (TypedMat.real ⟨.real .double, tilt⟩) = 1 := symmetricPart_tilt
  rw [TypedMat.IsSemidefinite, h]
  exact .one

end Tilted

namespace Session

/-- After a step that succeeded there is a prediction, so this speaks of every successful step. -/
theorem run_semidefinite (e : Estimator Exact) (he : e.decomposer.SolvesSymmetric)
    (x : Estimate Exact) (hx : x.covariance.IsSemidefinite)
    (zs : List (Fallible Exact (Measurement Exact)))
    (hq : (opening e x).EveryTransition (·.noise.IsSemidefinite) zs)
    (hz : ∀ m : Measurement Exact, .ok m ∈ zs → m.covariance.IsSemidefinite) :
    let s := (opening e x).run zs
    ∀ y, s.cursor.predicted = some y → y.IsSemidefinite ∧ s.cursor.corrected.IsSemidefinite := by
  intro s
  have h : s.cursor.corrected.covariance.IsSemidefinite ∧ ∀ y, s.cursor.predicted = some y →
      y.IsSemidefinite ∧ s.cursor.corrected.IsSemidefinite := by
    refine cursor_run_of_everyTransition (fun c => c.corrected.covariance.IsSemidefinite ∧
      ∀ y, c.predicted = some y → y.IsSemidefinite ∧ c.corrected.IsSemidefinite) rfl ⟨hx, nofun⟩
      hq ?_
    rintro m c k a hm hQ ⟨hc, -⟩
    have hprior := a.posSemidef_prior hc hQ
    have hposterior := Estimate.isSemidefinite_ofBelief (t := m.time)
      (a.posSemidef_posterior he hprior (hz m hm))
    refine ⟨hposterior.covariance, ?_⟩
    rintro y hy
    obtain rfl := Option.some.inj hy
    exact ⟨Estimate.isSemidefinite_ofBelief hprior, hposterior⟩
  exact h.2

theorem run_semidefinite_growing :
    let e : Estimator Exact := ⟨.byInverse, Tilted.growing, false, false⟩
    let s := opening e Tilted.initial
    e.decomposer.SolvesSymmetric ∧ Tilted.initial.covariance.IsSemidefinite ∧
      s.EveryTransition (·.noise.IsSemidefinite) Tilted.measurements ∧
      Tilted.measurement.covariance.IsSemidefinite ∧
      ∃ y, (s.run Tilted.measurements).cursor.predicted = some y ∧
        y.IsSemidefinite ∧ (s.run Tilted.measurements).cursor.corrected.IsSemidefinite := by
  intro e s
  have ht := Tilted.isSemidefinite_tilt
  have hd : e.decomposer.SolvesSymmetric := Decomposer.byInverse_solvesSymmetric
  have hx := Tilted.growing_zero_one 0 Tilted.initial.state.tensor
  have hq : s.EveryTransition (·.noise.IsSemidefinite) Tilted.measurements := by
    refine ⟨fun m hm a => ?_, trivial⟩
    obtain rfl := Except.ok.inj hm
    rw [← Reply.evolution.inj (Except.ok.inj (hx.symm.trans a.answers))]
    exact ht
  have hz (m : Measurement Exact) (hm : .ok m ∈ Tilted.measurements) :
      m.covariance.IsSemidefinite := by
    obtain rfl := Except.ok.inj (List.mem_singleton.mp hm)
    exact ht
  obtain ⟨a⟩ := Tilted.nonempty_advance (e := e) hx Decomposer.byInverse_acceptsRegular
  have hp : (s.run Tilted.measurements).cursor.predicted = some a.predicted :=
    congrArg Cursor.predicted (step_of_advance (s := s) rfl a).1
  exact ⟨hd, ht, hq, ht, a.predicted, hp, run_semidefinite e hd Tilted.initial ht
    Tilted.measurements hq hz a.predicted hp⟩

end Session

end KalmanFilter
