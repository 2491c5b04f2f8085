import KalmanFilter.Proofs.ExactTaylor
import KalmanFilter.Proofs.MotionPart
import KalmanFilter.Proofs.WellPosed

namespace KalmanFilter

open Matrix

variable {p q : Precision} {k a m n : ℕ}

lemma ConstantDerivative.blockIn_real (A : Mat (Exact q) n n) :
    blockIn p (e := .real q) A = A := by
  ext i j
  rw [blockIn, Mat.map_entry]
  exact Exact.convert_eq _

namespace Motion

variable {M : Motion Exact} {elapsed : Datum Exact} {x : ℝ} (hM : M.type = .real q)
include hM

lemma exists_transitionOf (h : elapsed.StandsFor x) (n : ℕ) :
    ∃ A, M.transitionOf n elapsed = .ok A := by
  obtain ⟨o, e, ap, ty⟩ := M
  obtain rfl : ty = .real q := hM
  exact ⟨_, transitionOf_exact h n⟩

lemma exists_noiseBlock (s : Elem Exact M.type) (h : elapsed.StandsFor x) (k a : ℕ) :
    ∃ Q, M.noiseBlock k a s.toDatum elapsed = .ok Q ∧
      (Mat.toMatrix (ConstantDerivative.blockIn p Q)).PosSemidef := by
  obtain ⟨o, e, ap, ty⟩ := M
  obtain rfl : ty = .real q := hM
  refine ⟨_, noiseBlock_exact (Datum.isDeviation_real _) h k a, ?_⟩
  rw [ConstantDerivative.blockIn_real]
  exact Taylor.posSemidef_drive ..

end Motion

namespace Layout

lemma posSemidef_spread (l : Layout) {B : Fin m → Mat ℝ n n} (hB : ∀ d, (B d).toMatrix.PosSemidef) :
    (l.spread B).toMatrix.PosSemidef := by
  let δ (d : Fin m) (r : Fin (m * n)) : ℝ := if l.dimensionOf r = d then 1 else 0
  have h : (l.spread B).toMatrix = ∑ d, Matrix.diagonal (δ d) *
      (B d).toMatrix.submatrix l.derivativeOf l.derivativeOf * (Matrix.diagonal (δ d))ᵀ := by
    ext r s
    rw [Matrix.sum_apply, Finset.sum_eq_single (l.dimensionOf r)]
    · simp [spread, δ, diagonal_transpose, eq_comm]
    · intro d _ hd
      simp [δ, hd.symm]
    · exact fun hr => absurd (Finset.mem_univ _) hr
  -- each summand is a block in the places of its dimension, cut out on both sides
  rw [h]
  exact posSemidef_sum _ fun d _ => posSemidef_congruence ((hB d).submatrix _) _

lemma le_dotProduct_diagonal {x : Vec ℝ m} {r : ℝ} (hx : ∀ d, r ≤ x d) (v : Fin m → ℝ) :
    r * (v ⬝ᵥ v) ≤ v ⬝ᵥ ((Mat.diagonal x).toMatrix *ᵥ v) := by
  have hd : (Mat.diagonal x).toMatrix = Matrix.diagonal x.get := by
    ext i j
    rw [Mat.toMatrix_apply, Mat.diagonal, Mat.ofFn_entry, Matrix.diagonal_apply]
  rw [hd, dotProduct, dotProduct, Finset.mul_sum]
  refine Finset.sum_le_sum fun d _ => ?_
  rw [mulVec_diagonal, mul_left_comm (v d)]
  exact mul_le_mul_of_nonneg_right (hx d) (mul_self_nonneg (v d))

lemma posSemidef_predict {l : Layout} {b : Belief ℝ (m * n)}
    (hb : (symmetricPart b.covariance.toMatrix).PosSemidef) (A : Mat ℝ n n) {Q : Fin m → Mat ℝ n n}
    (hQ : ∀ d, (Q d).toMatrix.PosSemidef) :
    (b.predict (l.transition A Q b.state)).covariance.toMatrix.PosSemidef :=
  Belief.posSemidef_predict hb (posSemidef_symmetricPart (l.posSemidef_spread hQ))

lemma exists_gain {l : Layout} {D : CholeskyDecomposer Exact} {r s : ℝ} (hD : D.HasLimits r s)
    {e : Estimator Exact} (he : e.decomposer = D.decomposer) {b : Belief (Exact p) (m * n)}
    (hb : (Mat.toMatrix b.covariance).PosSemidef) (value : Vec (Exact p) m)
    {variance : Vec (Exact p) m} {ρ : ℝ} (hρ : s < ρ) (hv : ∀ d, ρ ≤ variance d) :
    ∃ K, (e.gain b (l.observation n value variance)).outcome = .ok K := by
  have hS := Belief.innovationCovariance_bounded hb (l.observation n value variance)
    (le_dotProduct_diagonal hv)
  obtain ⟨L, hL, hi⟩ := Mat.exists_cholesky? (Belief.transpose_innovationCovariance _ _)
    (hD.absolute_nonneg.trans_lt hρ) hS
  exact (hD.gain_outcome_iff he _ _).mpr ⟨L, hL, fun i => hρ.trans_le (hi i)⟩

end Layout

namespace ConstantDerivative

variable {c : ConstantDerivative Exact} (hc : c.motion.type = .real q)
include hc

lemma exists_moves_posSemidef (k a : ℕ) (elapsed : ℝ) : ∃ A Q, c.Moves k a elapsed A Q ∧
    ∀ d, (Mat.toMatrix (blockIn p (Q d))).PosSemidef := by
  have hx := Datum.standsFor_real elapsed
  obtain ⟨A, hA⟩ := Motion.exists_transitionOf hc hx (k + 1)
  choose Q hQ hP using fun d => Motion.exists_noiseBlock (p := p) hc (c.deviations d) hx k a
  exact ⟨A, Q, ⟨hA, hQ⟩, hP⟩

variable (h : c.motion.HasOrder k a) (hd : 0 < c.dimension) {D : CholeskyDecomposer Exact} {r l : ℝ}
  (hD : D.HasLimits r l) (joseph debug : Bool) (i : ℕ) (u : Option (Estimate Exact)) {t time : ℝ}
  (ht : ¬ time < t) {b : Belief (Exact p) (c.dimension * (k + 1))}
  (hb : (symmetricPart (Mat.toMatrix b.covariance)).PosSemidef)
  {v : TypedVec Exact c.dimension} {s : Fin c.dimension → Elem Exact c.motion.type}
include h hd hD ht hb

lemma exists_step {ρ : ℝ} (hρ : l < ρ)
    (hs : ∀ d, ρ ≤ (Elem.cast (.real p) (s d * s d) : ℝ)) :
    ∃ y, ((c.estimator D joseph debug).step i ⟨u, .ofBelief t b⟩
      (c.sensed time v (k + 1) s)).outcome = .ok y := by
  obtain ⟨A, Q, hM, hQ⟩ := exists_moves_posSemidef (p := p) hc k a (time - t)
  have hP : (Mat.toMatrix (c.priorOf b A Q).covariance).PosSemidef :=
    Layout.posSemidef_predict hb (blockIn p A) hQ
  have hv : ∀ d, ρ ≤ ((Vector.ofFn fun d => s d * s d).map (Elem.cast (.real p)) : Vec ℝ _) d := by
    intro d
    rw [Vec.map_entry, Vec.ofFn_entry]
    exact hs d
  obtain ⟨K, hK⟩ := Layout.exists_gain (e := c.estimator D joseph debug) hD rfl hP
    (v.toType (.real p)) hρ hv
  exact ⟨_, (step_outcome_eq_ok_iff h hd D joseph debug i u ht b v s).mpr ⟨A, Q, K, hM, hK, rfl⟩⟩

end ConstantDerivative

end KalmanFilter
