import KalmanFilter.Proofs.BayesianUpdate

/-! A state may be corrected with any matrix in the place of the gain, and what
remains of its error has a covariance. The square of the distance from the filter's
gain comes on top of the least one. -/

namespace KalmanFilter

open Matrix

section

variable {ι κ : Type*} [Fintype ι] [DecidableEq ι] [Fintype κ] {P : Matrix ι ι ℝ}
  {H : Matrix κ ι ℝ} {R S : Matrix κ κ ℝ} {K : Matrix ι κ ℝ}

/-- The error that a correction by `G` leaves is `1 - G * H` times the one before, less `G` times
the noise of the observation. -/
def errorCovariance (P : Matrix ι ι ℝ) (H : Matrix κ ι ℝ) (R : Matrix κ κ ℝ) (G : Matrix ι κ ℝ) :
    Matrix ι ι ℝ :=
  (1 - G * H) * P * (1 - G * H)ᵀ + G * R * Gᵀ

lemma errorCovariance_eq (hS : S = H * P * Hᵀ + R) (G : Matrix ι κ ℝ) :
    errorCovariance P H R G = P - G * (H * P) - P * Hᵀ * Gᵀ + G * S * Gᵀ := by
  simp only [hS, errorCovariance, transpose_sub, transpose_one, transpose_mul, Matrix.sub_mul,
    Matrix.mul_sub, Matrix.mul_add, Matrix.add_mul, Matrix.one_mul, Matrix.mul_one,
    Matrix.mul_assoc]
  abel

lemma errorCovariance_eq_add_square (hS : S = H * P * Hᵀ + R) (hl : S * Kᵀ = H * P)
    (hr : K * S = P * Hᵀ) (G : Matrix ι κ ℝ) :
    errorCovariance P H R G = (1 - K * H) * P + (G - K) * S * (G - K)ᵀ := by
  have hsquare : (G - K) * S * (G - K)ᵀ =
      G * S * Gᵀ - G * (H * P) - P * Hᵀ * Gᵀ + K * (H * P) := by
    rw [Matrix.sub_mul, hr, transpose_sub, Matrix.mul_sub, Matrix.sub_mul, Matrix.sub_mul,
      Matrix.mul_assoc G S Kᵀ, hl, ← hr, Matrix.mul_assoc K S Kᵀ, hl]
    abel
  rw [errorCovariance_eq hS, hsquare, Matrix.sub_mul, Matrix.one_mul, Matrix.mul_assoc K H P]
  abel

end

variable {p : Precision} {m n : ℕ}

namespace Belief

variable {b : Belief ℝ n} {z : Observation ℝ m n} {K : Mat ℝ n m}

def errorCovariance (b : Belief ℝ n) (z : Observation ℝ m n) (G : Matrix (Fin n) (Fin m) ℝ) :
    Matrix (Fin n) (Fin n) ℝ :=
  KalmanFilter.errorCovariance b.covariance.toMatrix z.matrix.toMatrix z.noise.toMatrix G

lemma IsGain.errorCovariance_eq (hb : b.covariance.toMatrixᵀ = b.covariance.toMatrix)
    (hz : z.noise.toMatrixᵀ = z.noise.toMatrix) (h : b.IsGain z K) (joseph : Bool)
    (G : Matrix (Fin n) (Fin m) ℝ) :
    b.errorCovariance z G = (b.correct joseph z K).covariance.toMatrix +
      (G - K.toMatrix) * (b.innovationCovariance z).toMatrix * (G - K.toMatrix)ᵀ := by
  have hS := innovationCovariance_eq hb z
  rw [symmetricPart_of_symm hz] at hS
  rw [toMatrix_correct_eq hb h]
  exact errorCovariance_eq_add_square hS (isGain_iff.mp h)
    (h.mul_innovationCovariance hb) G

lemma IsGain.posSemidef_errorCovariance_sub (hb : b.covariance.toMatrix.PosSemidef)
    (hz : z.noise.toMatrix.PosSemidef) (h : b.IsGain z K) (joseph : Bool)
    (G : Matrix (Fin n) (Fin m) ℝ) :
    (b.errorCovariance z G - (b.correct joseph z K).covariance.toMatrix).PosSemidef := by
  rw [h.errorCovariance_eq hb.isHermitian hz.isHermitian joseph, add_sub_cancel_left]
  exact posSemidef_congruence
    (posSemidef_innovationCovariance hb (posSemidef_symmetricPart hz)) _

end Belief

namespace Estimator

theorem gain_optimal {e : Estimator Exact} (he : e.decomposer.SolvesSymmetric)
    (b : Belief (Exact p) n) (t : Transition (Exact p) n) (z : Observation (Exact p) m n)
    (hz : z.noise.transpose = z.noise) {time : ℝ} {c : Belief (Exact p) n}
    (h : (e.correct time (b.predict t) z).outcome = .ok c) :
    ∃ K, (e.gain (b.predict t) z).outcome = .ok K ∧
      c = (b.predict t).correct e.joseph z K ∧
      (∀ G, (b.predict t).errorCovariance z G = c.covariance.toMatrix +
        (G - K.toMatrix) * ((b.predict t).innovationCovariance z).toMatrix * (G - K.toMatrix)ᵀ) ∧
      ((b.predict t).covariance.toMatrix.PosSemidef → z.noise.toMatrix.PosSemidef →
        ∀ G, ((b.predict t).errorCovariance z G - c.covariance.toMatrix).PosSemidef ∧
          ∀ i, c.covariance i i ≤ (b.predict t).errorCovariance z G i i) := by
  obtain ⟨K, hK, hc⟩ := correct_outcome_eq_ok_iff.mp h
  have hG := isGain_of_solvesSymmetric he hK
  have hb := Belief.transpose_predict b t
  have hR : z.noise.toMatrixᵀ = z.noise.toMatrix := by
    rw [← Mat.toMatrix_transpose, hz]
  refine ⟨K, hK, hc, fun G => ?_, fun hP hQ G => ?_⟩
  · rw [hc]
    exact hG.errorCovariance_eq hb hR e.joseph G
  · have hd := hG.posSemidef_errorCovariance_sub hP hQ e.joseph G
    rw [← hc] at hd
    exact ⟨hd, fun i => sub_nonneg.mp hd.diag_nonneg⟩

theorem gain_optimal_fix :
    let t : Transition (Exact .double) 2 := ⟨#v[0, 0], Tilted.tilt, Tilted.tilt⟩
    let b := Fix.prior.predict t
    let z := Fix.observation
    let e : Estimator Exact := ⟨Fix.decomposer.decomposer, Tilted.process, true, false⟩
    e.decomposer.SolvesSymmetric ∧ z.noise.transpose = z.noise ∧
      b.covariance.toMatrix.PosSemidef ∧ z.noise.toMatrix.PosSemidef ∧
      ∃ c K, (e.correct 0 b z).outcome = .ok c ∧ (e.gain b z).outcome = .ok K ∧
        ∀ G, b.errorCovariance z G = c.covariance.toMatrix +
            (G - K.toMatrix) * (b.innovationCovariance z).toMatrix * (G - K.toMatrix)ᵀ ∧
          ∀ i, c.covariance i i ≤ b.errorCovariance z G i i := by
  intro t b z e
  have hd : Fix.decomposer.HasLimits 0 0 :=
    CholeskyDecomposer.hasLimits_real le_rfl le_rfl
  have he : e.decomposer.SolvesSymmetric := Fix.decomposer.solvesSymmetric
  have hR : z.noise.toMatrix.PosDef := by
    simp only [z, Fix.observation, Mat.toMatrix_identity]
    exact .one
  have hz : z.noise.transpose = z.noise := Mat.transpose_eq_of_posDef hR
  have hb : b.covariance.toMatrix.PosSemidef := by
    refine Belief.posSemidef_predict (posSemidef_symmetricPart ?_) ?_
    · exact (Mat.isLower_square one_pos one_pos).posDef_mul_transpose.posSemidef
    · simp only [t, Tilted.symmetricPart_tilt]
      exact .one
  have hS : (b.innovationCovariance z).toMatrix.PosDef := by
    refine Belief.posDef_innovationCovariance hb ?_
    rwa [symmetricPart_of_posDef hR]
  obtain ⟨K, hK⟩ := exists_gain_of_acceptsDefinite (e := e) hd.acceptsDefinite hS
  have hc : (e.correct 0 b z).outcome = .ok (b.correct e.joseph z K) :=
    correct_outcome_eq_ok_iff.mpr ⟨K, hK, rfl⟩
  obtain ⟨K', hK', -, hG, hle⟩ := gain_optimal he Fix.prior t z hz hc
  obtain rfl := Except.ok.inj (hK.symm.trans hK')
  exact ⟨he, hz, hb, hR.posSemidef, _, K, hc, hK,
    fun G => ⟨hG G, (hle hb hR.posSemidef G).2⟩⟩

end Estimator

end KalmanFilter
