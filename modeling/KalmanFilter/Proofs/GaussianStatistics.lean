import Mathlib.Analysis.SpecialFunctions.Log.Basic
import KalmanFilter.Estimate.Statistics
import KalmanFilter.Proofs.BayesianUpdate
import KalmanFilter.Proofs.ExactStep
import KalmanFilter.Proofs.InvertingSolver
import KalmanFilter.Proofs.LinearPrediction

/-! The statistics of a point are found from a factor of the covariance, without its
inverse and without its determinant, and are those of the normal distribution. -/

namespace KalmanFilter

open Matrix

namespace Gaussian

variable {ι : Type*} [Fintype ι] [DecidableEq ι] {P : Matrix ι ι ℝ}

noncomputable def squaredDistance (μ : ι → ℝ) (P : Matrix ι ι ℝ) (v : ι → ℝ) : ℝ :=
  (v - μ) ⬝ᵥ (P⁻¹ *ᵥ (v - μ))

noncomputable def logDensity (μ : ι → ℝ) (P : Matrix ι ι ℝ) (v : ι → ℝ) : ℝ :=
  -(Fintype.card ι * Real.log ((2 : ℕ) * Real.pi) + Real.log P.det + squaredDistance μ P v) /
    (2 : ℕ)

noncomputable def density (μ : ι → ℝ) (P : Matrix ι ι ℝ) (v : ι → ℝ) : ℝ :=
  Real.exp (logDensity μ P v)

lemma squaredDistance_self (μ : ι → ℝ) (P : Matrix ι ι ℝ) : squaredDistance μ P μ = 0 := by
  rw [squaredDistance, sub_self, zero_dotProduct]

lemma squaredDistance_pos (hP : P.PosDef) {μ v : ι → ℝ} (h : v ≠ μ) :
    0 < squaredDistance μ P v := by
  have hd := hP.inv.dotProduct_mulVec_pos (sub_ne_zero.mpr h)
  rwa [star_trivial] at hd

lemma squaredDistance_eq_zero_iff (hP : P.PosDef) {μ v : ι → ℝ} :
    squaredDistance μ P v = 0 ↔ v = μ := by
  constructor
  · intro h
    by_contra hv
    exact (squaredDistance_pos hP hv).ne' h
  · rintro rfl
    exact squaredDistance_self v P

lemma squaredDistance_nonneg (hP : P.PosDef) (μ v : ι → ℝ) : 0 ≤ squaredDistance μ P v := by
  by_cases h : v = μ
  · exact ((squaredDistance_eq_zero_iff hP).mpr h).ge
  · exact (squaredDistance_pos hP h).le

lemma density_le_iff {μ u v : ι → ℝ} :
    density μ P u ≤ density μ P v ↔ squaredDistance μ P v ≤ squaredDistance μ P u := by
  rw [density, density, Real.exp_le_exp, logDensity, logDensity, Nat.cast_ofNat]
  constructor <;> intro h <;> linarith

lemma density_maximal_iff (hP : P.PosDef) {μ v : ι → ℝ} :
    (∀ u, density μ P u ≤ density μ P v) ↔ v = μ := by
  simp only [density_le_iff]
  constructor
  · intro h
    have hμ := h μ
    rw [squaredDistance_self] at hμ
    exact (squaredDistance_eq_zero_iff hP).mp (hμ.antisymm (squaredDistance_nonneg hP μ v))
  · rintro rfl u
    rw [squaredDistance_self]
    exact squaredDistance_nonneg hP v u

end Gaussian

namespace Mat

variable {n : ℕ} {A L : Mat ℝ n n}

lemma det_of_cholesky? (hA : A.transpose = A) (h : A.cholesky? = some L) :
    A.toMatrix.det = ∏ i, L i i ^ 2 := by
  have hL := (isLower_of_cholesky? h).isLowerTriangular
  rw [← mul_transpose_of_cholesky? hA h, toMatrix_mul, toMatrix_transpose, det_mul, det_transpose,
    det_of_isLowerTriangular _ hL, ← Finset.prod_mul_distrib]
  exact Finset.prod_congr rfl fun i _ => (pow_two _).symm

lemma log_det_of_cholesky? (hA : A.transpose = A) (h : A.cholesky? = some L) :
    Real.log A.toMatrix.det = 2 * ∑ i, Real.log (L i i) := by
  have hL := isLower_of_cholesky? h
  rw [det_of_cholesky? hA h, Real.log_prod fun i _ => pow_ne_zero 2 (hL.pivot i).ne',
    Finset.mul_sum]
  exact Finset.sum_congr rfl fun i _ => by simp

lemma get_choleskySolve (hA : A.transpose = A) (h : A.cholesky? = some L) (x : Vec ℝ n) :
    (L.choleskySolve (column x)).firstColumn.get = A.toMatrix⁻¹ *ᵥ x.get := by
  have hP := (exists_cholesky?_iff_posDef hA).mp ⟨L, h⟩
  have hx : A * (L.choleskySolve (column x)).firstColumn = x := by
    apply column_injective
    rw [← mul_column, column_firstColumn, mul_choleskySolve hA h]
  have hx := congrArg (A.toMatrix⁻¹ *ᵥ ·) (congrArg Vector.get hx)
  rwa [get_mulVec, mulVec_mulVec, nonsing_inv_mul _ (isUnit_det_of_posDef hP), one_mulVec] at hx

end Mat

namespace Whitened

section

variable {n : ℕ} {μ x : Vec ℝ n} {P : Mat ℝ n n} {w : Whitened ℝ n}

lemma exists_of?_iff (hP : P.transpose = P) : (∃ w, of? μ P x = some w) ↔ P.toMatrix.PosDef := by
  rw [← Mat.exists_cholesky?_iff_posDef hP]
  simp [of?]

lemma eq_of_of? (hP : P.transpose = P) (h : of? μ P x = some w) :
    w.mahalanobisSquared = Gaussian.squaredDistance μ.get P.toMatrix x.get ∧
      w.logDeterminant = Real.log P.toMatrix.det := by
  obtain ⟨L, hL, rfl⟩ := Option.map_eq_some_iff.mp h
  constructor
  · rw [mahalanobisSquared, Gaussian.squaredDistance, ← Vec.get_sub, ← Mat.get_choleskySolve hP hL]
    exact total_eq_sum _
  · rw [logDeterminant, total_eq_sum, Mat.log_det_of_cholesky? hP hL, one_add_one_eq_two]
    rfl

end

end Whitened

inductive Statistic
  | squaredDistance
  | distance
  | logDensity
  | density

namespace Statistic

variable {F : Precision → Type} [Arithmetic F] {p : Precision} {n : ℕ}

def ask : Statistic → Estimate F → Argument F → Fallible F (Tensor F)
  | squaredDistance => Estimate.mahalanobisSquared
  | distance => Estimate.mahalanobis
  | logDensity => Estimate.logLikelihood
  | density => Estimate.likelihood

def measure : Statistic → Whitened (F p) n → F p
  | squaredDistance => Whitened.mahalanobisSquared
  | distance => Whitened.mahalanobis
  | logDensity => Whitened.logLikelihood (Estimate.gaussianConstant p n)
  | density => Whitened.likelihood (Estimate.gaussianConstant p n)

lemma ask_eq (s : Statistic) (x : Estimate F) (point : Argument F) :
    s.ask x point = do return Estimate.statistic s.measure (← x.whiten point) := by
  cases s <;> rfl

noncomputable def value (s : Statistic) (μ : Fin n → ℝ) (P : Matrix (Fin n) (Fin n) ℝ)
    (v : Fin n → ℝ) : ℝ :=
  match s with
  | squaredDistance => Gaussian.squaredDistance μ P v
  | distance => √(Gaussian.squaredDistance μ P v)
  | logDensity => Gaussian.logDensity μ P v
  | density => Gaussian.density μ P v

lemma measure_eq (s : Statistic) {μ x : Vec (Exact p) n} {P : Mat (Exact p) n n}
    {w : Whitened (Exact p) n} (hP : P.transpose = P) (h : Whitened.of? μ P x = some w) :
    s.measure w = s.value μ.get P.toMatrix x.get := by
  obtain ⟨hd, hl⟩ := Whitened.eq_of_of? hP h
  have hg : Whitened.logLikelihood (Estimate.gaussianConstant p n) w =
      Gaussian.logDensity μ.get P.toMatrix x.get := by
    rw [Whitened.logLikelihood, hd, hl, Gaussian.logDensity, Estimate.gaussianConstant,
      Exact.convert_eq, Fintype.card_fin, Nat.cast_ofNat]
    show (-0.5 : ℝ) * (((n : ℤ) : ℝ) * Real.log ((1 + 1) * Real.pi) + _ + _) = _
    rw [Int.cast_natCast, one_add_one_eq_two]
    ring
  cases s with
  | squaredDistance => exact hd
  | distance => exact congrArg Real.sqrt hd
  | logDensity => exact hg
  | density => exact congrArg Real.exp hg

end Statistic

namespace Estimate

variable {p : Precision} {n : ℕ} {point : Argument Exact} {y : Tensor Exact}

lemma whiten_of_shape {F : Precision → Type} [Arithmetic F] {point : Argument F} {y : Tensor F}
    (hy : point.toTensor = .ok y) (x : Estimate F) (h : y.shape ≠ [x.dimension]) :
    x.whiten point = .error (.pointShape y.shape [x.dimension]) := by
  rw [whiten, hy]
  exact dif_neg h

lemma whiten_ofBelief {F : Precision → Type} [Arithmetic F] {point : Argument F}
    {v : TypedVec F n} (hy : point.toTensor = .ok v.tensor) (t : F .double) (b : Belief (F p) n) :
    (ofBelief t b).whiten point =
      match Whitened.of? b.state b.covariance (v.toType (.real p)) with
      | none => .error (.notPositiveDefinite .covariance)
      | some w => .ok ⟨p, w⟩ := by
  have hv := Tensor.vec_of_eq (v.toType_tensor (.real p)) rfl
  rw [whiten, hy]
  refine (dif_pos (show (v.tensor.toType (.real p)).shape = [n] from rfl)).trans ?_
  dsimp only [ofBelief]
  rw [hv, TypedVec.toType_self, TypedVec.toType_self, TypedMat.toType_self]
  cases Whitened.of? b.state b.covariance (v.toType (.real p)) with
  | none => rfl
  | some w => exact if_pos rfl

end Estimate

namespace Statistic

variable {p : Precision} {n : ℕ} {point : Argument Exact} {v : TypedVec Exact n}
  {b : Belief (Exact p) n}

lemma ask_of_shape {F : Precision → Type} [Arithmetic F] {point : Argument F} {y : Tensor F}
    (hy : point.toTensor = .ok y) (s : Statistic) (x : Estimate F) (h : y.shape ≠ [x.dimension]) :
    s.ask x point = .error (.pointShape y.shape [x.dimension]) := by
  rw [ask_eq, Estimate.whiten_of_shape hy x h]
  rfl

lemma ask_of_not_posDef (hy : point.toTensor = .ok v.tensor)
    (hP : b.covariance.transpose = b.covariance) (h : ¬ b.covariance.toMatrix.PosDef)
    (s : Statistic) (t : ℝ) :
    s.ask (.ofBelief t b) point = .error (.notPositiveDefinite .covariance) := by
  have hw : Whitened.of? b.state b.covariance (v.toType (.real p)) = none := by
    rw [Option.eq_none_iff_forall_ne_some]
    exact fun w hw => h ((Whitened.exists_of?_iff hP).mp ⟨w, hw⟩)
  rw [ask_eq, Estimate.whiten_ofBelief hy, hw]
  rfl

lemma ask_of_posDef (hy : point.toTensor = .ok v.tensor)
    (h : b.covariance.toMatrix.PosDef) (s : Statistic) (t : ℝ) :
    s.ask (.ofBelief t b) point =
      .ok (.scalar (e := .real p) (s.value b.state.get b.covariance.toMatrix v.real)) := by
  have hP := Mat.transpose_eq_of_posDef h
  obtain ⟨w, hw⟩ := (Whitened.exists_of?_iff (μ := b.state) (x := v.toType (.real p)) hP).mpr h
  rw [ask_eq, Estimate.whiten_ofBelief hy, hw, ← v.get_toType p, ← s.measure_eq hP hw]
  rfl

end Statistic

namespace Estimate

theorem statistic_gaussian (point : Argument Exact) (y : Tensor Exact)
    (hy : point.toTensor = .ok y) (s : Statistic) :
    (∀ x : Estimate Exact, y.shape ≠ [x.dimension] →
      s.ask x point = .error (.pointShape y.shape [x.dimension]) ∧
        (Failure.pointShape (F := Exact) y.shape [x.dimension]).class? = some .dimensionMismatch) ∧
    ∀ {p : Precision} {n : ℕ} (t : ℝ) (b : Belief (Exact p) n),
      b.covariance.transpose = b.covariance → y.shape = [n] →
      let μ := b.state.get
      let P := b.covariance.toMatrix
      ((∃ f, s.ask (ofBelief t b) point = .error f ∧ f.class? = some .nonPositiveDefinite) ↔
        ¬ P.PosDef) ∧
      (P.PosDef →
        s.ask (ofBelief t b) point =
          .ok (.scalar (e := .real p) (s.value μ P (y.vector n))) ∧
        ∀ v : Fin n → ℝ,
          (0 ≤ Gaussian.squaredDistance μ P v ∧ (Gaussian.squaredDistance μ P v = 0 ↔ v = μ)) ∧
          0 < Gaussian.density μ P v ∧
          ((∀ u, Gaussian.density μ P u ≤ Gaussian.density μ P v) ↔ v = μ)) := by
  refine ⟨fun x hx => ⟨s.ask_of_shape hy x hx, rfl⟩, fun {p n} t b hP hn => ?_⟩
  obtain ⟨v, rfl⟩ := Tensor.exists_vec hn
  rw [Tensor.vector_tensor]
  intro μ P
  by_cases h : P.PosDef
  · have hs := s.ask_of_posDef hy h t
    refine ⟨iff_of_false ?_ (not_not_intro h), fun _ => ⟨hs, fun v => ⟨⟨?_, ?_⟩, ?_, ?_⟩⟩⟩
    · rintro ⟨f, hf, -⟩
      cases hs.symm.trans hf
    · exact Gaussian.squaredDistance_nonneg h μ v
    · exact Gaussian.squaredDistance_eq_zero_iff h
    · exact Real.exp_pos _
    · exact Gaussian.density_maximal_iff h
  · exact ⟨iff_of_true ⟨_, s.ask_of_not_posDef hy hP h t, rfl⟩ h, fun hP => absurd hP h⟩

theorem statistic_gaussian_prior :
    let v : TypedVec Exact 2 := ⟨.int64, #v[1, 2]⟩
    let point : Argument Exact := .tensor v.tensor
    let x : Estimate Exact := .ofBelief (p := .double) 0 ⟨#v[0], .identity⟩
    point.toTensor = .ok v.tensor ∧ v.tensor.shape = [2] ∧ v.tensor.shape ≠ [x.dimension] ∧
      Fix.prior.covariance.transpose = Fix.prior.covariance ∧
      Fix.prior.covariance.toMatrix.PosDef ∧
      Statistic.logDensity.ask x point = .error (.pointShape [2] [1]) ∧
      Statistic.logDensity.ask (.ofBelief 0 Fix.prior) point = .ok (.scalar (e := .real .double)
        (Gaussian.logDensity Fix.prior.state.get Fix.prior.covariance.toMatrix
          (v.tensor.vector 2))) := by
  intro v point x
  have hb : Fix.prior.covariance.toMatrix.PosDef :=
    (Mat.isLower_square one_pos one_pos).posDef_mul_transpose
  have ht := Mat.transpose_eq_of_posDef hb
  have hx : v.tensor.shape ≠ [x.dimension] := by
    show [2] ≠ [1]
    decide
  obtain ⟨hs, hg⟩ := statistic_gaussian point v.tensor rfl .logDensity
  exact ⟨rfl, rfl, hx, ht, hb, (hs x hx).1, ((hg 0 Fix.prior ht rfl).2 hb).1⟩

end Estimate

end KalmanFilter
