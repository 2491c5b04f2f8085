import KalmanFilter.Proofs.CholeskyFactor
import KalmanFilter.Proofs.ExactDecomposer
import KalmanFilter.Proofs.Verdict

namespace KalmanFilter

variable {F : Precision → Type} {p : Precision} {m n : ℕ}

namespace CholeskyDecomposer

section

variable [Arithmetic F] {d : CholeskyDecomposer F} {A L : Mat (F p) n n}

lemma factor_outcome_eq_ok_iff :
    (d.factor A).outcome = .ok L ↔
      ∃ r s, d.relativeSymmetry.limit p = .ok r ∧ d.absolutePositivity.limit p = .ok s ∧
        ¬ A.Asymmetric r ∧ A.cholesky? = some L ∧ ¬ ∃ i, L i i * L i i ≤ s := by
  rw [factor, Attempt.bind_outcome_eq_ok_iff]
  constructor
  · rintro ⟨r, hr, h⟩
    split at h
    case isTrue => cases h
    case isFalse ha =>
      rw [Mat.isAsymmetric_eq_true_iff] at ha
      split at h
      · cases h
      · rename_i M hM
        obtain ⟨s, hs, h⟩ := Attempt.bind_outcome_eq_ok_iff.mp h
        split at h
        case isTrue => cases h
        case isFalse hp =>
          obtain rfl := Except.ok.inj h
          exact ⟨r, s, hr, hs, ha, hM, by simpa using hp⟩
  · rintro ⟨r, s, hr, hs, ha, hL, hp⟩
    refine ⟨r, hr, ?_⟩
    rw [← Mat.isAsymmetric_eq_true_iff] at ha
    rw [if_neg ha, hL]
    refine Attempt.bind_outcome_eq_ok_iff.mpr ⟨s, hs, ?_⟩
    rw [if_neg (by simpa using hp)]
    rfl

lemma exists_factor_of_decompose {solve : Solver F p n}
    (h : (d.decomposer.decompose A).outcome = .ok solve) :
    ∃ L, (d.factor A).outcome = .ok L ∧
      ∀ {c : ℕ} (b : Mat (F p) n c), solve b = .ok (L.choleskySolve b) := by
  obtain ⟨L, hL, h⟩ := Attempt.bind_outcome_eq_ok_iff.mp h
  refine ⟨L, hL, fun {c} b => ?_⟩
  exact (congrFun (congrFun (Except.ok.inj h) c) b).symm

lemma decompose_of_factor (h : (d.factor A).outcome = .ok L) :
    ∃ solve : Solver F p n, (d.decomposer.decompose A).outcome = .ok solve ∧
      ∀ {c : ℕ} (b : Mat (F p) n c), solve b = .ok (L.choleskySolve b) :=
  ⟨Solver.cholesky L, Attempt.bind_outcome_eq_ok_iff.mpr ⟨L, h, rfl⟩, fun _ => rfl⟩

end

lemma solvesSymmetric (d : CholeskyDecomposer Exact) : d.decomposer.SolvesSymmetric := by
  intro p k c A solve B X hA hs hX
  obtain ⟨L, hL, hb⟩ := exists_factor_of_decompose hs
  obtain ⟨r, s, -, -, -, hc, -⟩ := factor_outcome_eq_ok_iff.mp hL
  obtain rfl := Except.ok.inj ((hb B).symm.trans hX)
  exact Mat.mul_choleskySolve hA hc B

end CholeskyDecomposer

def Datum.IsLimit (d : Datum Exact) (x : ℝ) : Prop :=
  ∀ p, d.limit p = .ok x

lemma Datum.isLimit_real (x : ℝ) : (Datum.real x : Datum Exact).IsLimit x := by
  intro p
  rw [limit_real, Exact.convert_eq]

lemma Mat.not_asymmetric_of_transpose {A : Mat ℝ n n} (hA : A.transpose = A) {r : ℝ}
    (hr : 0 ≤ r) : ¬ A.Asymmetric r := by
  refine not_asymmetric_of_comm hr fun i j => ?_
  rw [← transpose_entry, hA]

structure CholeskyDecomposer.HasLimits (d : CholeskyDecomposer Exact) (r s : ℝ) : Prop where
  relative : d.relativeSymmetry.IsLimit r
  absolute : d.absolutePositivity.IsLimit s
  relative_nonneg : 0 ≤ r
  absolute_nonneg : 0 ≤ s

lemma CholeskyDecomposer.hasLimits_real {r s : ℝ} (hr : 0 ≤ r) (hs : 0 ≤ s) :
    (⟨.real r, .real s⟩ : CholeskyDecomposer Exact).HasLimits r s :=
  ⟨Datum.isLimit_real r, Datum.isLimit_real s, hr, hs⟩

lemma CholeskyDecomposer.hasLimits_defaults : HasLimits .defaults 1e-15 1e-10 :=
  hasLimits_real (by norm_num) (by norm_num)

lemma CholeskyDecomposer.HasLimits.gain_outcome_iff {d : CholeskyDecomposer Exact} {r s : ℝ}
    (h : d.HasLimits r s) {e : Estimator Exact} (he : e.decomposer = d.decomposer)
    (b : Belief (Exact p) n) (z : Observation (Exact p) m n) :
    (∃ K, (e.gain b z).outcome = .ok K) ↔
      ∃ L, (b.innovationCovariance z).cholesky? = some L ∧ ∀ i, s < L i i * L i i := by
  constructor
  · rintro ⟨K, hK⟩
    obtain ⟨solve, X, hs, -⟩ := Estimator.gain_outcome_eq_ok_iff.mp hK
    rw [he] at hs
    obtain ⟨L, hL, -⟩ := exists_factor_of_decompose hs
    obtain ⟨r', s', -, hs', -, hc, hp⟩ := factor_outcome_eq_ok_iff.mp hL
    obtain rfl := Except.ok.inj ((h.absolute p).symm.trans hs')
    exact ⟨L, hc, fun i => not_le.mp fun hi => hp ⟨i, hi⟩⟩
  · rintro ⟨L, hc, hp⟩
    have ha : ¬ (b.innovationCovariance z).Asymmetric r :=
      Mat.not_asymmetric_of_transpose (b.transpose_innovationCovariance z) h.relative_nonneg
    have hL : (d.factor (b.innovationCovariance z)).outcome = .ok L := by
      refine factor_outcome_eq_ok_iff.mpr ⟨r, s, h.relative p, h.absolute p, ha, hc, ?_⟩
      rintro ⟨i, hi⟩
      exact (hp i).not_ge hi
    obtain ⟨solve, hs, hb⟩ := decompose_of_factor hL
    rw [← he] at hs
    exact ⟨_, Estimator.gain_outcome_eq_ok_iff.mpr ⟨solve, _, hs, hb _, rfl⟩⟩

end KalmanFilter
