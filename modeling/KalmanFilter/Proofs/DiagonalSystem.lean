import KalmanFilter.Proofs.Separation
import KalmanFilter.Proofs.SymmetricSystem
import Mathlib.LinearAlgebra.Matrix.IsDiag

namespace KalmanFilter

open Matrix

variable {p : Precision} {m m' n n' : ℕ}

namespace Mat

lemma remainder_of_isDiag {A : Mat ℝ (n + 1) (n + 1)} (hA : A.toMatrix.IsDiag) :
    A.remainder = A.core := by
  have hc : ∀ i, A.scaledColumn i = 0 := by
    intro i
    have h : A i.succ 0 = 0 := hA (Fin.succ_ne_zero i)
    simp [scaledColumn, h]
  ext i j
  simp [remainder, hc]

lemma isDiag_core {A : Mat ℝ (n + 1) (n + 1)} (hA : A.toMatrix.IsDiag) :
    A.core.toMatrix.IsDiag := by
  intro i j h
  rw [toMatrix_apply, core_entry]
  exact hA fun hs => h (Fin.succ_inj.mp hs)

lemma mul_self_of_cholesky? {A L : Mat ℝ n n} (hA : A.toMatrix.IsDiag)
    (h : A.cholesky? = some L) (i : Fin n) : L i i * L i i = A i i := by
  induction n with
  | zero => exact i.elim0
  | succ n ih =>
    obtain ⟨hp, M, hM, rfl⟩ := exists_of_cholesky?_succ h
    rw [remainder_of_isDiag hA] at hM
    cases i using Fin.cases with
    | zero => rw [block_zero_zero, Scalar.sqrt_eq, Real.mul_self_sqrt hp.le]
    | succ i => rw [block_succ_succ, ih (isDiag_core hA) hM, core_entry]

lemma exists_cholesky?_of_isDiag {A : Mat ℝ n n} (hA : A.toMatrix.IsDiag) (hp : ∀ i, 0 < A i i) :
    ∃ L, A.cholesky? = some L := by
  induction n with
  | zero => exact ⟨A, rfl⟩
  | succ n ih =>
    obtain ⟨M, hM⟩ := ih (isDiag_core hA) fun i => by simpa using hp i.succ
    rw [cholesky?_succ, if_pos (hp 0), remainder_of_isDiag hA, hM]
    exact ⟨_, rfl⟩

end Mat

namespace CholeskyDecomposer.HasLimits

variable {d : CholeskyDecomposer Exact} {r s : ℝ} (h : d.HasLimits r s) {e : Estimator Exact}
  (he : e.decomposer = d.decomposer) {b : Belief (Exact p) n} {z : Observation (Exact p) m n}
  (hS : (Mat.toMatrix (b.innovationCovariance z)).IsDiag)
include h he hS

lemma gain_outcome_iff_of_isDiag :
    (∃ K, (e.gain b z).outcome = .ok K) ↔ ∀ i, s < b.innovationCovariance z i i := by
  rw [h.gain_outcome_iff he]
  constructor
  · rintro ⟨L, hL, hs⟩ i
    exact Mat.mul_self_of_cholesky? hS hL i ▸ hs i
  · intro hs
    obtain ⟨L, hL⟩ := Mat.exists_cholesky?_of_isDiag hS fun i => h.absolute_nonneg.trans_lt (hs i)
    exact ⟨L, hL, fun i => (Mat.mul_self_of_cholesky? hS hL i).symm ▸ hs i⟩

lemma pivot_ne_zero {K : Mat (Exact p) n m} (hK : (e.gain b z).outcome = .ok K) (i : Fin m) :
    b.innovationCovariance z i i ≠ 0 :=
  (h.absolute_nonneg.trans_lt ((h.gain_outcome_iff_of_isDiag he hS).mp ⟨K, hK⟩ i)).ne'

end CholeskyDecomposer.HasLimits

namespace Belief.IsGain

variable {b : Belief ℝ n} {z : Observation ℝ m n} {K : Mat ℝ n m} (h : b.IsGain z K)
  (hS : (b.innovationCovariance z).toMatrix.IsDiag)
include h hS

lemma pivot_mul (i : Fin n) (j : Fin m) :
    b.innovationCovariance z j j * K i j = b.crossCovariance z j i := by
  rw [← h, Mat.mul_entry, total_eq_sum, Finset.sum_eq_single j]
  · rw [Mat.transpose_entry]
  · intro k _ hk
    exact mul_eq_zero_of_left (hS hk.symm) _
  · exact fun hj => absurd (Finset.mem_univ j) hj

variable (hp : ∀ j, b.innovationCovariance z j j ≠ 0)
include hp

lemma separates {δ : Type*} {a : Fin n → δ} {c : Fin m → δ}
    (hB : Separates c a (b.crossCovariance z).toMatrix) : Separates a c K.toMatrix := by
  intro i j hij
  have hz : b.crossCovariance z j i = 0 := hB j i hij.symm
  rw [← h.pivot_mul hS] at hz
  exact (mul_eq_zero.mp hz).resolve_left (hp j)

lemma eq_select {f : Fin n' → Fin n} {g : Fin m' → Fin m} (hf : Function.Injective f)
    (hg : Function.Injective g) (hH : Supported g f z.matrix.toMatrix) {L : Mat ℝ n' m'}
    (hL : (b.select f).IsGain (z.select g f) L) : L = K.select f g := by
  have hS' := innovationCovariance_select (b := b) hf hH
  have hD : ((b.select f).innovationCovariance (z.select g f)).toMatrix.IsDiag := by
    rw [← hS', Mat.toMatrix_select]
    exact hS.submatrix hg
  -- an equation of a diagonal system has one unknown, and both systems have the same equations
  ext i j
  have hl := hL.pivot_mul hD i j
  rw [← hS', ← crossCovariance_select hf hH, Mat.select_entry, Mat.select_entry,
    ← h.pivot_mul hS] at hl
  rw [Mat.select_entry]
  exact mul_left_cancel₀ (hp (g j)) hl

end Belief.IsGain

namespace CholeskyDecomposer.HasLimits

variable {d : CholeskyDecomposer Exact} {r s : ℝ} {e e' : Estimator Exact}
  {b : Belief (Exact p) n} {z : Observation (Exact p) m n} {f : Fin n' → Fin n} {g : Fin m' → Fin m}
  (h : d.HasLimits r s) (he' : e'.decomposer = d.decomposer)
  (hS : (Mat.toMatrix (b.innovationCovariance z)).IsDiag) (hf : Function.Injective f)
  (hg : Function.Injective g) (hH : Supported g f (Mat.toMatrix z.matrix))
include h he' hS hf hg hH

lemma gain_select_outcome_iff :
    (∃ K, (e'.gain (b.select f) (z.select g f)).outcome = .ok K) ↔
      ∀ j, s < b.innovationCovariance z (g j) (g j) := by
  have hS' := Belief.innovationCovariance_select (b := b) hf hH
  have hD : (Mat.toMatrix ((b.select f).innovationCovariance (z.select g f))).IsDiag := by
    rw [← hS', Mat.toMatrix_select]
    exact hS.submatrix hg
  rw [h.gain_outcome_iff_of_isDiag he' hD, ← hS']
  simp only [Mat.select_entry]

lemma gain_select (he : e.decomposer = d.decomposer) {K : Mat (Exact p) n m}
    (hK : (e.gain b z).outcome = .ok K) :
    (e'.gain (b.select f) (z.select g f)).outcome = .ok (K.select f g) := by
  have hs := (h.gain_outcome_iff_of_isDiag he hS).mp ⟨K, hK⟩
  obtain ⟨L, hL⟩ := (h.gain_select_outcome_iff he' hS hf hg hH).mpr fun j => hs (g j)
  have hG := Estimator.isGain_of_solvesSymmetric (he ▸ d.solvesSymmetric) hK
  have hG' := Estimator.isGain_of_solvesSymmetric (he' ▸ d.solvesSymmetric) hL
  rw [hL, hG.eq_select hS (h.pivot_ne_zero he hS hK) hf hg hH hG']

end CholeskyDecomposer.HasLimits

end KalmanFilter
