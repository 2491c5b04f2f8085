import Mathlib.Algebra.Order.Star.Real
import Mathlib.LinearAlgebra.Matrix.Block
import KalmanFilter.Proofs.CholeskyFactor

/-! A Cholesky factor is found from the lower triangle alone, and it exists if and
only if the symmetric matrix with that triangle is positive definite. Its squared
diagonal entries are quotients of leading minors. -/

namespace KalmanFilter.Mat

open Matrix

variable {α : Type} {k n : ℕ}

def mirror (A : Mat α n n) : Mat α n n :=
  ofFn fun i j => A (max i j) (min i j)

@[simp] lemma mirror_entry (A : Mat α n n) (i j : Fin n) : A.mirror i j = A (max i j) (min i j) :=
  ofFn_entry ..

lemma mirror_of_le (A : Mat α n n) {i j : Fin n} (h : j ≤ i) : A.mirror i j = A i j := by
  rw [mirror_entry, max_eq_left h, min_eq_right h]

lemma mirror_of_ge (A : Mat α n n) {i j : Fin n} (h : i ≤ j) : A.mirror i j = A j i := by
  rw [mirror_entry, max_eq_right h, min_eq_left h]

lemma transpose_mirror (A : Mat α n n) : A.mirror.transpose = A.mirror := by
  ext i j
  simp [max_comm, min_comm]

lemma mirror_eq_self {A : Mat α n n} (hA : A.transpose = A) : A.mirror = A := by
  ext i j
  obtain h | h := le_total j i
  · exact A.mirror_of_le h
  · rw [A.mirror_of_ge h, ← transpose_entry, hA]

lemma cholesky?_congr {A B : Mat ℝ n n} (h : ∀ i j, j ≤ i → A i j = B i j) :
    A.cholesky? = B.cholesky? := by
  induction n with
  | zero =>
    congr 1
    ext i j
    exact i.elim0
  | succ n ih =>
    have h₀ : A 0 0 = B 0 0 := h 0 0 le_rfl
    have hl : A.scaledColumn = B.scaledColumn :=
      Vec.ext fun i => by simp [scaledColumn, h₀, h i.succ 0 (Fin.zero_le _)]
    have hr : A.remainder.cholesky? = B.remainder.cholesky? := ih fun i j hij => by
      simp [remainder, hl, h i.succ j.succ (Fin.succ_le_succ_iff.mpr hij)]
    rw [cholesky?_succ, cholesky?_succ, h₀, hl, hr]

lemma cholesky?_mirror (A : Mat ℝ n n) : A.mirror.cholesky? = A.cholesky? :=
  cholesky?_congr fun _ _ h => A.mirror_of_le h

lemma exists_cholesky?_of_form_pos {A : Mat ℝ n n} (hA : A.transpose = A)
    (h : ∀ v : Fin n → ℝ, v ≠ 0 → 0 < v ⬝ᵥ (A.toMatrix *ᵥ v)) : ∃ L, A.cholesky? = some L := by
  induction n with
  | zero => exact ⟨A, rfl⟩
  | succ n ih =>
    have hp : 0 < A 0 0 := by
      have h₀ := h (Fin.cons 1 0) fun h => one_ne_zero (congrFun h 0)
      simpa [dotProduct, mulVec, Fin.sum_univ_succ] using h₀
    have hd : √(A 0 0) ≠ 0 := (Real.sqrt_pos.mpr hp).ne'
    -- the first entry of the vector is chosen so that the completed square vanishes
    obtain ⟨M, hM⟩ := ih (transpose_remainder hA) fun v hv => by
      have hx := h (Fin.cons (-(A.scaledColumn.get ⬝ᵥ v) / √(A 0 0)) v) fun h =>
        hv (funext fun i => congrFun h i.succ)
      rwa [form_cons hA hp, mul_div_cancel₀ _ hd, neg_add_cancel, zero_pow two_ne_zero, zero_add]
        at hx
    exact ⟨_, by rw [cholesky?_succ, if_pos hp, hM]; rfl⟩

lemma IsLower.isLowerTriangular {L : Mat ℝ n n} (hL : L.IsLower) :
    L.toMatrix.IsLowerTriangular :=
  fun i j hij => hL.above i j hij

lemma IsLower.isUnit_det {L : Mat ℝ n n} (hL : L.IsLower) : IsUnit L.toMatrix.det := by
  rw [det_of_isLowerTriangular _ hL.isLowerTriangular, isUnit_iff_ne_zero]
  exact Finset.prod_ne_zero_iff.mpr fun i _ => (hL.pivot i).ne'

lemma IsLower.posDef_mul_transpose {L : Mat ℝ n n} (hL : L.IsLower) :
    (L * L.transpose).toMatrix.PosDef := by
  rw [toMatrix_mul, toMatrix_transpose, ← conjTranspose_eq_transpose_of_trivial]
  exact PosDef.mul_conjTranspose_self _
    (vecMul_injective_of_isUnit ((isUnit_iff_isUnit_det _).mpr hL.isUnit_det))

lemma exists_cholesky?_iff_posDef {A : Mat ℝ n n} (hA : A.transpose = A) :
    (∃ L, A.cholesky? = some L) ↔ A.toMatrix.PosDef := by
  constructor
  · rintro ⟨L, hL⟩
    rw [← mul_transpose_of_cholesky? hA hL]
    exact (isLower_of_cholesky? hL).posDef_mul_transpose
  · intro h
    exact exists_cholesky?_of_form_pos hA fun v hv => by simpa using h.dotProduct_mulVec_pos hv

lemma square_entry (a b c d : α) (i j : Fin 2) :
    square a b c d i j = ![![a, b], ![c, d]] i j := by
  fin_cases i <;> fin_cases j <;> rfl

lemma isLower_square {a b c : ℝ} (ha : 0 < a) (hc : 0 < c) : (square a 0 b c).IsLower := by
  refine ⟨fun i j hij => ?_, fun i => ?_⟩
  · obtain ⟨rfl, rfl⟩ : i = 0 ∧ j = 1 := by omega
    rfl
  · fin_cases i
    · exact ha
    · exact hc

noncomputable def leadingMinor (A : Mat ℝ n n) (hk : k ≤ n) : ℝ :=
  (A.toMatrix.submatrix (Fin.castLE hk) (Fin.castLE hk)).det

noncomputable def pivot (A : Mat ℝ n n) (i : Fin n) : ℝ :=
  A.leadingMinor i.isLt / A.leadingMinor i.isLt.le

namespace IsLower

variable {L : Mat ℝ n n} (hL : L.IsLower)

include hL

lemma leading_mul_transpose (hk : k ≤ n) :
    (L * L.transpose).toMatrix.submatrix (Fin.castLE hk) (Fin.castLE hk) =
      L.toMatrix.submatrix (Fin.castLE hk) (Fin.castLE hk) *
        (L.toMatrix.submatrix (Fin.castLE hk) (Fin.castLE hk))ᵀ := by
  obtain ⟨m, rfl⟩ := Nat.exists_eq_add_of_le hk
  ext i j
  -- the columns after the first ones are zero in the first rows
  have hz : ∀ l : Fin m, L (Fin.castAdd m i) (Fin.natAdd k l) = 0 := fun l =>
    hL.above _ _ (Fin.lt_def.mpr (by simp; omega))
  have hc : ∀ l : Fin k, Fin.castLE hk l = Fin.castAdd m l := fun _ => rfl
  simp [mul_apply, Fin.sum_univ_add, hc, hz]

lemma leadingMinor_mul_transpose (hk : k ≤ n) :
    (L * L.transpose).leadingMinor hk =
      (∏ i : Fin k, L (Fin.castLE hk i) (Fin.castLE hk i)) ^ 2 := by
  have hl : (L.toMatrix.submatrix (Fin.castLE hk) (Fin.castLE hk)).IsLowerTriangular :=
    fun i j hij => hL.above _ _ hij
  rw [leadingMinor, hL.leading_mul_transpose, det_mul, det_transpose,
    det_of_isLowerTriangular _ hl, pow_two]
  rfl

lemma pivot_mul_transpose (i : Fin n) : (L * L.transpose).pivot i = L i i * L i i := by
  have hp : ∏ j : Fin i, L (Fin.castLE i.isLt.le j) (Fin.castLE i.isLt.le j) ≠ 0 :=
    Finset.prod_ne_zero_iff.mpr fun j _ => (hL.pivot _).ne'
  rw [Mat.pivot, hL.leadingMinor_mul_transpose, hL.leadingMinor_mul_transpose,
    Fin.prod_univ_castSucc, mul_pow]
  exact (mul_div_cancel_left₀ _ (pow_ne_zero 2 hp)).trans (pow_two _)

end IsLower

end KalmanFilter.Mat
