import Mathlib.Analysis.SpecialFunctions.Log.Basic
import KalmanFilter.Proofs.Substitution

namespace KalmanFilter.Mat

variable {c n : ℕ}

section

variable {α : Type} [Scalar α]

def scaledColumn (A : Mat α (n + 1) (n + 1)) : Vec α n :=
  A.leftColumn.map (· / Scalar.sqrt A.corner)

def remainder (A : Mat α (n + 1) (n + 1)) : Mat α n n :=
  A.core - outer A.scaledColumn A.scaledColumn

@[simp] lemma scaledColumn_entry (A : Mat α (n + 1) (n + 1)) (i : Fin n) :
    A.scaledColumn.get i = A i.succ 0 / Scalar.sqrt (A 0 0) := by
  rw [scaledColumn, Vec.map_entry, leftColumn_entry, corner_eq]

@[simp] lemma remainder_entry (A : Mat α (n + 1) (n + 1)) (i j : Fin n) :
    A.remainder i j = A i.succ j.succ - A.scaledColumn i * A.scaledColumn j := by
  rw [remainder, sub_entry, core_entry, outer_entry]

lemma cholesky?_succ (A : Mat α (n + 1) (n + 1)) :
    A.cholesky? = if 0 < A 0 0 then
      A.remainder.cholesky?.map
        (block (Scalar.sqrt (A 0 0)) (Vector.replicate n 0) A.scaledColumn) else none :=
  rfl

lemma exists_of_cholesky?_succ {A L : Mat α (n + 1) (n + 1)} (h : A.cholesky? = some L) :
    0 < A 0 0 ∧ ∃ M, A.remainder.cholesky? = some M ∧
      L = block (Scalar.sqrt (A 0 0)) (Vector.replicate n 0) A.scaledColumn M := by
  rw [cholesky?_succ] at h
  split at h
  case isTrue hA =>
    obtain ⟨M, hM, rfl⟩ := Option.map_eq_some_iff.mp h
    exact ⟨hA, M, hM, rfl⟩
  case isFalse => cases h

end

lemma isLower_of_cholesky? {A L : Mat ℝ n n} (h : A.cholesky? = some L) : L.IsLower := by
  induction n with
  | zero => exact ⟨fun i => i.elim0, fun i => i.elim0⟩
  | succ n ih =>
    obtain ⟨hA, M, hM, rfl⟩ := exists_of_cholesky?_succ h
    refine ⟨fun i j hij => ?_, fun i => ?_⟩
    · cases j using Fin.cases with
      | zero => exact absurd hij (Fin.not_lt_zero i)
      | succ j =>
        cases i using Fin.cases with
        | zero => simp
        | succ i => simpa using (ih hM).above i j (Fin.succ_lt_succ_iff.mp hij)
    · cases i using Fin.cases with
      | zero => simpa using hA
      | succ i => simpa using (ih hM).pivot i

lemma transpose_remainder {A : Mat ℝ (n + 1) (n + 1)} (hA : A.transpose = A) :
    A.remainder.transpose = A.remainder := by
  ext i j
  have h : A j.succ i.succ = A i.succ j.succ := by
    rw [← transpose_entry, hA]
  simp [remainder, h, mul_comm]

lemma mul_transpose_of_cholesky? {A L : Mat ℝ n n} (hA : A.transpose = A)
    (h : A.cholesky? = some L) : L * L.transpose = A := by
  induction n with
  | zero =>
    ext i j
    exact i.elim0
  | succ n ih =>
    obtain ⟨hp, M, hM, rfl⟩ := exists_of_cholesky?_succ h
    have hd : √(A 0 0) ≠ 0 := (Real.sqrt_pos.mpr hp).ne'
    ext i j
    rw [mul_entry, total_eq_sum, Fin.sum_univ_succ]
    cases i using Fin.cases with
    | zero =>
      cases j using Fin.cases with
      | zero => simp [hp.le]
      | succ j =>
        have ht : A 0 j.succ = A j.succ 0 := by
          rw [← transpose_entry, hA]
        simp [scaledColumn, ht, mul_div_cancel₀ _ hd]
    | succ i =>
      cases j using Fin.cases with
      | zero => simp [scaledColumn, div_mul_cancel₀ _ hd]
      | succ j =>
        have hi := congrArg (fun R : Mat ℝ n n => R i j) (ih (transpose_remainder hA) hM)
        simp only [mul_entry, total_eq_sum, transpose_entry] at hi
        simp [hi, remainder]

lemma mul_choleskySolve {A L : Mat ℝ n n} (hA : A.transpose = A) (h : A.cholesky? = some L)
    (b : Mat ℝ n c) : A * L.choleskySolve b = b := by
  have hL := isLower_of_cholesky? h
  rw [← mul_transpose_of_cholesky? hA h, choleskySolve]
  apply toMatrix_injective
  have h₁ := congrArg toMatrix (mul_solveUpper hL (solveLower L b))
  have h₂ := congrArg toMatrix (mul_solveLower hL b)
  rw [toMatrix_mul] at h₁ h₂
  rw [toMatrix_mul, toMatrix_mul, Matrix.mul_assoc, h₁, h₂]

section

open Matrix

lemma form_cons {A : Mat ℝ (n + 1) (n + 1)} (hA : A.transpose = A) (hp : 0 < A 0 0) (x : ℝ)
    (v : Fin n → ℝ) :
    (Fin.cons x v : Fin (n + 1) → ℝ) ⬝ᵥ (A.toMatrix *ᵥ Fin.cons x v) =
      (√(A 0 0) * x + A.scaledColumn.get ⬝ᵥ v) ^ 2 + v ⬝ᵥ (A.remainder.toMatrix *ᵥ v) := by
  have hd : √(A 0 0) ≠ 0 := (Real.sqrt_pos.mpr hp).ne'
  have ht : ∀ i : Fin n, A 0 i.succ = A i.succ 0 := by
    intro i
    rw [← transpose_entry, hA]
  have hc : ∀ i : Fin n, A i.succ 0 = √(A 0 0) * A.scaledColumn i := by
    intro i
    simp [scaledColumn, mul_div_cancel₀ _ hd]
  have hr : v ⬝ᵥ (A.remainder.toMatrix *ᵥ v) =
      v ⬝ᵥ (A.core.toMatrix *ᵥ v) - (A.scaledColumn.get ⬝ᵥ v) ^ 2 := by
    have ho : (outer A.scaledColumn A.scaledColumn).toMatrix =
        vecMulVec A.scaledColumn.get A.scaledColumn.get := by
      ext i j
      simp [vecMulVec_apply]
    rw [remainder, toMatrix_sub, ho, sub_mulVec, dotProduct_sub, vecMulVec_mulVec]
    simp [dotProduct_comm v, pow_two]
  have hrow : ∑ i, A 0 i.succ * v i = √(A 0 0) * (A.scaledColumn.get ⬝ᵥ v) := by
    simp only [ht, hc, dotProduct, Finset.mul_sum, mul_assoc]
  have hcol : ∑ i, v i * (A i.succ 0 * x) = √(A 0 0) * (A.scaledColumn.get ⬝ᵥ v) * x := by
    simp only [hc, dotProduct, Finset.mul_sum, Finset.sum_mul]
    exact Finset.sum_congr rfl fun i _ => by ring
  calc (Fin.cons x v : Fin (n + 1) → ℝ) ⬝ᵥ (A.toMatrix *ᵥ Fin.cons x v)
      = x * (A 0 0 * x + ∑ i, A 0 i.succ * v i) +
          (∑ i, v i * (A i.succ 0 * x) + v ⬝ᵥ (A.core.toMatrix *ᵥ v)) := by
        simp only [dotProduct, mulVec, Fin.sum_univ_succ, Fin.cons_zero, Fin.cons_succ,
          toMatrix_apply, core_entry, mul_add, Finset.sum_add_distrib]
        ring
    _ = (√(A 0 0) * x + A.scaledColumn.get ⬝ᵥ v) ^ 2 + v ⬝ᵥ (A.remainder.toMatrix *ᵥ v) := by
        rw [hrow, hcol, hr]
        nth_rewrite 1 [← Real.mul_self_sqrt hp.le]
        ring

lemma exists_cholesky? {A : Mat ℝ n n} (hA : A.transpose = A) {r : ℝ} (hr : 0 < r)
    (h : ∀ v : Fin n → ℝ, r * (v ⬝ᵥ v) ≤ v ⬝ᵥ (A.toMatrix *ᵥ v)) :
    ∃ L, A.cholesky? = some L ∧ ∀ i, r ≤ L i i * L i i := by
  induction n with
  | zero => exact ⟨A, rfl, fun i => i.elim0⟩
  | succ n ih =>
    have h₀ : r ≤ A 0 0 := by
      have h₀ := h (Fin.cons 1 0)
      simpa [dotProduct, mulVec, Fin.sum_univ_succ] using h₀
    have hp : 0 < A 0 0 := hr.trans_le h₀
    have hd : √(A 0 0) ≠ 0 := (Real.sqrt_pos.mpr hp).ne'
    -- the first entry of the vector is chosen so that the completed square vanishes
    obtain ⟨M, hM, hb⟩ := ih (transpose_remainder hA) fun v => by
      have hv := h (Fin.cons (-(A.scaledColumn.get ⬝ᵥ v) / √(A 0 0)) v)
      rw [form_cons hA hp, mul_div_cancel₀ _ hd, neg_add_cancel, zero_pow two_ne_zero, zero_add]
        at hv
      refine le_trans ?_ hv
      apply mul_le_mul_of_nonneg_left _ hr.le
      simp [dotProduct, Fin.sum_univ_succ, mul_self_nonneg]
    refine ⟨block √(A 0 0) (Vector.replicate n 0) A.scaledColumn M, ?_, fun i => ?_⟩
    · rw [cholesky?_succ, if_pos hp, hM]
      rfl
    · cases i using Fin.cases with
      | zero => simpa [hp.le] using h₀
      | succ i => simpa using hb i

end

end KalmanFilter.Mat
