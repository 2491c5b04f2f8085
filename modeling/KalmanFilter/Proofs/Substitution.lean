import KalmanFilter.Matrix.Cholesky
import KalmanFilter.Proofs.RealMatrix

namespace KalmanFilter.Mat

variable {c n : ℕ}

structure IsLower (L : Mat ℝ n n) : Prop where
  above : ∀ i j, i < j → L i j = 0
  pivot : ∀ i, 0 < L i i

lemma IsLower.core {L : Mat ℝ (n + 1) (n + 1)} (h : L.IsLower) : L.core.IsLower where
  above i j hij := by
    rw [core_entry]
    exact h.above _ _ (Fin.succ_lt_succ_iff.mpr hij)
  pivot i := by
    rw [core_entry]
    exact h.pivot i.succ

lemma mul_solveLower {L : Mat ℝ n n} (hL : L.IsLower) (b : Mat ℝ n c) :
    L * solveLower L b = b := by
  induction n with
  | zero =>
    ext i j
    exact i.elim0
  | succ n ih =>
    ext i j
    rw [mul_entry, total_eq_sum, Fin.sum_univ_succ]
    cases i using Fin.cases with
    | zero =>
      have hz : ∀ k : Fin n, L 0 k.succ = 0 := fun k => hL.above 0 k.succ k.succ_pos
      have hd : L 0 0 ≠ 0 := (hL.pivot 0).ne'
      simp [solveLower_succ, hz, mul_div_cancel₀ _ hd]
    | succ i =>
      have hi := congrArg (fun M : Mat ℝ n c => M i j) (ih hL.core
        (b.lowerRows - outer L.leftColumn (b.firstRow.map (· / L 0 0))))
      simp only [mul_entry, total_eq_sum, core_entry] at hi
      simp [solveLower_succ, hi]

def upper (U : Mat ℝ n n) : Mat ℝ n n :=
  ofFn fun i j => if j < i then 0 else U i j

lemma upper_mul_solveUpper {U : Mat ℝ n n} (hU : ∀ i, U i i ≠ 0) (b : Mat ℝ n c) :
    U.upper * solveUpper U b = b := by
  induction n with
  | zero =>
    ext i j
    exact i.elim0
  | succ n ih =>
    have hc : ∀ i j : Fin n, U.upper i.succ j.succ = U.core.upper i j := by
      intro i j
      simp [upper]
    ext i j
    rw [mul_entry, total_eq_sum, Fin.sum_univ_succ]
    cases i using Fin.cases with
    | zero => simp [upper, solveUpper_succ, total_eq_sum, mul_div_cancel₀ _ (hU 0)]
    | succ i =>
      have hz : U.upper i.succ 0 = 0 := by simp [upper]
      have hi := congrArg (fun M : Mat ℝ n c => M i j)
        (ih (U := U.core) (fun k => by simpa using hU k.succ) b.lowerRows)
      simp only [mul_entry, total_eq_sum] at hi
      simp [hz, hc, solveUpper_succ, hi]

lemma IsLower.upper_transpose {L : Mat ℝ n n} (hL : L.IsLower) : L.transpose.upper = L.transpose := by
  ext i j
  rw [upper, ofFn_entry]
  split
  · rename_i hij
    rw [transpose_entry, hL.above j i hij]
  · rfl

lemma mul_solveUpper {L : Mat ℝ n n} (hL : L.IsLower) (b : Mat ℝ n c) :
    L.transpose * solveUpper L.transpose b = b := by
  have hd : ∀ i, L.transpose i i ≠ 0 := fun i => by
    rw [transpose_entry]
    exact (hL.pivot i).ne'
  have h := upper_mul_solveUpper hd b
  rwa [hL.upper_transpose] at h

end KalmanFilter.Mat
