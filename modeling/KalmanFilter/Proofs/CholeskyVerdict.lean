import KalmanFilter.Proofs.InvertingSolver
import KalmanFilter.Proofs.LeadingMinors

/-! A matrix is refused for its symmetry, or else for the pivots of its lower
triangle. If it is taken, then what is solved are the systems of the symmetric
matrix with that triangle. -/

namespace KalmanFilter

variable {F : Precision → Type} {p : Precision} {k n : ℕ}

lemma CholeskyDecomposer.factorTensor_tensor [Arithmetic F] (d : CholeskyDecomposer F)
    (A : Mat (F p) n n) :
    d.factorTensor (TypedMat.tensor ⟨.real p, A⟩) = do
      let L ← d.factor A
      return ⟨p, n, L⟩ := by
  simp only [factorTensor, Tensor.square?_tensor, TypedMat.toType_same]

lemma Solver.inverts_cholesky {M L : Mat (Exact p) k k} (hM : M.transpose = M)
    (h : M.cholesky? = some L) : Solver.Inverts (Solver.cholesky L) M :=
  Solver.inverts_of_solves (Mat.mul_choleskySolve hM h) L.choleskySolve_columns

namespace CholeskyDecomposer

variable {d : CholeskyDecomposer Exact} {r s : ℝ} {A L : Mat (Exact p) k k}

structure IsFactor (r : ℝ) (A L : Mat (Exact p) k k) : Prop where
  lower : L.IsLower
  product : L * L.transpose = A.mirror
  below : ∀ i j, j ≤ i → A.mirror i j = A i j
  above : ∀ i j, i < j → |A.mirror i j - A i j| ≤ r * max |A i j| |A j i|
  symmetric : A.transpose = A → A.mirror = A
  solves : Solver.Inverts (Solver.cholesky L) A.mirror

lemma asymmetric_iff : A.Asymmetric r ↔ ∃ i j, r * max |A i j| |A j i| < |A i j - A j i| := by
  have hm : ∀ x y : ℝ, Scalar.max x y = max x y := fun x y => (max_def_lt x y).symm
  simp only [Mat.Asymmetric, hm]
  rfl

lemma pivot_mirror (h : A.cholesky? = some L) (i : Fin k) : A.mirror.pivot i = L i i * L i i := by
  rw [← Mat.cholesky?_mirror] at h
  rw [← Mat.mul_transpose_of_cholesky? A.transpose_mirror h]
  exact (Mat.isLower_of_cholesky? h).pivot_mul_transpose i

lemma isFactor_of_cholesky? (ha : ∀ i j, |A i j - A j i| ≤ r * max |A i j| |A j i|)
    (h : A.cholesky? = some L) : IsFactor r A L := by
  rw [← Mat.cholesky?_mirror] at h
  refine ⟨Mat.isLower_of_cholesky? h, Mat.mul_transpose_of_cholesky? A.transpose_mirror h,
    fun _ _ => A.mirror_of_le, fun i j hij => ?_, Mat.mirror_eq_self,
    Solver.inverts_cholesky A.transpose_mirror h⟩
  rw [A.mirror_of_ge hij.le, abs_sub_comm]
  exact ha i j

theorem factorTensor_verdict (hd : d.HasLimits r s) (A : Mat (Exact p) k k) :
    ((d.factorTensor (TypedMat.tensor ⟨.real p, A⟩)).outcome = .error .notSymmetric ↔
      ∃ i j, r * max |A i j| |A j i| < |A i j - A j i|) ∧
    ((∀ i j, |A i j - A j i| ≤ r * max |A i j| |A j i|) →
      ((d.factorTensor (TypedMat.tensor ⟨.real p, A⟩)).outcome =
          .error (.notPositiveDefinite .matrix) ↔
        ¬ A.mirror.toMatrix.PosDef ∨ ∃ i, A.mirror.pivot i ≤ s) ∧
      (A.mirror.toMatrix.PosDef → (∀ i, s < A.mirror.pivot i) →
        ∃ L, (d.factorTensor (TypedMat.tensor ⟨.real p, A⟩)).outcome = .ok ⟨p, k, L⟩ ∧
          IsFactor r A L)) := by
  have hr := hd.relative p
  have hs := hd.absolute p
  rw [← asymmetric_iff, factorTensor_tensor]
  by_cases ha : A.Asymmetric r
  · rw [d.factor_of_asymmetric hr ha]
    refine ⟨iff_of_true rfl ha, fun h => ?_⟩
    obtain ⟨i, j, hij⟩ := asymmetric_iff.mp ha
    exact absurd (h i j) hij.not_ge
  have hM : A.mirror.toMatrix.PosDef ↔ ∃ L, A.cholesky? = some L := by
    rw [← Mat.exists_cholesky?_iff_posDef A.transpose_mirror, A.cholesky?_mirror]
  cases hc : A.cholesky? with
  | none =>
    have hn : ¬ A.mirror.toMatrix.PosDef := by simp [hM, hc]
    rw [d.factor_of_cholesky_none hr ha hc]
    exact ⟨iff_of_false nofun ha, fun _ => ⟨iff_of_true rfl (.inl hn), fun h => absurd h hn⟩⟩
  | some L =>
    have hd : A.mirror.toMatrix.PosDef := hM.mpr ⟨L, hc⟩
    simp only [pivot_mirror hc]
    by_cases hp : ∃ i, L i i * L i i ≤ s
    · rw [d.factor_of_pivot hr hs ha hc hp]
      refine ⟨iff_of_false nofun ha, fun _ => ⟨iff_of_true rfl (.inr hp), fun _ h => ?_⟩⟩
      obtain ⟨i, hi⟩ := hp
      exact absurd hi (h i).not_ge
    · rw [d.factor_of_pivots hr hs ha hc hp]
      refine ⟨iff_of_false nofun ha, fun h => ⟨iff_of_false nofun ?_, fun _ _ => ?_⟩⟩
      · exact not_or.mpr ⟨not_not.mpr hd, hp⟩
      · exact ⟨L, rfl, isFactor_of_cholesky? h hc⟩

theorem factorTensor_verdict_square :
    (⟨.real 10⁻¹, .real 1⟩ : CholeskyDecomposer Exact).HasLimits 10⁻¹ 1 ∧
      ∃ L : Mat (Exact .double) 2 2,
        (factorTensor ⟨.real 10⁻¹, .real 1⟩
          (TypedMat.tensor ⟨.real .double, .square 100 21 20 8⟩)).outcome = .ok ⟨.double, 2, L⟩ ∧
        IsFactor 10⁻¹ (.square 100 21 20 8) L := by
  have hd : (⟨.real 10⁻¹, .real 1⟩ : CholeskyDecomposer Exact).HasLimits 10⁻¹ 1 :=
    hasLimits_real (by norm_num) (by norm_num)
  have hL : (.square 10 0 2 2 : Mat ℝ 2 2).IsLower := Mat.isLower_square (by norm_num) two_pos
  have hM : (.square 100 21 20 8 : Mat ℝ 2 2).mirror =
      (.square 10 0 2 2 : Mat ℝ 2 2) * (.square 10 0 2 2 : Mat ℝ 2 2).transpose := by
    ext i j
    rw [Mat.mul_entry, total_eq_sum, Fin.sum_univ_two]
    fin_cases i <;> fin_cases j <;> norm_num [Mat.square_entry]
  refine ⟨hd, ((factorTensor_verdict hd _).2 fun i j => ?_).2 ?_ fun i => ?_⟩
  · fin_cases i <;> fin_cases j <;> norm_num [Mat.square_entry]
  · rw [hM]
    exact hL.posDef_mul_transpose
  · rw [hM, hL.pivot_mul_transpose]
    fin_cases i <;> norm_num [Mat.square_entry]

end CholeskyDecomposer

end KalmanFilter
