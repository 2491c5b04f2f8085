import Mathlib.LinearAlgebra.Matrix.PosDef

/-! If the gain solves its equation for a symmetric prior, both forms of the
corrected covariance are one matrix, and it is visibly positive semidefinite. -/

namespace KalmanFilter

open Matrix

variable {ι κ : Type*}

noncomputable def symmetricPart (A : Matrix ι ι ℝ) : Matrix ι ι ℝ :=
  (1 / 2 : ℝ) • (A + Aᵀ)

@[simp] lemma transpose_symmetricPart (A : Matrix ι ι ℝ) :
    (symmetricPart A)ᵀ = symmetricPart A := by
  rw [symmetricPart, transpose_smul, transpose_add, transpose_transpose, add_comm]

lemma symmetricPart_of_symm {A : Matrix ι ι ℝ} (h : Aᵀ = A) : symmetricPart A = A := by
  rw [symmetricPart, h, ← two_smul ℝ A, smul_smul]
  norm_num

lemma posSemidef_symmetricPart {A : Matrix ι ι ℝ} (h : A.PosSemidef) :
    (symmetricPart A).PosSemidef := by
  have ht : Aᵀ = A := h.isHermitian
  rwa [symmetricPart_of_symm ht]

lemma symmetricPart_smul (a : ℝ) (A : Matrix ι ι ℝ) :
    symmetricPart (a • A) = a • symmetricPart A := by
  rw [symmetricPart, symmetricPart, transpose_smul, ← smul_add, smul_comm]

lemma symmetricPart_add (A B : Matrix ι ι ℝ) :
    symmetricPart (A + B) = symmetricPart A + symmetricPart B := by
  simp only [symmetricPart, transpose_add, ← smul_add]
  congr 1
  abel

variable [Fintype ι]

lemma symmetricPart_congruence (B : Matrix κ ι ℝ) (A : Matrix ι ι ℝ) :
    symmetricPart (B * A * Bᵀ) = B * symmetricPart A * Bᵀ := by
  simp only [symmetricPart, transpose_mul, transpose_transpose, Matrix.mul_smul, Matrix.smul_mul,
    Matrix.mul_add, Matrix.add_mul, Matrix.mul_assoc]

variable [Fintype κ]

lemma posSemidef_congruence {A : Matrix ι ι ℝ} (hA : A.PosSemidef) (B : Matrix κ ι ℝ) :
    (B * A * Bᵀ).PosSemidef := by
  simpa only [conjTranspose_eq_transpose_of_trivial] using hA.mul_mul_conjTranspose_same B

lemma posSemidef_symmetricPart_congruence_add {P Q : Matrix ι ι ℝ}
    (hP : (symmetricPart P).PosSemidef) (hQ : (symmetricPart Q).PosSemidef) (A : Matrix ι ι ℝ) :
    (symmetricPart (A * P * Aᵀ + Q)).PosSemidef := by
  rw [symmetricPart_add, symmetricPart_congruence]
  exact (posSemidef_congruence hP A).add hQ

section

variable [DecidableEq ι] {P : Matrix ι ι ℝ} {H : Matrix κ ι ℝ} {R : Matrix κ κ ℝ} {K : Matrix ι κ ℝ}

lemma gain_residual (hP : Pᵀ = P) (hK : symmetricPart (H * P * Hᵀ + R) * Kᵀ = H * P) :
    (1 - K * H) * P * Hᵀ = K * symmetricPart R := by
  have hS : symmetricPart (H * P * Hᵀ + R) = H * P * Hᵀ + symmetricPart R := by
    rw [symmetricPart_add, symmetricPart_congruence, symmetricPart_of_symm hP]
  have hT : K * (H * P * Hᵀ + symmetricPart R) = P * Hᵀ := by
    have h := congrArg transpose hK
    rwa [transpose_mul, transpose_transpose, transpose_symmetricPart, transpose_mul, hP, hS] at h
  rw [Matrix.sub_mul, Matrix.one_mul, Matrix.sub_mul, ← hT, Matrix.mul_add]
  simp only [Matrix.mul_assoc, add_sub_cancel_left]

lemma joseph_eq_standard (hP : Pᵀ = P) (hK : symmetricPart (H * P * Hᵀ + R) * Kᵀ = H * P) :
    (1 - K * H) * P * (1 - K * H)ᵀ + K * symmetricPart R * Kᵀ = (1 - K * H) * P := by
  have h : (1 - K * H) * P * (1 - K * H)ᵀ = (1 - K * H) * P - K * symmetricPart R * Kᵀ := by
    rw [← gain_residual hP hK, transpose_sub, transpose_one, transpose_mul, Matrix.mul_sub,
      Matrix.mul_one]
    simp only [Matrix.mul_assoc]
  rw [h, sub_add_cancel]

lemma symmetricPart_joseph (hP : Pᵀ = P) :
    symmetricPart ((1 - K * H) * P * (1 - K * H)ᵀ + K * R * Kᵀ) =
      (1 - K * H) * P * (1 - K * H)ᵀ + K * symmetricPart R * Kᵀ := by
  rw [symmetricPart_add, symmetricPart_congruence, symmetricPart_congruence,
    symmetricPart_of_symm hP]

lemma symmetricPart_standard (hP : Pᵀ = P) (hK : symmetricPart (H * P * Hᵀ + R) * Kᵀ = H * P) :
    symmetricPart ((1 - K * H) * P) =
      (1 - K * H) * P * (1 - K * H)ᵀ + K * symmetricPart R * Kᵀ := by
  calc symmetricPart ((1 - K * H) * P)
      = symmetricPart ((1 - K * H) * P * (1 - K * H)ᵀ + K * symmetricPart R * Kᵀ) := by
        rw [joseph_eq_standard hP hK]
    _ = (1 - K * H) * P * (1 - K * H)ᵀ + K * symmetricPart R * Kᵀ := by
        apply symmetricPart_of_symm
        simp only [transpose_add, transpose_mul, transpose_transpose, transpose_symmetricPart, hP,
          Matrix.mul_assoc]

end

end KalmanFilter
