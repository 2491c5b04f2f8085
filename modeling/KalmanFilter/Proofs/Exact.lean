import KalmanFilter.Proofs.Rounding
import Mathlib.Analysis.SpecialFunctions.Log.Basic
import Mathlib.Analysis.SpecialFunctions.Trigonometric.Basic

namespace KalmanFilter

noncomputable instance : Scalar ℝ where
  decLT := inferInstance
  decLE := inferInstance
  abs x := |x|
  sqrt := Real.sqrt
  log := Real.log
  exp := Real.exp
  sin := Real.sin
  cos := Real.cos

@[simp] lemma Scalar.sqrt_eq (x : ℝ) : sqrt x = √x :=
  rfl

lemma Scalar.same_iff {x y : ℝ} : same x y = true ↔ x = y := by
  rw [same, Bool.and_eq_true, decide_eq_true_iff, decide_eq_true_iff]
  exact le_antisymm_iff.symm

instance : Rounded ℝ where
  add_comm a b := add_comm a b
  isNumber_of_le _ := ⟨le_refl _, le_refl _⟩
  isNumber_of_lt _ := ⟨le_refl _, le_refl _⟩
  not_lt_iff _ _ := not_lt
  le_trans := le_trans
  isNumber_of_sub _ := le_refl _
  sub_self _ := sub_self _
  isNumber_of_abs _ := le_refl _
  abs_zero := abs_zero
  abs_nonneg _ := abs_nonneg _
  mul_nonneg ha hb _ := mul_nonneg ha hb

abbrev Exact (_ : Precision) : Type :=
  ℝ

noncomputable instance : Arithmetic Exact where
  scalar _ := inferInstance
  round x := x
  widen x := x
  ofInt _ i := i
  ofRatio a b := (a / b : ℚ)
  power x k := x ^ k
  floor? x := some ⌊x⌋
  pi := Real.pi

namespace Exact

@[simp] lemma convert_eq {p q : Precision} (x : Exact p) :
    (Arithmetic.convert x : Exact q) = x := by
  cases p <;> cases q <;> rfl

end Exact

end KalmanFilter
