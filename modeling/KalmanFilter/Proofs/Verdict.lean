import KalmanFilter.Decomposer.Cholesky
import KalmanFilter.Decomposer.LU
import KalmanFilter.Proofs.Rounding

namespace KalmanFilter

variable {F : Precision → Type} {p : Precision} {n : Nat}

lemma Mat.any_eq_true_iff {m n : Nat} {q : Fin m → Fin n → Bool} :
    Mat.any q = true ↔ ∃ i j, q i j = true := by
  simp [Mat.any]

def Mat.Asymmetric {α : Type} [Scalar α] (limit : α) (A : Mat α n n) : Prop :=
  ∃ i j, limit * Scalar.max (Scalar.abs (A i j)) (Scalar.abs (A j i)) < Scalar.abs (A i j - A j i)

lemma Mat.isAsymmetric_eq_true_iff {α : Type} [Scalar α] (limit : α) (A : Mat α n n) :
    A.isAsymmetric limit = true ↔ A.Asymmetric limit := by
  simp [isAsymmetric, any_eq_true_iff, Asymmetric]

lemma Scalar.max_self {α : Type} [Scalar α] (a : α) : Scalar.max a a = a :=
  ite_self a

lemma Mat.not_asymmetric_of_comm {α : Type} [Scalar α] [Rounded α] {limit : α} {A : Mat α n n}
    (hl : 0 ≤ limit) (hA : ∀ i j, A i j = A j i) : ¬ A.Asymmetric limit := by
  rintro ⟨i, j, h⟩
  rw [hA j i, Scalar.max_self] at h
  exact Rounded.not_mul_abs_lt_abs_sub_self hl _ h

def Rejection.failure : Rejection → Failure F
  | .nonSymmetric => .notSymmetric
  | .nonPositiveDefinite => .notPositiveDefinite .matrix
  | .singular => .singular

def Rejection.family : Rejection → FailureClass
  | .nonSymmetric => .nonSymmetric
  | .nonPositiveDefinite => .nonPositiveDefinite
  | .singular => .singular

lemma Rejection.class_failure (r : Rejection) : (r.failure : Failure F).class? = some r.family := by
  cases r <;> rfl

lemma Rejection.parent_family (r : Rejection) : r.family.parent? = some .matrixDecomposition := by
  cases r <;> rfl

lemma limit_real [Arithmetic F] (x : F .double) :
    (Datum.real x).limit p = .ok (Arithmetic.convert x) := rfl

namespace CholeskyDecomposer

variable [Arithmetic F] (d : CholeskyDecomposer F) {r s : F p} {A L : Mat (F p) n n}

lemma factor_of_asymmetric (hr : d.relativeSymmetry.limit p = .ok r) (h : A.Asymmetric r) :
    d.factor A = .reject .nonSymmetric .notSymmetric := by
  have ha : A.isAsymmetric r = true := (Mat.isAsymmetric_eq_true_iff r A).mpr h
  simp only [factor, hr, Attempt.of_ok_bind, if_pos ha]

lemma factor_of_cholesky_none (hr : d.relativeSymmetry.limit p = .ok r) (hn : ¬ A.Asymmetric r)
    (h : A.cholesky? = none) :
    d.factor A = .reject .nonPositiveDefinite (.notPositiveDefinite .matrix) := by
  have ha : ¬ A.isAsymmetric r = true := fun h => hn ((Mat.isAsymmetric_eq_true_iff r A).mp h)
  simp only [factor, hr, Attempt.of_ok_bind, if_neg ha, h]

lemma factor_of_pivot (hr : d.relativeSymmetry.limit p = .ok r)
    (hs : d.absolutePositivity.limit p = .ok s) (hn : ¬ A.Asymmetric r)
    (h : A.cholesky? = some L) (hp : ∃ i, L i i * L i i ≤ s) :
    d.factor A = .reject .nonPositiveDefinite (.notPositiveDefinite .matrix) := by
  have ha : ¬ A.isAsymmetric r = true := fun h => hn ((Mat.isAsymmetric_eq_true_iff r A).mp h)
  simp [factor, hr, hs, if_neg ha, h, hp]

lemma factor_of_pivots (hr : d.relativeSymmetry.limit p = .ok r)
    (hs : d.absolutePositivity.limit p = .ok s) (hn : ¬ A.Asymmetric r)
    (h : A.cholesky? = some L) (hp : ¬ ∃ i, L i i * L i i ≤ s) : d.factor A = pure L := by
  have ha : ¬ A.isAsymmetric r = true := fun h => hn ((Mat.isAsymmetric_eq_true_iff r A).mp h)
  simp [factor, hr, hs, if_neg ha, h, hp]

end CholeskyDecomposer

namespace LUDecomposer

variable [Arithmetic F] (d : LUDecomposer F) {s : F p} {A : Mat (F p) n n} {f : LU (F p) n}

lemma factor_of_lu_none (h : A.lu? = none) : d.factor A = .reject .singular .singular := by
  simp only [factor, h]

lemma factor_of_pivot (hs : d.singularity.limit p = .ok s) (h : A.lu? = some f)
    (hp : ∃ i, Scalar.abs (f.packed i i) < s) : d.factor A = .reject .singular .singular := by
  simp [factor, hs, h, hp]

lemma factor_of_pivots (hs : d.singularity.limit p = .ok s) (h : A.lu? = some f)
    (hp : ¬ ∃ i, Scalar.abs (f.packed i i) < s) : d.factor A = pure f := by
  simp [factor, hs, h, hp]

end LUDecomposer

inductive Factorizer (F : Precision → Type)
  | cholesky (relativeSymmetry absolutePositivity : F .double)
  | lu (singularity : F .double)

namespace Factorizer

variable [Arithmetic F] {d : Factorizer F} {A : Mat (F p) n n}

def decomposer : Factorizer F → Decomposer F
  | .cholesky r s => CholeskyDecomposer.decomposer ⟨.real r, .real s⟩
  | .lu s => LUDecomposer.decomposer ⟨.real s⟩

inductive Rejects : Factorizer F → Rejection → Mat (F p) n n → Prop
  | nonSymmetric {r s : F .double} {A : Mat (F p) n n} :
      A.Asymmetric (Arithmetic.convert r) → Rejects (.cholesky r s) .nonSymmetric A
  | nonPositiveDefinite {r s : F .double} {A : Mat (F p) n n} :
      ¬ A.Asymmetric (Arithmetic.convert r) →
      (∀ L, A.cholesky? = some L → ∃ i, L i i * L i i ≤ Arithmetic.convert s) →
      Rejects (.cholesky r s) .nonPositiveDefinite A
  | singular {s : F .double} {A : Mat (F p) n n} :
      (∀ f, A.lu? = some f → ∃ i, Scalar.abs (f.packed i i) < Arithmetic.convert s) →
      Rejects (.lu s) .singular A

lemma Rejects.unique {r r' : Rejection} (h : d.Rejects r A) (h' : d.Rejects r' A) : r = r' := by
  cases h with
  | nonSymmetric h =>
    cases h' with
    | nonSymmetric => rfl
    | nonPositiveDefinite hn => exact absurd h hn
  | nonPositiveDefinite hn =>
    cases h' with
    | nonSymmetric h => exact absurd h hn
    | nonPositiveDefinite => rfl
  | singular =>
    cases h'
    rfl

lemma decompose_of_rejects {r : Rejection} (h : d.Rejects r A) :
    d.decomposer.decompose A = ⟨[.record (.rejection r)], .error r.failure⟩ := by
  cases h with
  | nonSymmetric h =>
    simp only [decomposer, CholeskyDecomposer.decomposer]
    rw [CholeskyDecomposer.factor_of_asymmetric ⟨.real _, .real _⟩ (limit_real _) h]
    rfl
  | nonPositiveDefinite hn h =>
    simp only [decomposer, CholeskyDecomposer.decomposer]
    cases hc : A.cholesky? with
    | none =>
      rw [CholeskyDecomposer.factor_of_cholesky_none ⟨.real _, .real _⟩ (limit_real _) hn hc]
      rfl
    | some L =>
      rw [CholeskyDecomposer.factor_of_pivot ⟨.real _, .real _⟩ (limit_real _) (limit_real _) hn hc
        (h L hc)]
      rfl
  | singular h =>
    simp only [decomposer, LUDecomposer.decomposer]
    cases hf : A.lu? with
    | none =>
      rw [LUDecomposer.factor_of_lu_none ⟨.real _⟩ hf]
      rfl
    | some f =>
      rw [LUDecomposer.factor_of_pivot ⟨.real _⟩ (limit_real _) hf (h f hf)]
      rfl

lemma decompose_of_not_rejects (h : ∀ r, ¬ d.Rejects r A) :
    ∃ solve : Solver F p n, d.decomposer.decompose A = ⟨[], .ok solve⟩ ∧
      ∀ {c : Nat} (b : Mat (F p) n c), ∃ X, solve b = .ok X := by
  cases d with
  | cholesky r s =>
    have hn : ¬ A.Asymmetric (Arithmetic.convert r) := fun ha => h _ (.nonSymmetric ha)
    cases hc : A.cholesky? with
    | none =>
      refine (h .nonPositiveDefinite (.nonPositiveDefinite hn ?_)).elim
      intro L hL
      simp [hc] at hL
    | some L =>
      by_cases hs : ∃ i, L i i * L i i ≤ Arithmetic.convert s
      · refine (h .nonPositiveDefinite (.nonPositiveDefinite hn ?_)).elim
        intro L' hL
        obtain rfl := Option.some.inj (hc.symm.trans hL)
        exact hs
      · refine ⟨Solver.cholesky L, ?_, fun b => ⟨_, rfl⟩⟩
        simp only [decomposer, CholeskyDecomposer.decomposer]
        rw [CholeskyDecomposer.factor_of_pivots ⟨.real r, .real s⟩ (limit_real r) (limit_real s) hn hc
          hs]
        rfl
  | lu s =>
    cases hf : A.lu? with
    | none =>
      refine (h .singular (.singular ?_)).elim
      intro f hf'
      simp [hf] at hf'
    | some f =>
      by_cases hs : ∃ i, Scalar.abs (f.packed i i) < Arithmetic.convert s
      · refine (h .singular (.singular ?_)).elim
        intro f' hf'
        obtain rfl := Option.some.inj (hf.symm.trans hf')
        exact hs
      · refine ⟨Solver.lu f, ?_, fun b => ⟨_, rfl⟩⟩
        simp only [decomposer, LUDecomposer.decomposer]
        rw [LUDecomposer.factor_of_pivots ⟨.real s⟩ (limit_real s) hf hs]
        rfl

end Factorizer

end KalmanFilter
