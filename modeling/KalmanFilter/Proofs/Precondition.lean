import KalmanFilter.Proofs.MachineContagion
import KalmanFilter.Proofs.RegularSystem
import KalmanFilter.Proofs.SymmetryCheck

/-! The limits are compared so that a matrix is rejected if a comparison holds, and
none holds for what is no number. Hence a precondition is met exactly where numbers
are compared. -/

namespace KalmanFilter

open Scalar Rounded Contagious

variable {F : Precision → Type} [Arithmetic F] {p : Precision} {m n : ℕ}

namespace CholeskyDecomposer

variable {d : CholeskyDecomposer F} {r s : F p} {A L : Mat (F p) n n}

lemma rejects_or_accepts (hr : d.relativeSymmetry.limit p = .ok r)
    (hs : d.absolutePositivity.limit p = .ok s) (A : Mat (F p) n n) :
    (∃ c : Rejection, d.factor A = .reject c c.failure) ∨ ∃ L, (d.factor A).outcome = .ok L := by
  by_cases ha : A.Asymmetric r
  · exact .inl ⟨_, d.factor_of_asymmetric hr ha⟩
  cases hL : A.cholesky? with
  | none => exact .inl ⟨_, d.factor_of_cholesky_none hr ha hL⟩
  | some L =>
    by_cases hp : ∃ i, L i i * L i i ≤ s
    · exact .inl ⟨_, d.factor_of_pivot hr hs ha hL hp⟩
    · exact .inr ⟨L, factor_outcome_eq_ok_iff.mpr ⟨r, s, hr, hs, ha, hL, hp⟩⟩

section

variable [ContagiousArithmetic F]

lemma isNumber_of_factor (h : (d.factor A).outcome = .ok L) {i j : Fin n} (hij : j ≤ i) :
    IsNumber (A i j) := by
  obtain ⟨_, _, -, -, -, hL, -⟩ := factor_outcome_eq_ok_iff.mp h
  exact Mat.isNumber_of_cholesky? hL hij

lemma lt_pivot_of_factor (hs : d.absolutePositivity.limit p = .ok s) (h0 : IsNumber s)
    (h : (d.factor A).outcome = .ok L) (i : Fin n) : s < L i i * L i i := by
  obtain ⟨_, s', -, hs', -, hL, hp⟩ := factor_outcome_eq_ok_iff.mp h
  obtain rfl := Except.ok.inj (hs.symm.trans hs')
  have hn := isNumber_mul_self (Mat.isNumber_diagonal_of_cholesky? hL i)
  by_contra hlt
  exact hp ⟨i, (not_lt_iff h0 hn).mp hlt⟩

lemma within_iff_of_factor (hr : d.relativeSymmetry.limit p = .ok r) (h0 : 0 < r)
    (hf : IsFinite r) (h : (d.factor A).outcome = .ok L) (i j : Fin n) :
    abs (A i j - A j i) ≤ r * max (abs (A i j)) (abs (A j i)) ↔ IsNumber (A i j - A j i) := by
  obtain ⟨r', _, hr', -, ha, -, -⟩ := factor_outcome_eq_ok_iff.mp h
  obtain rfl := Except.ok.inj (hr.symm.trans hr')
  exact Mat.within_iff_isNumber h0 hf ha i j

lemma rejects_of_not_isNumber (hr : d.relativeSymmetry.limit p = .ok r)
    (hs : d.absolutePositivity.limit p = .ok s) {i j : Fin n} (hij : j ≤ i)
    (h : ¬ IsNumber (A i j)) : ∃ c : Rejection, d.factor A = .reject c c.failure := by
  rcases rejects_or_accepts hr hs A with hc | ⟨L, hL⟩
  · exact hc
  · exact absurd (isNumber_of_factor hL hij) h

end

lemma isNumber_of_gain [ContagiousArithmetic F] {e : Estimator F}
    (he : e.decomposer = d.decomposer) {b : Belief (F p) m} {z : Observation (F p) n m}
    {K : Mat (F p) m n} (h : (e.gain b z).outcome = .ok K) (i j : Fin n) :
    IsNumber (b.innovationCovariance z i j) := by
  obtain ⟨solve, X, hs, -⟩ := Estimator.gain_outcome_eq_ok_iff.mp h
  rw [he] at hs
  obtain ⟨L, hL, -⟩ := exists_factor_of_decompose hs
  rcases le_total j i with hij | hij
  · exact isNumber_of_factor hL hij
  · rw [b.innovationCovariance_comm z]
    exact isNumber_of_factor hL hij

end CholeskyDecomposer

namespace LUDecomposer

variable {d : LUDecomposer F} {s : F p} {A : Mat (F p) n n} {f : LU (F p) n}
  [ContagiousArithmetic F]

lemma le_pivot_iff_of_factor (hs : d.singularity.limit p = .ok s) (h0 : IsNumber s)
    (h : (d.factor A).outcome = .ok f) (i : Fin n) :
    s ≤ abs (f.packed i i) ↔ IsNumber (f.packed i i) := by
  obtain ⟨-, s', hs', hp⟩ := factor_outcome_eq_ok_iff.mp h
  obtain rfl := Except.ok.inj (hs.symm.trans hs')
  constructor
  · intro hle
    exact isNumber_of_abs (isNumber_of_le hle).2
  · intro hn
    rw [← not_lt_iff (isNumber_abs hn) h0]
    exact fun hlt => hp ⟨i, hlt⟩

lemma exists_pivot_of_not_isNumber (h : (d.factor A).outcome = .ok f) {i j : Fin n}
    (hA : ¬ IsNumber (A i j)) : ∃ k, ¬ IsNumber (f.packed k k) := by
  obtain ⟨hf, -⟩ := factor_outcome_eq_ok_iff.mp h
  by_contra! hk
  exact hA (Mat.isNumber_of_lu? hf hk i j)

lemma rejects_or_exists_pivot (hs : d.singularity.limit p = .ok s) {i j : Fin n}
    (hA : ¬ IsNumber (A i j)) : d.factor A = .reject .singular .singular ∨
      ∃ f, (d.factor A).outcome = .ok f ∧ ∃ k, ¬ IsNumber (f.packed k k) := by
  cases hf : A.lu? with
  | none => exact .inl (d.factor_of_lu_none hf)
  | some f =>
    by_cases hp : ∃ i, abs (f.packed i i) < s
    · exact .inl (d.factor_of_pivot hs hf hp)
    · have hd : (d.factor A).outcome = .ok f := factor_outcome_eq_ok_iff.mpr ⟨hf, s, hs, hp⟩
      exact .inr ⟨f, hd, exists_pivot_of_not_isNumber hd hA⟩

end LUDecomposer

theorem precondition_of_factor [ContagiousArithmetic F] {d : CholeskyDecomposer F}
    {e : LUDecomposer F} {r s t : F p}
    (hr : d.relativeSymmetry.limit p = .ok r) (hs : d.absolutePositivity.limit p = .ok s)
    (ht : e.singularity.limit p = .ok t) (hr0 : 0 < r) (hrf : IsFinite r) (hs0 : 0 < s)
    (ht0 : 0 < t) (A : Mat (F p) n n) :
    (∀ L, (d.factor A).outcome = .ok L → (∀ i, s < L i i * L i i) ∧
      ∀ i j, abs (A i j - A j i) ≤ r * max (abs (A i j)) (abs (A j i)) ↔
        IsNumber (A i j - A j i)) ∧
    (∀ f, (e.factor A).outcome = .ok f →
      ∀ i, t ≤ abs (f.packed i i) ↔ IsNumber (f.packed i i)) ∧
    (∀ i j, ¬ IsNumber (A i j) →
      (j ≤ i → ∃ c : Rejection, d.factor A = .reject c c.failure) ∧
      (e.factor A = .reject .singular .singular ∨
        ∃ f, (e.factor A).outcome = .ok f ∧ ∃ k, ¬ IsNumber (f.packed k k))) ∧
    ∀ {k : ℕ} (E : Estimator F) (b : Belief (F p) k) (z : Observation (F p) n k) (K),
      E.decomposer = d.decomposer → (E.gain b z).outcome = .ok K →
        ∀ i j, IsNumber (b.innovationCovariance z i j) := by
  refine ⟨fun L hL => ⟨?_, ?_⟩, fun f hf => ?_, fun i j hA => ⟨fun hij => ?_, ?_⟩, ?_⟩
  · exact CholeskyDecomposer.lt_pivot_of_factor hs (isNumber_of_lt hs0).2 hL
  · exact CholeskyDecomposer.within_iff_of_factor hr hr0 hrf hL
  · exact LUDecomposer.le_pivot_iff_of_factor ht (isNumber_of_lt ht0).2 hf
  · exact CholeskyDecomposer.rejects_of_not_isNumber hr hs hij hA
  · exact LUDecomposer.rejects_or_exists_pivot ht hA
  · intro k E b z K hE hK
    exact CholeskyDecomposer.isNumber_of_gain hE hK

theorem precondition_of_factor_defaults :
    let d : CholeskyDecomposer Machine := .defaults
    let e : LUDecomposer Machine := .defaults
    let A : Mat (Machine .double) 2 2 := .square 2 1 1 2
    d.relativeSymmetry.limit .double = .ok (1e-15 : Float) ∧
      d.absolutePositivity.limit .double = .ok (1e-10 : Float) ∧
      e.singularity.limit .double = .ok (1e-11 : Float) ∧
      ((0 : Float) < 1e-15 ∧ IsFinite (1e-15 : Float) ∧ (0 : Float) < 1e-10 ∧
        (0 : Float) < 1e-11) ∧
      (∃ L, (d.factor A).outcome = .ok L ∧ ∀ i, (1e-10 : Float) < L i i * L i i) ∧
      ∃ f, (e.factor A).outcome = .ok f ∧
        ∀ i, (1e-11 : Float) ≤ abs (f.packed i i) ↔ IsNumber (f.packed i i) := by
  intro d e A
  have h0 : (0 : Float) < 1e-15 ∧ IsFinite (1e-15 : Float) ∧ (0 : Float) < 1e-10 ∧
      (0 : Float) < 1e-11 := by
    decide +kernel
  obtain ⟨hr0, hrf, hs0, ht0⟩ := h0
  have hd : ((d.factor A).outcome.toOption).isSome = true := by decide +kernel
  have he : ((e.factor A).outcome.toOption).isSome = true := by decide +kernel
  obtain ⟨hL, hf, -⟩ := precondition_of_factor (d := d) (e := e) (p := .double) rfl rfl rfl hr0 hrf
    hs0 ht0 A
  refine ⟨rfl, rfl, rfl, ⟨hr0, hrf, hs0, ht0⟩, ?_, ?_⟩
  · cases ho : (d.factor A).outcome with
    | error f =>
      rw [ho] at hd
      cases hd
    | ok L => exact ⟨L, rfl, (hL L ho).1⟩
  · cases ho : (e.factor A).outcome with
    | error f =>
      rw [ho] at he
      cases he
    | ok f => exact ⟨f, rfl, hf f ho⟩

theorem precondition_of_factor_unordered :
    let d : CholeskyDecomposer Machine := .defaults
    let e : LUDecomposer Machine := .defaults
    let A : Mat (Machine .double) 2 2 := .square 1 0 0 (0 / 0)
    let B : Mat (Machine .double) 2 2 := .square 1 (0 / 0) 0 1
    ((e.factor A).outcome.toOption.map fun f =>
        decide ((1e-11 : Float) ≤ Scalar.abs (LU.packed f 1 1))) = some false ∧
      (d.factor B).outcome.isOk = true ∧
      ¬ Scalar.abs (B 0 1 - B 1 0) ≤
        (1e-15 : Float) * Scalar.max (Scalar.abs (B 0 1)) (Scalar.abs (B 1 0)) := by
  decide +kernel

end KalmanFilter
