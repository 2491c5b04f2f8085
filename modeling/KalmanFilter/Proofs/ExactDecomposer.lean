import KalmanFilter.Proofs.ExactBelief
import KalmanFilter.Proofs.Typing
import Mathlib.Algebra.Order.Star.Real

/-! Decomposers that solve without rounding. All that the filter needs of them is
that an answer solves its system; the inverse is one way to get there. -/

namespace KalmanFilter

variable {p : Precision} {m n : ℕ}

/-- A solver that this decomposer gives for a symmetric matrix answers with solutions, if it
answers. Nothing is asked about other matrices: with a loose limit, a Cholesky decomposer takes
some of them, and solves the systems of their lower triangles. -/
def Decomposer.SolvesSymmetric (d : Decomposer Exact) : Prop :=
  ∀ {p : Precision} {k c : ℕ} (A : Mat (Exact p) k k) (solve : Solver Exact p k)
    (B X : Mat (Exact p) k c), A.transpose = A →
    (d.decompose A).outcome = .ok solve → solve B = .ok X → A * X = B

lemma Estimator.isGain_of_solvesSymmetric {e : Estimator Exact}
    (he : e.decomposer.SolvesSymmetric) {b : Belief (Exact p) n} {z : Observation (Exact p) m n}
    {K : Mat (Exact p) n m} (h : (e.gain b z).outcome = .ok K) : b.IsGain z K := by
  obtain ⟨solve, X, hs, hX, rfl⟩ := Estimator.gain_outcome_eq_ok_iff.mp h
  have hS := he _ solve _ X (b.transpose_innovationCovariance z) hs hX
  rwa [Belief.IsGain, Mat.transpose_transpose]

def Decomposer.AcceptsRegular (d : Decomposer Exact) : Prop :=
  ∀ {p : Precision} {k : ℕ} (A : Mat (Exact p) k k), A.transpose = A → IsUnit A.toMatrix.det →
    ∃ solve : Solver Exact p k, (d.decompose A).outcome = .ok solve ∧
      ∀ {c : ℕ} (B : Mat (Exact p) k c), ∃ X, solve B = .ok X

lemma Estimator.exists_gain_of_acceptsRegular {e : Estimator Exact}
    (he : e.decomposer.AcceptsRegular) {b : Belief (Exact p) n} {z : Observation (Exact p) m n}
    (h : IsUnit (b.innovationCovariance z).toMatrix.det) : ∃ K, (e.gain b z).outcome = .ok K := by
  obtain ⟨solve, hs, hX⟩ := he _ (b.transpose_innovationCovariance z) h
  obtain ⟨X, hX⟩ := hX (b.crossCovariance z)
  exact ⟨X.transpose, gain_outcome_eq_ok_iff.mpr ⟨solve, X, hs, hX, rfl⟩⟩

open scoped Classical in
noncomputable def Decomposer.byInverse : Decomposer Exact where
  decompose A :=
    if IsUnit A.toMatrix.det then
      return fun B => .ok (.ofFn fun i j => (A.toMatrix⁻¹ * B.toMatrix) i j)
    else .reject .singular .singular

lemma Decomposer.byInverse_of_isUnit {A : Mat (Exact p) n n} (h : IsUnit A.toMatrix.det) :
    byInverse.decompose A =
      ⟨[], .ok fun B => .ok (.ofFn fun i j => (A.toMatrix⁻¹ * B.toMatrix) i j)⟩ :=
  if_pos h

lemma Decomposer.byInverse_of_not_isUnit {A : Mat (Exact p) n n}
    (h : ¬ IsUnit A.toMatrix.det) : byInverse.decompose A = .reject .singular .singular :=
  if_neg h

lemma Decomposer.byInverse_solvesSymmetric : byInverse.SolvesSymmetric := by
  intro p k c A solve B X _ hs hX
  by_cases hA : IsUnit A.toMatrix.det
  · rw [byInverse_of_isUnit hA] at hs
    have hB := congrFun (congrFun (Except.ok.inj hs) c) B
    obtain rfl := Except.ok.inj (hB.trans hX)
    apply Mat.toMatrix_injective
    rw [Mat.toMatrix_mul, Mat.toMatrix_ofFn, Matrix.mul_nonsing_inv_cancel_left _ _ hA]
  · rw [byInverse_of_not_isUnit hA] at hs
    cases hs

lemma Decomposer.byInverse_acceptsRegular : byInverse.AcceptsRegular := by
  intro p k A _ hA
  rw [byInverse_of_isUnit hA]
  exact ⟨_, rfl, fun B => ⟨_, rfl⟩⟩

namespace Tilted

def tilt : Mat ℝ 2 2 :=
  .square 1 1 (-1) 1

def initial : Estimate Exact :=
  .ofBelief (p := .double) 0 ⟨#v[0, 0], tilt⟩

def evolution (time : ℝ) : Evolution Exact :=
  ⟨time, 2, ⟨.real .double, #v[0, 0]⟩, ⟨.real .double, tilt⟩, ⟨.real .double, tilt⟩⟩

def process : Process Exact :=
  fun _ _ _ time => .ok (.evolution (evolution time))

/-- Backwards in time its noise would be negative. -/
def growing : Process Exact :=
  fun _ time _ time' =>
    .ok (.evolution { evolution time' with noise := ⟨.real .double, (time' - time) * tilt⟩ })

def measurement : Measurement Exact :=
  ⟨1, 2, 2, ⟨.real .double, #v[1, 0]⟩, ⟨.real .double, tilt⟩, ⟨.real .double, tilt⟩⟩

def measurements : List (Fallible Exact (Measurement Exact)) :=
  [.ok measurement]

noncomputable def estimator (joseph : Bool) : Estimator Exact :=
  ⟨.byInverse, process, joseph, false⟩

noncomputable def session (joseph : Bool) : Session Exact :=
  .opening (estimator joseph) initial

lemma symmetricPart_tilt : symmetricPart tilt.toMatrix = 1 := by
  have h : tilt.toMatrix = !![1, 1; -1, 1] := Mat.toMatrix_square 1 1 (-1) 1
  ext i j
  fin_cases i <;> fin_cases j <;> norm_num [h, symmetricPart]

lemma growing_zero_one (k : ℕ) (x : Tensor Exact) :
    growing k 0 x 1 = .ok (.evolution (evolution 1)) := by
  have h : ((1 - 0 : ℝ) * tilt : Mat ℝ 2 2) = tilt := by
    ext i j
    rw [Mat.smul_entry, sub_zero, one_mul]
  rw [growing, h]
  rfl

lemma nonempty_advance {e : Estimator Exact}
    (hq : e.process 0 0 initial.state.tensor 1 = .ok (.evolution (evolution 1)))
    (hd : e.decomposer.AcceptsRegular) : Nonempty (Advance e 0 initial measurement) := by
  let t : Transition (Exact .double) 2 := (evolution 1).linearized .double rfl
  let z : Observation (Exact .double) 2 2 := measurement.observation .double rfl
  let b : Belief (Exact .double) 2 := ⟨#v[0, 0], tilt⟩
  have ht : t.noise = tilt := TypedMat.toType_self (F := Exact) (p := .double) tilt
  have hz : z.noise = tilt := TypedMat.toType_self (F := Exact) (p := .double) tilt
  have hP : (b.predict t).covariance.toMatrix.PosSemidef := by
    refine Belief.posSemidef_predict ?_ ?_
    · rw [symmetricPart_tilt]
      exact .one
    · rw [ht, symmetricPart_tilt]
      exact .one
  have hS : ((b.predict t).innovationCovariance z).toMatrix.PosDef := by
    refine Belief.posDef_innovationCovariance hP ?_
    rw [hz, symmetricPart_tilt]
    exact .one
  obtain ⟨solve, hs, hX⟩ := hd _ ((b.predict t).transpose_innovationCovariance z)
    ((Matrix.isUnit_iff_isUnit_det _).mp hS.isUnit)
  obtain ⟨X, hX⟩ := hX ((b.predict t).crossCovariance z)
  exact ⟨{
    precision := .double
    belief := b
    evolution := evolution 1
    solve := solve
    solution := X
    timely := not_lt.mpr zero_le_one
    observes := rfl
    typed := Estimate.belief?_ofBelief 0 b
    answers := hq
    evolves := rfl
    accepts := hs
    solves := hX }⟩

end Tilted

end KalmanFilter
