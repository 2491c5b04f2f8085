import KalmanFilter.Decomposer.Cholesky
import KalmanFilter.Proofs.Atomicity
import KalmanFilter.Proofs.MachineRounding
import KalmanFilter.Proofs.Typing

/-! Dimension and type never change, and after a step that succeeded no covariance
of the cursor differs from its transpose. Of rounded numbers only this is used, that
sums do not depend on the order of their terms. -/

namespace KalmanFilter

variable {F : Precision → Type} {p : Precision} {m n : ℕ}

structure Estimate.Regular (x : Estimate F) (n : ℕ) (d : ElementType) : Prop where
  dimension : x.dimension = n
  stateType : x.state.type = d
  covarianceType : x.covariance.type = d
  stateShape : x.state.tensor.shape = [n]
  covarianceShape : x.covariance.tensor.shape = [n, n]
  symmetric : ∀ i j, x.covariance.entries i j = x.covariance.entries j i

lemma Estimate.regular_ofBelief {t : F .double} {b : Belief (F p) n}
    (h : ∀ i j, b.covariance i j = b.covariance j i) : (ofBelief t b).Regular n (.real p) :=
  ⟨rfl, rfl, rfl, rfl, rfl, h⟩

variable [Arithmetic F]

section

variable (hc : ∀ (p : Precision) (a b : F p), a + b = b + a)
include hc

lemma Belief.predict_covariance_comm (b : Belief (F p) n) (t : Transition (F p) n) (i j : Fin n) :
    (b.predict t).covariance i j = (b.predict t).covariance j i :=
  Mat.symmetrize_comm (hc p) _ i j

lemma Belief.correct_covariance_comm (joseph : Bool) (b : Belief (F p) n)
    (z : Observation (F p) m n) (K : Mat (F p) n m) (i j : Fin n) :
    (b.correct joseph z K).covariance i j = (b.correct joseph z K).covariance j i := by
  cases joseph with
  | true => exact Mat.symmetrize_comm (hc p) _ i j
  | false => exact Mat.symmetrize_comm (hc p) _ i j

lemma Advance.regular {e : Estimator F} {k : ℕ} {y : Estimate F} {z : Measurement F}
    (a : Advance e k y z) :
    a.predicted.Regular y.dimension y.state.type ∧
      a.corrected.Regular y.dimension y.state.type := by
  rw [(Estimate.types_of_belief? a.typed).1]
  exact ⟨Estimate.regular_ofBelief (Belief.predict_covariance_comm hc _ _),
    Estimate.regular_ofBelief (Belief.correct_covariance_comm hc _ _ _ _)⟩

end

namespace Skew

def matrix : TypedMat Machine 2 2 :=
  ⟨.int64, .square 2 1 0 2⟩

def process : Process Machine :=
  fun _ _ _ time => .ok (.evolution ⟨time, 2, ⟨.int64, #v[1, 1]⟩, matrix, matrix⟩)

def estimator : Estimator Machine :=
  ⟨CholeskyDecomposer.defaults.decomposer, process, true, false⟩

def initial : Estimate Machine :=
  ⟨0, 2, Machine.axis, ⟨.real .double, .square 2 1 0 2⟩⟩

def session : Session Machine :=
  .opening estimator initial

def measurement : Measurement Machine :=
  ⟨1, 2, 2, ⟨.int64, #v[1, 2]⟩, matrix, matrix⟩

end Skew

namespace Session

lemma run_dimension_type (e : Estimator F) (x : Estimate F)
    (zs : List (Fallible F (Measurement F))) :
    ((opening e x).run zs).cursor.corrected.dimension = x.dimension ∧
      ((opening e x).run zs).cursor.corrected.state.type = x.state.type := by
  refine cursor_run_of_advance (fun c => c.corrected.dimension = x.dimension ∧
    c.corrected.state.type = x.state.type) rfl ⟨rfl, rfl⟩ ?_
  rintro m c k a - ⟨hd, ht⟩
  exact ⟨hd, (Estimate.types_of_belief? a.typed).1.symm.trans ht⟩

/-- Either no step has succeeded yet, or the last one that did was that on `m`. A solver answers
with a matrix of the size of the right-hand side by its type. -/
theorem run_regular (hc : ∀ (p : Precision) (a b : F p), a + b = b + a) (e : Estimator F)
    (x : Estimate F) (zs : List (Fallible F (Measurement F))) :
    let s := (opening e x).run zs
    s.cursor.corrected.dimension = x.dimension ∧ s.cursor.corrected.state.type = x.state.type ∧
      ((opening e x).Stalls zs ∧ s.cursor = ⟨none, x⟩ ∨
        ∃ us m vs, zs = us ++ .ok m :: vs ∧
          (∃ y, (((opening e x).run us).step (.ok m)).2.outcome = .ok y) ∧
          ((opening e x).run (us ++ [.ok m])).Stalls vs ∧
          s.cursor.corrected.time = m.time ∧
          s.cursor.corrected.Regular x.dimension x.state.type ∧
          ∃ y, s.cursor.predicted = some y ∧ y.Regular x.dimension x.state.type) := by
  intro s
  obtain ⟨hd, ht⟩ := run_dimension_type e x zs
  refine ⟨hd, ht, ?_⟩
  rcases lastAdvance (s := opening e x) rfl zs with h | ⟨us, m, vs, a, hzs, ho, hs, hcur⟩
  · exact .inl h
  · obtain ⟨hprior, hposterior⟩ := a.regular hc
    obtain ⟨hd, ht⟩ := run_dimension_type e x us
    rw [ht, hd] at hprior hposterior
    rw [hcur]
    exact .inr ⟨us, m, vs, hzs, ⟨_, ho⟩, hs, rfl, hposterior, a.predicted, rfl, hprior⟩

theorem run_regular_skew :
    (∀ (p : Precision) (a b : Machine p), a + b = b + a) ∧
      ∃ y, (Skew.session.run [.ok Skew.measurement]).cursor.predicted = some y ∧
        y.Regular 2 (.real .double) ∧
        (Skew.session.run [.ok Skew.measurement]).cursor.corrected.Regular 2 (.real .double) := by
  have hc (p : Precision) (a b : Machine p) : a + b = b + a := Rounded.add_comm a b
  have hp : (Skew.session.run [.ok Skew.measurement]).cursor.predicted.isSome = true := by
    decide +kernel
  refine ⟨hc, ?_⟩
  rw [Skew.session] at hp ⊢
  obtain ⟨-, -, h⟩ := run_regular hc Skew.estimator Skew.initial [.ok Skew.measurement]
  rcases h with ⟨-, hs⟩ | ⟨_, _, _, -, -, -, -, hposterior, y, hy, hprior⟩
  · rw [hs] at hp
    cases hp
  · exact ⟨y, hy, hprior, hposterior⟩

end Session

end KalmanFilter
