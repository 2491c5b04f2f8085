import KalmanFilter.Proofs.MachineRounding
import KalmanFilter.Proofs.Run
import KalmanFilter.Proofs.Verdict

/-! If the limit of a Cholesky decomposer is not negative, no step fails for want of
symmetry, whatever numbers take part in it. -/

namespace KalmanFilter

variable {F : Precision → Type} [Arithmetic F] {p : Precision} {n : ℕ}

lemma Belief.innovationCovariance_comm [RoundedArithmetic F] {m : ℕ} (b : Belief (F p) n)
    (z : Observation (F p) m n) (i j : Fin m) :
    b.innovationCovariance z i j = b.innovationCovariance z j i :=
  Mat.symmetrize_comm (α := F p) Rounded.add_comm _ i j

lemma Datum.class?_of_limit_error {d : Datum F} {f : Failure F} (h : d.limit p = .error f) :
    f.class? = Option.none := by
  rcases Fallible.bind_eq_error_iff.mp h with h | ⟨a, -, h⟩
  · rw [toNumber] at h
    cases hd : d.number? with
    | none =>
      rw [hd] at h
      cases h
      rfl
    | some a =>
      rw [hd] at h
      cases h
  · cases a with
    | real x => cases h
    | int i =>
      rcases Fallible.bind_eq_error_iff.mp h with h | ⟨_, -, h⟩
      · rw [Number.word] at h
        split at h
        · cases h
        · cases h
          rfl
      · cases h

lemma CholeskyDecomposer.asymmetric_of_error {d : CholeskyDecomposer F} {A : Mat (F p) n n}
    {f : Failure F} (h : (d.factor A).outcome = .error f) (hf : f.class? = some .nonSymmetric) :
    ∃ limit, d.relativeSymmetry.limit p = .ok limit ∧ A.Asymmetric limit := by
  rcases Attempt.bind_outcome_eq_error_iff.mp h with h | ⟨limit, hl, h⟩
  · cases (Datum.class?_of_limit_error h).symm.trans hf
  refine ⟨limit, hl, ?_⟩
  by_contra ha
  rw [if_neg fun h => ha ((Mat.isAsymmetric_eq_true_iff limit A).mp h)] at h
  split at h
  · cases h
    cases hf
  · rcases Attempt.bind_outcome_eq_error_iff.mp h with h | ⟨_, -, h⟩
    · cases (Datum.class?_of_limit_error h).symm.trans hf
    · split at h
      · cases h
        cases hf
      · cases h

lemma CholeskyDecomposer.class?_of_gain_error [RoundedArithmetic F] {d : CholeskyDecomposer F}
    {r : Number F} (hd : d.relativeSymmetry.number? = some r) (hr : r.IsNonneg) {e : Estimator F}
    (he : e.decomposer = d.decomposer) {m : ℕ} {b : Belief (F p) n} {z : Observation (F p) m n}
    {f : Failure F} (h : (e.gain b z).outcome = .error f) : f.class? ≠ some .nonSymmetric := by
  intro hf
  rcases Estimator.gain_outcome_eq_error_iff.mp h with h | ⟨solve, hs, h⟩
  · rw [he] at h
    rcases Attempt.bind_outcome_eq_error_iff.mp h with h | ⟨_, -, h⟩
    · obtain ⟨limit, hl, ha⟩ := asymmetric_of_error h hf
      rw [Datum.limit, Datum.toNumber, hd] at hl
      exact Mat.not_asymmetric_of_comm (hr.toFactor hl) (b.innovationCovariance_comm z) ha
    · cases h
  · rw [he] at hs
    obtain ⟨L, -, hs⟩ := Attempt.bind_outcome_eq_ok_iff.mp hs
    have hX := congrFun (congrFun (Except.ok.inj hs) n) (b.crossCovariance z)
    cases hX.trans h

namespace Crooked

def matrix : Mat Float 2 2 :=
  .square 1 (1 / 0) (0 / 0) 2

def state : TypedVec Machine 2 :=
  Machine.axis

def covariance : TypedMat Machine 2 2 :=
  ⟨.real .double, matrix⟩

def process : Process Machine :=
  fun _ _ _ time => .ok (.evolution ⟨time, 2, state, covariance, covariance⟩)

def decomposer : CholeskyDecomposer Machine :=
  ⟨.real 0, .real 0⟩

def initial : Estimate Machine :=
  ⟨0, 2, state, covariance⟩

def session : Session Machine :=
  .opening ⟨decomposer.decomposer, process, true, false⟩ initial

def measurement : Measurement Machine :=
  ⟨1, 2, 2, state, covariance, covariance⟩

end Crooked

namespace Session

/-- The process may be any that does not raise this failure itself. -/
theorem step_never_nonSymmetric [RoundedArithmetic F] (d : CholeskyDecomposer F) (r : Number F)
    (hd : d.relativeSymmetry.number? = some r) (hr : r.IsNonneg) (q : Process F)
    (hq : ∀ k t x t' f, q k t x t' = .error f → f.class? ≠ some .nonSymmetric)
    (joseph debug : Bool) (x : Estimate F) (zs : List (Fallible F (Measurement F)))
    (z : Measurement F) :
    let s := (opening ⟨d.decomposer, q, joseph, debug⟩ x).run zs
    ∀ f, (s.step (.ok z)).2.outcome = .error f → f.class? ≠ some .nonSymmetric := by
  intro s f h
  have he : s.estimator = ⟨d.decomposer, q, joseph, debug⟩ := run_estimator _ zs
  have hf := refusal_of_error h
  rw [he] at hf
  cases hf with
  | raised _ _ h => exact hq _ _ _ _ f h
  | unsolved _ hz _ hx _ h => exact CholeskyDecomposer.class?_of_gain_error hd hr rfl h
  | _ => nofun

theorem step_never_nonSymmetric_crooked :
    Crooked.decomposer.relativeSymmetry.number? = some (.real 0) ∧
      (Number.real 0 : Number Machine).IsNonneg ∧
      (∀ k t x t' f, Crooked.process k t x t' = .error f → f.class? ≠ some .nonSymmetric) ∧
      ∃ f, ((Crooked.session.run [.ok Crooked.measurement]).step
        (.ok Crooked.measurement)).2.outcome = .error f ∧ f.class? ≠ some .nonSymmetric := by
  have hr : (Number.real 0 : Number Machine).IsNonneg := show (0 : Float) ≤ 0 by decide
  have hs := step_never_nonSymmetric Crooked.decomposer (.real 0) rfl hr Crooked.process
    (fun _ _ _ _ _ => nofun) true false Crooked.initial [.ok Crooked.measurement]
    Crooked.measurement
  have ho : ((Crooked.session.run [.ok Crooked.measurement]).step
      (.ok Crooked.measurement)).2.outcome.isOk = false := by decide +kernel
  refine ⟨rfl, hr, fun _ _ _ _ _ => nofun, ?_⟩
  cases hf : ((Crooked.session.run [.ok Crooked.measurement]).step
      (.ok Crooked.measurement)).2.outcome with
  | ok y =>
    rw [hf] at ho
    cases ho
  | error f =>
    rw [Crooked.session] at hf
    exact ⟨f, rfl, hs f hf⟩

end Session

end KalmanFilter
