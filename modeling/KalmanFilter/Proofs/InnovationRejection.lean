import KalmanFilter.Proofs.MachineContagion
import KalmanFilter.Proofs.Regularity
import KalmanFilter.Proofs.SymmetryCheck

/-! The innovation covariance is the same on both sides of its diagonal, so what is
no number in it is in the triangle that a Cholesky decomposer factorizes. Symmetry
and pivots do not show it: no comparison with what is no number holds. -/

namespace KalmanFilter

open Scalar

class SpreadingArithmetic (F : Precision → Type) [Arithmetic F] : Prop where
  spreading (p : Precision) : Spreading (F p)
  isNumber_of_add {p : Precision} {a b : F p} : IsNumber (a + b) → IsNumber a ∧ IsNumber b
  add_comm (p : Precision) (a b : F p) : a + b = b + a

instance : SpreadingArithmetic Machine where
  spreading _ := inferInstance
  isNumber_of_add {p} {_ _} h := by
    cases p with
    | single =>
      rw [Machine.packing32.add_eq] at h
      exact Machine.packing32.isNumber_of_strict Unpacked.strict_add h
    | double =>
      rw [Machine.packing64.add_eq] at h
      exact Machine.packing64.isNumber_of_strict Unpacked.strict_add h
  add_comm _ := Rounded.add_comm

variable {F : Precision → Type} [Arithmetic F] {p : Precision} {m n : ℕ}

instance [SpreadingArithmetic F] : Spreading (F p) :=
  SpreadingArithmetic.spreading p

open SpreadingArithmetic

def Belief.innovationProduct (b : Belief (F p) n) (z : Observation (F p) m n) : Mat (F p) m m :=
  b.crossCovariance z * z.matrix.transpose + z.noise

lemma Belief.isNumber_noise_of_innovationProduct [SpreadingArithmetic F] {b : Belief (F p) n}
    {z : Observation (F p) m n} {i j : Fin m} (h : IsNumber (b.innovationProduct z i j)) :
    IsNumber (z.noise i j) := by
  rw [innovationProduct, Mat.add_entry] at h
  exact (isNumber_of_add h).2

lemma Mat.isNumber_of_symmetrize [SpreadingArithmetic F] {A : Mat (F p) n n} {i j : Fin n}
    (h : IsNumber (A.symmetrize i j)) : IsNumber (A i j) := by
  simp only [symmetrize, smul_entry, add_entry] at h
  exact (isNumber_of_add (Spreading.isNumber_of_mul h).2).1

lemma Factorizer.exists_rejects [SpreadingArithmetic F] (r s : F .double) {A : Mat (F p) n n}
    {i j : Fin n} (hij : j ≤ i) (hA : ¬ IsNumber (A i j)) :
    ∃ k, (Factorizer.cholesky r s).Rejects k A := by
  by_cases ha : A.Asymmetric (Arithmetic.convert r)
  · exact ⟨_, .nonSymmetric ha⟩
  · refine ⟨_, .nonPositiveDefinite ha fun L hL => ?_⟩
    exact absurd (Mat.isNumber_of_cholesky? hL hij) hA

lemma Factorizer.rejects_innovationCovariance [SpreadingArithmetic F] (r s : F .double)
    {b : Belief (F p) n} {z : Observation (F p) m n} {i j : Fin m}
    (h : ¬ IsNumber (b.innovationCovariance z i j)) :
    ∃ k, (Factorizer.cholesky r s).Rejects k (b.innovationCovariance z) := by
  rcases le_total j i with hij | hij
  · exact exists_rejects r s hij h
  · -- the other triangle holds the same, and it is the one that is factorized
    have hc := Mat.symmetrize_comm (SpreadingArithmetic.add_comm p) (b.innovationProduct z) i j
    exact exists_rejects r s hij (hc ▸ h)

/-- A step that has passed every check before its update: an `Advance` without a gain. -/
structure Pending (e : Estimator F) (k : Nat) (y : Estimate F) (z : Measurement F) where
  precision : Precision
  belief : Belief (F precision) y.dimension
  evolution : Evolution F
  timely : ¬ z.time < y.time
  observes : z.stateDimension = y.dimension
  typed : y.belief? = some ⟨precision, belief⟩
  answers : e.process k y.time y.state.tensor z.time = .ok (.evolution evolution)
  evolves : evolution.dimension = y.dimension

def Advance.pending {e : Estimator F} {k : Nat} {y : Estimate F} {z : Measurement F}
    (a : Advance e k y z) : Pending e k y z where
  __ := a

namespace Pending

variable {e : Estimator F} {k : Nat} {y : Estimate F} {z : Measurement F} (u : Pending e k y z)

def prior : Belief (F u.precision) y.dimension :=
  u.belief.predict (u.evolution.linearized u.precision u.evolves)

def observation : Observation (F u.precision) z.dimension y.dimension :=
  z.observation u.precision u.observes

def IsNumeric : Prop :=
  ∀ i j, IsNumber (u.prior.innovationProduct u.observation i j) ∧
    IsNumber (u.prior.innovationCovariance u.observation i j)

lemma isNumeric_iff [SpreadingArithmetic F] :
    u.IsNumeric ↔ ∀ i j, IsNumber (u.prior.innovationCovariance u.observation i j) :=
  ⟨fun h i j => (h i j).2, fun h i j => ⟨Mat.isNumber_of_symmetrize (h i j), h i j⟩⟩

lemma step_of_rejects {d : Factorizer F} (hd : e.decomposer = d.decomposer) {r : Rejection}
    {c : Cursor F} {u : Pending e k c.corrected z}
    (h : d.Rejects r (u.prior.innovationCovariance u.observation)) :
    e.step k c z =
      ⟨[.query c.corrected.time c.corrected.state.tensor z.time,
        .decomposition (TypedMat.tensor ⟨.real u.precision,
          u.prior.innovationCovariance u.observation⟩), .record (.rejection r)],
        .error r.failure⟩ := by
  have hg : e.gain u.prior u.observation = ⟨_, _⟩ :=
    Estimator.gain_of_decompose_error (hd ▸ Factorizer.decompose_of_rejects h)
  have hu : e.update z.time u.belief u.evolution u.evolves u.observation = ⟨_, _⟩ :=
    Estimator.update_of_gain_error (congrArg Attempt.outcome hg)
  rw [Estimator.step_of_update u.timely u.observes u.answers u.evolves u.typed]
  exact congrArg (fun a : Attempt F (Cursor F) => Attempt.mk (_ :: a.events) a.outcome)
    (hu.trans (congrArg (fun a => Attempt.mk a.events _) hg))

end Pending

namespace Skew

def belief : Belief (Machine .double) 2 :=
  ⟨#v[(0 : Float), 1], .square (2 : Float) 1 0 2⟩

def corrected : Session Machine :=
  (Session.opening ⟨(Factorizer.cholesky (1e-15 : Float) (1e-10 : Float)).decomposer, process, true,
    false⟩ (.ofBelief (0 : Float) belief)).run [.ok measurement]

def unknown : Measurement Machine :=
  ⟨2, 2, 2, Machine.axis, matrix, ⟨.real .double, .square 1 (0 / 0) 0 1⟩⟩

lemma not_isNumber_unknown : ¬ IsNumber (α := Float)
    ((unknown.observation .double rfl).noise (0 : Fin 2) (1 : Fin 2)) := by
  unfold IsNumber
  decide +kernel

lemma exists_pending {e : Estimator Machine} (he : e.process = process) {k : ℕ}
    {y : Estimate Machine} {t : Machine .double} {b : Belief (Machine .double) 2}
    (hy : y = .ofBelief t b) (ht : ¬ unknown.time < y.time) :
    ∃ u : Pending e k y unknown,
      ∃ i j, ¬ IsNumber (u.prior.innovationProduct u.observation i j) := by
  subst hy
  exact ⟨⟨.double, b, ⟨2, 2, ⟨.int64, #v[1, 1]⟩, matrix, matrix⟩, ht, rfl,
    Estimate.belief?_ofBelief t b, by rw [he]; rfl, rfl⟩, (0 : Fin 2), (1 : Fin 2),
    fun h => not_isNumber_unknown (Belief.isNumber_noise_of_innovationProduct h)⟩

lemma corrected_process : corrected.estimator.process = process := by
  rw [corrected, Session.run_estimator]
  rfl

lemma exists_corrected : ∃ (t : Machine .double) (b : Belief (Machine .double) 2),
    corrected.cursor.corrected = .ofBelief t b := by
  have h := Session.run_corrected (F := Machine) (p := .double)
    ⟨(Factorizer.cholesky (1e-15 : Float) (1e-10 : Float)).decomposer, process, true, false⟩
    (0 : Float) belief [.ok measurement]
  rwa [← corrected] at h

end Skew

namespace Session

/-- Only the spread of what is no number is used, and that sums do not depend on the order of their
terms. -/
theorem step_rejects_of_not_isNumber [SpreadingArithmetic F] (r l : F .double) (q : Process F)
    (joseph debug : Bool) (x : Estimate F) (zs : List (Fallible F (Measurement F)))
    (z : Measurement F) :
    let s := (opening ⟨(Factorizer.cholesky r l).decomposer, q, joseph, debug⟩ x).run zs
    (∀ u : Pending s.estimator s.queries s.cursor.corrected z, ∀ i j,
      (¬ IsNumber (u.prior.innovationProduct u.observation i j) ∨
        ¬ IsNumber (u.prior.innovationCovariance u.observation i j)) →
      ∃ k : Rejection, (s.step (.ok z)).2.outcome = .error k.failure ∧
        (k.failure : Failure F).class? = some k.family ∧
        k.family.parent? = some .matrixDecomposition ∧
        (s.step (.ok z)).1 = ⟨s.estimator, s.cursor, s.queries + 1⟩) ∧
    ∀ y, (s.step (.ok z)).2.outcome = .ok y →
      ∃ u : Pending s.estimator s.queries s.cursor.corrected z, u.IsNumeric := by
  intro s
  have hd : s.estimator.decomposer = (Factorizer.cholesky r l).decomposer :=
    congrArg Estimator.decomposer (run_estimator _ zs)
  have hr : ∀ u : Pending s.estimator s.queries s.cursor.corrected z, ¬ u.IsNumeric →
      ∃ k : Rejection, (s.step (.ok z)).2.outcome = .error k.failure ∧
        (s.step (.ok z)).1 = ⟨s.estimator, s.cursor, s.queries + 1⟩ := by
    intro u hu
    rw [u.isNumeric_iff] at hu
    push Not at hu
    obtain ⟨i, j, hij⟩ := hu
    obtain ⟨k, hk⟩ := Factorizer.rejects_innovationCovariance r l hij
    rw [step_of_measured, Pending.step_of_rejects hd hk]
    exact ⟨k, rfl, rfl⟩
  constructor
  · intro u i j hij
    obtain ⟨k, ho, hs⟩ := hr u fun hu => hij.elim (· (hu i j).1) (· (hu i j).2)
    exact ⟨k, ho, k.class_failure, k.parent_family, hs⟩
  · intro y hy
    obtain ⟨m, a, hm, -, -⟩ := advance_of_ok rfl hy
    obtain rfl := Except.ok.inj hm
    refine ⟨a.pending, ?_⟩
    by_contra hu
    obtain ⟨k, ho, -⟩ := hr a.pending hu
    cases hy.symm.trans ho

theorem step_rejects_of_not_isNumber_unknown :
    Skew.corrected.cursor.predicted.isSome = true ∧
      (∃ u : Pending Skew.corrected.estimator Skew.corrected.queries
          Skew.corrected.cursor.corrected Skew.unknown,
        ∃ i j, ¬ IsNumber (u.prior.innovationProduct u.observation i j)) ∧
      ∃ k : Rejection,
        (Skew.corrected.step (.ok Skew.unknown)).2.outcome = .error k.failure ∧
          k.family.parent? = some .matrixDecomposition ∧
          (Skew.corrected.step (.ok Skew.unknown)).1 =
            ⟨Skew.corrected.estimator, Skew.corrected.cursor, Skew.corrected.queries + 1⟩ := by
  have hp : Skew.corrected.cursor.predicted.isSome = true := by decide +kernel
  have ht : ¬ Skew.unknown.time < Skew.corrected.cursor.corrected.time := by decide +kernel
  obtain ⟨t, b, hc⟩ := Skew.exists_corrected
  obtain ⟨u, i, j, hu⟩ := Skew.exists_pending Skew.corrected_process (k := Skew.corrected.queries)
    hc ht
  have hr := (step_rejects_of_not_isNumber (1e-15 : Float) (1e-10 : Float) Skew.process true
    false (.ofBelief (0 : Float) Skew.belief) [.ok Skew.measurement] Skew.unknown).1
  rw [← Skew.corrected] at hr
  obtain ⟨k, ho, -, hk, hs⟩ := hr u i j (.inl hu)
  exact ⟨hp, ⟨u, i, j, hu⟩, k, ho, hk, hs⟩

end Session

end KalmanFilter
