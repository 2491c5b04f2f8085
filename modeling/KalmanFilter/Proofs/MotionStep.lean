import KalmanFilter.Proofs.Part
import KalmanFilter.Proofs.Simulation

namespace KalmanFilter

variable {p : Precision} {k a n : ℕ}

namespace ConstantDerivative

variable {c : ConstantDerivative Exact}

noncomputable def priorOf (c : ConstantDerivative Exact) (b : Belief (Exact p) (c.dimension * n))
    (A : Mat (Elem Exact c.motion.type) n n)
    (Q : Fin c.dimension → Mat (Elem Exact c.motion.type) n n) :
    Belief (Exact p) (c.dimension * n) :=
  b.predict (c.layout.transition (blockIn p A) (fun d => blockIn p (Q d)) b.state)

noncomputable def observationOf (c : ConstantDerivative Exact) (p : Precision) (n : ℕ)
    (value : TypedVec Exact c.dimension) (s : Fin c.dimension → Elem Exact c.motion.type) :
    Observation (Exact p) c.dimension (c.dimension * n) :=
  c.layout.observation n (value.toType (.real p))
    ((Vector.ofFn fun d => s d * s d).map (Elem.cast (.real p)))

lemma step_outcome (h : c.motion.HasOrder k a) (hd : 0 < c.dimension) {e : Estimator Exact}
    (he : e.process = c.process) (i : ℕ) (u : Option (Estimate Exact)) {t time : ℝ}
    (ht : ¬ time < t) (b : Belief (Exact p) (c.dimension * (k + 1)))
    (value : TypedVec Exact c.dimension) (s : Fin c.dimension → Elem Exact c.motion.type) :
    (e.step i ⟨u, .ofBelief t b⟩ (c.sensed time value (k + 1) s)).outcome = (do
      let A ← c.motion.transitionOf (k + 1) (.real (time - t))
      let Q ← sequence fun d => c.motion.noiseBlock k a (c.deviations d).toDatum (.real (time - t))
      let K ← (e.gain (c.priorOf b A Q.get) (c.observationOf p (k + 1) value s)).outcome
      return ⟨some (.ofBelief time (c.priorOf b A Q.get)), .ofBelief time
        ((c.priorOf b A Q.get).correct e.joseph (c.observationOf p (k + 1) value s) K)⟩) := by
  have hn : (c.sensed time value (k + 1) s).stateDimension = c.dimension * (k + 1) := rfl
  have hp := process_eq h hd i t time b.state
  rw [← he] at hp
  cases hA : c.motion.transitionOf (k + 1) (.real (time - t)) with
  | error f =>
    rw [hA] at hp
    exact Estimator.step_outcome_of_process_error ht hn hp
  | ok A =>
    cases hQ : sequence fun d =>
        c.motion.noiseBlock k a (c.deviations d).toDatum (.real (time - t)) with
    | error f =>
      rw [hA, hQ] at hp
      exact Estimator.step_outcome_of_process_error ht hn hp
    | ok Q =>
      rw [hA, hQ] at hp
      have hm : (c.moved p time b.state A Q.get).dimension = c.dimension * (k + 1) := rfl
      have ho := Estimator.step_outcome_of_process_ok (c := u) ht hn hp hm
      rw [linearized_moved, observation_sensed] at ho
      exact ho

end ConstantDerivative

/-! A motion in the plane with constant velocities. -/

namespace Plane

def motion : Motion Exact :=
  ⟨.int 1, .int 0, false, .real .double⟩

lemma hasOrder : motion.HasOrder 1 0 :=
  ⟨rfl, rfl⟩

noncomputable def process : ConstantDerivative Exact :=
  ⟨motion, .byDimension, 2, fun d => (d.val + 1 : ℝ)⟩

lemma dimension_pos : 0 < process.dimension :=
  Nat.two_pos

def decomposer : CholeskyDecomposer Exact :=
  ⟨.real 0, .real 0⟩

def belief : Belief (Exact .double) (2 * 2) :=
  ⟨Vector.ofFn fun r => (r.val : ℝ), .identity⟩

def value : TypedVec Exact 2 :=
  ⟨.real .double, Vector.ofFn fun d => (d.val + 1 : ℝ)⟩

lemma one_le_value_mul_self (d : Fin 2) :
    1 ≤ (value.toType (.real .double) : Vec ℝ 2) d * (value.toType (.real .double) : Vec ℝ 2) d := by
  have hv : value.toType (.real .double) = (Vector.ofFn fun d => d.val + 1 : Vec ℝ 2) :=
    TypedVec.toType_self (F := Exact) (p := .double) _
  rw [hv, Vec.ofFn_entry]
  nlinarith [Nat.cast_nonneg (α := ℝ) d.val]

end Plane

end KalmanFilter
