import KalmanFilter.Proofs.Semidefinite
import KalmanFilter.Proofs.Stack
import KalmanFilter.Proofs.SymmetricSystem
import KalmanFilter.Proofs.TensorForm

namespace KalmanFilter

open Matrix

variable {p : Precision} {m n : ℕ}

lemma Elem.cast_exact {d : ElementType} (x : Elem Exact d) (p : Precision) :
    (cast (.real p) x : ℝ) = (toDouble x : ℝ) := by
  cases d with
  | real q => exact (Exact.convert_eq x).trans (Exact.convert_eq x).symm
  | int64 => rfl

noncomputable def TypedVec.real (x : TypedVec Exact n) : Fin n → ℝ :=
  fun i => Elem.toDouble (x.entries i)

lemma TypedVec.get_toType (x : TypedVec Exact n) (p : Precision) :
    Vector.get (α := ℝ) (x.toType (.real p)) = x.real := by
  funext i
  exact (Vec.map_entry _ x.entries i).trans (Elem.cast_exact _ p)

lemma TypedVec.real_mk (x : Vec (Exact p) n) : (⟨.real p, x⟩ : TypedVec Exact n).real = x.get := by
  funext i
  exact Exact.convert_eq (x i)

namespace Tensor

noncomputable def vector (t : Tensor Exact) (n : ℕ) : Fin n → ℝ :=
  fun i => Elem.toDouble (t.get [i.val])

noncomputable def matrix (t : Tensor Exact) (m n : ℕ) : Matrix (Fin m) (Fin n) ℝ :=
  .of fun i j => Elem.toDouble (t.get [i.val, j.val])

lemma vector_tensor (x : TypedVec Exact n) : x.tensor.vector n = x.real := by
  funext i
  exact congrArg Elem.toDouble (x.get_tensor i)

lemma matrix_tensor (A : TypedMat Exact m n) : A.tensor.matrix m n = A.real := by
  ext i j
  exact congrArg Elem.toDouble (A.get_tensor i j)

end Tensor

lemma Measurement.observation_value {z : Measurement Exact} (h : z.stateDimension = n) :
    (z.observation p h).value.get = z.value.real := by
  subst h
  exact z.value.get_toType p

lemma Measurement.observation_matrix {z : Measurement Exact} (h : z.stateDimension = n) :
    Mat.toMatrix (z.observation p h).matrix = z.matrix.tensor.matrix z.dimension n := by
  subst h
  rw [Tensor.matrix_tensor]
  exact z.matrix.toMatrix_toType p

namespace Evolution

lemma linearized_state {x : Evolution Exact} (h : x.dimension = n) :
    (x.linearized p h).state.get = x.state.tensor.vector n := by
  subst h
  rw [Tensor.vector_tensor]
  exact x.state.get_toType p

lemma linearized_matrix {x : Evolution Exact} (h : x.dimension = n) :
    Mat.toMatrix (x.linearized p h).matrix = x.transition.tensor.matrix n n := by
  subst h
  rw [Tensor.matrix_tensor]
  exact x.transition.toMatrix_toType p

lemma linearized_noise {x : Evolution Exact} (h : x.dimension = n) :
    Mat.toMatrix (x.linearized p h).noise = x.noise.tensor.matrix n n := by
  subst h
  rw [Tensor.matrix_tensor]
  exact x.noise.toMatrix_toType p

end Evolution

namespace Advance

variable {e : Estimator Exact} {k : ℕ} {y : Estimate Exact} {z : Measurement Exact}
  (a : Advance e k y z)

lemma belief_covariance : Mat.toMatrix a.belief.covariance = y.covariance.real := by
  rw [Estimate.eq_of_belief? a.typed]
  exact y.covariance.toMatrix_toType a.precision

lemma prior_state : a.prior.state.get = a.evolution.state.tensor.vector y.dimension :=
  Evolution.linearized_state a.evolves

lemma prior_covariance : Mat.toMatrix a.prior.covariance =
    symmetricPart (a.evolution.transition.tensor.matrix y.dimension y.dimension *
      y.covariance.real * (a.evolution.transition.tensor.matrix y.dimension y.dimension)ᵀ +
        a.evolution.noise.tensor.matrix y.dimension y.dimension) := by
  rw [prior, Belief.toMatrix_predict, belief_covariance, transition, Evolution.linearized_matrix,
    Evolution.linearized_noise]

lemma posterior_state : a.posterior.state.get = a.prior.state.get + Mat.toMatrix a.gain *ᵥ
    (z.value.real - z.matrix.tensor.matrix z.dimension y.dimension *ᵥ a.prior.state.get) := by
  rw [posterior, Belief.state_correct, observation, Measurement.observation_value,
    Measurement.observation_matrix]

end Advance

end KalmanFilter
