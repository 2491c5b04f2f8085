import KalmanFilter.Proofs.ExactBelief

/-! Some entries of a state in some order. If the matrices of a step connect the
chosen entries with nothing else, the step of the choice is the choice of the step.
-/

namespace KalmanFilter

open Matrix

section

variable {ι ι' κ κ' ν ν' : Type*} {f : ι' → ι} {g : κ' → κ} {h : ν' → ν}

def Supported (f : ι' → ι) (g : κ' → κ) (A : Matrix ι κ ℝ) : Prop :=
  ∀ i j, j ∉ Set.range g → A (f i) j = 0

lemma supported_of_surjective (hg : Function.Surjective g) (f : ι' → ι) (A : Matrix ι κ ℝ) :
    Supported f g A :=
  fun _ j hj => absurd (hg j) hj

lemma Supported.sub {A B : Matrix ι κ ℝ} (hA : Supported f g A) (hB : Supported f g B) :
    Supported f g (A - B) := by
  intro i j hj
  rw [Matrix.sub_apply, hA i j hj, hB i j hj, sub_zero]

lemma supported_one [DecidableEq ι] (f : ι' → ι) : Supported f f (1 : Matrix ι ι ℝ) := by
  intro i j hj
  refine one_apply_ne ?_
  rintro rfl
  exact hj ⟨i, rfl⟩

lemma symmetricPart_submatrix (A : Matrix ι ι ℝ) (f : ι' → ι) :
    (symmetricPart A).submatrix f f = symmetricPart (A.submatrix f f) :=
  rfl

variable [Fintype κ] [Fintype κ']

lemma Supported.mul {A : Matrix ι κ ℝ} {B : Matrix κ ν ℝ} (hA : Supported f g A)
    (hB : Supported g h B) : Supported f h (A * B) := by
  intro i k hk
  refine Finset.sum_eq_zero fun j _ => ?_
  by_cases hj : j ∈ Set.range g
  · obtain ⟨j, rfl⟩ := hj
    exact mul_eq_zero_of_right _ (hB j k hk)
  · exact mul_eq_zero_of_left (hA i j hj) _

lemma Supported.submatrix_mul {A : Matrix ι κ ℝ} (hA : Supported f g A)
    (hg : Function.Injective g) (B : Matrix κ ν ℝ) (h : ν' → ν) :
    (A * B).submatrix f h = A.submatrix f g * B.submatrix g h := by
  ext i k
  exact (Fintype.sum_of_injective g hg _ _
    (fun j hj => mul_eq_zero_of_left (hA i j hj) _) fun j => rfl).symm

lemma Supported.submatrix_mul_transpose {A : Matrix ι κ ℝ} (hA : Supported f g A)
    (hg : Function.Injective g) (B : Matrix ν κ ℝ) (h : ν' → ν) :
    (B * Aᵀ).submatrix h f = B.submatrix h g * (A.submatrix f g)ᵀ := by
  have ht := congrArg transpose (hA.submatrix_mul hg Bᵀ h)
  rwa [transpose_submatrix, transpose_mul, transpose_transpose, transpose_mul,
    transpose_submatrix Bᵀ, transpose_transpose] at ht

lemma Supported.submatrix_congruence {A : Matrix ι κ ℝ} (hA : Supported f g A)
    (hg : Function.Injective g) (P : Matrix κ κ ℝ) :
    (A * P * Aᵀ).submatrix f f = A.submatrix f g * P.submatrix g g * (A.submatrix f g)ᵀ := by
  rw [hA.submatrix_mul_transpose hg, hA.submatrix_mul hg]

lemma Supported.mulVec_comp {A : Matrix ι κ ℝ} (hA : Supported f g A) (hg : Function.Injective g)
    (x : κ → ℝ) : (A *ᵥ x) ∘ f = A.submatrix f g *ᵥ (x ∘ g) := by
  ext i
  exact (Fintype.sum_of_injective g hg _ _
    (fun j hj => mul_eq_zero_of_left (hA i j hj) _) fun j => rfl).symm

end

variable {α : Type} {k k' m m' n n' : ℕ} {f : Fin n' → Fin n} {g : Fin m' → Fin m}

def Vec.select (f : Fin n' → Fin n) (x : Vec α n) : Vec α n' :=
  Vector.ofFn fun i => x (f i)

def Mat.select (f : Fin m' → Fin m) (g : Fin n' → Fin n) (A : Mat α m n) : Mat α m' n' :=
  .ofFn fun i j => A (f i) (g j)

def Belief.select (f : Fin n' → Fin n) (b : Belief α n) : Belief α n' :=
  ⟨b.state.select f, b.covariance.select f f⟩

def Transition.select (f : Fin n' → Fin n) (t : Transition α n) : Transition α n' :=
  ⟨t.state.select f, t.matrix.select f f, t.noise.select f f⟩

def Observation.select (g : Fin m' → Fin m) (f : Fin n' → Fin n) (z : Observation α m n) :
    Observation α m' n' :=
  ⟨z.value.select g, z.matrix.select g f, z.noise.select g g⟩

@[simp] lemma Vec.select_entry (f : Fin n' → Fin n) (x : Vec α n) (i : Fin n') :
    (x.select f).get i = x (f i) :=
  Vec.ofFn_entry ..

@[simp] lemma Mat.select_entry (f : Fin m' → Fin m) (g : Fin n' → Fin n) (A : Mat α m n)
    (i : Fin m') (j : Fin n') : A.select f g i j = A (f i) (g j) :=
  Mat.ofFn_entry ..

@[simp] lemma Vec.select_id (x : Vec α n) : x.select id = x :=
  ext fun i => select_entry id x i

@[simp] lemma Mat.select_id (A : Mat α m n) : A.select id id = A :=
  Mat.ext fun i j => select_entry id id A i j

lemma Vec.get_select (f : Fin n' → Fin n) (x : Vec α n) : (x.select f).get = x.get ∘ f :=
  funext fun i => select_entry f x i

lemma Mat.toMatrix_select (f : Fin m' → Fin m) (g : Fin n' → Fin n) (A : Mat ℝ m n) :
    (A.select f g).toMatrix = A.toMatrix.submatrix f g := by
  ext i j
  exact select_entry f g A i j

lemma Mat.transpose_select (f : Fin m' → Fin m) (g : Fin n' → Fin n) (A : Mat α m n) :
    (A.select f g).transpose = A.transpose.select g f := by
  ext i j
  simp

namespace Belief

variable {b : Belief ℝ n} {t : Transition ℝ n} {z : Observation ℝ m n} {K : Mat ℝ n m}

lemma predict_select (hf : Function.Injective f) (hA : Supported f f t.matrix.toMatrix) :
    (b.predict t).select f = (b.select f).predict (t.select f) := by
  have hc : (b.predict t).covariance.select f f =
      ((b.select f).predict (t.select f)).covariance := by
    apply Mat.toMatrix_injective
    rw [Mat.toMatrix_select, toMatrix_predict, toMatrix_predict, symmetricPart_submatrix,
      submatrix_add, Pi.add_apply, Pi.add_apply, hA.submatrix_congruence hf]
    simp only [select, Transition.select, Mat.toMatrix_select]
  exact congrArg (Belief.mk (t.state.select f)) hc

section

variable (hf : Function.Injective f) (hH : Supported g f z.matrix.toMatrix)
include hf hH

lemma innovation_select :
    (b.innovation z).select g = (b.select f).innovation (z.select g f) := by
  apply Vec.get_injective
  rw [Vec.get_select, innovation, innovation, Vec.get_sub, Vec.get_sub, Mat.get_mulVec,
    Mat.get_mulVec, Pi.sub_comp, hH.mulVec_comp hf]
  simp only [select, Observation.select, Mat.toMatrix_select, Vec.get_select]

lemma crossCovariance_select :
    (b.crossCovariance z).select g f = (b.select f).crossCovariance (z.select g f) := by
  apply Mat.toMatrix_injective
  rw [Mat.toMatrix_select, crossCovariance, crossCovariance, Mat.toMatrix_mul, Mat.toMatrix_mul,
    hH.submatrix_mul hf]
  simp only [select, Observation.select, Mat.toMatrix_select]

lemma innovationCovariance_select :
    (b.innovationCovariance z).select g g =
      (b.select f).innovationCovariance (z.select g f) := by
  apply Mat.toMatrix_injective
  rw [Mat.toMatrix_select, toMatrix_innovationCovariance, toMatrix_innovationCovariance,
    symmetricPart_submatrix, submatrix_add, Pi.add_apply, Pi.add_apply,
    hH.submatrix_congruence hf]
  simp only [select, Observation.select, Mat.toMatrix_select]

lemma correct_select (hg : Function.Injective g) (hK : Supported f g K.toMatrix) (joseph : Bool) :
    (b.correct joseph z K).select f =
      (b.select f).correct joseph (z.select g f) (K.select f g) := by
  have hx : (b.correct joseph z K).state.select f =
      ((b.select f).correct joseph (z.select g f) (K.select f g)).state := by
    apply Vec.get_injective
    rw [Vec.get_select, correct, correct, Vec.get_add, Vec.get_add, Mat.get_mulVec, Mat.get_mulVec,
      ← innovation_select hf hH, Pi.add_comp, hK.mulVec_comp hg]
    simp only [select, Mat.toMatrix_select, Vec.get_select]
  have hF : Supported f f (1 - K.toMatrix * z.matrix.toMatrix) :=
    (supported_one f).sub (hK.mul hH)
  have hs : (1 - K.toMatrix * z.matrix.toMatrix).submatrix f f =
      1 - K.toMatrix.submatrix f g * z.matrix.toMatrix.submatrix g f := by
    rw [submatrix_sub, Pi.sub_apply, Pi.sub_apply, submatrix_one f hf, hK.submatrix_mul hg]
  have hc : (b.correct joseph z K).covariance.select f f =
      ((b.select f).correct joseph (z.select g f) (K.select f g)).covariance := by
    apply Mat.toMatrix_injective
    cases joseph with
    | false =>
      simp only [correct, Bool.false_eq_true, if_false, Mat.toMatrix_select,
        Mat.toMatrix_symmetrize, Mat.toMatrix_mul, Mat.toMatrix_sub, Mat.toMatrix_identity,
        symmetricPart_submatrix, hF.submatrix_mul hf, hs, select, Observation.select]
    | true =>
      simp only [correct, if_true, Mat.toMatrix_select, Mat.toMatrix_symmetrize, Mat.toMatrix_add,
        Mat.toMatrix_mul, Mat.toMatrix_sub, Mat.toMatrix_identity, Mat.toMatrix_transpose,
        symmetricPart_submatrix, submatrix_add, Pi.add_apply, hF.submatrix_congruence hf,
        hK.submatrix_congruence hg, hs, select, Observation.select]
  exact congrArg₂ Belief.mk hx hc

end

end Belief

end KalmanFilter
