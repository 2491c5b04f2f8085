import KalmanFilter.Filter.Belief
import KalmanFilter.Proofs.Rounding

/-! What zero and one do in rounded arithmetic. Zero has a sign, and leaves
everything but the sign of a zero, so an identity matrix leaves finite numbers as
they are, up to that sign. -/

namespace KalmanFilter

namespace Scalar

variable {α : Type} [Scalar α] {a b c : α}

def IsZero (a : α) : Prop :=
  same a 0 = true

/-- What is infinite or no number leaves no number if it is taken from itself. -/
def IsFinite (a : α) : Prop :=
  IsNumber (a - a)

instance : Decidable (IsZero a) :=
  inferInstanceAs (Decidable (same a 0 = true))

instance : Decidable (IsFinite a) :=
  inferInstanceAs (Decidable (a - a ≤ a - a))

def Alike (a b : α) : Prop :=
  a = b ∨ IsZero a ∧ IsZero b

lemma Alike.refl (a : α) : Alike a a :=
  .inl rfl

lemma Alike.symm (h : Alike a b) : Alike b a :=
  h.imp Eq.symm And.symm

lemma Alike.isZero (h : Alike a b) (hb : IsZero b) : IsZero a := by
  obtain rfl | ⟨ha, -⟩ := h
  · exact hb
  · exact ha

lemma Alike.trans (h : Alike a b) (h' : Alike b c) : Alike a c := by
  obtain rfl | ⟨ha, hb⟩ := h
  · exact h'
  · exact .inr ⟨ha, h'.symm.isZero hb⟩

end Scalar

open Scalar

lemma total_succ {α : Type} [Zero α] [Add α] {n : Nat} (f : Fin (n + 1) → α) :
    total f = total (fun i => f i.castSucc) + f (.last n) :=
  Fin.foldl_succ_last ..

class Neutral (α : Type) [Scalar α] : Prop extends Rounded α where
  mul_comm (a b : α) : a * b = b * a
  one_mul (a : α) : 1 * a = a
  isZero_zero : IsZero (0 : α)
  zero_add {a : α} (b : α) : IsZero a → Alike (a + b) b
  zero_mul {a b : α} : IsZero a → IsFinite b → IsZero (a * b)
  isFinite_of_isZero {a : α} : IsZero a → IsFinite a
  isFinite_half : IsFinite (0.5 : α)

namespace Neutral

variable {α : Type} [Scalar α] [Neutral α] {a a' b b' : α} {m n : Nat}

lemma mul_one (a : α) : a * 1 = a := by
  rw [mul_comm, one_mul]

lemma mul_zero (ha : IsFinite a) (hb : IsZero b) : IsZero (a * b) := by
  rw [mul_comm]
  exact zero_mul hb ha

lemma add_zero (a : α) (hb : IsZero b) : Alike (a + b) a := by
  rw [Rounded.add_comm]
  exact zero_add a hb

lemma isFinite_of_alike (h : Alike a b) (hb : IsFinite b) : IsFinite a := by
  obtain rfl | ⟨ha, -⟩ := h
  · exact hb
  · exact isFinite_of_isZero ha

lemma add_alike (ha : Alike a a') (hb : Alike b b') : Alike (a + b) (a' + b') := by
  obtain rfl | ⟨ha, ha'⟩ := ha
  · obtain rfl | ⟨hb, hb'⟩ := hb
    · exact .refl _
    · exact (add_zero a hb).trans (add_zero a hb').symm
  · exact (zero_add b ha).trans (hb.trans (zero_add b' ha').symm)

lemma half_alike (h : Alike a b) : Alike ((0.5 : α) * a) ((0.5 : α) * b) := by
  obtain rfl | ⟨ha, hb⟩ := h
  · exact .refl _
  · exact .inr ⟨mul_zero isFinite_half ha, mul_zero isFinite_half hb⟩

lemma isZero_total {f : Fin n → α} (h : ∀ i, IsZero (f i)) : IsZero (total f) := by
  induction n with
  | zero => exact isZero_zero
  | succ n ih =>
    rw [total_succ]
    exact (zero_add _ (ih fun i => h i.castSucc)).isZero (h _)

lemma total_alike {f : Fin n → α} (i : Fin n) (hi : Alike (f i) b) (hf : ∀ j, j ≠ i → IsZero (f j)) :
    Alike (total f) b := by
  induction n with
  | zero => exact i.elim0
  | succ n ih =>
    rw [total_succ]
    cases i using Fin.lastCases with
    | last =>
      have hz : IsZero (total fun j : Fin n => f j.castSucc) :=
        isZero_total fun j => hf _ (Fin.ne_of_lt (Fin.castSucc_lt_last j))
      exact (zero_add _ hz).trans hi
    | cast i =>
      have hs := ih i hi fun j hj => hf _ fun h => hj (Fin.castSucc_inj.mp h)
      exact (add_zero _ (hf _ (Fin.ne_of_lt (Fin.castSucc_lt_last i)).symm)).trans hs

end Neutral

def Mat.Alike {α : Type} [Scalar α] {m n : Nat} (A B : Mat α m n) : Prop :=
  ∀ i j, Scalar.Alike (A i j) (B i j)

namespace Mat

variable {α : Type} [Scalar α] {m n : Nat} {A B C D : Mat α m n}

lemma Alike.trans (h : A.Alike B) (h' : B.Alike C) : A.Alike C :=
  fun i j => Scalar.Alike.trans (h i j) (h' i j)

variable [Neutral α]

lemma add_alike (h : A.Alike B) (h' : C.Alike D) : (A + C).Alike (B + D) := fun i j => by
  rw [add_entry, add_entry]
  exact Neutral.add_alike (h i j) (h' i j)

lemma symmetrize_alike {A B : Mat α n n} (h : A.Alike B) : A.symmetrize.Alike B.symmetrize := by
  intro i j
  simp only [symmetrize, smul_entry, add_entry, transpose_entry]
  exact Neutral.half_alike (Neutral.add_alike (h i j) (h j i))

lemma add_zero_alike (A : Mat α m n) (hB : ∀ i j, IsZero (B i j)) : (A + B).Alike A := fun i j => by
  rw [add_entry]
  exact Neutral.add_zero _ (hB i j)

lemma total_identity {f : Fin n → α} (hf : ∀ k, IsFinite (f k)) (i : Fin n) :
    Scalar.Alike (total fun k => (identity : Mat α n n) i k * f k) (f i) := by
  refine Neutral.total_alike i ?_ fun k hk => ?_
  · rw [identity, ofFn_entry, if_pos rfl, Neutral.one_mul]
    exact .refl _
  · rw [identity, ofFn_entry, if_neg hk.symm]
    exact Neutral.zero_mul Neutral.isZero_zero (hf k)

lemma identity_mulVec {x : Vec α n} (hx : ∀ i, IsFinite (x i)) (i : Fin n) :
    Scalar.Alike (((identity : Mat α n n) * x).get i) (x i) := by
  rw [mulVec_entry]
  exact total_identity hx i

lemma identity_mul {A : Mat α n m} (hA : ∀ i j, IsFinite (A i j)) :
    Alike ((identity : Mat α n n) * A) A := fun i j => by
  rw [mul_entry]
  exact total_identity (fun k => hA k j) i

lemma mul_identity {A : Mat α m n} (hA : ∀ i j, IsFinite (A i j)) :
    Alike (A * (identity : Mat α n n).transpose) A := fun i j => by
  simp only [mul_entry, transpose_entry, Neutral.mul_comm _ ((identity : Mat α n n) _ _)]
  exact total_identity (fun k => hA i k) j

end Mat

namespace Belief

variable {α : Type} [Scalar α] {n : Nat}

structure IsFinite (b : Belief α n) : Prop where
  state : ∀ i, Scalar.IsFinite (b.state i)
  covariance : ∀ i j, Scalar.IsFinite (b.covariance i j)

structure Alike (b b' : Belief α n) : Prop where
  state : ∀ i, Scalar.Alike (b.state i) (b'.state i)
  covariance : b.covariance.Alike b'.covariance

lemma Alike.trans {b b' b'' : Belief α n} (h : b.Alike b') (h' : b'.Alike b'') : b.Alike b'' where
  state i := Scalar.Alike.trans (h.state i) (h'.state i)
  covariance := h.covariance.trans h'.covariance

variable [Neutral α]

lemma predict_identity_alike {b : Belief α n} (hb : b.IsFinite) {Q N : Mat α n n} (hQ : Q.Alike N) :
    (b.predict ⟨(Mat.identity : Mat α n n) * b.state, .identity, Q⟩).Alike
      ⟨b.state, (b.covariance + N).symmetrize⟩ where
  state := Mat.identity_mulVec hb.state
  covariance := by
    have hl := Mat.identity_mul hb.covariance
    have hr := Mat.mul_identity fun i j => Neutral.isFinite_of_alike (hl i j) (hb.covariance i j)
    exact Mat.symmetrize_alike (Mat.add_alike (hr.trans hl) hQ)

lemma symmetrize_add_zero_alike (b : Belief α n) {N : Mat α n n} (hN : ∀ i j, IsZero (N i j)) :
    Alike ⟨b.state, (b.covariance + N).symmetrize⟩ ⟨b.state, b.covariance.symmetrize⟩ where
  state _ := .refl _
  covariance := Mat.symmetrize_alike (Mat.add_zero_alike _ hN)

end Belief

class NeutralArithmetic (F : Precision → Type) [Arithmetic F] : Prop where
  neutral (p : Precision) : Neutral (F p)
  zero_add_zero (p : Precision) : (0 : F p) + 0 = 0
  zero_add_one (p : Precision) : (0 : F p) + 1 = 1
  isZero_convert {p q : Precision} {x : F p} : IsZero x → IsZero (Arithmetic.convert x : F q)
  convert_zero (p q : Precision) : (Arithmetic.convert (0 : F p) : F q) = 0
  convert_one (p q : Precision) : (Arithmetic.convert (1 : F p) : F q) = 1
  ofInt_zero (p : Precision) : (Arithmetic.ofInt p 0 : F p) = 0
  ofInt_one (p : Precision) : (Arithmetic.ofInt p 1 : F p) = 1
  not_isZero_ofInt {i : Int} : 0 < i → ¬ IsZero (Arithmetic.ofInt .double i : F .double)
  zero_div_ofInt {i : Int} : 0 < i → (0 : F .double) / Arithmetic.ofInt .double i = 0
  one_div_one : (1 : F .double) / 1 = 1
  power_zero (k : Nat) : Arithmetic.power (0 : F .double) k = if k = 0 then 1 else 0
  truncate?_zero : Arithmetic.truncate? (0 : F .double) = some 0
  truncate?_one : Arithmetic.truncate? (1 : F .double) = some 1
  isFinite_zero : Arithmetic.isFinite (0 : F .double) = true
  isFinite_one : Arithmetic.isFinite (1 : F .double) = true

instance {F : Precision → Type} [Arithmetic F] [NeutralArithmetic F] {p : Precision} :
    Neutral (F p) :=
  NeutralArithmetic.neutral p

end KalmanFilter
