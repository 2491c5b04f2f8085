import KalmanFilter.Evolution
import KalmanFilter.Measurement
import KalmanFilter.Proofs.Typing

namespace KalmanFilter

variable {F : Precision → Type} {m n : Nat}

lemma TypedMat.mat_tensor (A : TypedMat F m n) : A.tensor.mat rfl = A := by
  obtain ⟨e, A⟩ := A
  exact congrArg (TypedMat.mk e) (Mat.ofFlat_flatten A)

lemma Tensor.vec_of_eq {t : Tensor F} {x : TypedVec F n} (h : t = x.tensor)
    (hs : t.shape = [n]) : t.vec hs = x := by
  subst h
  rfl

lemma Evolution.of_tensor (t : F .double) (x : TypedVec F n) (A Q : TypedMat F n n) :
    of t x.tensor A.tensor Q.tensor = .ok ⟨t, n, x, A, Q⟩ := by
  have hA : A.tensor.shape = [n, n] := rfl
  have hQ : Q.tensor.shape = [n, n] := rfl
  show (if ha : A.tensor.shape = [n, n] then _ else _) = _
  rw [dif_pos hA, dif_pos hQ, A.mat_tensor, Q.mat_tensor]
  rfl

lemma Evolution.exists_of_ok {t : F .double} {x : Tensor F} {A Q : TypedMat F n n}
    {y : Evolution F} (h : of t x A.tensor Q.tensor = .ok y) : ∃ v, y = ⟨t, n, v, A, Q⟩ := by
  unfold of at h
  split at h
  case h_1 n' hs =>
    split at h
    case isFalse => cases h
    case isTrue ha =>
      obtain rfl : n = n' := (List.cons.inj ha).1
      have hq : Q.tensor.shape = [n, n] := rfl
      rw [dif_pos hq, A.mat_tensor, Q.mat_tensor] at h
      exact ⟨_, (Except.ok.inj h).symm⟩
  case h_2 => cases h

lemma Measurement.of_tensor (t : F .double) (z : TypedVec F m) (H : TypedMat F m n)
    (R : TypedMat F m m) : of t z.tensor H.tensor R.tensor = .ok ⟨t, m, n, z, H, R⟩ := by
  have hR : R.tensor.shape = [m, m] := rfl
  show (if hk : m = m then _ else _) = _
  rw [dif_pos rfl, dif_pos hR, R.mat_tensor]
  exact congrArg (fun H => Except.ok (Measurement.mk t m n z H R)) H.mat_tensor

variable [Arithmetic F] {e : ElementType}

lemma Elem.cast_self (x : Elem F e) : cast e x = x := by
  cases e with
  | real p => exact Arithmetic.convert_self x
  | int64 => rfl

lemma TypedVec.toType_same (x : Vec (Elem F e) n) : (⟨e, x⟩ : TypedVec F n).toType e = x := by
  refine Vec.ext fun i => ?_
  rw [toType, Vec.map_entry, Elem.cast_self]

lemma TypedMat.toType_same (A : Mat (Elem F e) m n) : (⟨e, A⟩ : TypedMat F m n).toType e = A := by
  ext i j
  rw [toType, Mat.map_entry, Elem.cast_self]

lemma TypedVec.toType_tensor (e : ElementType) (x : TypedVec F n) :
    x.tensor.toType e = TypedVec.tensor ⟨e, x.toType e⟩ := by
  obtain ⟨e', x⟩ := x
  have h : ∀ {m : Nat} (hm : n = m),
      (x.cast hm).map (Elem.cast e) = (x.map (Elem.cast e)).cast hm := by
    rintro m rfl
    rfl
  exact congrArg (Tensor.mk e [n]) (h _)

lemma TypedVec.get_tensor (x : TypedVec F n) (i : Fin n) : x.tensor.get [i.val] = x.entries i := by
  obtain ⟨e, x⟩ := x
  have ho : Shape.offset [n] [i.val] = i.val := by simp [Shape.offset]
  have h : ∀ {m : Nat} (hm : n = m), ((x.cast hm)[i.val]?).getD 0 = x i := by
    rintro m rfl
    rw [Vector.cast_rfl, Vector.getElem?_eq_getElem i.isLt]
    rfl
  show ((x.cast (Shape.eq_size_single n))[Shape.offset [n] [i.val]]?).getD 0 = _
  rw [ho, h]

lemma TypedMat.get_tensor (A : TypedMat F m n) (i : Fin m) (j : Fin n) :
    A.tensor.get [i.val, j.val] = A.entries i j := by
  obtain ⟨e, A⟩ := A
  have ho : Shape.offset [m, n] [i.val, j.val] = (Mat.place i j).val := by
    simp [Shape.offset, Mat.place]
  have h : ∀ {l : Nat} (hl : m * n = l),
      ((A.flatten.cast hl)[(Mat.place i j).val]?).getD 0 = A i j := by
    rintro l rfl
    rw [Vector.cast_rfl, Vector.getElem?_eq_getElem (Mat.place i j).isLt]
    show A.flatten.get (Mat.place i j) = A i j
    rw [Mat.flatten_entry, Mat.rowOf_place, Mat.columnOf_place]
  show ((A.flatten.cast (Shape.eq_size_pair m n))[Shape.offset [m, n] [i.val, j.val]]?).getD 0 = _
  rw [ho, h]

lemma TypedMat.toType_tensor (e : ElementType) (A : TypedMat F m n) :
    A.tensor.toType e = TypedMat.tensor ⟨e, A.toType e⟩ := by
  obtain ⟨e', A⟩ := A
  have h : (A.map (Elem.cast e)).flatten = A.flatten.map (Elem.cast e) :=
    Vec.ext fun k => by simp
  exact congrArg (fun v => Tensor.mk e [m, n] (Vector.cast (Shape.eq_size_pair m n) v)) h.symm

lemma Tensor.product?_tensor (A : Mat (Elem F e) m n) (x : Vec (Elem F e) n) :
    (TypedMat.tensor ⟨e, A⟩).product? (TypedVec.tensor ⟨e, x⟩) =
      .ok (TypedVec.tensor ⟨e, A * x⟩) := by
  have ht : ¬ (TypedMat.tensor ⟨e, A⟩).type ≠ (TypedVec.tensor ⟨e, x⟩).type :=
    fun h => h rfl
  rw [Tensor.product?, if_neg ht]
  show (if h : n = n then Except.ok (TypedVec.tensor ⟨e,
    ((TypedMat.tensor ⟨e, A⟩).mat rfl).toType e * TypedVec.toType e ⟨e, x⟩⟩) else refuse) = _
  rw [dif_pos rfl, TypedMat.mat_tensor, TypedMat.toType_same, TypedVec.toType_same]

end KalmanFilter
