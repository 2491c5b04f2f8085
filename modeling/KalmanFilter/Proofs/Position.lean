import KalmanFilter.Motion.ConstantDerivative
import Mathlib.Tactic.Lemma

namespace KalmanFilter

variable {α : Type} {m n : Nat}

namespace Layout

def position (l : Layout) (d : Fin m) (i : Fin n) : Fin (m * n) :=
  match l with
  | .byDimension => ⟨d * n + i, flat_lt d i⟩
  | .byDerivative => ⟨i * m + d, Nat.mul_comm m n ▸ flat_lt i d⟩

def dimensionOf (l : Layout) (r : Fin (m * n)) : Fin m :=
  match l with
  | .byDimension => Mat.rowOf r
  | .byDerivative => Mat.columnOf (r.cast (Nat.mul_comm m n))

def derivativeOf (l : Layout) (r : Fin (m * n)) : Fin n :=
  match l with
  | .byDimension => Mat.columnOf r
  | .byDerivative => Mat.rowOf (r.cast (Nat.mul_comm m n))

@[simp] lemma dimensionOf_position (l : Layout) (d : Fin m) (i : Fin n) :
    l.dimensionOf (l.position d i) = d := by
  cases l with
  | byDimension => exact Mat.rowOf_place d i
  | byDerivative => exact Mat.columnOf_place i d

@[simp] lemma derivativeOf_position (l : Layout) (d : Fin m) (i : Fin n) :
    l.derivativeOf (l.position d i) = i := by
  cases l with
  | byDimension => exact Mat.columnOf_place d i
  | byDerivative => exact Mat.rowOf_place i d

@[simp] lemma position_dimensionOf_derivativeOf (l : Layout) (r : Fin (m * n)) :
    l.position (l.dimensionOf r) (l.derivativeOf r) = r := by
  cases l with
  | byDimension => exact Mat.place_rowOf_columnOf r
  | byDerivative =>
    have h := congrArg Fin.val (Mat.place_rowOf_columnOf (r.cast (Nat.mul_comm m n)))
    exact Fin.ext h

lemma position_eq_iff (l : Layout) {d e : Fin m} {i j : Fin n} :
    l.position d i = l.position e j ↔ d = e ∧ i = j := by
  constructor
  · intro h
    have hd := congrArg l.dimensionOf h
    have hi := congrArg l.derivativeOf h
    simp only [dimensionOf_position, derivativeOf_position] at hd hi
    exact ⟨hd, hi⟩
  · rintro ⟨rfl, rfl⟩
    rfl

def spread [Zero α] (l : Layout) (B : Fin m → Mat α n n) : Mat α (m * n) (m * n) :=
  .ofFn fun r s =>
    if l.dimensionOf r = l.dimensionOf s then
      B (l.dimensionOf r) (l.derivativeOf r) (l.derivativeOf s)
    else 0

lemma spread_position [Zero α] (l : Layout) (B : Fin m → Mat α n n) (d e : Fin m) (i j : Fin n) :
    l.spread B (l.position d i) (l.position e j) = if d = e then B d i j else 0 := by
  simp [spread]

def values (α : Type) [Zero α] [One α] (l : Layout) (m n : Nat) : Mat α m (m * n) :=
  .ofFn fun d r => if d = l.dimensionOf r ∧ (l.derivativeOf r).val = 0 then 1 else 0

lemma values_position [Zero α] [One α] (l : Layout) (d e : Fin m) (i : Fin n) :
    l.values α m n d (l.position e i) = if d = e ∧ i.val = 0 then 1 else 0 := by
  simp [values]

end Layout

lemma val_eq_position_iff (d e : Fin m) (i : Fin n) :
    d.val = (Layout.byDerivative.position e i).val ↔ d = e ∧ i.val = 0 := by
  have hd := d.isLt
  cases hi : i.val with
  | zero => simp [Layout.position, hi, Fin.ext_iff]
  | succ k =>
    have hk : m ≤ (k + 1) * m := Nat.le_mul_of_pos_left m k.succ_pos
    simp only [Layout.position, hi]
    omega

lemma dealt_position (d : Fin m) (i : Fin n) :
    dealt (m * n) n (Layout.byDerivative.position d i) = Layout.byDimension.position d i := by
  have hn : 0 < n := Nat.zero_lt_of_lt i.isLt
  have hm : 0 < m := Nat.zero_lt_of_lt d.isLt
  simp only [dealt, Layout.position, Nat.mul_div_cancel _ hn]
  rw [Nat.mul_comm i.val m, Nat.mul_add_mod, Nat.mod_eq_of_lt d.isLt, Nat.mul_add_div hm,
    Nat.div_eq_of_lt d.isLt, Nat.add_zero]

lemma dealt_position_byDimension (d : Fin m) (i : Fin n) :
    dealt (m * n) m (Layout.byDimension.position d i) = Layout.byDerivative.position d i := by
  have hn : 0 < n := Nat.zero_lt_of_lt i.isLt
  have hm : 0 < m := Nat.zero_lt_of_lt d.isLt
  simp only [dealt, Layout.position, Nat.mul_div_cancel_left _ hm]
  rw [Nat.mul_comm d.val n, Nat.mul_add_mod, Nat.mod_eq_of_lt i.isLt, Nat.mul_add_div hn,
    Nat.div_eq_of_lt i.isLt, Nat.add_zero]

namespace Mat

lemma ext_position {A B : Mat α (m * n) (m * n)} (l : Layout)
    (h : ∀ d i e j, A (l.position d i) (l.position e j) = B (l.position d i) (l.position e j)) :
    A = B := by
  ext r s
  rw [← l.position_dimensionOf_derivativeOf r, ← l.position_dimensionOf_derivativeOf s]
  exact h _ _ _ _

variable [Zero α]

lemma blockDiagonal_eq (B : Fin m → Mat α n n) : blockDiagonal B = Layout.byDimension.spread B :=
  rfl

lemma arrange_blockDiagonal (l : Layout) (B : Fin m → Mat α n n) :
    (blockDiagonal B).arrange l n (Nat.dvd_mul_left n m) = l.spread B := by
  cases l with
  | byDimension => rfl
  | byDerivative =>
    refine ext_position .byDerivative fun d i e j => ?_
    rw [Layout.spread_position, ← Layout.byDimension.spread_position B, ← blockDiagonal_eq]
    simp only [arrange, transpose_entry, interleave_entry, dealt_position]

lemma valueProjection_eq [One α] (l : Layout) :
    valueProjection l m (Nat.dvd_mul_right m n) = l.values α m n := by
  ext d r
  rw [← l.position_dimensionOf_derivativeOf r, Layout.values_position]
  generalize l.dimensionOf r = e
  generalize l.derivativeOf r = i
  cases l with
  | byDimension =>
    simp only [valueProjection, transpose_entry, interleave_entry, dealt_position_byDimension,
      ofFn_entry, val_eq_position_iff]
  | byDerivative => simp only [valueProjection, ofFn_entry, val_eq_position_iff]

end Mat

end KalmanFilter
