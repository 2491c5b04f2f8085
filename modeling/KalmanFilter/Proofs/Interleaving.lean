import KalmanFilter.Machine
import KalmanFilter.Motion.Interleave
import KalmanFilter.Proofs.Link
import Mathlib.Logic.Equiv.Defs

namespace KalmanFilter

variable {F : Precision → Type} {m n s : Nat}

lemma dealt_place {i : Nat} (hi : i < m / s) (j : Nat) :
    dealt m s (j * (m / s) + i) = i * s + j := by
  have hb : 0 < m / s := Nat.zero_lt_of_lt hi
  rw [dealt, Nat.mul_comm j, Nat.mul_add_mod, Nat.mod_eq_of_lt hi, Nat.mul_add_div hb,
    Nat.div_eq_of_lt hi, Nat.add_zero]

lemma dealt_dealt {r : Nat} (h : s ∣ m) (hr : r < m) : dealt m (m / s) (dealt m s r) = r := by
  have hm : 0 < m := Nat.zero_lt_of_lt hr
  have hs : 0 < s := Nat.pos_of_dvd_of_pos h hm
  have hb : 0 < m / s := Nat.div_pos (Nat.le_of_dvd hm h) hs
  have hdiv : m / (m / s) = s := Nat.div_div_self h (Nat.ne_of_gt hm)
  have hi : r / (m / s) < m / (m / s) := by
    rw [hdiv]
    apply Nat.div_lt_of_lt_mul
    rwa [Nat.div_mul_cancel h]
  have hp := dealt_place hi (r % (m / s))
  rw [hdiv] at hp
  rw [dealt.eq_def m s, hp, Nat.div_add_mod']

namespace Shape

variable {t : Shape}

lemma size_pos (h : ∀ n ∈ t, 0 < n) : 0 < t.size := by
  induction t with
  | nil => exact Nat.one_pos
  | cons n t ih =>
    apply Nat.mul_pos
    · exact h n List.mem_cons_self
    · exact ih fun k hk => h k (List.mem_cons_of_mem n hk)

lemma filter_ofNat (t : Shape) : (t.map Int.ofNat).filter (· ≠ -1) = t.map Int.ofNat := by
  refine List.filter_eq_self.mpr fun n hn => ?_
  obtain ⟨k, -, rfl⟩ := List.mem_map.mp hn
  exact decide_eq_true nofun

lemma map_toNat_ofNat (t : Shape) : (t.map Int.ofNat).map Int.toNat = t := by
  rw [List.map_map]
  exact List.map_id _

lemma infer?_open {count k : Nat} (hc : 0 < count) (h : count = k * t.size) :
    infer? count (-1 :: t.map Int.ofNat) = some (k :: t) := by
  have ht : 0 < t.size := Nat.pos_of_mul_pos_left (h ▸ hc)
  have hk : (-1 :: t.map Int.ofNat).filter (· ≠ -1) = t.map Int.ofNat :=
    (List.filter_cons_of_neg (by decide)).trans t.filter_ofNat
  have hl : (-1 :: t.map Int.ofNat).length - (t.map Int.ofNat).length = 1 := by
    rw [List.length_cons, Nat.add_sub_cancel_left]
  have hm : (-1 :: t.map Int.ofNat).map (fun n => if n = -1 then count / t.size else n.toNat) =
      k :: t := by
    rw [List.map_cons, if_pos rfl, h, Nat.mul_div_cancel k ht]
    congr 1
    refine (List.map_congr_left fun n hn => ?_).trans t.map_toNat_ofNat
    obtain ⟨k, -, rfl⟩ := List.mem_map.mp hn
    exact if_neg nofun
  have hn : (t.map Int.ofNat).all (0 ≤ ·) = true := List.all_eq_true.mpr fun n hn => by
    obtain ⟨k, -, rfl⟩ := List.mem_map.mp hn
    exact decide_eq_true (Int.natCast_nonneg k)
  simp only [infer?, hk, hl, hm, map_toNat_ofNat]
  rw [if_pos ⟨hn, fun h0 => absurd h0 (Nat.ne_of_gt hc)⟩,
    if_pos ⟨ht, fun h0 => absurd h0 (Nat.ne_of_gt hc), ⟨k, h.trans (Nat.mul_comm ..)⟩⟩]

lemma infer?_eq_none {size : Int} (h : size ≤ 0 ∨ ¬ size ∣ m) :
    infer? (m * t.size) (-1 :: size :: t.map Int.ofNat) = none := by
  have hk : (-1 :: size :: t.map Int.ofNat).filter (· ≠ -1) =
      if size = -1 then t.map Int.ofNat else size :: t.map Int.ofNat := by
    rw [List.filter_cons_of_neg (by decide), List.filter_cons, filter_ofNat]
    by_cases hs : size = -1 <;> simp [hs]
  rw [infer?, hk]
  by_cases hs : size = -1
  · simp only [if_pos hs, List.length_cons, Nat.add_assoc, Nat.add_sub_cancel_left]
    split <;> rfl
  simp only [if_neg hs, List.length_cons, Nat.add_sub_cancel_left, List.map_cons, map_toNat_ofNat]
  split
  · rename_i hall
    have h0 : 0 ≤ size := of_decide_eq_true (List.all_eq_true.mp hall.1 size List.mem_cons_self)
    apply if_neg
    rintro ⟨hpos, -, hd⟩
    have ht : 0 < t.size := Nat.pos_of_mul_pos_left hpos
    have hn : 0 < size.toNat := Nat.pos_of_mul_pos_right hpos
    rcases h with h | h
    · omega
    · apply h
      rw [← Int.toNat_of_nonneg h0]
      exact Int.natCast_dvd_natCast.mpr (Nat.dvd_of_mul_dvd_mul_right ht hd)
  · rfl

lemma offset_swapLeading {k : Nat} (ht : 0 < t.size) :
    offset (m / s :: s :: t) (swapLeading (index (s :: m / s :: t) k)) =
      dealt m s (k / t.size) * t.size + k % t.size := by
  simp only [index, swapLeading, offset, size]
  rw [offset_index (Nat.mod_lt _ ht), Nat.mod_mul_left_mod, Nat.mod_mul_left_div_self,
    Nat.mul_comm (m / s), ← Nat.div_div_eq_div_mul, dealt, Nat.add_mul, Nat.mul_assoc,
    Nat.add_assoc]

end Shape

lemma dealt_val_lt (h : s ∣ m) (r : Fin m) : dealt m s r < m :=
  dealt_lt h r.isLt

def dealing (h : s ∣ m) : Equiv.Perm (Fin m) where
  toFun r := ⟨dealt m s r, dealt_val_lt h r⟩
  invFun r := ⟨dealt m (m / s) r, dealt_val_lt (Nat.div_dvd_of_dvd h) r⟩
  left_inv r := Fin.ext (dealt_dealt h r.isLt)
  right_inv r := by
    have hm : m ≠ 0 := Nat.ne_of_gt (Nat.zero_lt_of_lt r.isLt)
    have hr := dealt_dealt (Nat.div_dvd_of_dvd h) r.isLt
    rw [Nat.div_div_self h hm] at hr
    exact Fin.ext hr

namespace Mat

variable {α : Type}

lemma interleave_eq_dealing (h : s ∣ m) (A : Mat α m n) (r : Fin m) (j : Fin n) :
    A.interleave s h r j = A (dealing h r) j :=
  A.interleave_entry h r j

lemma interleave_interleave (h : s ∣ m) (A : Mat α m n) :
    (A.interleave s h).interleave (m / s) (Nat.div_dvd_of_dvd h) = A := by
  ext r j
  rw [interleave_entry, interleave_eq_dealing]
  exact congrArg (A · j) ((dealing h).apply_symm_apply r)

end Mat

namespace Tensor

variable {e : ElementType} {t : Shape}

def ofRows (t : Shape) (A : Mat (Elem F e) m t.size) : Tensor F :=
  ⟨e, m :: t, A.flatten⟩

lemma exists_rows {x : Tensor F} (h : x.shape = m :: t) :
    ∃ A : Mat (Elem F x.type) m t.size, x = ofRows t A := by
  obtain ⟨e, s, v⟩ := x
  obtain rfl : s = m :: t := h
  exact ⟨.ofFlat v, congrArg (mk e (m :: t)) (Mat.flatten_ofFlat v).symm⟩

lemma resize?_open {v : Vec (Elem F e) t.size} {u : Shape} {k : Nat} (ht : 0 < t.size)
    (h : t.size = k * u.size) :
    (mk e t v).resize? (-1 :: u.map Int.ofNat) = .ok ⟨e, k :: u, v.cast h⟩ := by
  rw [resize?, Shape.infer?_open ht h]
  exact dif_pos h

variable [Arithmetic F]

lemma getD_flatten (A : Mat (Elem F e) m n) (i : Fin m) (j : Fin n) :
    (A.flatten[(Mat.place i j).val]?).getD 0 = A i j := by
  have hv := A.flatten_entry (Mat.place i j)
  rw [Mat.rowOf_place, Mat.columnOf_place] at hv
  rw [Vector.getElem?_eq_getElem (Mat.place i j).isLt]
  exact hv

lemma interleave?_eq_bind (A : Mat (Elem F e) m t.size) (size : Int) :
    (ofRows t A).interleave? size =
      (ofRows t A).resize? (-1 :: size :: t.map Int.ofNat) >>= fun blocks =>
        blocks.swapLeading? >>= (·.resize? (-1 :: t.map Int.ofNat)) :=
  rfl

lemma get_swapLeading (A : Mat (Elem F e) m t.size) (ht : 0 < t.size) (h : s ∣ m)
    (hs : m * t.size = m / s * (s * t.size)) (k : Fin (m * t.size)) :
    (mk e (m / s :: s :: t) (A.flatten.cast hs)).get
        (Shape.swapLeading (Shape.index (s :: m / s :: t) k)) = (A.interleave s h).flatten k := by
  have ho : Shape.offset (m / s :: s :: t) (Shape.swapLeading (Shape.index (s :: m / s :: t) k)) =
      (Mat.place (dealing h (Mat.rowOf k)) (Mat.columnOf k)).val := Shape.offset_swapLeading ht
  rw [Mat.flatten_entry, A.interleave_eq_dealing h, get, ho, ← getD_flatten A]
  exact congrArg (Option.getD · 0) (Vector.getElem?_cast (w := hs))

lemma interleave?_ofRows (A : Mat (Elem F e) m t.size) (hm : 0 < m) (ht : 0 < t.size)
    (h : s ∣ m) : (ofRows t A).interleave? s = .ok (ofRows t (A.interleave s h)) := by
  have hs : m * t.size = m / s * (s * t.size) := by
    rw [← Nat.mul_assoc, Nat.div_mul_cancel h]
  have hs' : s * (m / s * t.size) = m * t.size := by
    rw [← Nat.mul_assoc, Nat.mul_div_cancel' h]
  have hpos : 0 < m * t.size := Nat.mul_pos hm ht
  have hr := resize?_open (t := m :: t) (u := s :: t) (v := A.flatten) hpos hs
  let blocks : Tensor F := ⟨e, m / s :: s :: t, A.flatten.cast hs⟩
  let swapped := ofIndex e (s :: m / s :: t) fun i => blocks.get (Shape.swapLeading i)
  have hb : blocks.swapLeading? = .ok swapped := if_pos (Nat.le_add_left 2 t.length)
  have hr' := resize?_open (t := s :: m / s :: t) (u := t) (v := swapped.entries)
    (Nat.lt_of_lt_of_eq hpos hs'.symm) hs'
  have hi : (ofRows t A).interleave? s =
      blocks.swapLeading? >>= (·.resize? (-1 :: t.map Int.ofNat)) := by
    rw [interleave?_eq_bind]
    exact congrArg (· >>= _) hr
  rw [hi, hb]
  refine hr'.trans (congrArg (fun v => Except.ok (mk e (m :: t) v)) (Vec.ext fun k => ?_))
  exact (Vec.ofFn_entry _ (Fin.cast hs'.symm k)).trans (get_swapLeading A ht h hs k)

lemma interleave?_refused (A : Mat (Elem F e) m t.size) {size : Int}
    (h : size ≤ 0 ∨ ¬ size ∣ m) : (ofRows t A).interleave? size = refuse := by
  have hi : (ofRows t A).resize? (-1 :: size :: t.map Int.ofNat) = refuse := by
    rw [resize?]
    show (do (ofRows t A).reshape? (← orRefuse (Shape.infer? (m * t.size) _))) = _
    rw [Shape.infer?_eq_none h]
    rfl
  rw [interleave?_eq_bind, hi]
  rfl

def row (x : Tensor F) (r : Nat) : Tensor F :=
  ofIndex x.type x.shape.tail fun i => x.get (r :: i)

lemma get_ofRows (A : Mat (Elem F e) m t.size) (r : Fin m) (k : Fin t.size) :
    (ofRows t A).get (r.val :: t.index k) = A r k := by
  have hk : Shape.offset (m :: t) (r.val :: t.index k) = (Mat.place r k).val := by
    rw [Shape.offset, Shape.offset_index k.isLt]
    rfl
  rw [← getD_flatten A, ← hk]
  rfl

lemma row_ofRows (A : Mat (Elem F e) m t.size) (r : Fin m) :
    (ofRows t A).row r = ⟨e, t, A.row r⟩ := by
  have h : ∀ k : Fin t.size, (Vector.ofFn fun k : Fin t.size =>
      (ofRows t A).get (r.val :: t.index k)).get k = (A.row r).get k := fun k => by
    rw [Vec.ofFn_entry, get_ofRows]
    rfl
  exact congrArg (mk e t) (Vec.ext h)

lemma row_interleave (A : Mat (Elem F e) m t.size) (h : s ∣ m) (r : Fin m) :
    (ofRows t (A.interleave s h)).row r = (ofRows t A).row (dealing h r) := by
  rw [row_ofRows, row_ofRows]
  exact congrArg (mk e t) (Vec.ext fun k => A.interleave_eq_dealing h r k)

theorem interleave?_permutes_rows (x : Tensor F) (rows : Nat) (row : Shape)
    (hx : x.shape = rows :: row) (hpos : ∀ n ∈ rows :: row, 0 < n) :
    (∀ s : Nat, 0 < s → s ∣ rows → ∃ y, x.interleave? s = .ok y ∧
      y.type = x.type ∧ y.shape = x.shape ∧
      (∀ i j, i < rows / s → j < s → y.row (j * (rows / s) + i) = x.row (i * s + j)) ∧
      (∃ σ : Equiv.Perm (Fin rows), ∀ r : Fin rows, y.row r = x.row (σ r)) ∧
      y.interleave? (rows / s : Nat) = .ok x) ∧
    ∀ s : Int, s ≤ 0 ∨ ¬ s ∣ rows → x.interleave? s = refuse := by
  obtain ⟨A, hA⟩ := exists_rows hx
  generalize x.type = e at A hA
  subst hA
  have hrows : 0 < rows := hpos rows List.mem_cons_self
  have hrow : 0 < row.size := Shape.size_pos fun n hn => hpos n (List.mem_cons_of_mem rows hn)
  refine ⟨fun s hs h => ?_, fun s => interleave?_refused A⟩
  have hq : rows / s ∣ rows := Nat.div_dvd_of_dvd h
  refine ⟨_, interleave?_ofRows A hrows hrow h, rfl, rfl, ?_, ⟨dealing h, ?_⟩, ?_⟩
  · intro i j hi hj
    have hr : j * (rows / s) + i < rows := by
      have hlt := flat_lt (⟨j, hj⟩ : Fin s) (⟨i, hi⟩ : Fin (rows / s))
      rwa [Nat.mul_div_cancel' h] at hlt
    have hd : (dealing h ⟨_, hr⟩).val = i * s + j := dealt_place hi j
    rw [← hd]
    exact row_interleave A h ⟨_, hr⟩
  · exact row_interleave A h
  · rw [interleave?_ofRows _ hrows hrow hq,
      A.interleave_interleave h]

def sixRows : Tensor Machine :=
  .doubleMatrix (.ofFn fun (i : Fin 6) (j : Fin 2) => .ofNat (2 * i + j))

theorem interleave?_permutes_rows_six :
    sixRows.shape = [6, 2] ∧ (∀ n ∈ [6, 2], 0 < n) ∧
      (∃ y, sixRows.interleave? 3 = .ok y ∧ y.row 1 = sixRows.row 3 ∧
        y.interleave? 2 = .ok sixRows) ∧
      sixRows.interleave? 4 = refuse := by
  have hpos : ∀ n ∈ [6, 2], 0 < n := by decide
  obtain ⟨hs, hr⟩ := interleave?_permutes_rows sixRows 6 [2] rfl hpos
  obtain ⟨y, hy, -, -, hrows, -, hback⟩ := hs 3 (by decide) (by decide)
  exact ⟨rfl, hpos, ⟨y, hy, hrows 1 0 (by decide) (by decide), hback⟩, hr 4 (by decide)⟩

end Tensor

end KalmanFilter
