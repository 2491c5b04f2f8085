import Mathlib.GroupTheory.Perm.Fin
import Mathlib.LinearAlgebra.Matrix.NonsingularInverse
import KalmanFilter.Matrix.LU
import KalmanFilter.Proofs.Columns
import KalmanFilter.Proofs.Substitution

/-! The interchanges of an elimination are a permutation of the rows, the factors
multiply back to the matrix with its rows in that order, and so the two
substitutions solve its systems. -/

namespace KalmanFilter

variable {α : Type} {c n : ℕ}

def rowOrder (q : Vec (Fin n) n) : Equiv.Perm (Fin n) :=
  Fin.foldl n (fun σ i => σ * Equiv.swap i (q i)) 1

lemma Vec.swap_entry (x : Vec α n) (i j k : Fin n) :
    (x.swap i j i.isLt j.isLt).get k = x (Equiv.swap i j k) := by
  show (x.swap i j i.isLt j.isLt)[k.val] = x[(Equiv.swap i j k).val]
  rw [Vector.getElem_swap]
  simp only [Equiv.swap_apply_def, Fin.ext_iff]
  split
  · rfl
  · split <;> rfl

lemma interchange_entry (q : Vec (Fin n) n) (x : Vec α n) (i : Fin n) :
    (interchange q x).get i = x (rowOrder q i) := by
  have hs : ∀ (σ : Equiv.Perm (Fin n)) (i : Fin n),
      (Vector.ofFn fun k => x (σ k)).swap i (q i) =
        Vector.ofFn fun k => x ((σ * Equiv.swap i (q i)) k) := fun σ i => Vec.ext fun k => by
    rw [Vec.swap_entry, Vec.ofFn_entry, Vec.ofFn_entry, Equiv.Perm.mul_apply]
  have hx : (Vector.ofFn fun k => x ((1 : Equiv.Perm (Fin n)) k)) = x :=
    Vec.ext fun k => Vec.ofFn_entry ..
  -- the fold over vectors follows the one over permutations
  have h := foldl_hom (f := fun σ i => σ * Equiv.swap i (q i)) (g := fun x i => x.swap i (q i))
    (fun σ : Equiv.Perm (Fin n) => (Vector.ofFn fun k => x (σ k) : Vec α n)) hs 1
  rw [hx] at h
  rw [interchange, h, Vec.ofFn_entry]
  rfl

lemma rowOrder_cons (p : Fin (n + 1)) (q : Vec (Fin n) n) :
    rowOrder (Vec.cons p (q.map Fin.succ)) = Equiv.Perm.decomposeFin.symm (p, rowOrder q) := by
  have hs : ∀ (σ : Equiv.Perm (Fin n)) (i : Fin n),
      Equiv.Perm.decomposeFin.symm (p, σ) * Equiv.swap i.succ (q i).succ =
        Equiv.Perm.decomposeFin.symm (p, σ * Equiv.swap i (q i)) := fun σ i => by
    ext k
    cases k using Fin.cases with
    | zero =>
      rw [Equiv.Perm.mul_apply,
        Equiv.swap_apply_of_ne_of_ne (Fin.succ_ne_zero i).symm (Fin.succ_ne_zero (q i)).symm]
      simp
    | succ k =>
      rw [Equiv.Perm.mul_apply, ← (Fin.succ_injective n).map_swap]
      simp
  have h := foldl_hom (f := fun σ i => σ * Equiv.swap i (q i))
    (g := fun σ i => σ * Equiv.swap i.succ (q i).succ)
    (fun σ => Equiv.Perm.decomposeFin.symm (p, σ)) hs 1
  rw [rowOrder, Fin.foldl_succ]
  simpa [rowOrder] using h

namespace Mat

lemma interchange_rows_entry (q : Vec (Fin n) n) (A : Mat α n c) (i : Fin n) (j : Fin c) :
    (⟨interchange q A.rows⟩ : Mat α n c) i j = A (rowOrder q i) j := by
  rw [entry, interchange_entry]
  rfl

section

variable [Scalar α]

def swapRows (A : Mat α n c) (i j : Fin n) : Mat α n c :=
  ⟨A.rows.swap i j i.isLt j.isLt⟩

def pivoted (A : Mat α (n + 1) (n + 1)) : Mat α (n + 1) (n + 1) :=
  A.swapRows ⟨0, n.succ_pos⟩ A.pivotRow

def multipliers (A : Mat α (n + 1) (n + 1)) : Vec α n :=
  A.leftColumn.map (· / A.corner)

def schurComplement (A : Mat α (n + 1) (n + 1)) : Mat α n n :=
  A.core - outer A.multipliers A.topRow

@[simp] lemma multipliers_entry (A : Mat α (n + 1) (n + 1)) (i : Fin n) :
    A.multipliers.get i = A i.succ 0 / A 0 0 := by
  rw [multipliers, Vec.map_entry, leftColumn_entry, corner_eq]

@[simp] lemma schurComplement_entry (A : Mat α (n + 1) (n + 1)) (i j : Fin n) :
    A.schurComplement i j = A i.succ j.succ - A i.succ 0 / A 0 0 * A 0 j.succ := by
  simp [schurComplement]

lemma pivoted_entry (A : Mat α (n + 1) (n + 1)) (i j : Fin (n + 1)) :
    A.pivoted i j = A (Equiv.swap 0 A.pivotRow i) j :=
  congrArg (Vector.get · j) (Vec.swap_entry A.rows 0 A.pivotRow i)

lemma lu?_succ (A : Mat α (n + 1) (n + 1)) :
    A.lu? = if Scalar.same (A.pivoted 0 0) 0 then none else
      A.pivoted.schurComplement.lu?.map fun g =>
        ⟨block (A.pivoted 0 0) A.pivoted.topRow (interchange g.pivots A.pivoted.multipliers)
          g.packed, Vec.cons A.pivotRow (g.pivots.map Fin.succ)⟩ :=
  rfl

lemma exists_of_lu?_succ {A : Mat α (n + 1) (n + 1)} {f : LU α (n + 1)} (h : A.lu? = some f) :
    ¬ Scalar.same (A.pivoted 0 0) 0 ∧ ∃ g, A.pivoted.schurComplement.lu? = some g ∧
      f = ⟨block (A.pivoted 0 0) A.pivoted.topRow (interchange g.pivots A.pivoted.multipliers)
        g.packed, Vec.cons A.pivotRow (g.pivots.map Fin.succ)⟩ := by
  rw [lu?_succ] at h
  split at h
  case isTrue => cases h
  case isFalse hu =>
    obtain ⟨g, hg, rfl⟩ := Option.map_eq_some_iff.mp h
    exact ⟨hu, g, hg, rfl⟩

end

lemma pivot_ne_zero {A : Mat ℝ n n} {f : LU ℝ n} (h : A.lu? = some f) (i : Fin n) :
    f.packed i i ≠ 0 := by
  induction n with
  | zero => exact i.elim0
  | succ n ih =>
    obtain ⟨hu, g, hg, rfl⟩ := exists_of_lu?_succ h
    rw [Scalar.same_iff] at hu
    cases i using Fin.cases with
    | zero => simpa using hu
    | succ i => simpa using ih hg i

lemma unitLower_block (u : ℝ) (r l : Vec ℝ n) (B : Mat ℝ n n) :
    (block u r l B).unitLower = block 1 (Vector.replicate n 0) l B.unitLower := by
  ext i j
  cases i using Fin.cases <;> cases j using Fin.cases <;>
    simp [unitLower, Fin.succ_ne_zero, (Fin.succ_ne_zero _).symm]

lemma upper_block (u : ℝ) (r l : Vec ℝ n) (B : Mat ℝ n n) :
    (block u r l B).upper = block u r (Vector.replicate n 0) B.upper := by
  ext i j
  cases i using Fin.cases <;> cases j using Fin.cases <;> simp [upper]

lemma isLower_unitLower (A : Mat ℝ n n) : A.unitLower.IsLower where
  above i j h := by
    rw [unitLower, ofFn_entry, if_neg h.ne, if_neg h.not_gt]
  pivot i := by
    rw [unitLower, ofFn_entry, if_pos rfl]
    exact one_pos

lemma unitLower_mul_upper {A : Mat ℝ n n} {f : LU ℝ n} (h : A.lu? = some f) :
    f.packed.unitLower * f.packed.upper = ⟨interchange f.pivots A.rows⟩ := by
  induction n with
  | zero =>
    ext i j
    exact i.elim0
  | succ n ih =>
    obtain ⟨hu, g, hg, rfl⟩ := exists_of_lu?_succ h
    rw [Scalar.same_iff] at hu
    -- the interchanges of the rest move the rows of the pivoted matrix below the first one
    have hr : ∀ i j, (⟨interchange (Vec.cons A.pivotRow (g.pivots.map Fin.succ)) A.rows⟩ :
        Mat ℝ (n + 1) (n + 1)) i j =
          A.pivoted (Fin.cases 0 (fun i => (rowOrder g.pivots i).succ) i) j := by
      intro i j
      rw [interchange_rows_entry, rowOrder_cons, pivoted_entry]
      cases i using Fin.cases <;> simp
    rw [unitLower_block, upper_block]
    ext i j
    rw [hr, mul_entry, total_eq_sum, Fin.sum_univ_succ]
    cases i using Fin.cases with
    | zero => cases j using Fin.cases <;> simp
    | succ i =>
      cases j using Fin.cases with
      | zero => simp [interchange_entry, div_mul_cancel₀ _ hu]
      | succ j =>
        have hi := congrArg (fun M : Mat ℝ n n => M i j) (ih hg)
        simp only [mul_entry, total_eq_sum, interchange_rows_entry] at hi
        simp [interchange_entry, hi]

end Mat

lemma LU.mul_solve {A : Mat ℝ n n} {f : LU ℝ n} (h : A.lu? = some f) (b : Mat ℝ n c) :
    A * f.solve b = b := by
  have hs : f.packed.unitLower * f.packed.upper * f.solve b = ⟨interchange f.pivots b.rows⟩ := by
    have hl := Mat.mul_solveLower f.packed.isLower_unitLower ⟨interchange f.pivots b.rows⟩
    have hu := Mat.upper_mul_solveUpper (Mat.pivot_ne_zero h)
      (Mat.solveLower f.packed.unitLower ⟨interchange f.pivots b.rows⟩)
    apply Mat.toMatrix_injective
    rw [Mat.toMatrix_mul, Mat.toMatrix_mul, Matrix.mul_assoc, ← Mat.toMatrix_mul f.packed.upper,
      solve, hu, ← Mat.toMatrix_mul, hl]
  rw [Mat.unitLower_mul_upper h] at hs
  ext i j
  have hi := congrArg (fun M : Mat ℝ n c => M ((rowOrder f.pivots).symm i) j) hs
  simpa [Mat.interchange_rows_entry] using hi

lemma le_foldl_larger {ι : Type} {k : ℕ} (w : ι → ℝ) (s : Fin k → ι) (a : ι) (i : Fin k) :
    w (s i) ≤ w (Fin.foldl k (fun p i => if w p < w (s i) then s i else p) a) := by
  induction k with
  | zero => exact i.elim0
  | succ k ih =>
    rw [Fin.foldl_succ_last]
    split
    case isTrue h =>
      cases i using Fin.lastCases with
      | last => exact le_rfl
      | cast i => exact (ih (fun i => s i.castSucc) i).trans h.le
    case isFalse h =>
      cases i using Fin.lastCases with
      | last => exact not_lt.mp h
      | cast i => exact ih (fun i => s i.castSucc) i

namespace Mat

open Matrix

lemma abs_le_abs_pivotRow (A : Mat ℝ (n + 1) (n + 1)) (i : Fin (n + 1)) :
    |A i 0| ≤ |A A.pivotRow 0| := by
  have h : |A.firstColumn i| ≤ |A.firstColumn A.pivotRow| :=
    le_foldl_larger (fun i => |A.firstColumn i|) id 0 i
  rwa [firstColumn_entry, firstColumn_entry] at h

lemma mulVec_pivoted (A : Mat ℝ (n + 1) (n + 1)) (v : Fin (n + 1) → ℝ) (i : Fin (n + 1)) :
    (A.toMatrix *ᵥ v) i = (A.pivoted.toMatrix *ᵥ v) (Equiv.swap 0 A.pivotRow i) := by
  simp only [mulVec, dotProduct, toMatrix_apply, pivoted_entry, Equiv.swap_apply_self]

lemma mulVec_cons_of_schurComplement {A : Mat ℝ (n + 1) (n + 1)} (hu : A 0 0 ≠ 0) {v : Fin n → ℝ}
    (hv : A.schurComplement.toMatrix *ᵥ v = 0) :
    A.toMatrix *ᵥ (Fin.cons (-(A.topRow.get ⬝ᵥ v) / A 0 0) v : Fin (n + 1) → ℝ) = 0 := by
  funext i
  simp only [mulVec, dotProduct, Fin.sum_univ_succ, toMatrix_apply, Fin.cons_zero, Fin.cons_succ,
    topRow_entry, Pi.zero_apply]
  cases i using Fin.cases with
  | zero => rw [mul_div_cancel₀ _ hu, neg_add_cancel]
  | succ i =>
    have hi := congrFun hv i
    simp only [mulVec, dotProduct, toMatrix_apply, schurComplement_entry, sub_mul,
      Finset.sum_sub_distrib, mul_assoc, ← Finset.mul_sum, Pi.zero_apply] at hi
    rw [← hi]
    ring

lemma exists_lu? {A : Mat ℝ n n} (hA : ∀ v, A.toMatrix *ᵥ v = 0 → v = 0) : ∃ f, A.lu? = some f := by
  induction n with
  | zero => exact ⟨_, rfl⟩
  | succ n ih =>
    have hu : A.pivoted 0 0 ≠ 0 := by
      intro hu
      rw [pivoted_entry, Equiv.swap_apply_left] at hu
      -- no entry of the column is larger than the pivot
      have hz : ∀ i, A i 0 = 0 := fun i => by
        simpa [hu] using A.abs_le_abs_pivotRow i
      have hv := hA (Pi.single 0 1) (funext fun i => by simp [hz])
      simpa using congrFun hv 0
    obtain ⟨g, hg⟩ := ih (A := A.pivoted.schurComplement) fun v hv => by
      have hw := mulVec_cons_of_schurComplement hu hv
      have hz := hA _ (funext fun i => (A.mulVec_pivoted _ i).trans (congrFun hw _))
      exact funext fun i => congrFun hz i.succ
    rw [lu?_succ, if_neg (mt Scalar.same_iff.mp hu), hg]
    exact ⟨_, rfl⟩

end Mat

end KalmanFilter
