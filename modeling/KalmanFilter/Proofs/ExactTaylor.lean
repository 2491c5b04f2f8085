import Mathlib.Algebra.Order.Star.Real
import Mathlib.Data.Nat.Factorial.Basic
import KalmanFilter.Proofs.Blocks
import KalmanFilter.Proofs.ExactNumber
import KalmanFilter.Proofs.RealMatrix

namespace KalmanFilter

open Matrix

variable {p q : Precision} {k a n : ℕ} {elapsed deviation : Datum Exact} {x σ : ℝ}

namespace Datum

structure IsDeviation (d : Datum Exact) (σ : ℝ) : Prop where
  standsFor : d.StandsFor σ
  square : ∀ i, d.int? = some i → i ^ 2 < UInt64.size

lemma isDeviation_real (σ : ℝ) : (Datum.real σ : Datum Exact).IsDeviation σ :=
  ⟨standsFor_real σ, nofun⟩

lemma int?_of_number? {d : Datum Exact} {i : ℤ} (h : d.number? = some (.int i)) :
    d.int? = some i := by
  cases d with
  | bool b =>
    cases h
    rfl
  | int j =>
    cases h
    rfl
  | _ => cases h

end Datum

lemma factorial_eq (n : ℕ) : factorial n = n.factorial := by
  induction n with
  | zero => rfl
  | succ n ih => rw [factorial, ih, Nat.factorial_succ]

namespace Taylor

noncomputable def weight (x : ℝ) (k : ℕ) : ℝ :=
  x ^ k / factorial k

@[simp] lemma weight_zero (x : ℝ) : weight x 0 = 1 := by
  simp [weight, factorial]

@[simp] lemma weight_one (x : ℝ) : weight x 1 = x := by
  simp [weight, factorial]

noncomputable def weights (n : ℕ) (x : ℝ) : Vec ℝ n :=
  Vector.ofFn fun k => weight x k

noncomputable def flow (n : ℕ) (x : ℝ) : Mat ℝ n n :=
  transition (weights n x)

lemma flow_entry (x : ℝ) (i j : Fin n) :
    flow n x i j = if i ≤ j then weight x (j.val - i.val) else 0 := by
  simp only [flow, transition, Mat.ofFn_entry, total_eq_sum, weights, Vec.ofFn_entry]
  split
  · rename_i hij
    have hn : j.val - i.val < n := by omega
    rw [Finset.sum_eq_single ⟨j.val - i.val, hn⟩]
    · exact if_pos (Nat.add_sub_cancel' hij)
    · exact fun k _ hk => if_neg fun h => hk (Fin.ext (Nat.eq_sub_of_add_eq' h))
    · exact fun h => absurd (Finset.mem_univ _) h
  · exact Finset.sum_eq_zero fun k _ => if_neg (by omega)

noncomputable def kick (approximate : Bool) (a k : ℕ) (x : ℝ) : Vec ℝ (k + 1) :=
  Vector.ofFn fun i => if approximate = true ∧ i ≠ .last k then 0 else weight x (k - i + a)

noncomputable def drive (approximate : Bool) (a k : ℕ) (σ x : ℝ) : Mat ℝ (k + 1) (k + 1) :=
  .ofFn fun i j => σ ^ 2 * (kick approximate a k x i * kick approximate a k x j)

lemma transpose_drive (approximate : Bool) (a k : ℕ) (σ x : ℝ) :
    (drive approximate a k σ x).transpose = drive approximate a k σ x := by
  ext i j
  simp only [drive, Mat.transpose_entry, Mat.ofFn_entry, mul_comm]

lemma posSemidef_drive (approximate : Bool) (a k : ℕ) (σ x : ℝ) :
    (drive approximate a k σ x).toMatrix.PosSemidef := by
  have h : (drive approximate a k σ x).toMatrix = σ ^ 2 •
      vecMulVec (kick approximate a k x).get (star (kick approximate a k x).get) := by
    ext i j
    exact Mat.ofFn_entry ..
  rw [h]
  exact (posSemidef_vecMulVec_self_star _).smul (sq_nonneg σ)

lemma coefficient_exact (h : elapsed.StandsFor x) (k : ℕ) :
    coefficient elapsed k = .ok (weight x k) := by
  obtain ⟨r, hr, rfl⟩ := h.exists_toNumber
  obtain ⟨s, hs, hv⟩ := r.exists_pow k
  refine Fallible.bind_eq_ok_iff.mpr ⟨r, hr, Fallible.bind_eq_ok_iff.mpr ⟨s, hs, ?_⟩⟩
  rw [s.div_natCast (factorial_ne_zero k), hv, weight]

lemma coefficients_exact (h : elapsed.StandsFor x) (n : ℕ) :
    coefficients (.real p) elapsed n = .ok (weights n x) := by
  have hc : sequence (fun k : Fin n => coefficient elapsed k) = .ok (weights n x) :=
    sequence_of_ok fun k => coefficient_exact h k
  refine Fallible.bind_eq_ok_iff.mpr ⟨_, hc, sequence_eq_ok_iff.mpr fun k => ?_⟩
  exact congrArg Except.ok (Exact.convert_eq _)

end Taylor

namespace Motion

variable {o e : Datum Exact} {approximate : Bool}

lemma transitionOf_exact (h : elapsed.StandsFor x) (n : ℕ) :
    (Motion.mk o e approximate (.real q)).transitionOf n elapsed = .ok
      (Taylor.transition (if approximate then Taylor.keep 2 (Taylor.weights n x)
        else Taylor.weights n x) : Mat (Exact q) n n) :=
  Fallible.bind_eq_ok_iff.mpr ⟨_, Taylor.coefficients_exact h n, rfl⟩

lemma variance?_exact (h : deviation.IsDeviation σ) :
    (Motion.mk o e approximate (.real q)).variance? deviation = .ok (σ ^ 2 : ℝ) := by
  obtain ⟨r, hr, rfl⟩ := h.standsFor
  have hn : deviation.toNumber = .ok r := by
    rw [Datum.toNumber, hr]
    rfl
  refine Fallible.bind_eq_ok_iff.mpr ⟨r, hn, ?_⟩
  cases r with
  | int i =>
    have hi := h.square i (Datum.int?_of_number? hr)
    have hw : Number.word (i ^ 2) = (.ok (.ofInt (i ^ 2)) : Fallible Exact Int64) := by
      refine if_pos ⟨?_, hi⟩
      exact le_trans (by decide) (sq_nonneg i)
    refine Fallible.bind_eq_ok_iff.mpr ⟨.int (i ^ 2), rfl, ?_⟩
    refine Fallible.bind_eq_ok_iff.mpr ⟨_, hw, ?_⟩
    exact congrArg Except.ok (Int.cast_pow i 2)
  | real y =>
    refine Fallible.bind_eq_ok_iff.mpr ⟨.real (y ^ 2), rfl, ?_⟩
    exact congrArg Except.ok (Exact.convert_eq _)

lemma driving_rev (a k : ℕ) (x : ℝ) (i : Fin (k + 1)) :
    ((Motion.mk o e approximate (.real q)).driving a (Taylor.weight x) (k + 1)).get i.rev =
      Taylor.kick approximate a k x i := by
  have hi : 0 < i.rev.val ↔ i ≠ .last k := by
    rw [ne_eq, Fin.ext_iff, Fin.val_rev, Fin.val_last]
    omega
  have hr : i.rev.val = k - i := by
    rw [Fin.val_rev]
    omega
  rw [driving, Vec.ofFn_entry, Taylor.kick, Vec.ofFn_entry]
  exact if_congr (and_congr_right' hi) rfl (by rw [hr])

lemma noiseBlock_exact (hs : deviation.IsDeviation σ) (h : elapsed.StandsFor x) (k a : ℕ) :
    (Motion.mk o e approximate (.real q)).noiseBlock k a deviation elapsed =
      .ok (Taylor.drive approximate a k σ x : Mat (Exact q) (k + 1) (k + 1)) := by
  have hd : (Taylor.noise (σ ^ 2 : ℝ) ((Motion.mk o e approximate (.real q)).driving a
      (Taylor.weight x) (k + 1)) : Mat ℝ (k + 1) (k + 1)) = Taylor.drive approximate a k σ x := by
    ext i j
    rw [Taylor.noise, Mat.outer_entry, Vec.smul_entry, Vec.reverse_entry, Vec.reverse_entry,
      Taylor.drive, Mat.ofFn_entry, ← driving_rev (o := o) (e := e) (q := q),
      ← driving_rev (o := o) (e := e) (q := q)]
    exact mul_assoc ..
  rw [← hd]
  exact noiseBlock_of_coefficients (variance?_exact hs) (Taylor.coefficients_exact h _)

end Motion

end KalmanFilter
