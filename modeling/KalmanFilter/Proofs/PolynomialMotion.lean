import Mathlib.Algebra.Polynomial.OfFn
import Mathlib.Algebra.Polynomial.Taylor
import KalmanFilter.Proofs.MotionNoise

/-! The transition of a motion carries the values and derivatives of polynomials
from one time to another. Every state belongs to such polynomials, so transitions
compose as elapsed times add up. -/

namespace KalmanFilter

open Polynomial

variable {p q : Precision} {k a m n : ℕ} {t x : ℝ}

lemma Mat.eq_of_mulVec {A B : Mat ℝ m n} (h : ∀ v : Vec ℝ n, A * v = B * v) : A = B := by
  apply toMatrix_injective
  rw [Matrix.ext_iff_mulVec]
  intro v
  have hv := congrArg Vector.get (h (Vector.ofFn v))
  rwa [get_mulVec, get_mulVec, Vec.get_ofFn] at hv

lemma Mat.mul_mulVec (A B : Mat ℝ n n) (v : Vec ℝ n) : A * B * v = A * (B * v) := by
  apply Vec.get_injective
  simp only [get_mulVec, toMatrix_mul, Matrix.mulVec_mulVec]

lemma Mat.identity_mulVec_exact (v : Vec ℝ n) : (identity : Mat ℝ n n) * v = v := by
  apply Vec.get_injective
  rw [get_mulVec, toMatrix_identity, Matrix.one_mulVec]

namespace Taylor

noncomputable def jet (n : ℕ) (f : ℝ[X]) (t : ℝ) : Vec ℝ n :=
  Vector.ofFn fun i => (derivative^[i] f).eval t

lemma eval_hasseDeriv (f : ℝ[X]) (j : ℕ) (t : ℝ) :
    (hasseDeriv j f).eval t = (derivative^[j] f).eval t / factorial j := by
  rw [← factorial_smul_hasseDeriv, LinearMap.smul_apply, eval_smul, factorial_eq, nsmul_eq_mul]
  exact (mul_div_cancel_left₀ _ (Nat.cast_ne_zero.mpr j.factorial_ne_zero)).symm

lemma eval_add_eq_sum {f : ℝ[X]} (hf : f.natDegree < n) (t x : ℝ) :
    f.eval (t + x) = ∑ j ∈ Finset.range n, weight x j * (derivative^[j] f).eval t := by
  have hn : (taylor t f).natDegree < n := by rwa [natDegree_taylor]
  rw [add_comm, ← taylor_eval, eval_eq_sum_range' hn]
  refine Finset.sum_congr rfl fun j _ => ?_
  rw [taylor_coeff, eval_hasseDeriv, weight]
  ring

lemma flow_mulVec_jet {f : ℝ[X]} (hf : f.natDegree ≤ k) (t x : ℝ) :
    flow (k + 1) x * jet (k + 1) f t = jet (k + 1) f (t + x) := by
  refine Vec.ext fun i => ?_
  have hi : (derivative^[i.val] f).natDegree < k + 1 - i.val := by
    have := f.natDegree_iterate_derivative i
    have := i.isLt
    omega
  calc
    _ = ∑ j ∈ Finset.range (k + 1),
        if i.val ≤ j then weight x (j - i) * (derivative^[j] f).eval t else 0 := by
      simp [← Fin.sum_univ_eq_sum_range fun j =>
        if i.val ≤ j then weight x (j - i) * (derivative^[j] f).eval t else 0,
        total_eq_sum, flow_entry, jet]
    _ = ∑ j ∈ Finset.Ico i.val (k + 1), weight x (j - i) * (derivative^[j] f).eval t := by
      rw [← Finset.sum_filter, Finset.range_eq_Ico, Finset.Ico_filter_le_of_left_le (Nat.zero_le _)]
    _ = ∑ j ∈ Finset.range (k + 1 - i.val), weight x j * (derivative^[j] (derivative^[i] f)).eval t := by
      rw [Finset.sum_Ico_eq_sum_range]
      refine Finset.sum_congr rfl fun j _ => ?_
      rw [Nat.add_sub_cancel_left, Nat.add_comm, Function.iterate_add_apply]
    _ = _ := by rw [← eval_add_eq_sum hi, jet, Vec.ofFn_entry]

lemma exists_jet (v : Vec ℝ (k + 1)) : ∃ f : ℝ[X], f.natDegree ≤ k ∧ jet (k + 1) f 0 = v := by
  let f : ℝ[X] := ofFn (k + 1) fun i => v i / i.val.factorial
  refine ⟨f, Nat.lt_succ_iff.mp (ofFn_natDegree_lt k.succ_pos _), Vec.ext fun i => ?_⟩
  rw [jet, Vec.ofFn_entry, ← coeff_zero_eq_eval_zero, coeff_iterate_derivative, Nat.zero_add,
    Nat.descFactorial_self, ofFn_coeff_eq_val_of_lt _ i.isLt, nsmul_eq_mul]
  exact mul_div_cancel₀ _ (Nat.cast_ne_zero.mpr i.val.factorial_ne_zero)

end Taylor

namespace Layout

variable (l : Layout)

def placeEquiv : Fin m × Fin n ≃ Fin (m * n) where
  toFun r := l.position r.1 r.2
  invFun r := (l.dimensionOf r, l.derivativeOf r)
  left_inv r := by simp
  right_inv r := by simp

lemma spread_mulVec_position (B : Fin m → Mat ℝ n n) (v : Vec ℝ (m * n)) (d : Fin m) (i : Fin n) :
    (l.spread B * v).get (l.position d i) =
      (B d * (Vector.ofFn fun j => v (l.position d j) : Vec ℝ n)).get i := by
  have hs : ∀ f : Fin (m * n) → ℝ, ∑ r, f r = ∑ e, ∑ j, f (l.position e j) := fun f => by
    rw [← l.placeEquiv.sum_comp, Fintype.sum_prod_type]
    rfl
  simp [total_eq_sum, hs, spread_position, ite_mul, Finset.sum_ite_irrel]

noncomputable def jet (n : ℕ) (f : Fin m → ℝ[X]) (t : ℝ) : Vec ℝ (m * n) :=
  Vector.ofFn fun r => Taylor.jet n (f (l.dimensionOf r)) t (l.derivativeOf r)

lemma jet_position (f : Fin m → ℝ[X]) (t : ℝ) (d : Fin m) (i : Fin n) :
    l.jet n f t (l.position d i) = Taylor.jet n (f d) t i := by
  simp [jet]

lemma ext_position {u v : Vec ℝ (m * n)} (h : ∀ d i, u (l.position d i) = v (l.position d i)) :
    u = v := by
  refine Vec.ext fun r => ?_
  rw [← l.position_dimensionOf_derivativeOf r]
  exact h _ _

noncomputable def flow (m n : ℕ) (x : ℝ) : Mat ℝ (m * n) (m * n) :=
  l.spread fun _ => Taylor.flow n x

lemma flow_mulVec_jet {f : Fin m → ℝ[X]} (hf : ∀ d, (f d).natDegree ≤ k) (t x : ℝ) :
    l.flow m (k + 1) x * l.jet (k + 1) f t = l.jet (k + 1) f (t + x) := by
  refine l.ext_position fun d i => ?_
  have hd : (Vector.ofFn fun j => l.jet (k + 1) f t (l.position d j)) = Taylor.jet (k + 1) (f d) t :=
    Vec.ext fun j => by rw [Vec.ofFn_entry, jet_position]
  rw [flow, spread_mulVec_position, hd, Taylor.flow_mulVec_jet (hf d), jet_position]

lemma exists_jet (v : Vec ℝ (m * (k + 1))) :
    ∃ f : Fin m → ℝ[X], (∀ d, (f d).natDegree ≤ k) ∧ l.jet (k + 1) f 0 = v := by
  choose f hf hv using fun d => Taylor.exists_jet (Vector.ofFn fun i => v (l.position d i))
  refine ⟨f, hf, l.ext_position fun d i => ?_⟩
  rw [jet_position, hv, Vec.ofFn_entry]

lemma flow_mul_flow (m k : ℕ) (x y : ℝ) :
    l.flow m (k + 1) x * l.flow m (k + 1) y = l.flow m (k + 1) (x + y) := by
  refine Mat.eq_of_mulVec fun v => ?_
  obtain ⟨f, hf, rfl⟩ := l.exists_jet v
  rw [Mat.mul_mulVec, l.flow_mulVec_jet hf, l.flow_mulVec_jet hf, l.flow_mulVec_jet hf, add_assoc,
    add_comm y]

lemma flow_zero (m k : ℕ) : l.flow m (k + 1) 0 = .identity := by
  refine Mat.eq_of_mulVec fun v => ?_
  obtain ⟨f, hf, rfl⟩ := l.exists_jet v
  rw [l.flow_mulVec_jet hf, add_zero, Mat.identity_mulVec_exact]

lemma flow_mul_flow_neg (m k : ℕ) (x : ℝ) :
    l.flow m (k + 1) x * l.flow m (k + 1) (-x) = .identity := by
  rw [flow_mul_flow, add_neg_cancel, flow_zero]

end Layout

lemma Motion.blockIn_transitionOf {M : Motion Exact} (hM : M.type = .real q)
    (happ : M.approximate = false) {elapsed : Datum Exact} (hx : elapsed.StandsFor x)
    {A : Mat (Elem Exact M.type) n n} (hA : M.transitionOf n elapsed = .ok A) :
    ConstantDerivative.blockIn p A = Taylor.flow n x := by
  obtain ⟨o, e, ap, ty⟩ := M
  obtain rfl : ty = .real q := hM
  obtain rfl : ap = false := happ
  obtain rfl := Except.ok.inj ((transitionOf_exact hx n).symm.trans hA)
  exact ConstantDerivative.blockIn_real _

def Process.follow {F : Precision → Type} (q : Process F) (i : ℕ) (t : F .double) (x : Tensor F) :
    List (F .double) → Fallible F (Tensor F)
  | [] => .ok x
  | t' :: ts => do
    match ← q i t x t' with
    | .evolution e => q.follow (i + 1) t' e.state.tensor ts
    | .foreign _ => refuse

namespace ConstantDerivative

variable {c : ConstantDerivative Exact} (h : c.motion.HasOrder k a) (hd : 0 < c.dimension)
  (hq : c.motion.type = .real q) (happ : c.motion.approximate = false)
include h hd hq happ

lemma transition_exact {elapsed : Datum Exact} (hx : elapsed.StandsFor x) :
    c.transition elapsed = .ok (TypedMat.tensor (F := Exact)
      ⟨.real q, (c.layout.flow c.dimension (k + 1) x : Mat (Exact q) _ _)⟩) := by
  rw [transition_eq h hd]
  obtain ⟨⟨o, e, ap, ty⟩, l, m, s⟩ := c
  obtain rfl : ty = .real q := hq
  obtain rfl : ap = false := happ
  rw [Motion.transitionOf_exact hx]
  rfl

lemma process_exact (i : ℕ) (t t' : ℝ) (v : Vec (Exact p) (c.dimension * (k + 1))) :
    ∃ e, c.process i t (TypedVec.tensor ⟨.real p, v⟩) t' = .ok (.evolution e) ∧
      e.state.tensor = TypedVec.tensor (F := Exact)
        ⟨.real p, (c.layout.flow c.dimension (k + 1) (t' - t) * v : Vec ℝ _)⟩ := by
  obtain ⟨A, Q, hM, -⟩ := exists_moves_posSemidef (p := p) hq k a (t' - t)
  refine ⟨c.moved p t' v A Q, process_of_blocks h hd hM.transition hM.noise i v, ?_⟩
  have hA : blockIn p A = Taylor.flow (k + 1) (t' - t) :=
    Motion.blockIn_transitionOf hq happ (Datum.standsFor_real _) hM.transition
  have hs : (c.spread fun _ => A).toType (.real p) =
      c.layout.flow c.dimension (k + 1) (t' - t) := by
    rw [toType_spread, Layout.flow, ← hA]
    rfl
  rw [moved, hs]

lemma follow_exact (i : ℕ) (t : ℝ) (v : Vec (Exact p) (c.dimension * (k + 1))) (ts : List ℝ) :
    c.process.follow i t (TypedVec.tensor ⟨.real p, v⟩) ts = .ok (TypedVec.tensor (F := Exact)
      ⟨.real p, (c.layout.flow c.dimension (k + 1) (ts.getLastD t - t) * v : Vec ℝ _)⟩) := by
  induction ts generalizing i t v with
  | nil =>
    have h0 : (c.layout.flow c.dimension (k + 1) (t - t) * v : Vec ℝ _) = v := by
      rw [sub_self, Layout.flow_zero, Mat.identity_mulVec_exact]
    rw [List.getLastD_nil, h0]
    rfl
  | cons t' ts ih =>
    obtain ⟨e, he, hs⟩ := process_exact h hd hq happ i t t' v
    have hf : (c.layout.flow c.dimension (k + 1) (ts.getLastD t' - t') *
        (c.layout.flow c.dimension (k + 1) (t' - t) * v) : Vec ℝ _) =
          c.layout.flow c.dimension (k + 1) (ts.getLastD t' - t) * v := by
      rw [← Mat.mul_mulVec, Layout.flow_mul_flow, sub_add_sub_cancel]
    show (c.process i t _ t' >>= _) = _
    rw [he, List.getLastD_cons, ← hf, ← ih (i + 1) t']
    exact congrArg (fun y => c.process.follow (i + 1) t' y ts) hs

theorem transition_moves_polynomials :
    ∃ A : ℝ → Mat ℝ (c.dimension * (k + 1)) (c.dimension * (k + 1)),
      (∀ (elapsed : Datum Exact) (x : ℝ), elapsed.StandsFor x → c.transition elapsed =
        .ok (TypedMat.tensor (F := Exact) ⟨.real q, (A x : Mat (Exact q) _ _)⟩)) ∧
      (∀ f : Fin c.dimension → ℝ[X], (∀ d, (f d).natDegree ≤ k) → ∀ t x,
        A x * c.layout.jet (k + 1) f t = c.layout.jet (k + 1) f (t + x)) ∧
      (∀ x y, A x * A y = A (x + y)) ∧ A 0 = .identity ∧
      (∀ x, A x * A (-x) = .identity ∧ A (-x) * A x = .identity) ∧
      ∀ (p : Precision) (i : ℕ) (t : ℝ) (v : Vec (Exact p) (c.dimension * (k + 1))) (ts : List ℝ),
        c.process.follow i t (TypedVec.tensor ⟨.real p, v⟩) ts = .ok (TypedVec.tensor (F := Exact)
          ⟨.real p, (A (ts.getLastD t - t) * v : Vec ℝ _)⟩) := by
  refine ⟨c.layout.flow c.dimension (k + 1), fun elapsed x hx => ?_, fun f hf t x => ?_,
    c.layout.flow_mul_flow _ k, c.layout.flow_zero _ k, fun x => ⟨?_, ?_⟩, ?_⟩
  · exact transition_exact h hd hq happ hx
  · exact c.layout.flow_mulVec_jet hf t x
  · exact c.layout.flow_mul_flow_neg _ k x
  · have hn := c.layout.flow_mul_flow_neg c.dimension k (-x)
    rwa [neg_neg] at hn
  · exact fun p i t v ts => follow_exact h hd hq happ i t v ts

omit h hd hq happ in
theorem transition_moves_polynomials_parabola :
    let c : ConstantDerivative Exact :=
      ⟨⟨.int 2, .bool false, false, .real .double⟩, .byDerivative, 2, fun _ => (1 : ℝ)⟩
    let f : Fin 2 → ℝ[X] := fun _ => X ^ 2
    let v : Tensor Exact := TypedVec.tensor (n := 2 * 3) ⟨.real .double, c.layout.jet 3 f 1⟩
    c.motion.HasOrder 2 0 ∧ 0 < c.dimension ∧ c.motion.type = .real .double ∧
      c.motion.approximate = false ∧
      (∃ A : Mat ℝ (2 * 3) (2 * 3), c.transition (.int 3) = .ok (TypedMat.tensor (F := Exact)
          ⟨.real .double, (A : Mat (Exact .double) _ _)⟩) ∧
        A * c.layout.jet 3 f 1 = c.layout.jet 3 f 4) ∧
      c.process.follow 0 1 v [3, 2, 4] = c.process.follow 0 1 v [4] := by
  intro c f v
  have h : c.motion.HasOrder 2 0 := ⟨rfl, rfl⟩
  have hd : 0 < c.dimension := Nat.two_pos
  obtain ⟨A, hA, hf, -, -, -, hs⟩ := transition_moves_polynomials h hd rfl rfl
  have h3 : (.int 3 : Datum Exact).StandsFor 3 := ⟨_, rfl, Int.cast_ofNat 3⟩
  refine ⟨h, hd, rfl, rfl, ⟨A 3, hA _ 3 h3, ?_⟩, ?_⟩
  · have h4 := hf f (fun _ => natDegree_X_pow_le 2) 1 3
    norm_num at h4
    exact h4
  · exact (hs .double 0 1 _ [3, 2, 4]).trans (hs .double 0 1 _ [4]).symm

end ConstantDerivative

end KalmanFilter
