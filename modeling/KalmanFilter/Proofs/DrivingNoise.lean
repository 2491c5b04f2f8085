import KalmanFilter.Proofs.MotionNoise

/-! The noise of a motion is that of its highest derivative, carried to all the
others by the transition. Noise that enters above it is what noise of a longer
motion leaves of its first derivatives. -/

namespace KalmanFilter

open Matrix

variable {p q : Precision} {k a n : ℕ} {elapsed deviation : Datum Exact} {σ x : ℝ}

lemma Mat.mul_outer_mul_transpose (A : Mat ℝ n n) (c : ℝ) (u : Vec ℝ n) :
    A * (c * outer u u) * A.transpose = c * outer (A * u) (A * u) := by
  have h : ∀ v : Vec ℝ n, (c * outer v v : Mat ℝ n n).toMatrix = c • vecMulVec v.get v.get := by
    intro v
    ext i j
    rw [toMatrix_apply, smul_entry, outer_entry]
    rfl
  apply toMatrix_injective
  rw [toMatrix_mul, toMatrix_mul, toMatrix_transpose, h, h, Matrix.mul_smul, Matrix.smul_mul,
    mul_vecMulVec, vecMulVec_mul, vecMul_transpose, get_mulVec]

namespace Taylor

def highest (k : ℕ) : Vec ℝ (k + 1) :=
  Vector.ofFn fun i => if i = .last k then 1 else 0

lemma flow_mulVec_highest (k : ℕ) (x : ℝ) : flow (k + 1) x * highest k = kick false 0 k x := by
  refine Vec.ext fun i => ?_
  simp [total_eq_sum, flow_entry, highest, kick, Fin.le_last]

lemma drive_eq_mul (k : ℕ) (σ x : ℝ) : drive false 0 k σ x =
    flow (k + 1) x * (σ ^ 2 * Mat.outer (highest k) (highest k)) * (flow (k + 1) x).transpose := by
  rw [Mat.mul_outer_mul_transpose, flow_mulVec_highest]
  ext i j
  rw [drive, Mat.ofFn_entry, Mat.smul_entry, Mat.outer_entry]

section

variable (σ x : ℝ)

lemma drive_castLE (a k : ℕ) (i j : Fin (k + 1)) : drive false a k σ x i j =
    drive false 0 (k + a) σ x (i.castLE (by omega)) (j.castLE (by omega)) := by
  have h : ∀ i : Fin (k + 1), kick false a k x i = kick false 0 (k + a) x (i.castLE (by omega)) := by
    intro i
    simp only [kick, Vec.ofFn_entry, Bool.false_eq_true, false_and, if_false, Fin.val_castLE]
    congr 1
    omega
  rw [drive, Mat.ofFn_entry, h, h, drive, Mat.ofFn_entry]

lemma drive_succ (k : ℕ) (i j : Fin k) :
    drive false 1 k σ x i.succ j.succ = drive false 0 k σ x i.castSucc j.castSucc := by
  have h : ∀ i : Fin k, kick false 1 k x i.succ = kick false 0 k x i.castSucc := by
    intro i
    simp only [kick, Vec.ofFn_entry, Bool.false_eq_true, false_and, if_false, Fin.val_succ,
      Fin.val_castSucc]
    congr 1
    omega
  rw [drive, Mat.ofFn_entry, h, h, drive, Mat.ofFn_entry]

lemma drive_approximate (a k : ℕ) (i j : Fin (k + 1)) : drive true a k σ x i j =
    if i = .last k ∧ j = .last k then σ ^ 2 * weight x a ^ 2 else 0 := by
  have h : ∀ i, kick true a k x i = if i = .last k then weight x a else 0 := by
    intro i
    by_cases hi : i = .last k
    · simp [kick, hi]
    · simp [kick, hi]
  rw [drive, Mat.ofFn_entry, h, h, ite_and, sq (weight x a)]
  split
  · split
    · rfl
    · rw [mul_zero, mul_zero]
  · rw [zero_mul, mul_zero]

/-- Where noise of deviation `σ` gets within the time `x`, if it enters `a` derivatives above the
highest one of `k + 1` values. -/
structure DriveLaws : Prop where
  carried (k : ℕ) : drive false 0 k σ x =
    flow (k + 1) x * (σ ^ 2 * Mat.outer (highest k) (highest k)) * (flow (k + 1) x).transpose
  truncated (a k : ℕ) (i j : Fin (k + 1)) : drive false a k σ x i j =
    drive false 0 (k + a) σ x (i.castLE (by omega)) (j.castLE (by omega))
  shifted (k : ℕ) (i j : Fin k) :
    drive false 1 k σ x i.succ j.succ = drive false 0 k σ x i.castSucc j.castSucc
  approximate (k : ℕ) (i j : Fin (k + 1)) :
    drive true 0 k σ x i j = if i = .last k ∧ j = .last k then σ ^ 2 else 0
  approximate_above (k : ℕ) (i j : Fin (k + 1)) :
    drive true 1 k σ x i j = if i = .last k ∧ j = .last k then σ ^ 2 * x ^ 2 else 0
  symmetric (approximate : Bool) (a k : ℕ) :
    (drive approximate a k σ x).transpose = drive approximate a k σ x
  semidefinite (approximate : Bool) (a k : ℕ) : (drive approximate a k σ x).toMatrix.PosSemidef

lemma driveLaws : DriveLaws σ x where
  carried k := drive_eq_mul k σ x
  truncated := drive_castLE σ x
  shifted := drive_succ σ x
  approximate k i j := by rw [drive_approximate, weight_zero, one_pow, mul_one]
  approximate_above k i j := by rw [drive_approximate, weight_one]
  symmetric b a k := transpose_drive b a k σ x
  semidefinite b a k := posSemidef_drive b a k σ x

end

end Taylor

namespace Layout

lemma transpose_spread (l : Layout) {m : ℕ} {B : Fin m → Mat ℝ n n}
    (hB : ∀ d, (B d).transpose = B d) : (l.spread B).transpose = l.spread B := by
  refine Mat.ext_position l fun d i e j => ?_
  rw [Mat.transpose_entry, spread_position, spread_position]
  by_cases hd : d = e
  · subst hd
    rw [if_pos rfl, if_pos rfl, ← Mat.transpose_entry, hB]
  · rw [if_neg hd, if_neg (Ne.symm hd)]

end Layout

structure Motion.IsDriven (M : Motion Exact) (q : Precision) (k a : ℕ)
    (deviation elapsed : Datum Exact) (σ x : ℝ) : Prop where
  noise : M.noise (.datum deviation) elapsed = .ok (TypedMat.tensor (F := Exact)
    ⟨.real q, (Taylor.drive M.approximate a k σ x : Mat (Exact q) _ _)⟩)
  transition : M.approximate = false → M.transition elapsed = .ok (TypedMat.tensor (F := Exact)
    ⟨.real q, (Taylor.flow (k + 1) x : Mat (Exact q) _ _)⟩)

structure ConstantDerivative.IsDriven (c : ConstantDerivative Exact) (q : Precision) (k a : ℕ)
    (τ : Fin c.dimension → ℝ) (elapsed : Datum Exact) (x : ℝ) : Prop where
  deviations (d : Fin c.dimension) : (c.deviations d).toDatum = .real (τ d)
  noise : c.noise elapsed = .ok (TypedMat.tensor (F := Exact) ⟨.real q,
    (c.layout.spread fun d => Taylor.drive c.motion.approximate a k (τ d) x :
      Mat (Exact q) (c.dimension * (k + 1)) _)⟩)
  symmetric : (c.layout.spread fun d => Taylor.drive c.motion.approximate a k (τ d) x).transpose =
    c.layout.spread fun d => Taylor.drive c.motion.approximate a k (τ d) x
  semidefinite :
    (c.layout.spread fun d => Taylor.drive c.motion.approximate a k (τ d) x).toMatrix.PosSemidef

lemma ConstantDerivative.noise_exact {c : ConstantDerivative Exact} (h : c.motion.HasOrder k a)
    (hd : 0 < c.dimension) (hq : c.motion.type = .real q) (hx : elapsed.StandsFor x) :
    ∃ τ : Fin c.dimension → ℝ, (∀ d, (c.deviations d).toDatum = .real (τ d)) ∧
      c.noise elapsed = .ok (TypedMat.tensor (F := Exact) ⟨.real q,
        (c.layout.spread fun d => Taylor.drive c.motion.approximate a k (τ d) x :
          Mat (Exact q) (c.dimension * (k + 1)) _)⟩) := by
  obtain ⟨⟨o, e, ap, ty⟩, l, m, s⟩ := c
  obtain rfl : ty = .real q := hq
  let τ (d : Fin m) : ℝ := Arithmetic.convert (F := Exact) (p := q) (q := .double) (s d)
  refine ⟨τ, fun d => rfl, (noise_of_blocks h hd fun d => ?_).trans rfl⟩
  exact Motion.noiseBlock_exact (Datum.isDeviation_real (τ d)) hx k a

namespace Motion

lemma noise_exact {M : Motion Exact} (h : M.HasOrder k a) (hM : M.type = .real q)
    (hs : deviation.IsDeviation σ) (hx : elapsed.StandsFor x) :
    M.noise (.datum deviation) elapsed = .ok (TypedMat.tensor (F := Exact)
      ⟨.real q, (Taylor.drive M.approximate a k σ x : Mat (Exact q) _ _)⟩) := by
  rw [noise_eq h]
  obtain ⟨o, e, ap, ty⟩ := M
  obtain rfl : ty = .real q := hM
  rw [noiseBlock_exact hs hx]
  rfl

lemma transition_exact {M : Motion Exact} (h : M.HasOrder k a) (hM : M.type = .real q)
    (hap : M.approximate = false) (hx : elapsed.StandsFor x) :
    M.transition elapsed = .ok (TypedMat.tensor (F := Exact)
      ⟨.real q, (Taylor.flow (k + 1) x : Mat (Exact q) _ _)⟩) := by
  rw [transition_eq h]
  obtain ⟨o, e, ap, ty⟩ := M
  obtain rfl : ty = .real q := hM
  obtain rfl : ap = false := hap
  rw [transitionOf_exact hx]
  rfl

theorem noise_is_driven (hs : deviation.IsDeviation σ) (hx : elapsed.StandsFor x) :
    Taylor.DriveLaws σ x ∧
    (∀ (M : Motion Exact) (k a : ℕ), M.HasOrder k a → M.type = .real q →
      M.IsDriven q k a deviation elapsed σ x) ∧
    ∀ (c : ConstantDerivative Exact) (k a : ℕ), c.motion.HasOrder k a → 0 < c.dimension →
      c.motion.type = .real q → ∃ τ, c.IsDriven q k a τ elapsed x := by
  refine ⟨Taylor.driveLaws σ x, fun M k a h hM => ?_, fun c k a h hd hq => ?_⟩
  · exact ⟨noise_exact h hM hs hx, fun hap => transition_exact h hM hap hx⟩
  · obtain ⟨τ, hτ, hQ⟩ := ConstantDerivative.noise_exact h hd hq hx
    refine ⟨τ, hτ, hQ, c.layout.transpose_spread fun d => ?_, c.layout.posSemidef_spread fun d => ?_⟩
    · exact Taylor.transpose_drive ..
    · exact Taylor.posSemidef_drive ..

theorem noise_is_driven_backward :
    (.int 3 : Datum Exact).IsDeviation 3 ∧ (.real (-1) : Datum Exact).StandsFor (-1) ∧
      ∃ A Q : Mat ℝ 3 3,
        (Motion.mk (.int 2) (.bool false) false (.real .single)).transition (.real (-1)) =
          .ok (TypedMat.tensor (F := Exact) ⟨.real .single, (A : Mat (Exact .single) 3 3)⟩) ∧
        (Motion.mk (.int 2) (.bool false) false (.real .single)).noise (.datum (.int 3))
          (.real (-1)) =
            .ok (TypedMat.tensor (F := Exact) ⟨.real .single, (Q : Mat (Exact .single) 3 3)⟩) ∧
        Q = A * ((3 : ℝ) ^ 2 * Mat.outer (Taylor.highest 2) (Taylor.highest 2)) * A.transpose := by
  have hs : (.int 3 : Datum Exact).IsDeviation 3 := by
    refine ⟨⟨_, rfl, Int.cast_ofNat 3⟩, fun i hi => ?_⟩
    obtain rfl := Option.some.inj hi
    decide
  have hx := Datum.standsFor_real (-1)
  obtain ⟨hlaws, hM, -⟩ := noise_is_driven (q := .single) hs hx
  obtain ⟨hQ, hA⟩ := hM ⟨.int 2, .bool false, false, .real .single⟩ 2 0 ⟨rfl, rfl⟩ rfl
  exact ⟨hs, hx, _, _, hA rfl, hQ, hlaws.carried 2⟩

end Motion

end KalmanFilter
