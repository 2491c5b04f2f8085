import KalmanFilter.Decomposer.Cholesky
import KalmanFilter.Proofs.Blocks
import KalmanFilter.Proofs.MachineNeutral
import KalmanFilter.Proofs.Simulation

/-! Over no time the Taylor expansion leaves the identity. Noise that enters with
the highest derivative itself is added there, however little time has passed. -/

namespace KalmanFilter

open Scalar

variable {F : Precision → Type} [Arithmetic F] {p : Precision} {e : ElementType} {k a n : Nat}

def Elem.IsFinite : {e : ElementType} → Elem F e → Prop
  | .real _, x => Scalar.IsFinite x
  | .int64, _ => True

namespace Taylor

def unit (e : ElementType) (n : Nat) : Vec (Elem F e) n :=
  Vector.ofFn fun j => if j.val = 0 then 1 else 0

lemma keep_unit {m : Nat} (hm : 0 < m) : keep m (unit e n : Vec (Elem F e) n) = unit e n := by
  refine Vec.ext fun j => ?_
  rw [keep, Vec.ofFn_entry, unit, Vec.ofFn_entry]
  split
  · rfl
  · rename_i hj
    rw [if_neg (by omega)]

end Taylor

namespace Motion

def entering (e : ElementType) (a n : Nat) : Vec (Elem F e) n :=
  Vector.ofFn fun i => if i.val + a = 0 then 1 else 0

end Motion

namespace ConstantDerivative

variable (c : ConstantDerivative F) (p : Precision) (k a : Nat)
  (v : Fin c.dimension → Elem F c.motion.type)

def impulse : Mat (F p) (c.dimension * (k + 1)) (c.dimension * (k + 1)) :=
  c.layout.spread fun d => .ofFn fun i j =>
    if a = 0 ∧ i = .last k ∧ j = .last k then Elem.cast (.real p) (v d) else 0

/-- The variances of all dimensions, and the factorials that the powers of the elapsed time are
divided by, are numbers in range. -/
structure InRange : Prop where
  factorials : ∀ j < k + 1 + a,
    Arithmetic.isFinite (Arithmetic.ofInt .double (factorial j) : F .double) = true
  variances : ∀ d, c.motion.variance? (c.deviations d).toDatum = .ok (v d)
  finite : ∀ d, (v d).IsFinite

end ConstantDerivative

variable [NeutralArithmetic F]

lemma Elem.cast_zero (e : ElementType) : (cast (.real p) (0 : Elem F e) : F p) = 0 := by
  cases e with
  | real q => exact NeutralArithmetic.convert_zero q p
  | int64 => exact NeutralArithmetic.ofInt_zero p

lemma Elem.cast_one (e : ElementType) : (cast (.real p) (1 : Elem F e) : F p) = 1 := by
  cases e with
  | real q => exact NeutralArithmetic.convert_one q p
  | int64 => exact NeutralArithmetic.ofInt_one p

lemma Elem.zero_add_zero : {e : ElementType} → (0 : Elem F e) + 0 = 0
  | .real p => NeutralArithmetic.zero_add_zero p
  | .int64 => rfl

lemma Elem.zero_add_one : {e : ElementType} → (0 : Elem F e) + 1 = 1
  | .real p => NeutralArithmetic.zero_add_one p
  | .int64 => rfl

lemma Elem.one_add_zero : {e : ElementType} → (1 : Elem F e) + 0 = 1
  | .real p => (Rounded.add_comm (1 : F p) 0).trans (NeutralArithmetic.zero_add_one p)
  | .int64 => rfl

lemma Elem.total_zero (n : Nat) : total (fun _ : Fin n => (0 : Elem F e)) = 0 := by
  induction n with
  | zero => rfl
  | succ n ih => rw [total_succ, ih, zero_add_zero]

namespace Taylor

lemma total_unit (n : Nat) : total (unit e (n + 1) : Vec (Elem F e) (n + 1)) = 1 := by
  induction n with
  | zero => exact Elem.zero_add_one
  | succ n ih =>
    have hi : (fun i : Fin (n + 1) => (unit e (n + 2) : Vec (Elem F e) (n + 2)) i.castSucc) =
        unit e (n + 1) := by
      funext i
      rw [unit, Vec.ofFn_entry, unit, Vec.ofFn_entry, Fin.val_castSucc]
    rw [total_succ, hi, ih, unit, Vec.ofFn_entry, Fin.val_last, if_neg n.succ_ne_zero,
      Elem.one_add_zero]

lemma transition_unit : transition (unit e n : Vec (Elem F e) n) = .identity := by
  ext i j
  rw [transition, Mat.ofFn_entry, Mat.identity, Mat.ofFn_entry]
  split
  · subst j
    obtain ⟨n, rfl⟩ := Nat.exists_eq_succ_of_ne_zero (Nat.ne_zero_of_lt i.isLt)
    refine (congrArg total (funext fun k => ?_)).trans (total_unit n)
    rw [unit, Vec.ofFn_entry]
    simp only [Nat.add_eq_left, ite_eq_left_iff]
    exact fun hk => (if_neg hk).symm
  · rename_i hij
    refine (congrArg total (funext fun k => ?_)).trans (Elem.total_zero n)
    rw [unit, Vec.ofFn_entry]
    split
    · exact if_neg fun hk => hij (Fin.ext (by omega))
    · rfl

lemma coefficient_zero {j : Nat}
    (hj : Arithmetic.isFinite (Arithmetic.ofInt .double (factorial j) : F .double) = true) :
    coefficient (.real 0 : Datum F) j = .ok (if j = 0 then 1 else 0) := by
  have hy : Arithmetic.isFinite (if j = 0 then 1 else 0 : F .double) = true := by
    split
    · exact NeutralArithmetic.isFinite_one
    · exact NeutralArithmetic.isFinite_zero
  have hp : (Number.real 0 : Number F).pow j = .ok (.real (if j = 0 then 1 else 0)) := by
    simp [Number.pow, Number.realPow, NeutralArithmetic.power_zero, hy]
  have hf : 0 < (factorial j : Int) := Int.natCast_pos.mpr (Nat.pos_of_ne_zero (factorial_ne_zero j))
  have hz : ¬ Scalar.same (Arithmetic.ofInt .double (factorial j) : F .double) 0 = true :=
    NeutralArithmetic.not_isZero_ofInt hf
  have hd : (if j = 0 then 1 else 0 : F .double) / Arithmetic.ofInt .double (factorial j) =
      if j = 0 then 1 else 0 := by
    cases j with
    | zero =>
      show (1 : F .double) / Arithmetic.ofInt .double 1 = 1
      rw [NeutralArithmetic.ofInt_one, NeutralArithmetic.one_div_one]
    | succ j => exact NeutralArithmetic.zero_div_ofInt hf
  show (Number.real 0).pow j >>= (fun y => y.div (.int (factorial j))) = _
  rw [hp]
  show (Number.bounded _ >>= fun y => if Scalar.same y 0 = true then _ else pure (_ / y)) = _
  rw [Number.bounded, if_pos hj]
  show (if _ then _ else _) = _
  rw [if_neg hz, hd]
  rfl

lemma store_one (e : ElementType) : (Number.real 1 : Number F).store e = .ok 1 := by
  cases e with
  | real q => exact congrArg Except.ok (NeutralArithmetic.convert_one .double q)
  | int64 =>
    rw [Number.store, NeutralArithmetic.truncate?_one]
    rfl

lemma store_zero (e : ElementType) : (Number.real 0 : Number F).store e = .ok 0 := by
  cases e with
  | real q => exact congrArg Except.ok (NeutralArithmetic.convert_zero .double q)
  | int64 =>
    rw [Number.store, NeutralArithmetic.truncate?_zero]
    rfl

lemma coefficients_zero (e : ElementType)
    (h : ∀ j < n, Arithmetic.isFinite (Arithmetic.ofInt .double (factorial j) : F .double) = true) :
    coefficients e (.real 0 : Datum F) n = .ok (unit e n) := by
  have hc : sequence (fun j : Fin n => coefficient (.real 0 : Datum F) j) =
      .ok (unit (.real .double) n) :=
    sequence_of_ok fun j => coefficient_zero (h j j.isLt)
  refine Fallible.bind_eq_ok_iff.mpr ⟨_, hc, sequence_eq_ok_iff.mpr fun j => ?_⟩
  rw [unit, Vec.ofFn_entry, unit, Vec.ofFn_entry]
  split
  · exact store_one e
  · exact store_zero e

end Taylor

namespace Motion

variable {M : Motion F}

lemma transitionOf_zero
    (h : ∀ j < n, Arithmetic.isFinite (Arithmetic.ofInt .double (factorial j) : F .double) = true) :
    M.transitionOf n (.real 0) = .ok .identity := by
  rw [transitionOf, Taylor.coefficients_zero M.type h]
  show Except.ok (Taylor.transition (if M.approximate then _ else _)) = _
  rw [Taylor.keep_unit Nat.two_pos, ite_self, Taylor.transition_unit]

variable (h : ∀ j < k + 1 + a,
  Arithmetic.isFinite (Arithmetic.ofInt .double (factorial j) : F .double) = true)
include h

lemma noiseBlock_zero {deviation : Datum F} {v : Elem F M.type}
    (hv : M.variance? deviation = .ok v) :
    M.noiseBlock k a deviation (.real 0) = .ok (Taylor.noise v (entering M.type a (k + 1))) := by
  have hd : M.driving a (fun j => if j = 0 then 1 else 0) (k + 1) = entering M.type a (k + 1) := by
    refine Vec.ext fun i => ?_
    rw [driving, Vec.ofFn_entry, entering, Vec.ofFn_entry]
    split
    · rw [if_neg (by omega)]
    · rfl
  rw [← hd]
  exact noiseBlock_of_coefficients hv (Taylor.coefficients_zero M.type h)

end Motion

lemma Elem.cast_selected_alike {v : Elem F e} (hv : v.IsFinite) (P Q : Prop) [Decidable P]
    [Decidable Q] :
    Scalar.Alike (cast (.real p) (v * (if P then 1 else 0) * (if Q then 1 else 0)) : F p)
      (if P ∧ Q then cast (.real p) v else 0) := by
  cases e with
  | int64 =>
    have h : v * (if P then 1 else 0) * (if Q then 1 else 0) = if P ∧ Q then v else (0 : Int64) := by
      by_cases hP : P <;> by_cases hQ : Q <;> simp [hP, hQ]
    rw [show v * (if P then 1 else 0) * (if Q then 1 else 0) = if P ∧ Q then v else 0 from h]
    split
    · exact .refl _
    · exact .inl (cast_zero .int64)
  | real q =>
    have hz {x : F q} (hx : IsZero x) : Scalar.Alike (cast (.real p) (d := .real q) x : F p) 0 :=
      .inr ⟨NeutralArithmetic.isZero_convert hx, Neutral.isZero_zero⟩
    have hv0 : IsZero (v * 0 : F q) := Neutral.mul_zero hv Neutral.isZero_zero
    have h1 (x : F q) : (x * 1 : F q) = x := Neutral.mul_one x
    by_cases hP : P <;> by_cases hQ : Q <;> simp only [hP, hQ, if_true, if_false, and_true, and_false]
    · refine .inl (congrArg (cast (.real p)) ?_)
      exact (h1 (v * 1 : F q)).trans (h1 v)
    · exact hz (show IsZero (v * 1 * 0 : F q) from (h1 v).symm ▸ hv0)
    · exact hz (show IsZero (v * 0 * 1 : F q) from (h1 (v * 0 : F q)).symm ▸ hv0)
    · have h0 : IsZero (0 : F q) := Neutral.isZero_zero
      exact hz (Neutral.zero_mul hv0 (Neutral.isFinite_of_isZero h0))

lemma Taylor.noise_entering_alike {v : Elem F e} (hv : v.IsFinite) (i j : Fin (k + 1)) :
    Scalar.Alike (Elem.cast (.real p) (noise v (Motion.entering e a (k + 1)) i j) : F p)
      (if a = 0 ∧ i = .last k ∧ j = .last k then Elem.cast (.real p) v else 0) := by
  have hiff : i.rev.val + a = 0 ∧ j.rev.val + a = 0 ↔ a = 0 ∧ i = .last k ∧ j = .last k := by
    simp only [Fin.ext_iff, Fin.val_rev, Fin.val_last]
    omega
  rw [noise, Mat.outer, Mat.ofFn_entry, Vec.smul_entry, Vec.reverse_entry, Vec.reverse_entry,
    Motion.entering, Vec.ofFn_entry, Vec.ofFn_entry]
  simp only [← hiff]
  exact Elem.cast_selected_alike hv _ _

namespace ConstantDerivative

variable {c : ConstantDerivative F} {v : Fin c.dimension → Elem F c.motion.type}

lemma toType_spread_identity :
    (c.spread fun _ => (.identity : Mat (Elem F c.motion.type) n n)).toType (.real p) =
      (.identity : Mat (F p) (c.dimension * n) (c.dimension * n)) := by
  refine Mat.ext_position c.layout fun d i f j => ?_
  rw [TypedMat.toType, Mat.map_entry, spread, Layout.spread_position, Mat.identity, Mat.ofFn_entry,
    Mat.identity, Mat.ofFn_entry]
  simp only [Layout.position_eq_iff]
  by_cases hd : d = f
  · by_cases hi : i = j
    · rw [if_pos hd, if_pos hi, if_pos ⟨hd, hi⟩, Elem.cast_one]
    · rw [if_pos hd, if_neg hi, if_neg fun h => hi h.2, Elem.cast_zero]
  · rw [if_neg hd, if_neg fun h => hd h.1, Elem.cast_zero]

lemma noise_alike_impulse (hv : ∀ d, (v d).IsFinite) :
    Mat.Alike ((c.spread fun d => Taylor.noise (v d) (Motion.entering _ a (k + 1))).toType (.real p))
      (c.impulse p k a v) := by
  intro r s
  rw [← c.layout.position_dimensionOf_derivativeOf r, ← c.layout.position_dimensionOf_derivativeOf s,
    TypedMat.toType, Mat.map_entry, spread, impulse, Layout.spread_position, Layout.spread_position]
  split
  · rw [Mat.ofFn_entry]
    exact Taylor.noise_entering_alike (hv _) _ _
  · exact .inl (Elem.cast_zero _)

lemma isZero_impulse_iff : (∀ r s, IsZero (c.impulse p k a v r s)) ↔
    0 < a ∨ ∀ d, IsZero (Elem.cast (.real p) (v d) : F p) := by
  constructor
  · intro h
    rcases Nat.eq_zero_or_pos a with ha | ha
    · refine .inr fun d => ?_
      have hd := h (c.layout.position d (.last k)) (c.layout.position d (.last k))
      rwa [impulse, Layout.spread_position, if_pos rfl, Mat.ofFn_entry, if_pos ⟨ha, rfl, rfl⟩] at hd
    · exact .inl ha
  · intro h r s
    rw [impulse, Layout.spread, Mat.ofFn_entry]
    split
    · rw [Mat.ofFn_entry]
      split
      · rename_i hi
        exact h.resolve_left (Nat.not_lt.mpr (Nat.le_of_eq hi.1)) _
      · exact Neutral.isZero_zero
    · exact Neutral.isZero_zero

section

variable (h : c.motion.HasOrder k a) (hd : 0 < c.dimension) (hr : c.InRange k a v)
  {t : F .double} (ht : Scalar.IsFinite t)
include h hd hr ht

lemma exists_process_zero (x : Vec (F p) (c.dimension * (k + 1))) :
    ∃ Q : Mat (F p) (c.dimension * (k + 1)) (c.dimension * (k + 1)), Q.Alike (c.impulse p k a v) ∧
      ∀ i, c.process i t (TypedVec.tensor ⟨.real p, x⟩) t = .ok (.evolution
        ⟨t, c.dimension * (k + 1),
          ⟨.real p, (.identity : Mat (F p) (c.dimension * (k + 1)) (c.dimension * (k + 1))) * x⟩,
          ⟨.real p, .identity⟩, ⟨.real p, Q⟩⟩) := by
  have hA : c.motion.transitionOf (k + 1) (.real (t - t)) = .ok .identity := by
    rw [Rounded.sub_self ht]
    exact Motion.transitionOf_zero fun j hj => hr.factorials j (by omega)
  have hQ : ∀ d, c.motion.noiseBlock k a (c.deviations d).toDatum (.real (t - t)) =
      .ok (Taylor.noise (v d) (Motion.entering _ a (k + 1))) := by
    rw [Rounded.sub_self ht]
    exact fun d => Motion.noiseBlock_zero hr.factorials (hr.variances d)
  refine ⟨_, noise_alike_impulse hr.finite, fun i => ?_⟩
  rw [process_of_blocks h hd hA hQ, moved, toType_spread_identity]

/-- A step over no time is an update of what was known before, but for the noise that enters with
the highest derivative. There is none exactly if the noise enters above it, or has no variance. -/
theorem zero_length_step {b : Belief (F p) (c.dimension * (k + 1))} (hb : b.IsFinite) :
    ∃ (x : Vec (F p) (c.dimension * (k + 1))) (Q : Mat (F p) _ _),
      (∀ i, Scalar.Alike (x i) (b.state i)) ∧ Q.Alike (c.impulse p k a v) ∧
      ((∀ r s, IsZero (Q r s)) ↔ 0 < a ∨ ∀ d, IsZero (Elem.cast (.real p) (v d) : F p)) ∧
      (∀ i, c.process i t (TypedVec.tensor ⟨.real p, b.state⟩) t = .ok (.evolution
        ⟨t, c.dimension * (k + 1), ⟨.real p, x⟩, ⟨.real p, .identity⟩, ⟨.real p, Q⟩⟩)) ∧
      ∀ (D : Decomposer F) (joseph debug : Bool) (i : Nat) (u : Option (Estimate F))
        (z : Measurement F) (hz : z.stateDimension = c.dimension * (k + 1)), z.time = t →
        let e : Estimator F := ⟨D, c.process, joseph, debug⟩
        let b' := b.predict ⟨x, .identity, Q⟩
        b'.Alike ⟨b.state, (b.covariance + c.impulse p k a v).symmetrize⟩ ∧
          ((∀ r s, IsZero (Q r s)) → b'.Alike ⟨b.state, b.covariance.symmetrize⟩) ∧
          (e.step i ⟨u, .ofBelief t b⟩ z).outcome =
            (e.gain b' (z.observation p hz)).outcome >>= fun K =>
              .ok ⟨some (.ofBelief t b'),
                .ofBelief t (b'.correct joseph (z.observation p hz) K)⟩ := by
  obtain ⟨Q, hQ, hp⟩ := exists_process_zero h hd hr ht b.state
  have hi : (∀ r s, IsZero (Q r s)) ↔ ∀ r s, IsZero (c.impulse p k a v r s) :=
    forall₂_congr fun r s => ⟨(hQ r s).symm.isZero, (hQ r s).isZero⟩
  refine ⟨_, Q, Mat.identity_mulVec hb.state, hQ, hi.trans isZero_impulse_iff, hp, ?_⟩
  intro D joseph debug i u z hz hzt e b'
  have hb' := Belief.predict_identity_alike hb hQ
  refine ⟨hb', fun h0 => hb'.trans (b.symmetrize_add_zero_alike (hi.mp h0)), ?_⟩
  have hlt : ¬ t < t := fun hlt =>
    Rounded.not_lt_of_le (Rounded.isNumber_of_lt hlt).1 hlt
  subst hzt
  have ho := Estimator.step_outcome_of_process_ok (e := e) (k := i) (c := u) hlt hz (hp i) rfl
  simp only [Evolution.linearized, TypedVec.toType_self, TypedMat.toType_self] at ho
  exact ho

end

end ConstantDerivative

/-! One value with its velocity, which the noise changes at once, or by an acceleration. -/

namespace Still

def motion (above : Int) : ConstantDerivative Machine :=
  ⟨⟨.int 1, .int above, false, .real .double⟩, .byDerivative, 1, fun _ => (1 : Float)⟩

def belief : Belief (Machine .double) (1 * 2) :=
  ⟨#v[3, -2], .identity⟩

def measurement : Measurement Machine :=
  ⟨1, 1, 1 * 2, ⟨.real .double, Vector.ofFn fun _ => (0 : Float)⟩,
    ⟨.real .double, .ofFn fun _ j => if j.val = 0 then 1 else 0⟩, ⟨.real .double, .identity⟩⟩

def estimator (above : Int) : Estimator Machine :=
  ⟨CholeskyDecomposer.defaults.decomposer, (motion above).process, false, false⟩

lemma realPow_one : Number.realPow (1 : Machine .double) 2 = .ok (1 : Machine .double) := by
  have hp : Arithmetic.power (1 : Machine .double) 2 = (1 : Machine .double) := by decide +kernel
  have hf : Arithmetic.isFinite (1 : Machine .double) = true := NeutralArithmetic.isFinite_one
  simp only [Number.realPow, hp, hf, Bool.not_true, Bool.and_false, Bool.false_eq_true, if_false]

lemma inRange : (motion 1).InRange 1 1 fun _ => (1 : Machine .double) where
  factorials := by decide +kernel
  variances _ := by
    have hp : (Number.real 1 : Number Machine).pow 2 = .ok (.real 1) :=
      Fallible.bind_eq_ok_iff.mpr ⟨_, realPow_one, rfl⟩
    exact Fallible.bind_eq_ok_iff.mpr ⟨_, rfl, Fallible.bind_eq_ok_iff.mpr ⟨_, hp, rfl⟩⟩
  finite _ := show Scalar.IsFinite (1 : Machine .double) by decide +kernel

end Still

namespace ConstantDerivative

theorem zero_length_step_still :
    (Still.motion 1).motion.HasOrder 1 1 ∧ 0 < (Still.motion 1).dimension ∧
      ((Still.motion 1).InRange 1 1 fun _ => (1 : Machine .double)) ∧
      Scalar.IsFinite (1 : Machine .double) ∧ Still.belief.IsFinite ∧
      ∃ b' : Belief (Machine .double) (1 * 2),
        b'.Alike ⟨Still.belief.state, Still.belief.covariance.symmetrize⟩ ∧
          ((Still.estimator 1).step 0 ⟨none, .ofBelief 1 Still.belief⟩ Still.measurement).outcome =
            ((Still.estimator 1).gain b' (Still.measurement.observation .double rfl)).outcome >>=
              fun K => .ok ⟨some (.ofBelief 1 b'),
                .ofBelief 1 (b'.correct false (Still.measurement.observation .double rfl) K)⟩ := by
  have h : (Still.motion 1).motion.HasOrder 1 1 := ⟨rfl, rfl⟩
  have hd : 0 < (Still.motion 1).dimension := Nat.one_pos
  have hr := Still.inRange
  have ht : Scalar.IsFinite (1 : Machine .double) := by decide +kernel
  have hb : Still.belief.IsFinite := ⟨by decide +kernel, by decide +kernel⟩
  refine ⟨h, hd, hr, ht, hb, ?_⟩
  obtain ⟨x, Q, -, -, hQ, -, hs⟩ := zero_length_step h hd hr ht hb
  obtain ⟨-, h0, ho⟩ := hs CholeskyDecomposer.defaults.decomposer false false 0 none
    Still.measurement rfl rfl
  exact ⟨_, h0 (hQ.mpr (.inl Nat.one_pos)), ho⟩

theorem zero_length_step_jolted :
    let s : Session Machine := .opening (Still.estimator 0) (.ofBelief 1 Still.belief)
    let s' := (s.step (.ok Still.measurement)).1
    let x := (Still.motion 0).evolution (.real 1) s.cursor.corrected.state.tensor (.real 1)
    (Still.measurement.time : Float) = s.cursor.corrected.time ∧
      (x.toOption.map fun x => (x.noise.tensor.get [1, 1]).toDouble) = some (1 : Float) ∧
      (s.step (.ok Still.measurement)).2.outcome.isOk = true ∧
      (Still.belief.covariance.symmetrize 1 1 : Float) = 1 ∧
      (s'.cursor.predicted.map fun x => (x.covariance.tensor.get [1, 1]).toDouble) =
        some (2 : Float) := by
  decide +kernel

end ConstantDerivative

end KalmanFilter
