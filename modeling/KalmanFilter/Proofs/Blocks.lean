import KalmanFilter.Proofs.Position
import KalmanFilter.Proofs.Related
import KalmanFilter.Proofs.TensorForm

namespace KalmanFilter

variable {F : Precision → Type} {α β : Type} {k a : Nat}

lemma factorial_ne_zero (n : Nat) : factorial n ≠ 0 := by
  induction n with
  | zero => exact Nat.one_ne_zero
  | succ n ih => exact Nat.mul_ne_zero n.succ_ne_zero ih

structure Motion.HasOrder (q : Motion F) (k a : Nat) : Prop where
  order : q.order.int? = some (k : Int)
  expected : q.expected.int? = some (a : Int)

namespace Motion

variable {q : Motion F}

lemma HasOrder.size (h : q.HasOrder k a) : q.size? = some ((k + 1 : Nat) : Int) := by
  rw [size?, h.order]
  rfl

lemma reach_natCast (k a : Nat) : reach (k + 1 : Nat) a = k + 1 :=
  reach_eq (Int.natCast_nonneg _) (Int.natCast_nonneg a)

variable [Arithmetic F]

def noiseBlock (q : Motion F) (k a : Nat) (deviation elapsed : Datum F) :
    Fallible F (Mat (Elem F q.type) (k + 1) (k + 1)) :=
  reach_natCast k a ▸ q.noiseOf (k + 1 : Nat) a deviation elapsed

lemma transition_eq (h : q.HasOrder k a) (elapsed : Datum F) :
    q.transition elapsed = do
      return TypedMat.tensor ⟨q.type, ← q.transitionOf (k + 1) elapsed⟩ := by
  rw [transition, h.size]
  exact if_pos (Int.natCast_nonneg (k + 1))

omit [Arithmetic F] in
lemma bind_resized {m n : Nat} (h : m = n) (x : Fallible F (Mat α m m))
    (f : {n : Nat} → Mat α n n → Fallible F β) :
    x >>= f = (h ▸ x : Fallible F (Mat α n n)) >>= f := by
  subst h
  rfl

lemma noise_eq (h : q.HasOrder k a) (deviation elapsed : Datum F) :
    q.noise (.datum deviation) elapsed = do
      return TypedMat.tensor ⟨q.type, ← q.noiseBlock k a deviation elapsed⟩ := by
  rw [noise, h.size, h.expected]
  exact bind_resized (reach_natCast k a) _ fun Q => return TypedMat.tensor ⟨q.type, Q⟩

def variance? (q : Motion F) (deviation : Datum F) : Fallible F (Elem F q.type) := do
  (← (← deviation.toNumber).pow 2).toFactor q.type

def driving (q : Motion F) (a : Nat) (f : Nat → Elem F q.type) (n : Nat) : Vec (Elem F q.type) n :=
  Vector.ofFn fun i => if q.approximate = true ∧ 0 < i.val then 0 else f (i.val + a)

lemma noiseCoefficients_of_coefficients {elapsed : Datum F} {f : Nat → Elem F q.type}
    (hf : Taylor.coefficients q.type elapsed (k + 1 + a) = .ok (Vector.ofFn fun j => f j)) :
    q.noiseCoefficients (k + 1 : Nat) a elapsed =
      .ok (q.driving a f (reach (k + 1 : Nat) a)) := by
  have hp : powers (k + 1 : Nat) a = k + 1 + a := by
    rw [powers]
    omega
  have hk : Taylor.place (powers (k + 1 : Nat) a) (1 + a) = 1 + a := by
    rw [Taylor.place, if_neg (by omega)]
    omega
  have ha : Taylor.place (powers (k + 1 : Nat) a) a = a := by
    rw [Taylor.place, if_neg (by omega)]
    omega
  have hf : Taylor.coefficients q.type elapsed (powers (k + 1 : Nat) a) =
      .ok (Vector.ofFn fun j => f j) := by
    rw [hp]
    exact hf
  rw [noiseCoefficients, hf]
  refine congrArg Except.ok (Vec.ext fun i => ?_)
  rw [Taylor.dropTo, Vec.ofFn_entry, driving]
  refine Eq.trans ?_ (Vec.ofFn_entry _ i).symm
  cases q.approximate with
  | false => simp only [Bool.false_eq_true, if_false, false_and, Vec.ofFn_entry, ha]
  | true =>
    simp only [if_true, Taylor.keep, Vec.ofFn_entry, ha, hk, true_and]
    split
    · rw [if_neg (by omega)]
    · rw [if_pos (by omega)]

lemma noiseBlock_of_coefficients {deviation elapsed : Datum F} {f : Nat → Elem F q.type}
    {v : Elem F q.type} (hv : q.variance? deviation = .ok v)
    (hf : Taylor.coefficients q.type elapsed (k + 1 + a) = .ok (Vector.ofFn fun j => f j)) :
    q.noiseBlock k a deviation elapsed = .ok (Taylor.noise v (q.driving a f (k + 1))) := by
  have hn : q.noiseOf (k + 1 : Nat) a deviation elapsed =
      .ok (Taylor.noise v (q.driving a f (reach (k + 1 : Nat) a))) := by
    rw [noiseOf, noiseCoefficients_of_coefficients hf]
    obtain ⟨s, hs, hv⟩ := Fallible.bind_eq_ok_iff.mp hv
    obtain ⟨w, hw, hv⟩ := Fallible.bind_eq_ok_iff.mp hv
    refine Fallible.bind_eq_ok_iff.mpr ⟨_, rfl, Fallible.bind_eq_ok_iff.mpr ⟨s, hs, ?_⟩⟩
    exact Fallible.bind_eq_ok_iff.mpr ⟨w, hw, Fallible.bind_eq_ok_iff.mpr ⟨v, hv, rfl⟩⟩
  have hr : ∀ {m n : Nat} (e : m = n) {y : Fallible F (Mat (Elem F q.type) m m)},
      y = .ok (Taylor.noise v (q.driving a f m)) →
        (e ▸ y : Fallible F (Mat (Elem F q.type) n n)) =
          .ok (Taylor.noise v (q.driving a f n)) := by
    rintro m n rfl y hy
    exact hy
  exact hr (reach_natCast k a) hn

end Motion

namespace ConstantDerivative

variable (c : ConstantDerivative F)

def spread {n : Nat} [Zero (Elem F c.motion.type)]
    (B : Fin c.dimension → Mat (Elem F c.motion.type) n n) :
    TypedMat F (c.dimension * n) (c.dimension * n) :=
  ⟨c.motion.type, c.layout.spread B⟩

variable [Arithmetic F] {c}

lemma assemble_eq (hd : 0 < c.dimension) (k : Nat)
    (blocks : Fallible F (Fin c.dimension → Mat (Elem F c.motion.type) (k + 1) (k + 1))) :
    c.assemble (k + 1 : Nat) blocks = do return (c.spread (← blocks)).tensor := by
  rw [assemble, if_neg (Nat.ne_of_gt hd)]
  cases blocks with
  | error f => rfl
  | ok B =>
    have h : ((k + 1 : Nat) : Int).toNat ∣ c.dimension * (k + 1) ∧ 0 < ((k + 1 : Nat) : Int) ∧
        0 < k + 1 :=
      ⟨Nat.dvd_mul_left _ _, Int.natCast_pos.mpr k.succ_pos, k.succ_pos⟩
    show _ = (.ok (TypedMat.tensor ⟨c.motion.type, c.layout.spread B⟩) : Fallible F (Tensor F))
    rw [← Mat.arrange_blockDiagonal c.layout B]
    cases c.layout with
    | byDimension => rfl
    | byDerivative => exact dif_pos h

lemma transition_eq (h : c.motion.HasOrder k a) (hd : 0 < c.dimension) (elapsed : Datum F) :
    c.transition elapsed = do
      let A ← c.motion.transitionOf (k + 1) elapsed
      return (c.spread fun _ => A).tensor := by
  rw [transition, h.size]
  refine (assemble_eq hd k _).trans ?_
  rw [if_pos (Int.natCast_nonneg (k + 1)), bind_assoc]
  rfl

lemma assemble_resized {m n : Nat} (h : m = n) (size : Int)
    (f : Fin c.dimension → Fallible F (Mat (Elem F c.motion.type) m m)) :
    (c.assemble size do return (← sequence f).get) = c.assemble size do
      return (← sequence fun d => (h ▸ f d : Fallible F (Mat (Elem F c.motion.type) n n))).get := by
  subst h
  rfl

lemma noise_eq (h : c.motion.HasOrder k a) (hd : 0 < c.dimension) (elapsed : Datum F) :
    c.noise elapsed = do
      let Q ← sequence fun d => c.motion.noiseBlock k a (c.deviations d).toDatum elapsed
      return (c.spread Q.get).tensor := by
  rw [noise, h.size, h.expected]
  refine (assemble_resized (Motion.reach_natCast k a) _ _).trans ((assemble_eq hd k _).trans ?_)
  rw [bind_assoc]
  rfl

lemma noise_of_blocks (h : c.motion.HasOrder k a) (hd : 0 < c.dimension) {elapsed : Datum F}
    {Q : Fin c.dimension → Mat (Elem F c.motion.type) (k + 1) (k + 1)}
    (hQ : ∀ d, c.motion.noiseBlock k a (c.deviations d).toDatum elapsed = .ok (Q d)) :
    c.noise elapsed = .ok (c.spread Q).tensor := by
  rw [noise_eq h hd, sequence_of_ok hQ]
  show Except.ok _ = _
  rw [Vec.get_ofFn]

lemma projectionTensor_eq (h : c.motion.HasOrder k a) (hd : 0 < c.dimension) :
    c.projectionTensor = .ok (TypedMat.tensor
      ⟨c.motion.type, c.layout.values (Elem F c.motion.type) c.dimension (k + 1)⟩) := by
  have hs : (0 ≤ ((k + 1 : Nat) : Int) ∨ c.dimension = 0) ∧
      ¬(c.layout = .byDimension ∧ c.dimension = 0) :=
    ⟨.inl (Int.natCast_nonneg _), fun h => Nat.ne_of_gt hd h.2⟩
  rw [projectionTensor, projection, h.size]
  simp only [if_pos hs]
  rw [← Mat.valueProjection_eq]
  rfl

omit c in
lemma spread?_tensor {e : ElementType} {n : Nat} (x : Vec (Elem F e) n) :
    (TypedVec.tensor ⟨e, x⟩).spread? e n = .ok x.get := by
  have h : (TypedVec.tensor ⟨e, x⟩).spread? e n =
      if n = n then .ok fun i => Elem.cast e ((TypedVec.tensor ⟨e, x⟩).get [i.val])
      else if n = 1 then .ok fun _ => Elem.cast e ((TypedVec.tensor ⟨e, x⟩).get [0])
      else refuse :=
    rfl
  rw [h, if_pos rfl]
  refine congrArg Except.ok (funext fun i => ?_)
  rw [TypedVec.get_tensor]
  exact Elem.cast_self _

section

variable (c) {p : Precision} {n : Nat}

def moved (p : Precision) (time : F .double) (x : Vec (F p) (c.dimension * n))
    (A : Mat (Elem F c.motion.type) n n) (Q : Fin c.dimension → Mat (Elem F c.motion.type) n n) :
    Evolution F :=
  let M : Mat (F p) (c.dimension * n) (c.dimension * n) :=
    (c.spread fun _ => A).toType (.real p)
  ⟨time, c.dimension * n, ⟨.real p, M * x⟩, ⟨.real p, M⟩,
    ⟨.real p, (c.spread Q).toType (.real p)⟩⟩

def sensed (time : F .double) (value : TypedVec F c.dimension) (n : Nat)
    (deviations : Fin c.dimension → Elem F c.motion.type) : Measurement F :=
  ⟨time, c.dimension, c.dimension * n, value,
    ⟨c.motion.type, c.layout.values (Elem F c.motion.type) c.dimension n⟩,
    ⟨c.motion.type, .diagonal (Vector.ofFn fun d => deviations d * deviations d)⟩⟩

variable {c}

lemma process_eq (h : c.motion.HasOrder k a) (hd : 0 < c.dimension) (i : Nat)
    (t t' : F .double) (x : Vec (F p) (c.dimension * (k + 1))) :
    c.process i t (TypedVec.tensor ⟨.real p, x⟩) t' = do
      let A ← c.motion.transitionOf (k + 1) (.real (t' - t))
      let Q ← sequence fun d => c.motion.noiseBlock k a (c.deviations d).toDatum (.real (t' - t))
      return .evolution (c.moved p t' x A Q.get) := by
  have he : c.evolution (.real t) (TypedVec.tensor ⟨.real p, x⟩) (.real t') =
      (c.transition (.real (t' - t)) >>= fun A => c.noise (.real (t' - t)) >>= fun Q =>
        (A.toType (.real p)).product? (TypedVec.tensor ⟨.real p, x⟩) >>= fun y =>
          Evolution.of t' y (A.toType (.real p)) (Q.toType (.real p))) :=
    rfl
  rw [process, he, transition_eq h hd, noise_eq h hd]
  simp only [bind_assoc, pure_bind, TypedMat.toType_tensor]
  refine bind_congr fun A => bind_congr fun Q => ?_
  rw [Tensor.product?_tensor]
  show Evolution.of t' (TypedVec.tensor ⟨.real p, _⟩) _ _ >>= _ = _
  rw [Evolution.of_tensor]
  rfl

lemma process_of_blocks (h : c.motion.HasOrder k a) (hd : 0 < c.dimension) {t t' : F .double}
    {A : Mat (Elem F c.motion.type) (k + 1) (k + 1)}
    {Q : Fin c.dimension → Mat (Elem F c.motion.type) (k + 1) (k + 1)}
    (hA : c.motion.transitionOf (k + 1) (.real (t' - t)) = .ok A)
    (hQ : ∀ d, c.motion.noiseBlock k a (c.deviations d).toDatum (.real (t' - t)) = .ok (Q d))
    (i : Nat) (x : Vec (F p) (c.dimension * (k + 1))) :
    c.process i t (TypedVec.tensor ⟨.real p, x⟩) t' = .ok (.evolution (c.moved p t' x A Q)) := by
  rw [process_eq h hd, hA, sequence_of_ok hQ]
  show Except.ok _ = _
  rw [Vec.get_ofFn]

lemma measure_eq (h : c.motion.HasOrder k a) (hd : 0 < c.dimension) (time : Fallible F (F .double))
    (value deviation : Argument F) :
    c.measure time value deviation = (do
      let s ← (← deviation.toTensorOf c.motion.type).spread? c.motion.type c.dimension
      let z ← value.toTensorOf c.motion.type
      Measurement.of (← time) z
        (TypedMat.tensor
          ⟨c.motion.type, c.layout.values (Elem F c.motion.type) c.dimension (k + 1)⟩)
        (TypedMat.tensor ⟨c.motion.type, .diagonal (Vector.ofFn fun d => s d * s d)⟩)) := by
  rw [measure, projectionTensor_eq h hd]
  rfl

end

end ConstantDerivative

end KalmanFilter
