import KalmanFilter.Proofs.Blocks
import KalmanFilter.Proofs.Separation

namespace KalmanFilter

variable {α : Type} {p : Precision} {m m' n : ℕ}

def Layout.embed (l l' : Layout) (ρ : Fin m' → Fin m) (r : Fin (m' * n)) : Fin (m * n) :=
  l'.position (ρ (l.dimensionOf r)) (l.derivativeOf r)

namespace Layout

variable {l l' : Layout} {ρ : Fin m' → Fin m}

@[simp] lemma embed_position (l l' : Layout) (ρ : Fin m' → Fin m) (d : Fin m') (i : Fin n) :
    l.embed l' ρ (l.position d i) = l'.position (ρ d) i := by
  simp [embed]

lemma embed_injective (hρ : Function.Injective ρ) :
    Function.Injective (l.embed l' ρ : Fin (m' * n) → _) := by
  intro r s h
  have hd := congrArg l'.dimensionOf h
  have hi := congrArg l'.derivativeOf h
  simp only [embed, dimensionOf_position, derivativeOf_position] at hd hi
  rw [← l.position_dimensionOf_derivativeOf r, ← l.position_dimensionOf_derivativeOf s, hρ hd, hi]

@[simp] lemma dimensionOf_embed (r : Fin (m' * n)) :
    l'.dimensionOf (l.embed l' ρ r) = ρ (l.dimensionOf r) :=
  dimensionOf_position ..

lemma mem_range_embed {r : Fin (m * n)} {d : Fin m'} (h : ρ d = l'.dimensionOf r) :
    r ∈ Set.range (l.embed l' ρ : Fin (m' * n) → _) := by
  refine ⟨l.position d (l'.derivativeOf r), ?_⟩
  rw [embed_position, h, position_dimensionOf_derivativeOf]

lemma separates_spread (l : Layout) (B : Fin m → Mat ℝ n n) :
    Separates l.dimensionOf l.dimensionOf (l.spread B).toMatrix := by
  intro r s h
  rw [Mat.toMatrix_apply, spread, Mat.ofFn_entry, if_neg h]

lemma separates_values (l : Layout) : Separates id l.dimensionOf (l.values ℝ m n).toMatrix := by
  intro d r h
  rw [Mat.toMatrix_apply, values, Mat.ofFn_entry, if_neg fun hd => h hd.1]

lemma spread_select [Zero α] (hρ : Function.Injective ρ) (B : Fin m → Mat α n n) :
    (l'.spread B).select (l.embed l' ρ) (l.embed l' ρ) = l.spread fun d => B (ρ d) := by
  refine Mat.ext_position l fun d i e j => ?_
  rw [Mat.select_entry, embed_position, embed_position, spread_position, spread_position]
  simp only [hρ.eq_iff]

lemma supported_spread (B : Fin m → Mat ℝ n n) :
    Supported (l.embed l' ρ) (l.embed l' ρ : Fin (m' * n) → _) (l'.spread B).toMatrix :=
  (l'.separates_spread B).supported fun r _ h =>
    mem_range_embed ((dimensionOf_embed r).symm.trans h)

lemma values_select [Zero α] [One α] (hρ : Function.Injective ρ) :
    (l'.values α m n).select ρ (l.embed l' ρ) = l.values α m' n := by
  ext d r
  rw [← l.position_dimensionOf_derivativeOf r, Mat.select_entry, embed_position, values_position,
    values_position]
  simp only [hρ.eq_iff]

lemma supported_values :
    Supported ρ (l.embed l' ρ : Fin (m' * n) → _) (l'.values ℝ m n).toMatrix :=
  l'.separates_values.supported fun _ _ h => mem_range_embed h

end Layout

lemma Mat.diagonal_select [Zero α] {ρ : Fin m' → Fin m} (hρ : Function.Injective ρ) (x : Vec α m) :
    (Mat.diagonal x).select ρ ρ = .diagonal (x.select ρ) := by
  ext d e
  simp [diagonal, hρ.eq_iff]

lemma Mat.separates_diagonal (x : Vec ℝ m) : Separates id id (Mat.diagonal x).toMatrix := by
  intro d e h
  rw [toMatrix_apply, diagonal, ofFn_entry]
  exact if_neg h

namespace Layout

noncomputable def transition (l : Layout) (A : Mat ℝ n n) (Q : Fin m → Mat ℝ n n)
    (x : Vec ℝ (m * n)) : Transition ℝ (m * n) :=
  ⟨(l.spread fun _ : Fin m => A) * x, l.spread fun _ => A, l.spread Q⟩

def observation (l : Layout) (n : ℕ) (value variance : Vec ℝ m) : Observation ℝ m (m * n) :=
  ⟨value, l.values ℝ m n, .diagonal variance⟩

lemma separates_observation (l : Layout) (n : ℕ) (value variance : Vec ℝ m) :
    Separates id l.dimensionOf (l.observation n value variance).matrix.toMatrix :=
  l.separates_values

lemma separates_observation_noise (l : Layout) (n : ℕ) (value variance : Vec ℝ m) :
    Separates id id (l.observation n value variance).noise.toMatrix :=
  Mat.separates_diagonal variance

lemma supported_observation (l l' : Layout) (n : ℕ) (ρ : Fin m' → Fin m)
    (value variance : Vec ℝ m) :
    Supported ρ (l.embed l' ρ : Fin (m' * n) → _)
      (l'.observation n value variance).matrix.toMatrix :=
  supported_values

variable {l l' : Layout} {ρ : Fin m' → Fin m} (hρ : Function.Injective ρ)
include hρ

lemma transition_select (A : Mat ℝ n n) (Q : Fin m → Mat ℝ n n) (x : Vec ℝ (m * n)) :
    (l'.transition A Q x).select (l.embed l' ρ) =
      l.transition A (fun d => Q (ρ d)) (x.select (l.embed l' ρ)) := by
  have hx : ((l'.spread fun _ : Fin m => A) * x).select (l.embed l' ρ) =
      (l.spread fun _ : Fin m' => A) * x.select (l.embed l' ρ) := by
    apply Vec.get_injective
    rw [Vec.get_select, Mat.get_mulVec, Mat.get_mulVec,
      (supported_spread _).mulVec_comp (embed_injective hρ), ← Mat.toMatrix_select,
      spread_select hρ, Vec.get_select]
  rw [Transition.select, transition, transition, hx, spread_select hρ, spread_select hρ]

lemma observation_select (value variance : Vec ℝ m) :
    (l'.observation n value variance).select ρ (l.embed l' ρ) =
      l.observation n (value.select ρ) (variance.select ρ) := by
  rw [Observation.select, observation, observation, values_select hρ, Mat.diagonal_select hρ]

lemma predict_select (b : Belief ℝ (m * n)) (A : Mat ℝ n n) (Q : Fin m → Mat ℝ n n) :
    (b.predict (l'.transition A Q b.state)).select (l.embed l' ρ) =
      (b.select (l.embed l' ρ)).predict
        (l.transition A (fun d => Q (ρ d)) (b.select (l.embed l' ρ)).state) := by
  have hA : Supported (l.embed l' ρ) (l.embed l' ρ : Fin (m' * n) → _)
      (l'.transition A Q b.state).matrix.toMatrix :=
    supported_spread fun _ => A
  rw [Belief.predict_select (embed_injective hρ) hA, transition_select hρ]
  rfl

end Layout

structure Belief.Agrees (l l' : Layout) (ρ : Fin m' → Fin m) (b : Belief α (m' * n))
    (b' : Belief α (m * n)) : Prop where
  state : ∀ d i, b.state (l.position d i) = b'.state (l'.position (ρ d) i)
  covariance : ∀ d i e j, b.covariance (l.position d i) (l.position e j) =
    b'.covariance (l'.position (ρ d) i) (l'.position (ρ e) j)

lemma Belief.agrees_iff {l l' : Layout} {ρ : Fin m' → Fin m} {b : Belief α (m' * n)}
    {b' : Belief α (m * n)} : b.Agrees l l' ρ b' ↔ b = b'.select (l.embed l' ρ) := by
  constructor
  · rintro ⟨hx, hP⟩
    have hx' : b.state = b'.state.select (l.embed l' ρ) := by
      refine Vec.ext fun r => ?_
      rw [← l.position_dimensionOf_derivativeOf r, hx, Vec.select_entry, Layout.embed_position]
    have hP' : b.covariance = b'.covariance.select (l.embed l' ρ) (l.embed l' ρ) := by
      refine Mat.ext_position l fun d i e j => ?_
      rw [hP, Mat.select_entry, Layout.embed_position, Layout.embed_position]
    exact congrArg₂ Belief.mk hx' hP'
  · rintro rfl
    refine ⟨fun d i => ?_, fun d i e j => ?_⟩
    · rw [select, Vec.select_entry, Layout.embed_position]
    · rw [select, Mat.select_entry, Layout.embed_position, Layout.embed_position]

def Estimate.Agrees (p : Precision) (n : ℕ) (l l' : Layout) (ρ : Fin m' → Fin m)
    (x x' : Estimate Exact) : Prop :=
  ∃ (t : ℝ) (b : Belief (Exact p) (m' * n)) (b' : Belief (Exact p) (m * n)),
    x = .ofBelief t b ∧ x' = .ofBelief t b' ∧ b.Agrees l l' ρ b'

structure Cursor.Agrees (p : Precision) (n : ℕ) (l l' : Layout) (ρ : Fin m' → Fin m)
    (x x' : Cursor Exact) : Prop where
  predicted : Option.Rel (Estimate.Agrees p n l l' ρ) x.predicted x'.predicted
  corrected : Estimate.Agrees p n l l' ρ x.corrected x'.corrected

namespace Exact

variable {e : ElementType}

lemma cast_zero : (Elem.cast (.real p) (0 : Elem Exact e) : ℝ) = 0 := by
  cases e with
  | real q => exact convert_eq (0 : ℝ)
  | int64 => exact Int.cast_zero

lemma cast_one : (Elem.cast (.real p) (1 : Elem Exact e) : ℝ) = 1 := by
  cases e with
  | real q => exact convert_eq (1 : ℝ)
  | int64 => exact Int.cast_one

end Exact

namespace ConstantDerivative

variable (c : ConstantDerivative Exact)

lemma toType_spread (B : Fin c.dimension → Mat (Elem Exact c.motion.type) n n) :
    (c.spread B).toType (.real p) =
      c.layout.spread fun d => ((B d).map (Elem.cast (.real p)) : Mat ℝ n n) := by
  refine Mat.ext_position c.layout fun d i e j => ?_
  rw [TypedMat.toType, Mat.map_entry, spread, Layout.spread_position, Layout.spread_position]
  split
  · rw [Mat.map_entry]
  · exact Exact.cast_zero

lemma toType_values (e : ElementType) (l : Layout) :
    TypedMat.toType (.real p) ⟨e, l.values (Elem Exact e) m n⟩ = l.values ℝ m n := by
  ext d r
  rw [TypedMat.toType, Mat.map_entry, Layout.values, Layout.values, Mat.ofFn_entry, Mat.ofFn_entry]
  split
  · exact Exact.cast_one
  · exact Exact.cast_zero

lemma toType_diagonal (e : ElementType) (x : Vec (Elem Exact e) m) :
    TypedMat.toType (.real p) ⟨e, .diagonal x⟩ =
      (.diagonal (x.map (Elem.cast (.real p))) : Mat ℝ m m) := by
  ext d r
  rw [TypedMat.toType, Mat.map_entry, Mat.diagonal, Mat.diagonal, Mat.ofFn_entry, Mat.ofFn_entry]
  split
  · rw [Vec.map_entry]
  · exact Exact.cast_zero

noncomputable def blockIn (p : Precision) {e : ElementType} (A : Mat (Elem Exact e) n n) :
    Mat ℝ n n :=
  A.map (Elem.cast (.real p))

lemma linearized_moved (time : ℝ) (x : Vec (Exact p) (c.dimension * n))
    (A : Mat (Elem Exact c.motion.type) n n)
    (Q : Fin c.dimension → Mat (Elem Exact c.motion.type) n n)
    (h : (c.moved p time x A Q).dimension = c.dimension * n) :
    (c.moved p time x A Q).linearized p h =
      c.layout.transition (blockIn p A) (fun d => blockIn p (Q d)) x := by
  show Transition.mk _ _ _ = _
  simp only [moved, TypedVec.toType_self, TypedMat.toType_self, toType_spread]
  rfl

lemma observation_sensed (time : ℝ) (value : TypedVec Exact c.dimension)
    (s : Fin c.dimension → Elem Exact c.motion.type)
    (h : (c.sensed time value n s).stateDimension = c.dimension * n) :
    (c.sensed time value n s).observation p h =
      c.layout.observation n (value.toType (.real p))
        ((Vector.ofFn fun d => s d * s d).map (Elem.cast (.real p))) := by
  show Observation.mk _ _ _ = _
  simp only [sensed, toType_values, toType_diagonal]
  rfl

end ConstantDerivative

end KalmanFilter
