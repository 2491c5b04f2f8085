import Mathlib.Analysis.SpecialFunctions.Trigonometric.Basic
import KalmanFilter.Model.Pendulum
import KalmanFilter.Proofs.ExactNumber
import KalmanFilter.Proofs.RealMatrix
import KalmanFilter.Proofs.TensorForm

namespace KalmanFilter

open Matrix

lemma Vec.pair_eq {α : Type} (a b : α) : (#v[a, b] : Vec α 2) = .ofFn ![a, b] := by
  refine Vec.ext fun i => ?_
  rw [Vec.ofFn_entry]
  fin_cases i <;> rfl

namespace Pendulum

section

variable {F : Precision → Type} [Arithmetic F]

def integrate (P : Pendulum F) (h : F .double) (n : ℕ) (state : Tensor F) :
    Fallible F (TypedVec F 2 × TypedMat F 2 2) := do
  let a ← start state
  let s ← P.swings h n a.1 a.2
  let x ← (Number.real s.angle).store state.type
  let v ← (Number.real s.velocity).store state.type
  return (⟨state.type, .ofFn ![x, v]⟩, ⟨state.type, s.jacobian⟩)

lemma propagate_eq_integrate {P : Pendulum F} {elapsed : Datum F} {r : Number F} {n : ℕ}
    {h : F .double} (hr : elapsed.toNumber = .ok r) (hn : P.stepCount r = .ok n)
    (hh : r.div (.int n) = .ok h) (state : Tensor F) :
    P.propagate state elapsed = P.integrate h n state := by
  simp only [propagate, integrate, hr, Vec.pair_eq]
  refine bind_congr fun s => ?_
  show (P.stepCount r >>= _) = _
  rw [hn]
  show (r.div (.int n) >>= _) = _
  rw [hh]
  rfl

end

def angle (v : Fin 2 → ℝ) : ℝ :=
  vecHead v

def velocity (v : Fin 2 → ℝ) : ℝ :=
  vecHead (vecTail v)

noncomputable def leap (r h : ℝ) (v : Fin 2 → ℝ) : Fin 2 → ℝ :=
  ![angle v + h * (velocity v - h * r * Real.sin (angle v)),
    velocity v - h * r * Real.sin (angle v)]

noncomputable def track (r h : ℝ) (n : ℕ) (v : Fin 2 → ℝ) : Fin 2 → ℝ :=
  (leap r h)^[n] v

noncomputable def cosines (r h : ℝ) : ℕ → (Fin 2 → ℝ) → List ℝ
  | 0, _ => []
  | n + 1, v => Real.cos (angle v) :: cosines r h n (leap r h v)

def shear (r h c : ℝ) : Matrix (Fin 2) (Fin 2) ℝ :=
  !![1 - h ^ 2 * r * c, h; -h * r * c, 1]

def shears (r h : ℝ) : List ℝ → Matrix (Fin 2) (Fin 2) ℝ
  | [] => 1
  | c :: cs => shears r h cs * shear r h c

lemma cosines_add (r h : ℝ) (m n : ℕ) (v : Fin 2 → ℝ) :
    cosines r h (m + n) v = cosines r h m v ++ cosines r h n (track r h m v) := by
  induction m generalizing v with
  | zero => rw [Nat.zero_add]; rfl
  | succ m ih =>
    rw [Nat.succ_add]
    exact congrArg (Real.cos (angle v) :: ·) (ih (leap r h v))

lemma track_add (r h : ℝ) (m n : ℕ) (v : Fin 2 → ℝ) :
    track r h (m + n) v = track r h n (track r h m v) := by
  rw [track, Nat.add_comm, Function.iterate_add_apply]
  rfl

lemma shears_append (r h : ℝ) (cs ds : List ℝ) :
    shears r h (cs ++ ds) = shears r h ds * shears r h cs := by
  induction cs with
  | nil => exact (Matrix.mul_one _).symm
  | cons c cs ih => rw [List.cons_append, shears, shears, ih, Matrix.mul_assoc]

end Pendulum

variable {p : Precision}

lemma Mat.storeSquare_exact (p : Precision) (a b c d : Number Exact) :
    Mat.storeSquare (.real p) a b c d =
      (.ok (Mat.square a.value b.value c.value d.value) : Fallible Exact (Mat ℝ 2 2)) := by
  simp only [storeSquare, Number.store_exact]
  rfl

def Swing.point (s : Swing Exact (.real p)) : Fin 2 → ℝ :=
  ![s.angle, s.velocity]

def Swing.ofVec (x : Vec (Exact p) 2) : Swing Exact (.real p) :=
  ⟨Pendulum.angle x.get, Pendulum.velocity x.get, Mat.identity⟩

lemma Swing.point_ofVec (x : Vec (Exact p) 2) : (ofVec x).point = x.get := by
  ext i
  fin_cases i <;> rfl

def Swing.tangent (s : Swing Exact (.real p)) : Matrix (Fin 2) (Fin 2) ℝ :=
  Mat.toMatrix s.jacobian

namespace Pendulum

variable (P : Pendulum Exact) (h : ℝ)

lemma start_exact (x : Vec (Exact p) 2) :
    start (TypedVec.tensor ⟨.real p, x⟩) = .ok ((Swing.ofVec x).angle, Swing.ofVec x) := by
  have hx (i : Fin 2) (q : Precision) :
      Elem.cast (F := Exact) (.real q) ((TypedVec.tensor ⟨.real p, x⟩).get [i.val]) = x.get i :=
    (congrArg (Elem.cast (.real q)) (TypedVec.get_tensor ⟨.real p, x⟩ i)).trans
      (Exact.convert_eq _)
  have hs : 2 ≤ 2 ∧ Shape.size [] = 1 := ⟨le_rfl, rfl⟩
  refine Eq.trans (if_pos (e := refuse) hs) ?_
  have ht := congrArg₂ (fun a v : ℝ => (⟨a, v, Mat.identity⟩ : Swing Exact (.real p)))
    (hx 0 .double) (hx 1 .double)
  exact congrArg Except.ok (Prod.ext (hx 0 .single) ht)

lemma exists_swing (s : Swing Exact (.real p)) :
    ∃ t : Swing Exact (.real p), P.swing h s.angle s = .ok t ∧ t.point = leap P.ratio h s.point ∧
      t.tangent = shear P.ratio h (Real.cos s.angle) * s.tangent := by
  have hJ := Mat.storeSquare_exact p (.real (1 - h ^ 2 * P.ratio * Real.cos s.angle)) (.real h)
    (.real (-h * P.ratio * Real.cos s.angle)) (.real 1)
  refine ⟨_, Fallible.bind_eq_ok_iff.mpr ⟨_, Number.realPow_exact h 2,
    Fallible.bind_eq_ok_iff.mpr ⟨_, hJ, rfl⟩⟩, rfl, ?_⟩
  rw [Swing.tangent, Mat.toMatrix_mul]
  exact congrArg (· * _) (Mat.toMatrix_square _ _ _ _)

lemma exists_swings (n : ℕ) (s : Swing Exact (.real p)) :
    ∃ t : Swing Exact (.real p), P.swings h n s.angle s = .ok t ∧
      t.point = track P.ratio h n s.point ∧
      t.tangent = shears P.ratio h (cosines P.ratio h n s.point) * s.tangent := by
  induction n generalizing s with
  | zero => exact ⟨s, rfl, rfl, (Matrix.one_mul _).symm⟩
  | succ n ih =>
    obtain ⟨s', hs, hp, ht⟩ := P.exists_swing h s
    obtain ⟨t, ho, hp', ht'⟩ := ih s'
    rw [hp] at hp' ht'
    refine ⟨t, Fallible.bind_eq_ok_iff.mpr ⟨s', hs, ho⟩, hp', ?_⟩
    rw [ht', ht, ← Matrix.mul_assoc]
    rfl

lemma exists_integrate (n : ℕ) (x : Vec (Exact p) 2) :
    ∃ (y : Vec (Exact p) 2) (A : Mat (Exact p) 2 2),
      P.integrate h n (TypedVec.tensor ⟨.real p, x⟩) = .ok (⟨.real p, y⟩, ⟨.real p, A⟩) ∧
        y.get = track P.ratio h n x.get ∧
        Mat.toMatrix A = shears P.ratio h (cosines P.ratio h n x.get) := by
  obtain ⟨t, ht, hp, hA⟩ := P.exists_swings h n (Swing.ofVec x)
  have hi : (Swing.ofVec x).tangent = 1 := Mat.toMatrix_identity
  rw [hi, Matrix.mul_one, Swing.point_ofVec] at hA
  rw [Swing.point_ofVec] at hp
  refine ⟨.ofFn t.point, t.jacobian, ?_, ?_, hA⟩
  · refine Fallible.bind_eq_ok_iff.mpr ⟨_, start_exact x, Fallible.bind_eq_ok_iff.mpr ⟨t, ht, ?_⟩⟩
    exact Fallible.bind_eq_ok_iff.mpr ⟨_, Number.store_exact p (.real t.angle),
      Fallible.bind_eq_ok_iff.mpr ⟨_, Number.store_exact p (.real t.velocity), rfl⟩⟩
  · rw [← hp]
    ext i
    exact Vec.ofFn_entry _ i

section

variable {P} {length deviation step elapsed : Datum Exact} {l s dt : ℝ}

lemma of_exact (hl : length.StandsFor l) (h0 : l ≠ 0) (deviation step : Datum Exact) :
    Pendulum.of length deviation step = .ok ⟨(9.81 : ℝ) / l, deviation, step⟩ := by
  obtain ⟨r, hr, rfl⟩ := hl.exists_toNumber
  exact Fallible.bind_eq_ok_iff.mpr ⟨r, hr,
    Fallible.bind_eq_ok_iff.mpr ⟨_, Number.div_exact (.real (9.81 : ℝ)) h0, rfl⟩⟩

lemma exists_stepCount (hs : P.step.StandsFor s) (h0 : s ≠ 0) (r : Number Exact) :
    ∃ i, IsNearest (r.value / s) i ∧ P.stepCount r = .ok (max 1 i).toNat := by
  obtain ⟨q, hq, rfl⟩ := hs.exists_toNumber
  obtain ⟨i, hi, hx⟩ := Number.exists_round (r.value / q.value)
  exact ⟨i, hx, Fallible.bind_eq_ok_iff.mpr ⟨q, hq, Fallible.bind_eq_ok_iff.mpr
    ⟨_, Number.div_exact r h0, Fallible.bind_eq_ok_iff.mpr ⟨i, hi, rfl⟩⟩⟩⟩

lemma exists_steps (hs : P.step.StandsFor s) (h0 : s ≠ 0) (he : elapsed.StandsFor dt) :
    ∃ (i : ℤ) (n : ℕ), IsNearest (dt / s) i ∧ (n : ℤ) = max 1 i ∧
      ∀ state, P.propagate state elapsed = P.integrate (dt / n : ℝ) n state := by
  obtain ⟨r, hr, rfl⟩ := he.exists_toNumber
  obtain ⟨i, hi, hn⟩ := exists_stepCount hs h0 r
  have hp : 0 < (max 1 i).toNat := by omega
  refine ⟨i, _, hi, Int.toNat_of_nonneg (le_max_of_le_left zero_le_one), fun state => ?_⟩
  exact propagate_eq_integrate hr hn (r.div_natCast hp.ne') state

end

end Pendulum

end KalmanFilter
