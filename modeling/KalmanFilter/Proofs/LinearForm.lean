import KalmanFilter.Motion.ConstantDerivative
import KalmanFilter.Proofs.Lockstep
import KalmanFilter.Proofs.TensorForm

/-! A process that gives its matrices may leave the noise in its own type. The
filter converts it once it needs it, so a conversion before that makes no
difference. -/

namespace KalmanFilter

variable {F : Precision → Type} [Arithmetic F] {p : Precision} {e : ElementType} {m n : Nat}

lemma Tensor.mat_toType (Q : Tensor F) (h : Q.shape = [m, n]) :
    (Q.toType e).mat h = ⟨e, (Q.mat h).toType e⟩ := by
  have hs : Q.shape.size = m * n := by simp [h]
  have hc : ∀ {k : Nat} (hk : Q.shape.size = k),
      (Q.entries.map (Elem.cast e)).cast hk = (Q.entries.cast hk).map (Elem.cast e) := by
    rintro k rfl
    rfl
  have hm : Mat.ofFlat ((Q.entries.cast hs).map (Elem.cast e)) =
      (Mat.ofFlat (Q.entries.cast hs)).map (Elem.cast e) := by
    ext i j
    rw [Mat.ofFlat_entry, Vec.map_entry, Mat.map_entry, Mat.ofFlat_entry]
  exact congrArg (TypedMat.mk e) ((congrArg Mat.ofFlat (hc hs)).trans hm)

def Evolution.noiseIn (e : ElementType) (x : Evolution F) : Evolution F :=
  { x with noise := ⟨e, x.noise.toType e⟩ }

lemma Evolution.of_toType (t : F .double) (x A Q : Tensor F) :
    of t x A (Q.toType e) = noiseIn e <$> of t x A Q := by
  unfold of
  split
  · rename_i n hs
    by_cases ha : A.shape = [n, n]
    · by_cases hq : Q.shape = [n, n]
      · have hq' : (Q.toType e).shape = [n, n] := hq
        rw [dif_pos ha, dif_pos ha, dif_pos hq, dif_pos hq', Q.mat_toType hq]
        rfl
      · have hq' : ¬ (Q.toType e).shape = [n, n] := hq
        rw [dif_pos ha, dif_pos ha, dif_neg hq, dif_neg hq']
        rfl
    · rw [dif_neg ha, dif_neg ha]
      rfl
  · rfl

lemma Evolution.linearized_noiseIn (x : Evolution F) (h : x.dimension = n) :
    (x.noiseIn (.real p)).linearized p h = x.linearized p h := by
  subst h
  simp only [linearized, noiseIn, TypedMat.toType_self]

def Reply.noiseIn (e : ElementType) : Reply F → Reply F
  | .evolution x => .evolution (x.noiseIn e)
  | .foreign kind => .foreign kind

def Process.withNoise (q : Process F) : Process F :=
  fun k previous state time => Reply.noiseIn state.type <$> q k previous state time

lemma Estimator.step_withNoise (e : Estimator F) (k : Nat) (c : Cursor F) (z : Measurement F) :
    step { e with process := e.process.withNoise } k c z = e.step k c z := by
  by_cases ht : z.time < c.corrected.time
  case pos => exact (step_of_outdated ht).trans (step_of_outdated ht).symm
  by_cases hz : z.stateDimension = c.corrected.dimension
  case neg => exact (step_of_misobserved ht hz).trans (step_of_misobserved ht hz).symm
  have hr : e.process.withNoise k c.corrected.time c.corrected.state.tensor z.time =
      Reply.noiseIn c.corrected.state.type <$>
        e.process k c.corrected.time c.corrected.state.tensor z.time := rfl
  cases hq : e.process k c.corrected.time c.corrected.state.tensor z.time with
  | error f =>
    rw [hq] at hr
    exact (step_of_evolve_error ht hz (evolve_of_error hr)).trans
      (step_of_evolve_error ht hz (evolve_of_error hq)).symm
  | ok reply =>
    rw [hq] at hr
    cases reply with
    | foreign kind =>
      exact (step_of_evolve_error ht hz (evolve_of_foreign hr)).trans
        (step_of_evolve_error ht hz (evolve_of_foreign hq)).symm
    | evolution x =>
      have hr : e.process.withNoise k c.corrected.time c.corrected.state.tensor z.time =
        .ok (.evolution (x.noiseIn c.corrected.state.type)) := hr
      by_cases hx : x.dimension = c.corrected.dimension
      case neg =>
        rw [step_of_misevolved ht hz hq hx]
        exact step_of_misevolved (x := x.noiseIn _) ht hz hr hx
      cases hb : c.corrected.belief? with
      | none =>
        rw [step_of_untyped ht hz hq hx hb]
        exact step_of_untyped (x := x.noiseIn _) ht hz hr hx hb
      | some b =>
        obtain ⟨p, b⟩ := b
        rw [(Estimate.types_of_belief? hb).1] at hr
        rw [step_of_update ht hz hq hx hb]
        refine (step_of_update (x := x.noiseIn _) ht hz hr hx hb).trans ?_
        simp only [update, x.linearized_noiseIn hx]
        rfl

lemma LinearEvolution.predict_undriven (A Q x : Tensor F) (t : F .double) :
    predict ⟨A, Q, none⟩ (.ok t) x = (A.toType x.type).product? x >>= fun y =>
      Evolution.of t y (A.toType x.type) Q :=
  rfl

namespace ConstantDerivative

variable (c : ConstantDerivative F)

lemma process_eq_withNoise : c.process = c.linearProcess.linearize.withNoise := by
  funext k t x t'
  have h : c.process k t x t' = c.transition (.real (t' - t)) >>= fun A =>
      c.noise (.real (t' - t)) >>= fun Q => (A.toType x.type).product? x >>= fun y =>
        Evolution.of t' y (A.toType x.type) (Q.toType x.type) >>= fun w =>
          pure (Reply.evolution w) := by
    simp only [← bind_assoc]
    rfl
  have h' : c.linearProcess.linearize k t x t' = c.transition (.real (t' - t)) >>= fun A =>
      c.noise (.real (t' - t)) >>= fun Q => (A.toType x.type).product? x >>= fun y =>
        Evolution.of t' y (A.toType x.type) Q >>= fun w => pure (Reply.evolution w) := by
    simp only [LinearProcess.linearize, linearProcess, bind_assoc, pure_bind,
      LinearEvolution.predict_undriven]
  rw [h, Process.withNoise, h']
  simp only [Evolution.of_toType, map_bind, map_pure, bind_map_left]
  rfl

theorem linear_form_same_run (d : Decomposer F) (joseph debug : Bool) (x : Estimate F)
    (zs : List (Fallible F (Measurement F))) :
    let s : Session F := .opening (.linear d c.linearProcess joseph debug) x
    let s' : Session F := .opening ⟨d, c.process, joseph, debug⟩ x
    s.attempts zs = s'.attempts zs ∧ (s.run zs).cursor = (s'.run zs).cursor := by
  rw [process_eq_withNoise]
  exact Session.run_congr (fun k y z =>
    (Estimator.step_withNoise (.linear d c.linearProcess joseph debug) k y z).symm) ⟨none, x⟩ 0 zs

end ConstantDerivative

end KalmanFilter
