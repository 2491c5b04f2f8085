import KalmanFilter.Proofs.Run

namespace KalmanFilter

variable {F : Precision → Type} [Arithmetic F] {p : Precision} {m n : Nat}

@[simp] lemma Arithmetic.convert_self (x : F p) : (convert x : F p) = x := by
  cases p <;> rfl

@[simp] lemma TypedVec.toType_self (x : Vec (F p) n) :
    (⟨.real p, x⟩ : TypedVec F n).toType (.real p) = x := by
  refine Vec.ext fun i => ?_
  simp [toType, Elem.cast]

@[simp] lemma TypedMat.toType_self (A : Mat (F p) m n) :
    (⟨.real p, A⟩ : TypedMat F m n).toType (.real p) = A := by
  ext i j
  simp [toType, Elem.cast]

@[simp] lemma Estimate.belief?_ofBelief (t : F .double) (b : Belief (F p) n) :
    (ofBelief t b).belief? = some ⟨p, b⟩ := by
  simp [belief?, ofBelief]

omit [Arithmetic F] in
lemma Estimate.ofBelief_inj {t t' : F .double} {b b' : Belief (F p) n}
    (h : ofBelief t b = ofBelief t' b') : t = t' ∧ b = b' := by
  obtain ⟨x, P⟩ := b
  obtain ⟨x', P'⟩ := b'
  simpa [ofBelief] using h

lemma Estimate.eq_of_belief? {x : Estimate F} {b : Belief (F p) x.dimension}
    (h : x.belief? = some ⟨p, b⟩) :
    b = ⟨x.state.toType (.real p), x.covariance.toType (.real p)⟩ := by
  unfold belief? at h
  split at h
  · split at h
    · obtain ⟨rfl, h⟩ := Sigma.mk.inj (Option.some.inj h)
      exact (eq_of_heq h).symm
    · cases h
  · cases h

lemma Estimate.types_of_belief? {x : Estimate F} {b : Belief (F p) x.dimension}
    (h : x.belief? = some ⟨p, b⟩) : x.state.type = .real p ∧ x.covariance.type = .real p := by
  obtain ⟨t, n, ⟨d, v⟩, ⟨d', A⟩⟩ := x
  cases d with
  | int64 => cases h
  | real q =>
    cases d' with
    | int64 => cases h
    | real q' =>
      simp only [belief?] at h
      split at h
      · obtain ⟨rfl, -⟩ := Sigma.mk.inj (Option.some.inj h)
        rename_i hq
        exact ⟨rfl, congrArg _ hq.symm⟩
      · cases h

lemma Estimate.belief?_of_mixed {x : Estimate F} (h : x.state.type ≠ x.covariance.type) :
    x.belief? = none := by
  cases hb : x.belief? with
  | none => rfl
  | some b =>
    obtain ⟨hs, hc⟩ := types_of_belief? hb
    exact absurd (hs.trans hc.symm) h

omit [Arithmetic F] in
lemma Estimate.exists_eq_ofBelief {x : Estimate F} {c : Cursor F} (h : Cursor.start x = .ok c)
    (ht : x.state.type = x.covariance.type) :
    ∃ (p : Precision) (b : Belief (F p) x.dimension), x = .ofBelief x.time b := by
  obtain ⟨t, n, ⟨d, v⟩, ⟨d', A⟩⟩ := x
  cases ht
  cases d with
  | real p => exact ⟨p, ⟨v, A⟩, rfl⟩
  | int64 => cases h

section

variable {e : Estimator F} {k : Nat} {t : F .double} {b : Belief (F p) n} {z : Measurement F}

lemma Estimator.step_ofBelief {c : Option (Estimate F)} {x : Evolution F} (ht : ¬ z.time < t)
    (hz : z.stateDimension = n)
    (hr : e.process k t (TypedVec.tensor ⟨.real p, b.state⟩) z.time = .ok (.evolution x))
    (hx : x.dimension = n) :
    e.step k ⟨c, .ofBelief t b⟩ z =
      ⟨.query t (TypedVec.tensor ⟨.real p, b.state⟩) z.time ::
        (e.update z.time b x hx (z.observation p hz)).events,
        (e.update z.time b x hx (z.observation p hz)).outcome⟩ :=
  step_of_update ht hz hr hx (Estimate.belief?_ofBelief t b)

lemma Measurement.observation_noise {m : Measurement F} (h : m.stateDimension = n) :
    (m.observation p h).noise = m.covariance.toType (.real p) := by
  subst h
  rfl

lemma Advance.exists_corrected_eq (a : Advance e k (.ofBelief t b) z) :
    ∃ c : Belief (F p) n, a.corrected = .ofBelief z.time c := by
  have hp : p = a.precision :=
    congrArg Sigma.fst (Option.some.inj ((Estimate.belief?_ofBelief t b).symm.trans a.typed))
  -- the precisions become one only after the parts that depend on them are taken out
  obtain ⟨q, b', x, solve, X, ht, hz, hb, hr, hx, hs, hX⟩ := a
  obtain rfl : p = q := hp
  exact ⟨_, rfl⟩

end

namespace Session

lemma run_corrected (e : Estimator F) (t : F .double) (b : Belief (F p) n)
    (zs : List (Fallible F (Measurement F))) :
    ∃ (t' : F .double) (b' : Belief (F p) n),
      ((opening e (.ofBelief t b)).run zs).cursor.corrected = .ofBelief t' b' := by
  refine cursor_run_of_advance (fun c => ∃ (t' : F .double) (b' : Belief (F p) n),
    c.corrected = .ofBelief t' b') rfl ⟨t, b, rfl⟩ ?_
  rintro m ⟨u, y⟩ k a - ⟨t', b', rfl⟩
  exact ⟨m.time, a.exists_corrected_eq⟩

end Session

end KalmanFilter
