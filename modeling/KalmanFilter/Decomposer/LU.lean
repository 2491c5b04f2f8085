import KalmanFilter.Decomposer.Basic
import KalmanFilter.Matrix.LU

namespace KalmanFilter

variable {F : Precision → Type} [Arithmetic F] {n : Nat} {p : Precision}

structure LUDecomposer (F : Precision → Type) where
  singularity : Datum F

def Solver.lu (f : LU (F p) n) : Solver F p n :=
  fun b => .ok (f.solve b)

namespace LUDecomposer

def defaults : LUDecomposer F :=
  ⟨.real 1e-11⟩

def factor (d : LUDecomposer F) (A : Mat (F p) n n) : Attempt F (LU (F p) n) := do
  match A.lu? with
  | none => .reject .singular .singular
  | some f =>
    let limit ← Attempt.of (d.singularity.limit p)
    if (List.finRange n).any fun i => Scalar.abs (f.packed i i) < limit then
      .reject .singular .singular
    else return f

def decomposer (d : LUDecomposer F) : Decomposer F where
  decompose A := do
    let f ← d.factor A
    return Solver.lu f

def factorTensor (d : LUDecomposer F) (A : Tensor F) :
    Attempt F ((p : Precision) × (n : Nat) × LU (F p) n) :=
  match A.square? with
  | some ⟨n, B⟩ =>
    match B.type with
    | .real p => do return ⟨p, n, ← d.factor (B.toType (.real p))⟩
    | .int64 => .of refuse
  | none => .fail (.notSquare A.shape)

end LUDecomposer

def Decomposer.plain : Decomposer F where
  decompose A := return fun b =>
    match A.lu? with
    | some f => .ok (f.solve b)
    | none => refuse

def Decomposer.plainStack (p : Precision) (A : Tensor F) (s : Shape) (n : Nat) :
    Fallible F (Nat → Solver F p n) := do
  let factors ← (List.range s.size).mapM fun q =>
    orRefuse (Mat.ofFn fun (i : Fin n) (j : Fin n) =>
      (Elem.cast (.real p) (A.get (s.index q ++ [i.val, j.val])) : F p)).lu?
  return fun q _ b => do return (← orRefuse factors[q]?).solve b

def Decomposer.solvePlain (A b : Tensor F) : Fallible F (Tensor F) :=
  match A.shape.stack?, A.type with
  | some (s, m, n), .real p =>
    if m = n ∧ b.type = .real p then do
      let solver ← plainStack p A s n
      let areVectors : Bool := b.shape.length = 1 ∨ b.shape = s ++ [m]
      let b ← b.reshape? (if areVectors then b.shape ++ [1] else b.shape)
      match b.shape.stack? with
      | some (t, k, c) =>
        if k = n then do
          let x ← Solver.solveStack s solver b t c
          x.reshape? (if areVectors then x.shape.dropLast else x.shape)
        else refuse
      | none => refuse
    else refuse
  | _, _ => refuse

end KalmanFilter
