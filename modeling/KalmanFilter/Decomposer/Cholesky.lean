import KalmanFilter.Decomposer.Basic
import KalmanFilter.Matrix.Cholesky

namespace KalmanFilter

variable {F : Precision → Type} [Arithmetic F] {α : Type} {n : Nat} {p : Precision}

structure CholeskyDecomposer (F : Precision → Type) where
  relativeSymmetry : Datum F
  absolutePositivity : Datum F

def Mat.isAsymmetric [Scalar α] (limit : α) (A : Mat α n n) : Bool :=
  Mat.any fun i j =>
    limit * Scalar.max (Scalar.abs (A i j)) (Scalar.abs (A j i)) < Scalar.abs (A i j - A j i)

def Mat.isAsymmetricInt64 (limit : Number F) (A : Mat Int64 n n) : Fallible F Bool :=
  let larger (i j : Fin n) : Int64 := max (A i j).abs (A j i).abs
  let difference (i j : Fin n) : Int64 := (A i j - A j i).abs
  match limit with
  | .int _ => do
    let l ← limit.toFactor .int64
    return Mat.any fun i j => l * larger i j < difference i j
  | .real _ => do
    let l ← limit.toFactor (.real .single)
    return Mat.any fun i j =>
      l * Arithmetic.ofInt .single (larger i j).toInt <
        Arithmetic.ofInt .single (difference i j).toInt

def Solver.cholesky (L : Mat (F p) n n) : Solver F p n :=
  fun b => .ok (L.choleskySolve b)

namespace CholeskyDecomposer

def defaults : CholeskyDecomposer F :=
  ⟨.real 1e-15, .real 1e-10⟩

def factor (d : CholeskyDecomposer F) (A : Mat (F p) n n) : Attempt F (Mat (F p) n n) := do
  if A.isAsymmetric (← .of (d.relativeSymmetry.limit p)) then
    .reject .nonSymmetric .notSymmetric
  else
    match A.cholesky? with
    | none => .reject .nonPositiveDefinite (.notPositiveDefinite .matrix)
    | some L =>
      let limit ← Attempt.of (d.absolutePositivity.limit p)
      if (List.finRange n).any fun i => L i i * L i i ≤ limit then
        .reject .nonPositiveDefinite (.notPositiveDefinite .matrix)
      else return L

def decomposer (d : CholeskyDecomposer F) : Decomposer F where
  decompose A := do
    let L ← d.factor A
    return Solver.cholesky L

def factorTensor (d : CholeskyDecomposer F) (A : Tensor F) :
    Attempt F ((p : Precision) × (n : Nat) × Mat (F p) n n) :=
  match A.square? with
  | some ⟨n, B⟩ =>
    match B.type with
    | .real p => do return ⟨p, n, ← d.factor (B.toType (.real p))⟩
    | .int64 => do
      let limit ← Attempt.of d.relativeSymmetry.toNumber
      if ← .of (Mat.isAsymmetricInt64 limit (B.toType .int64)) then
        .reject .nonSymmetric .notSymmetric
      else .of refuse
  | none => .fail (.notSquare A.shape)

end CholeskyDecomposer

end KalmanFilter
