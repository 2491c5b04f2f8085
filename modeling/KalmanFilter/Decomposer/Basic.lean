import KalmanFilter.Attempt
import KalmanFilter.Matrix.Block
import KalmanFilter.Tensor.Product

namespace KalmanFilter

variable {F : Precision → Type}

abbrev Solver (F : Precision → Type) (p : Precision) (k : Nat) :=
  {c : Nat} → Mat (F p) k c → Fallible F (Mat (F p) k c)

structure Decomposer (F : Precision → Type) where
  decompose : {p : Precision} → {k : Nat} → Mat (F p) k k → Attempt F (Solver F p k)

def Datum.limit [Arithmetic F] (p : Precision) (d : Datum F) : Fallible F (F p) := do
  (← d.toNumber).toFactor (.real p)

namespace Solver

variable [Arithmetic F] {p : Precision} {k : Nat}

def solveStack (s : Shape) (solver : Nat → Solver F p k) (b : Tensor F) (t : Shape) (c : Nat) :
    Fallible F (Tensor F) := do
  let stack ← orRefuse (s.broadcast? t)
  let solutions ← (List.range stack.size).mapM fun q =>
    let place := stack.index q
    solver (s.offset (s.project place)) (Mat.ofFn fun (i : Fin k) (j : Fin c) =>
      (Elem.cast (.real p) (b.get (t.project place ++ [i.val, j.val])) : F p))
  return .ofIndex (.real p) (stack ++ [k, c]) fun i =>
    let place := i.take stack.length
    match solutions[stack.offset place]?, i.drop stack.length with
    | some x, [r, q] => if h : r < k ∧ q < c then x ⟨r, h.1⟩ ⟨q, h.2⟩ else 0
    | _, _ => 0

def solveTensor (solve : Solver F p k) (b : Tensor F) : Fallible F (Tensor F) :=
  if b.type ≠ .real p then refuse
  else
    match hb : b.shape with
    | [] => refuse
    | [m] =>
      if h : m = k then do
        let x ← solve (.column ((b.vec (h ▸ hb)).toType (.real p)))
        return TypedVec.tensor (n := k) ⟨.real p, x.firstColumn⟩
      else refuse
    | [m, c] =>
      if h : m = k then do
        let x ← solve ((b.mat (n := c) (h ▸ hb)).toType (.real p))
        return TypedMat.tensor (m := k) (n := c) ⟨.real p, x⟩
      else refuse
    | s =>
      match s.stack? with
      | some (t, m, c) => if m = k then solveStack [] (fun _ => solve) b t c else refuse
      | none => refuse

end Solver

end KalmanFilter
