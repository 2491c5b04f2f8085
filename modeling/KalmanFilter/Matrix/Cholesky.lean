import KalmanFilter.Matrix.Triangular

namespace KalmanFilter.Mat

variable {α : Type} [Scalar α] {c n : Nat}

def cholesky? : {n : Nat} → Mat α n n → Option (Mat α n n)
  | 0, A => some A
  | n + 1, A =>
    if 0 < A 0 0 then
      let d := Scalar.sqrt (A 0 0)
      let l := A.leftColumn.map (· / d)
      (cholesky? (A.core - outer l l)).map (block d (Vector.replicate n 0) l)
    else none

def choleskySolve (L : Mat α n n) (b : Mat α n c) : Mat α n c :=
  solveUpper L.transpose (solveLower L b)

end KalmanFilter.Mat
