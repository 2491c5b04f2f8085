import KalmanFilter.Matrix.Block

namespace KalmanFilter.Mat

variable {α : Type} [Scalar α] {c n : Nat}

def solveLower : {n : Nat} → Mat α n n → Mat α n c → Mat α n c
  | 0, _, b => b
  | _ + 1, L, b =>
    let x := b.firstRow.map (· / L 0 0)
    consRow x (solveLower L.core (b.lowerRows - outer L.leftColumn x))

def solveUpper : {n : Nat} → Mat α n n → Mat α n c → Mat α n c
  | 0, _, b => b
  | n + 1, U, b =>
    let X := solveUpper U.core b.lowerRows
    let x : Vec α c :=
      Vector.ofFn fun j => (b 0 j - total fun k : Fin n => U 0 k.succ * X k j) / U 0 0
    consRow x X

theorem solveLower_succ (L : Mat α (n + 1) (n + 1)) (b : Mat α (n + 1) c) :
    solveLower L b = consRow (b.firstRow.map (· / L 0 0))
      (solveLower L.core (b.lowerRows - outer L.leftColumn (b.firstRow.map (· / L 0 0)))) :=
  rfl

theorem solveUpper_succ (U : Mat α (n + 1) (n + 1)) (b : Mat α (n + 1) c) :
    solveUpper U b = consRow
      (Vector.ofFn fun j =>
        (b 0 j - total fun k : Fin n => U 0 k.succ * solveUpper U.core b.lowerRows k j) / U 0 0)
      (solveUpper U.core b.lowerRows) :=
  rfl

def unitLower (A : Mat α n n) : Mat α n n :=
  ofFn fun i j => if i = j then 1 else if j < i then A i j else 0

end KalmanFilter.Mat
