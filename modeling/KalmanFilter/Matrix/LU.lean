import KalmanFilter.Matrix.Triangular

namespace KalmanFilter

variable {α : Type} {c m n : Nat}

def interchange (p : Vec (Fin n) n) (x : Vec α n) : Vec α n :=
  Fin.foldl n (fun x i => x.swap i (p i)) x

structure LU (α : Type) (n : Nat) where
  packed : Mat α n n
  pivots : Vec (Fin n) n

namespace Mat

variable [Scalar α]

def pivotRow (A : Mat α (m + 1) (n + 1)) : Fin (m + 1) :=
  let x := A.firstColumn
  Fin.foldl (m + 1) (fun p i => if Scalar.abs (x p) < Scalar.abs (x i) then i else p)
    ⟨0, m.succ_pos⟩

def lu? : {n : Nat} → Mat α n n → Option (LU α n)
  | 0, A => some ⟨A, #v[]⟩
  | n + 1, A =>
    let p := A.pivotRow
    let B : Mat α (n + 1) (n + 1) := ⟨A.rows.swap 0 p⟩
    let u := B 0 0
    if Scalar.same u 0 then none
    else
      let l := B.leftColumn.map (· / u)
      (lu? (B.core - outer l B.topRow)).map fun f =>
        ⟨block u B.topRow (interchange f.pivots l) f.packed, Vec.cons p (f.pivots.map Fin.succ)⟩

end Mat

def LU.solve [Scalar α] (f : LU α n) (b : Mat α n c) : Mat α n c :=
  Mat.solveUpper f.packed (Mat.solveLower f.packed.unitLower ⟨interchange f.pivots b.rows⟩)

end KalmanFilter
