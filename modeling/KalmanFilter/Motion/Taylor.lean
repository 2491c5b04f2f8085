import KalmanFilter.Matrix.Block
import KalmanFilter.Tensor.OfDatum
import KalmanFilter.Tensor.Product

/-! Motion of one value whose derivatives above some order vanish, by its Taylor
expansion over the elapsed time. -/

namespace KalmanFilter

variable {F : Precision → Type} {α : Type} {n : Nat}

def factorial : Nat → Nat
  | 0 => 1
  | n + 1 => (n + 1) * factorial n

def sequence : {n : Nat} → (Fin n → Fallible F α) → Fallible F (Vec α n)
  | 0, _ => .ok #v[]
  | _ + 1, f => do
    let a ← f 0
    let x ← sequence fun i => f i.succ
    return Vec.cons a x

namespace Taylor

variable [Arithmetic F]

def coefficient (elapsed : Datum F) (k : Nat) : Fallible F (F .double) := do
  let a ← elapsed.toNumber
  Number.div (← a.pow k) (.int (factorial k))

def coefficients (e : ElementType) (elapsed : Datum F) (n : Nat) :
    Fallible F (Vec (Elem F e) n) := do
  let x ← sequence fun k : Fin n => coefficient elapsed k
  sequence fun k => (Number.real (x k)).store e

def keep [Zero α] (k : Nat) (x : Vec α n) : Vec α n :=
  Vector.ofFn fun i => if i.val < k then x i else 0

def place (n : Nat) (i : Int) : Nat :=
  if i < 0 then (n + i).toNat else min i.toNat n

theorem add_place_lt {n : Nat} {a : Int} (i : Fin (n - place n a)) : i.val + place n a < n := by
  omega

def dropTo (a : Int) (x : Vec α n) : Vec α (n - place n a) :=
  Vector.ofFn fun i => x ⟨i.val + place n a, add_place_lt i⟩

def transition [Zero α] [Add α] (x : Vec α n) : Mat α n n :=
  Mat.ofFn fun i j => total fun k => if i.val + k.val = j.val then x k else 0

def noise [Mul α] (variance : α) (x : Vec α n) : Mat α n n :=
  Mat.outer (variance * x.reverse) x.reverse

end Taylor

structure Motion (F : Precision → Type) where
  order : Datum F
  expected : Datum F
  approximate : Bool
  type : ElementType

namespace Motion

variable [Arithmetic F]

def size? (m : Motion F) : Option Int :=
  m.order.int?.map (· + 1)

def values (m : Motion F) : Fallible F (Number F) := do
  (← m.order.toNumber).add (.int 1)

def transitionOf (m : Motion F) (n : Nat) (elapsed : Datum F) :
    Fallible F (Mat (Elem F m.type) n n) := do
  let x ← Taylor.coefficients m.type elapsed n
  return Taylor.transition (if m.approximate then Taylor.keep 2 x else x)

def powers (k above : Int) : Nat :=
  (k + above).toNat

def reach (k above : Int) : Nat :=
  powers k above - Taylor.place (powers k above) above

theorem reach_eq {k above : Int} (hk : 0 ≤ k) (ha : 0 ≤ above) : reach k above = k.toNat := by
  rw [reach, powers, Taylor.place, if_neg (by omega)]
  omega

def noiseCoefficients (m : Motion F) (k above : Int) (elapsed : Datum F) :
    Fallible F (Vec (Elem F m.type) (reach k above)) := do
  let x ← Taylor.coefficients m.type elapsed (powers k above)
  let kept := Taylor.place (powers k above) (1 + above)
  return Taylor.dropTo above (if m.approximate then Taylor.keep kept x else x)

def noiseOf (m : Motion F) (k above : Int) (deviation elapsed : Datum F) :
    Fallible F (Mat (Elem F m.type) (reach k above) (reach k above)) := do
  let x ← m.noiseCoefficients k above elapsed
  let variance ← (← deviation.toNumber).pow 2
  return Taylor.noise (← variance.toFactor m.type) x

def transition (m : Motion F) (elapsed : Datum F) : Fallible F (Tensor F) :=
  match m.size? with
  | some k =>
    if 0 ≤ k then do return TypedMat.tensor ⟨m.type, ← m.transitionOf k.toNat elapsed⟩
    else refuse
  | none => refuse

def noise (m : Motion F) (deviation : Argument F) (elapsed : Datum F) : Fallible F (Tensor F) :=
  match m.size?, m.expected.int? with
  | some k, some above =>
    match deviation with
    | .datum d => do return TypedMat.tensor ⟨m.type, ← m.noiseOf k above d elapsed⟩
    | .tensor d => do
      let x := (← m.noiseCoefficients k above elapsed).reverse
      let column : Tensor F := TypedMat.tensor ⟨m.type, Mat.column x⟩
      let row : Tensor F := TypedMat.tensor ⟨m.type, (Mat.column x).transpose⟩
      (← (← d.mul? d).mul? column).product? row
  | _, _ => refuse

end Motion

end KalmanFilter
