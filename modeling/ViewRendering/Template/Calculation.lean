import ViewRendering.Template.Expression
import ViewRendering.Template.Fault
import ViewRendering.Value.Json

/-!
Arithmetic of the template language. Whole numbers of 64 bits are calculated exactly,
signed if both are, and a result that does not fit is a fault; all other numbers are
calculated as real numbers. A result that is no number is told apart from a fault.
-/
namespace ViewRendering.Template

/-- A whole result that has to fit; the message names the operation. -/
def fitting (fits : Int → Bool) (kind : String) (sign : String) (l r result : Int) :
    Result (Option Number) :=
  if fits result then .ok (some (.whole result))
  else
    failed (String.ofList (Number.wholeText l ++ ' ' :: sign.toList ++ ' ' :: Number.wholeText r) ++
      s!" results in an out of bounds {kind}")

/-- Whole operation on two signed or two unsigned numbers, real operation otherwise. -/
def exactOr (sign : String) (whole : Int → Int → Int)
    (real : Float → Float → Result (Option Number))
    (l r : Number) : Result (Option Number) :=
  match l, r with
  | .whole m, .whole n =>
    if Number.isSigned64 m && Number.isSigned64 n then
      fitting Number.isSigned64 "i64" sign m n (whole m n)
    else if Number.isUnsigned64 m && Number.isUnsigned64 n then
      fitting Number.isUnsigned64 "u64" sign m n (whole m n)
    else real l.toReal r.toReal
  | _, _ => real l.toReal r.toReal

def finiteOrBreak (x : Float) : Result (Option Number) :=
  if x.isFinite then .ok (some (.real x)) else .error Fault.missingValue

def finiteOrNothing (x : Float) : Result (Option Number) :=
  .ok (if x.isFinite then some (.real x) else none)

/-- The remainder with the sign of the dividend, by exact arithmetic on the scaled numbers. -/
def remainder (x y : Float) : Float :=
  match Decimal.parts x, Decimal.parts y with
  | .finite negative a, .finite _ b =>
    let e := min a.exponent b.exponent
    let m := a.significand * Nat.pow 2 (a.exponent - e).toNat
    let n := b.significand * Nat.pow 2 (b.exponent - e).toNat
    let r := Float.scaleB (Float.ofNat (m % n)) e
    if negative then -r else r
  | .zero _, .finite _ _ => x
  | .finite _ _, .infinite _ => x
  | .zero _, .infinite _ => x
  | _, _ => 0.0 / 0.0

/-- The whole number a real number is equal to, held to 64 bits with a sign. -/
def wholeOfReal (x : Float) : Int :=
  match Decimal.parts x with
  | .finite negative b =>
    let n : Nat := match b.exponent with
      | .ofNat k => b.significand * Nat.pow 2 k
      | .negSucc k => b.significand / Nat.pow 2 (k + 1)
    if negative then -(min n Number.signedEnd : Nat) else (min n (Number.signedEnd - 1) : Nat)
  | .infinite negative => if negative then -Number.signedEnd else (Number.signedEnd - 1 : Nat)
  | _ => 0

/-- Division is always real; a result without fraction becomes a whole number. -/
def quotient (l r : Number) : Result (Option Number) :=
  let x := l.toReal / r.toReal
  if x.isNaN then .ok none
  else if x.isFinite && x.round == x then .ok (some (.whole (wholeOfReal x)))
  else finiteOrNothing x

/-- A remainder by zero of two whole numbers is a fault that quotes both operands. -/
def modulus (left right : Expression) (l r : Number) : Result (Option Number) :=
  let byReal := finiteOrNothing (remainder l.toReal r.toReal)
  match l, r with
  | .whole m, .whole n =>
    if (Number.isSigned64 m && Number.isSigned64 n) ||
        (Number.isUnsigned64 m && Number.isUnsigned64 n) then
      if n = 0 then
        failed s!"Tried to do a modulo by zero: {left.notationText}/{right.notationText}"
      else if n = -1 ∧ m = -Number.signedEnd then
        .error (.breakdown (some "attempt to calculate the remainder with overflow"))
      else .ok (some (.whole (Int.tmod m n)))
    else byReal
  | _, _ => byReal

def calculate (op : Arithmetic) (left right : Expression) (l r : Number) :
    Result (Option Number) :=
  match op with
  | .add => exactOr "+" (· + ·) (fun x y => finiteOrBreak (x + y)) l r
  | .subtract => exactOr "-" (· - ·) (fun x y => finiteOrBreak (x - y)) l r
  | .multiply => exactOr "x" (· * ·) (fun x y => finiteOrNothing (x * y)) l r
  | .divide => quotient l r
  | .modulo => modulus left right l r

def compareReals (op : Comparison) (x y : Float) : Bool :=
  match op with
  | .less => x < y
  | .lessOrEqual => x ≤ y
  | .greater => y < x
  | .greaterOrEqual => y ≤ x
  | .equal => x == y
  | .different => x != y

end ViewRendering.Template
