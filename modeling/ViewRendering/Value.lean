import ViewRendering.Dict
import ViewRendering.Decimal.Layout

/-!
The values that templates work on: nothing, truth values, whole and real numbers,
texts, lists, and records whose fields stand in the order of their names.
-/
namespace ViewRendering

/-- A number keeps whether it was given as a whole number. -/
inductive Number where
  | whole (n : Int)
  | real (x : Float)

inductive Value where
  | null
  | bool (b : Bool)
  | number (n : Number)
  | text (s : String)
  | list (items : List Value)
  | record (fields : List (String × Value))

instance : Inhabited Value := ⟨.null⟩

namespace Number

/-- Whole and real numbers are never the same number. -/
def same : Number → Number → Bool
  | .whole m, .whole n => m == n
  | .real x, .real y => x == y
  | _, _ => false

def toReal : Number → Float
  | .whole n => Float.ofInt n
  | .real x => x

/-- The least whole number that needs more than 63 bits. -/
def signedEnd : Nat := 0x8000000000000000

/-- The least whole number that needs more than 64 bits. -/
def unsignedEnd : Nat := 0x10000000000000000

def isSigned64 (n : Int) : Bool := -(signedEnd : Int) ≤ n && n < signedEnd

def isUnsigned64 (n : Int) : Bool := 0 ≤ n && n < unsignedEnd

def wholeText (n : Int) : List Char :=
  if n < 0 then '-' :: Decimal.digitsOf n.natAbs else Decimal.digitsOf n.natAbs

def write (l : Decimal.Layout) : Number → List Char
  | .whole n => wholeText n
  | .real x => l.write x

end Number

namespace Value

mutual

/-- Equality of values; fields are compared in their order. -/
def same : Value → Value → Bool
  | .null, .null => true
  | .bool a, .bool b => a == b
  | .number m, .number n => m.same n
  | .text s, .text t => s == t
  | .list xs, .list ys => sameItems xs ys
  | .record xs, .record ys => sameFields xs ys
  | _, _ => false

def sameItems : List Value → List Value → Bool
  | [], [] => true
  | x :: xs, y :: ys => same x y && sameItems xs ys
  | _, _ => false

def sameFields : List (String × Value) → List (String × Value) → Bool
  | [], [] => true
  | (j, x) :: xs, (k, y) :: ys => j == k && same x y && sameFields xs ys
  | _, _ => false

end

def kindName : Value → String
  | .null => "null"
  | .bool _ => "a boolean"
  | .number _ => "a number"
  | .text _ => "a string"
  | .list _ => "an array"
  | .record _ => "an object"

def text? : Value → Option String
  | .text s => some s
  | _ => none

def ofChars (s : List Char) : Value := .text (String.ofList s)

def ofNat (n : Nat) : Value := .number (.whole n)

end Value

end ViewRendering
