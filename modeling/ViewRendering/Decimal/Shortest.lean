/-!
The shortest decimal of a binary floating-point number: of all decimals that read
back as the number it has the fewest digits, and of those it is the nearest. The
number is taken apart into `m · 2 ^ q`, and the decimals of each length next to it
are tested against the interval of reals that round to it, in exact arithmetic.
-/
namespace ViewRendering.Decimal

/-- A positive binary number `significand · 2 ^ exponent`. -/
structure Binary where
  significand : Nat
  exponent : Int
deriving DecidableEq, Repr

/-- A decimal number `digits · 10 ^ exponent`. -/
structure Scaled where
  digits : Nat
  exponent : Int
deriving DecidableEq, Repr

def scale (base numerator denominator : Nat) (e : Int) : Nat × Nat :=
  match e with
  | .ofNat k => (numerator * base.pow k, denominator)
  | .negSucc k => (numerator, denominator * base.pow (k + 1))

def leadingBit : Nat := 0x10000000000000

/-- Four times a binary number, and four times the ends of the interval that rounds to it, as
multiples of `2 ^ exponent`. Below a power of two the neighbours are twice as close. -/
def interval (b : Binary) : Nat × Nat × Nat :=
  let closer := b.significand = leadingBit ∧ -1074 < b.exponent
  (4 * b.significand, 4 * b.significand - (if closer then 1 else 2), 4 * b.significand + 2)

/-- The number of decimal digits of the integer part of a fraction, or minus the number of zeros
after the point of a fraction below one. -/
def magnitudeFrom (num den : Nat) : Nat → Int
  | 0 => 0
  | n + 1 =>
    if den ≤ num then (Nat.toDigits 10 (num / den)).length
    else if den ≤ 10 * num then 0
    else magnitudeFrom (10 * num) den n - 1

/-- Of the two decimals with `n` digits next to the number, the nearer one that reads back. -/
def candidate? (b : Binary) (magnitude : Int) (n : Nat) : Option Scaled :=
  let (v, low, high) := interval b
  let unit := magnitude - n
  let (num, den) := scale 2 v 4 b.exponent
  let (num, den) := scale 10 num den (-unit)
  let (lowNum, _) := scale 2 low 4 b.exponent
  let (lowNum, _) := scale 10 lowNum 1 (-unit)
  let (highNum, _) := scale 2 high 4 b.exponent
  let (highNum, _) := scale 10 highNum 1 (-unit)
  let even := b.significand % 2 = 0
  let inside (d : Nat) : Bool :=
    if even then lowNum ≤ d * den && d * den ≤ highNum else lowNum < d * den && d * den < highNum
  let below := num / den
  let above := below + 1
  let rest := 2 * (num % den)
  let belowFirst := rest < den || (rest == den && below % 2 == 0)
  let (first, second) := if belowFirst then (below, above) else (above, below)
  if inside first then some ⟨first, unit⟩
  else if inside second then some ⟨second, unit⟩
  else none

def Scaled.stripZeros (d : Scaled) : Nat → Scaled
  | 0 => d
  | n + 1 =>
    if d.digits ≠ 0 ∧ d.digits % 10 = 0 then
      Scaled.stripZeros ⟨d.digits / 10, d.exponent + 1⟩ n
    else d

def shortestFrom (b : Binary) (magnitude : Int) : Nat → Nat → Scaled
  | _, 0 => ⟨0, 0⟩
  | n, k + 1 => (candidate? b magnitude n).getD (shortestFrom b magnitude (n + 1) k)

def shortest (b : Binary) : Scaled :=
  let (num, den) := scale 2 b.significand 1 b.exponent
  (shortestFrom b (magnitudeFrom num den 400) 1 20).stripZeros 20

inductive Parts where
  | zero (negative : Bool)
  | finite (negative : Bool) (value : Binary)
  | infinite (negative : Bool)
  | notANumber
deriving DecidableEq, Repr

def parts (x : Float) : Parts :=
  let bits := x.toBits.toNat
  let negative := bits / leadingBit / 2048 = 1
  let e : Nat := bits / leadingBit % 2048
  let f : Nat := bits % leadingBit
  if e = 2047 then (if f = 0 then .infinite negative else .notANumber)
  else if e = 0 then (if f = 0 then .zero negative else .finite negative ⟨f, -1074⟩)
  else .finite negative ⟨f + leadingBit, (e : Int) - 1075⟩

end ViewRendering.Decimal
