import ViewRendering.Decimal.Shortest

/-!
How a decimal is written: the positions at which plain notation ends, whether a
whole number keeps a zero after its point, and the form of the exponent.
-/
namespace ViewRendering.Decimal

structure Layout where
  /-- The least and greatest power of ten of the first digit written without an exponent. -/
  least? : Option Int
  greatest? : Option Int
  /-- Whether a whole number is written with `.0`. -/
  point : Bool
  /-- Whether a positive exponent has a plus sign. -/
  plus : Bool
  notANumber : String
  infinity : String
  minusInfinity : String

/-- Data texts write numbers from 10 to the power −5 up to 10 to the power 15 plainly. -/
def Layout.data : Layout := ⟨some (-5), some 15, true, true, "null", "null", "null"⟩

/-- Pages write every number plainly and whole numbers without a point. -/
def Layout.page : Layout := ⟨none, none, false, true, "NaN", "inf", "-inf"⟩

/-- Messages write numbers from 10 to the power −5 up to 10 to the power 15 plainly, whole
numbers with a point, and exponents without a plus sign. -/
def Layout.message : Layout := ⟨some (-5), some 15, true, false, "NaN", "inf", "-inf"⟩

def digitsOf (n : Nat) : List Char := Nat.toDigits 10 n

def plain (l : Layout) (digits : List Char) (exponent : Int) : List Char :=
  let whole := (digits.length : Int) + exponent
  if 0 ≤ exponent then
    digits ++ List.replicate exponent.toNat '0' ++ (if l.point then ['.', '0'] else [])
  else if 0 < whole then digits.take whole.toNat ++ '.' :: digits.drop whole.toNat
  else ['0', '.'] ++ List.replicate (-whole).toNat '0' ++ digits

def scientific (l : Layout) (digits : List Char) (power : Int) : List Char :=
  let mantissa := match digits with
    | d :: e :: r => d :: '.' :: e :: r
    | _ => digits
  let sign := if power < 0 then ['-'] else if l.plus then ['+'] else []
  mantissa ++ 'e' :: sign ++ digitsOf power.natAbs

def Layout.write (l : Layout) (x : Float) : List Char :=
  match parts x with
  | .notANumber => l.notANumber.toList
  | .infinite negative => (if negative then l.minusInfinity else l.infinity).toList
  | .zero negative => (if negative then ['-'] else []) ++ plain l ['0'] 0
  | .finite negative b =>
    let d := shortest b
    let digits := digitsOf d.digits
    let power := (digits.length : Int) + d.exponent - 1
    let isPlain := l.least?.all (· ≤ power) && l.greatest?.all (power ≤ ·)
    (if negative then ['-'] else []) ++
      (if isPlain then plain l digits d.exponent else scientific l digits power)

end ViewRendering.Decimal
