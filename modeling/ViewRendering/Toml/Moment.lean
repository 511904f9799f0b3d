import ViewRendering.Toml.Scalar

/-!
Dates and times of TOML documents. A moment is a date, a time of day, or both, and with
both there may be an offset. It is kept as a record with its text in the usual form.
-/
namespace ViewRendering.Toml

open ViewRendering.Reader

def fixedDigits : Nat → Reader (List Char)
  | 0 => return []
  | n + 1 => do
    let c ← one Char.isDigit
    let rest ← fixedDigits n
    return c :: rest

def twoDigits (least most : Nat) : Reader (List Char) := do
  let ds ← fixedDigits 2
  if least ≤ valueOf ds ∧ valueOf ds ≤ most then return ds else refuse

def isLeapYear (y : Nat) : Bool := y % 4 == 0 && (y % 100 != 0 || y % 400 == 0)

def daysOf (year month : Nat) : Nat :=
  if month = 2 then (if isLeapYear year then 29 else 28)
  else if month = 4 ∨ month = 6 ∨ month = 9 ∨ month = 11 then 30
  else 31

def date : Reader (List Char) := do
  let y ← fixedDigits 4
  exact "-"
  let m ← twoDigits 1 12
  exact "-"
  let d ← twoDigits 1 (daysOf (valueOf y) (valueOf m))
  return y ++ '-' :: m ++ '-' :: d

/-- A fraction of a second: nine digits count, and zeros at the end do not, but one digit is
always left. -/
def fractionText (ds : List Char) : List Char :=
  match ((ds.take 9).reverse.dropWhile (· == '0')).reverse with
  | [] => ['.', '0']
  | kept => '.' :: kept

def seconds : Reader (List Char) := do
  exact ":"
  let s ← twoDigits 0 60
  let fraction ← maybe (do exact "."; digits)
  return ':' :: s ++ fraction.elim [] fractionText

def time : Reader (List Char) := do
  let h ← twoDigits 0 23
  exact ":"
  let m ← twoDigits 0 59
  let s ← maybe seconds
  return h ++ ':' :: m ++ s.getD []

/-- The distance from universal time; none at all counts as positive. -/
def offset : Reader (List Char) :=
  either (do either (exact "Z") (exact "z"); return ['Z'])
    (do
      let mark ← one fun c => c == '+' || c == '-'
      let h ← twoDigits 0 23
      exact ":"
      let m ← twoDigits 0 59
      let mark := if valueOf (h ++ m) = 0 then '+' else mark
      return mark :: h ++ ':' :: m)

def timeBehindDate : Reader (List Char) := do
  let _ ← one fun c => c == 'T' || c == 't' || c == ' '
  let t ← time
  let o ← maybe offset
  return 'T' :: t ++ o.getD []

def momentText : Reader (List Char) :=
  either
    (do
      let d ← date
      let t ← maybe timeBehindDate
      return d ++ t.getD [])
    time

/-- The name of the one field of a record that stands for a moment. -/
def momentKey : String := "$__toml_private_datetime"

def moment : Reader Value := do
  let s ← momentText
  return .record [(momentKey, .ofChars s)]

end ViewRendering.Toml
