import ViewRendering.Text.Reader
import ViewRendering.Value.Json

/-!
The scalars of TOML documents: texts in four spellings, whole numbers in four bases,
real numbers and truth values. A whole number has to fit into 64 bits with a sign, and
a real number has to be finite unless it is spelled otherwise.
-/
namespace ViewRendering.Toml

open ViewRendering.Reader

def one (p : Char → Bool) : Reader Char := fun s =>
  match s with
  | c :: r => if p c then some (c, r) else none
  | [] => none

/-- Characters that may stand in comments and literal texts: no controls but the tab. -/
def isPlain (c : Char) : Bool := c == '\t' || (0x20 ≤ c.toNat && c.toNat != 0x7F)

def isBlank (c : Char) : Bool := c == ' ' || c == '\t'

def blanks : Reader Unit := fun s => some ((), s.dropWhile isBlank)

def newline : Reader Unit := either (exact "\n") (exact "\r\n")

def hexDigits : Nat → Reader Nat
  | 0 => return 0
  | n + 1 => fun s =>
    match s with
    | c :: r =>
      match Value.Json.hexValue c with
      | some d => (hexDigits n r).map fun q => (d * Nat.pow 16 n + q.1, q.2)
      | none => none
    | [] => none

def coded (n : Nat) : Reader Char := do
  let k ← hexDigits n
  if k < 0xD800 ∨ (0xE000 ≤ k ∧ k < 0x110000) then return Char.ofNat k else refuse

def escaped : Reader Char :=
  firstOf [do exact "b"; return Char.ofNat 8, do exact "t"; return '\t', do exact "n"; return '\n',
    do exact "f"; return Char.ofNat 12, do exact "r"; return '\r',
    do exact "e"; return Char.ofNat 27,
    do exact "\""; return '"', do exact "\\"; return '\\',
    do exact "u"; coded 4, do exact "U"; coded 8, do exact "x"; coded 2]

def basicChar : Reader Char :=
  either (do exact "\\"; escaped) (one fun c => isPlain c && c != '"' && c != '\\')

def basicText : Reader (List Char) := do
  exact "\""
  let s ← many basicChar
  exact "\""
  return s

def literalText : Reader (List Char) := do
  exact "'"
  let s ← many (one fun c => isPlain c && c != '\'')
  exact "'"
  return s

/-- A backslash at the end of a line with the white space behind it, which all means nothing. -/
def lineJoin : Reader Unit := do
  exact "\\"
  blanks
  newline
  let _ ← many (either newline (do let _ ← one isBlank))

/-- A piece of a text of several lines: one or two quotes may stand in it. -/
def linesPiece (quote : Char) (spelled : Bool) : Reader (List Char) :=
  let plain : Reader (List Char) := do
    let c ← one fun c => isPlain c && c != quote && !(spelled && c == '\\')
    return [c]
  let lineEnd : Reader (List Char) := sourceOf newline
  let special : Reader (List Char) :=
    if spelled then
      either (do lineJoin; return []) (do exact "\\"; let c ← escaped; return [c])
    else refuse
  firstOf [plain, lineEnd, special]

/-- The body of a text of several lines with its closing quotes; two quotes more than those belong
to the text. -/
def linesBody (quote : Char) (spelled : Bool) : Nat → Reader (List Char)
  | 0, _ => none
  | n + 1, s =>
    let quotes := (s.takeWhile (· == quote)).length
    if 3 ≤ quotes then
      let taken := min quotes 5
      some (List.replicate (taken - 3) quote, s.drop taken)
    else if 0 < quotes then
      (linesBody quote spelled n (s.drop quotes)).map fun q =>
        (List.replicate quotes quote ++ q.1, q.2)
    else
      (linesPiece quote spelled s).bind fun p =>
        (linesBody quote spelled n p.2).map fun q => (p.1 ++ q.1, q.2)

/-- A text of several lines; a line end right behind the opening quotes does not count. -/
def linesText (quote : Char) (spelled : Bool) : Reader (List Char) := do
  exact (String.ofList [quote, quote, quote])
  let _ ← maybe newline
  fun s => linesBody quote spelled (s.length + 1) s

def text : Reader Value := do
  let s ← firstOf [linesText '"' true, linesText '\'' false, basicText, literalText]
  return .ofChars s

def boolean : Reader Value :=
  either (do exact "true"; return .bool true) (do exact "false"; return .bool false)

def spacedDigits (p : Char → Bool) : Reader (List Char) := do
  let first ← one p
  let rest ← many (do let _ ← maybe (exact "_"); one p)
  return first :: rest

def leadingDigits : Reader (List Char) := fun s =>
  match spacedDigits Char.isDigit s with
  | some (ds, r) => if 1 < ds.length && ds.head? == some '0' then none else some (ds, r)
  | none => none

def sign : Reader Bool :=
  firstOf [do exact "-"; return true, do exact "+"; return false, pure false]

def based (m : String) (base : Nat) : Reader Int := do
  exact m
  let ds ← spacedDigits fun c => (Value.Json.hexValue c).any (· < base)
  return ds.foldl (fun (n : Int) c => n * base + (Value.Json.hexValue c).getD 0) 0

def decimal : Reader Int := do
  let negative ← sign
  let ds ← leadingDigits
  let n : Int := valueOf ds
  return if negative then -n else n

def whole : Reader Value := do
  let n ← firstOf [based "0x" 16, based "0o" 8, based "0b" 2, decimal]
  if Number.isSigned64 n then return .number (.whole n) else refuse

def exponent : Reader Int := do
  either (exact "e") (exact "E")
  let negative ← sign
  let ds ← spacedDigits Char.isDigit
  let n : Int := valueOf ds
  return if negative then -n else n

def scaled (negative : Bool) (significand : Nat) (power : Int) : Float :=
  let x := match max (-5000) (min 5000 power) with
    | .ofNat k => Float.ofScientific significand false k
    | .negSucc k => Float.ofScientific significand true (k + 1)
  if negative then -x else x

def real : Reader Value := do
  let negative ← sign
  let ds ← leadingDigits
  let fs ← maybe (do exact "."; spacedDigits Char.isDigit)
  let e ← maybe exponent
  if fs.isNone && e.isNone then refuse
  let fraction := fs.getD []
  let x := scaled negative (valueOf (ds ++ fraction)) (e.getD 0 - (fraction.length : Int))
  if x.isFinite then return .number (.real x) else refuse

def unbounded : Reader Value := do
  let negative ← sign
  let x ← either (do exact "inf"; return (1.0 / 0.0 : Float))
    (do exact "nan"; return (0.0 / 0.0 : Float))
  return .number (.real (if negative then -x else x))

end ViewRendering.Toml
