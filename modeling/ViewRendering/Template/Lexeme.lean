import ViewRendering.Template.Expression
import ViewRendering.Text.Reader

/-!
Readers of the smallest parts of the template language: marks, words, names, numbers
and quoted texts. Blanks may stand in front of a mark, but not inside of a path.
-/
namespace ViewRendering.Template

open ViewRendering.Reader

namespace Reader

def isBlank (c : Char) : Bool := c == ' ' || c == '\t' || c == '\r' || c == '\n'

def blanks : Reader Unit := fun s => some ((), s.dropWhile isBlank)

def someBlanks : Reader Unit := fun s =>
  match s with
  | c :: r => if isBlank c then some ((), r.dropWhile isBlank) else none
  | [] => none

def mark (m : String) : Reader Unit := do blanks; exact m

def isNameStart (c : Char) : Bool := c.isAlpha || c == '_'

def isNamePart (c : Char) : Bool := c.isAlphanum || c == '_'

def name : Reader String := fun s =>
  match s with
  | c :: r =>
    if isNameStart c then
      some (String.ofList (c :: r.takeWhile isNamePart), r.dropWhile isNamePart)
    else none
  | [] => none

def nameParts : Reader Unit := fun s =>
  match s with
  | c :: r => if isNamePart c then some ((), r.dropWhile isNamePart) else none
  | [] => none

/-- The digits of a whole number: no zeros in front. -/
def wholeDigits : Reader (List Char) := fun s =>
  match s with
  | '0' :: r => some (['0'], r)
  | c :: _ => if c.isDigit then some (s.takeWhile Char.isDigit, s.dropWhile Char.isDigit) else none
  | [] => none

def sign : Reader Bool := do
  let minus ← maybe (exact "-")
  return minus.isSome

def whole : Reader Term := do
  let negative ← sign
  let ds ← wholeDigits
  let n : Int := valueOf ds
  return .whole (if negative then -n else n)

def real : Reader Term := do
  let negative ← sign
  let ds ← wholeDigits
  exact "."
  let fs ← digits
  let x := Float.ofScientific (valueOf (ds ++ fs)) true fs.length
  return .real (if negative then -x else x)

def between (quote : Char) : Reader (List Char) := fun s =>
  match s with
  | c :: r =>
    if c = quote then
      match r.dropWhile (· ≠ quote) with
      | _ :: rest => some (r.takeWhile (· ≠ quote), rest)
      | [] => none
    else none
  | [] => none

def quotedText : Reader String := do
  let s ← firstOf [between '"', between '\'', between (Char.ofNat 96)]
  return String.ofList s

def boolean : Reader Term :=
  firstOf [do exact "true"; return .bool true, do exact "false"; return .bool false,
    do exact "True"; return .bool true, do exact "False"; return .bool false]

/-- A path: a name with fields behind points and keys in square brackets. A key may be a path
again, nested below the given depth. -/
def pathBelow : Nat → Reader Unit
  | 0, _ => none
  | n + 1, s =>
    let key : Reader Unit := do
      exact "["
      firstOf [do let _ ← whole, do let _ ← quotedText, pathBelow n]
      exact "]"
    let more : Reader Unit := either (do exact "."; nameParts) key
    (do
      let _ ← name
      let _ ← many more
      : Reader Unit) s

def path : Reader String := do
  let s ← sourceOf (fun s => pathBelow s.length s)
  return String.ofList s

end Reader

end ViewRendering.Template
