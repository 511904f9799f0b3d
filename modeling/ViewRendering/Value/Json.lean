import ViewRendering.Value
import ViewRendering.Text.Scan

/-!
Values as JSON texts. Reading names the first fault and the place of it, counted in
lines and octets; writing has a compact and an indented form. Records are read with
their fields in order, and of two fields with one name the later wins.
-/
namespace ViewRendering.Value.Json

inductive Fault where
  | endInValue
  | endInText
  | endInList
  | endInRecord
  | expectedValue
  | expectedWord
  | expectedColon
  | expectedListEnd
  | expectedRecordEnd
  | keyNotText
  | trailingComma
  | trailingCharacters
  | invalidNumber
  | numberOutOfRange
  | invalidEscape
  | controlCharacter
  | loneSurrogate
  | endOfEscape
  | tooDeep
deriving DecidableEq, Repr

def Fault.message : Fault → String
  | .endInValue => "EOF while parsing a value"
  | .endInText => "EOF while parsing a string"
  | .endInList => "EOF while parsing a list"
  | .endInRecord => "EOF while parsing an object"
  | .expectedValue => "expected value"
  | .expectedWord => "expected ident"
  | .expectedColon => "expected `:`"
  | .expectedListEnd => "expected `,` or `]`"
  | .expectedRecordEnd => "expected `,` or `\x7d`"
  | .keyNotText => "key must be a string"
  | .trailingComma => "trailing comma"
  | .trailingCharacters => "trailing characters"
  | .invalidNumber => "invalid number"
  | .numberOutOfRange => "number out of range"
  | .invalidEscape => "invalid escape"
  | .controlCharacter => "control character (\\u0000-\\u001F) found while parsing a string"
  | .loneSurrogate => "lone leading surrogate in hex escape"
  | .endOfEscape => "unexpected end of hex escape"
  | .tooDeep => "recursion limit exceeded"

/-- A fault with the text that was left when it was found. A fault found by looking at the next
character counts that character as read. -/
structure Refusal where
  fault : Fault
  rest : List Char
  ahead : Bool

abbrev Reader (α : Type) := List Char → Except Refusal (α × List Char)

def behind {α : Type} (fault : Fault) (rest : List Char) : Except Refusal α :=
  .error ⟨fault, rest, false⟩

def atNext {α : Type} (fault : Fault) (rest : List Char) : Except Refusal α :=
  .error ⟨fault, rest, true⟩

def isBlank (c : Char) : Bool := c == ' ' || c == '\n' || c == '\t' || c == '\r'

def skip (s : List Char) : List Char := s.dropWhile isBlank

def word (letters : List Char) : List Char → Except Refusal (List Char) :=
  match letters with
  | [] => fun s => .ok s
  | l :: ls => fun s =>
    match s with
    | [] => behind .endInValue []
    | c :: s => if c = l then word ls s else behind .expectedWord s

def hexValue (c : Char) : Option Nat :=
  if c.isDigit then some (c.toNat - 48)
  else if 'a' ≤ c ∧ c ≤ 'f' then some (c.toNat - 87)
  else if 'A' ≤ c ∧ c ≤ 'F' then some (c.toNat - 55)
  else none

/-- Four hexadecimal digits; the digits are cut off by octets. -/
def hex4 (s : List Char) : Except Refusal (Nat × List Char) :=
  match s with
  | a :: b :: c :: d :: rest =>
    match hexValue a, hexValue b, hexValue c, hexValue d with
    | some a, some b, some c, some d => .ok (a * 4096 + b * 256 + c * 16 + d, rest)
    | _, _, _, _ => behind .invalidEscape rest
  | _ => behind .endInText []

/-- The character of a `\u` escape; two halves of a pair make one character. -/
def codeEscape (s : List Char) : Except Refusal (Char × List Char) := do
  let (n, s) ← hex4 s
  if 0xDC00 ≤ n ∧ n ≤ 0xDFFF then behind .loneSurrogate s
  else if n < 0xD800 ∨ 0xDBFF < n then return (Char.ofNat n, s)
  else
    match s with
    | [] => behind .endInText []
    | '\\' :: s =>
      match s with
      | [] => behind .endInText []
      | 'u' :: s => do
        let (m, s) ← hex4 s
        if m < 0xDC00 ∨ 0xDFFF < m then behind .loneSurrogate s
        else return (Char.ofNat (0x10000 + (n - 0xD800) * 0x400 + (m - 0xDC00)), s)
      | _ :: s => behind .endOfEscape s
    | _ :: s => behind .endOfEscape s

def escape (s : List Char) : Except Refusal (Char × List Char) :=
  match s with
  | [] => behind .endInText []
  | '"' :: s => .ok ('"', s)
  | '\\' :: s => .ok ('\\', s)
  | '/' :: s => .ok ('/', s)
  | 'b' :: s => .ok (Char.ofNat 8, s)
  | 'f' :: s => .ok (Char.ofNat 12, s)
  | 'n' :: s => .ok ('\n', s)
  | 'r' :: s => .ok ('\r', s)
  | 't' :: s => .ok ('\t', s)
  | 'u' :: s => codeEscape s
  | _ :: s => behind .invalidEscape s

/-- The characters up to the closing quote; `done` holds those read, last first. -/
def textBody : Nat → List Char → Reader String
  | 0, _, _ => behind .endInText []
  | _ + 1, _, [] => behind .endInText []
  | n + 1, done, c :: s =>
    if c = '"' then .ok (String.ofList done.reverse, s)
    else if c = '\\' then do
      let (d, s) ← escape s
      textBody n (d :: done) s
    else if c.toNat < 0x20 then behind .controlCharacter s
    else textBody n (c :: done) s

def readText (s : List Char) : Except Refusal (String × List Char) := textBody (s.length + 1) [] s

/-- `significand · 10 ^ exponent` by one multiplication or division, the way numbers with a point
or an exponent are read. -/
def scaleReal : Nat → Float → Int → List Char → Except Refusal Float
  | 0, f, _, _ => .ok f
  | n + 1, f, e, rest =>
    if e.natAbs ≤ 308 then
      let p := Float.ofScientific 1 false e.natAbs
      if 0 ≤ e then
        let g := f * p
        if g.isInf then behind .numberOutOfRange rest else .ok g
      else .ok (f / p)
    else if f == 0 then .ok f
    else if 0 ≤ e then behind .numberOutOfRange rest
    else scaleReal n (f / Float.ofScientific 1 false 308) (e + 308) rest

def real (negative : Bool) (significand : Nat) (e : Int) (rest : List Char) :
    Except Refusal (Number × List Char) := do
  let f ← scaleReal (e.natAbs / 308 + 2) (Float.ofNat significand) e rest
  return (.real (if negative then -f else f), rest)

/-- Digits added to a number below `limit`; what does not fit is left unread. -/
def digitsBelow (limit : Nat) : Nat → Nat → List Char → Nat × Nat × List Char
  | n, count, [] => (n, count, [])
  | n, count, c :: s =>
    if c.isDigit && n * 10 + (c.toNat - 48) < limit then
      digitsBelow limit (n * 10 + (c.toNat - 48)) (count + 1) s
    else (n, count, c :: s)

def exponent (negative : Bool) (significand : Nat) (start : Int) (s : List Char) :
    Except Refusal (Number × List Char) :=
  let (down, s) := match s with
    | '+' :: s => (false, s)
    | '-' :: s => (true, s)
    | s => (false, s)
  match s with
  | [] => behind .endInValue []
  | c :: s =>
    if !c.isDigit then behind .invalidNumber s
    else
      let (e, _, s) := digitsBelow 0x80000000 (c.toNat - 48) 0 s
      match s with
      | d :: s' =>
        if d.isDigit then
          if significand ≠ 0 ∧ !down then behind .numberOutOfRange s'
          else .ok (.real (if negative then -0.0 else 0.0), s'.dropWhile Char.isDigit)
        else real negative significand (if down then start - e else start + e) s
      | [] => real negative significand (if down then start - e else start + e) s

def realTail (negative : Bool) (significand : Nat) (e : Int) (s : List Char) :
    Except Refusal (Number × List Char) :=
  match s with
  | 'e' :: s => exponent negative significand e s
  | 'E' :: s => exponent negative significand e s
  | s => real negative significand e s

/-- The digits after a point; those that no longer fit are ignored. -/
def fraction (negative : Bool) (significand : Nat) (start : Int) (s : List Char) :
    Except Refusal (Number × List Char) :=
  let (n, count, s') := digitsBelow Number.unsignedEnd significand 0 s
  match s' with
  | c :: _ =>
    if c.isDigit then realTail negative n (start - count) (s'.dropWhile Char.isDigit)
    else if count = 0 then atNext .invalidNumber s'
    else realTail negative n (start - count) s'
  | [] => if count = 0 then atNext .endInValue [] else realTail negative n (start - count) []

def number (negative : Bool) (s : List Char) : Except Refusal (Number × List Char) :=
  match s with
  | [] => behind .endInValue []
  | c :: s =>
    if !c.isDigit then behind .invalidNumber s
    else
      let (n, _, s') :=
        if c = '0' then (0, 0, s) else digitsBelow Number.unsignedEnd (c.toNat - 48) 0 s
      let whole : Number :=
        if !negative then .whole n
        else if n = 0 then .real (-0.0)
        else if n ≤ Number.signedEnd then .whole (-(n : Int))
        else .real (-(Float.ofNat n))
      match s' with
      | [] => .ok (whole, [])
      | d :: r =>
        if d = '.' then fraction negative n 0 r
        else if d = 'e' ∨ d = 'E' then exponent negative n 0 r
        else if d.isDigit then
          if c = '0' then atNext .invalidNumber s'
          else
            let extra := s'.takeWhile Char.isDigit
            match s'.dropWhile Char.isDigit with
            | '.' :: t => fraction negative n extra.length t
            | t => realTail negative n extra.length t
        else .ok (whole, s')

mutual

/-- One value; `depth` bounds how far lists and records may still be nested. -/
def value : Nat → Nat → Reader Value
  | 0, _, s => behind .tooDeep s
  | n + 1, depth, s =>
    match skip s with
    | [] => atNext .endInValue []
    | 'n' :: r => (word ['u', 'l', 'l'] r).map fun r => (.null, r)
    | 't' :: r => (word ['r', 'u', 'e'] r).map fun r => (.bool true, r)
    | 'f' :: r => (word ['a', 'l', 's', 'e'] r).map fun r => (.bool false, r)
    | '-' :: r => (number true r).map fun p => (.number p.1, p.2)
    | '"' :: r => (readText r).map fun p => (.text p.1, p.2)
    | '[' :: r =>
      if depth ≤ 1 then atNext .tooDeep ('[' :: r)
      else (items n (depth - 1) true [] r).map fun p => (.list p.1, p.2)
    | '\x7b' :: r =>
      if depth ≤ 1 then atNext .tooDeep ('\x7b' :: r)
      else (fields n (depth - 1) true [] r).map fun p => (.record p.1, p.2)
    | c :: r =>
      if c.isDigit then (number false (c :: r)).map fun p => (.number p.1, p.2)
      else atNext .expectedValue (c :: r)

def items : Nat → Nat → Bool → List Value → Reader (List Value)
  | 0, _, _, _, s => behind .tooDeep s
  | n + 1, depth, first, done, s =>
    match skip s with
    | [] => atNext .endInList []
    | ']' :: r => .ok (done.reverse, r)
    | c :: r =>
      if first then do
        let (v, r) ← value n depth (c :: r)
        items n depth false (v :: done) r
      else if c = ',' then
        match skip r with
        | ']' :: r => atNext .trailingComma (']' :: r)
        | [] => atNext .endInValue []
        | r => do
          let (v, r) ← value n depth r
          items n depth false (v :: done) r
      else atNext .expectedListEnd (c :: r)

def fields : Nat → Nat → Bool → Dict Value → Reader (Dict Value)
  | 0, _, _, _, s => behind .tooDeep s
  | n + 1, depth, first, done, s =>
    match skip s with
    | [] => atNext .endInRecord []
    | '\x7d' :: r => .ok (done, r)
    | c :: r =>
      if first then
        if c = '"' then do
          let (e, r) ← field n depth r
          fields n depth false (done.insert e.1 e.2) r
        else atNext .keyNotText (c :: r)
      else if c = ',' then
        match skip r with
        | [] => atNext .endInValue []
        | '"' :: r => do
          let (e, r) ← field n depth r
          fields n depth false (done.insert e.1 e.2) r
        | '\x7d' :: r => atNext .trailingComma ('\x7d' :: r)
        | r => atNext .keyNotText r
      else atNext .expectedRecordEnd (c :: r)

def field : Nat → Nat → Reader (String × Value)
  | 0, _, s => behind .tooDeep s
  | n + 1, depth, s => do
    let (key, r) ← readText s
    match skip r with
    | [] => atNext .endInRecord []
    | ':' :: r => do
      let (v, r) ← value n depth r
      return ((key, v), r)
    | r => atNext .expectedColon r

end

/-- Line and column of a fault: one more than the lines ended before it, and the octets read of
its line. A character that was only looked at counts as one octet, or as the end of its line. -/
def position (s : List Char) (r : Refusal) : Nat × Nat :=
  let seen := s.take (s.length - r.rest.length)
  let line := Text.lineEnds seen + 1
  let column := Text.utf8Size (seen.reverse.takeWhile (· ≠ '\n'))
  match r.ahead, r.rest with
  | true, '\n' :: _ => (line + 1, 0)
  | true, _ :: _ => (line, column + 1)
  | _, _ => (line, column)

def Refusal.message (s : List Char) (r : Refusal) : String :=
  let (line, column) := position s r
  s!"{r.fault.message} at line {line} column {column}"

def depthLimit : Nat := 128

def read (s : List Char) : Except Refusal Value := do
  let (v, r) ← value (4 * s.length + 8) depthLimit s
  match skip r with
  | [] => return v
  | r => atNext .trailingCharacters r

def parse (s : String) : Except String Value :=
  (read s.toList).mapError (Refusal.message s.toList)

def hexDigit (n : Nat) : Char := if n < 10 then Char.ofNat (48 + n) else Char.ofNat (87 + n)

def writeChar (c : Char) : List Char :=
  if c = '"' then ['\\', '"']
  else if c = '\\' then ['\\', '\\']
  else if c.toNat = 8 then ['\\', 'b']
  else if c.toNat = 12 then ['\\', 'f']
  else if c = '\n' then ['\\', 'n']
  else if c = '\r' then ['\\', 'r']
  else if c = '\t' then ['\\', 't']
  else if c.toNat < 0x20 then
    ['\\', 'u', '0', '0', hexDigit (c.toNat / 16), hexDigit (c.toNat % 16)]
  else [c]

def writeText (s : String) : List Char := '"' :: s.toList.flatMap writeChar ++ ['"']

def writeNumber (n : Number) : List Char := n.write .data

mutual

def write : Value → List Char
  | .null => "null".toList
  | .bool b => if b then "true".toList else "false".toList
  | .number n => writeNumber n
  | .text s => writeText s
  | .list xs => '[' :: writeItems xs ++ [']']
  | .record xs => '\x7b' :: writeFields xs ++ ['\x7d']

def writeItems : List Value → List Char
  | [] => []
  | [x] => write x
  | x :: y :: xs => write x ++ ',' :: writeItems (y :: xs)

def writeFields : List (String × Value) → List Char
  | [] => []
  | [(k, x)] => writeText k ++ ':' :: write x
  | (k, x) :: y :: xs => writeText k ++ ':' :: (write x ++ ',' :: writeFields (y :: xs))

end

def lineStart (level : Nat) : List Char := '\n' :: List.replicate (2 * level) ' '

mutual

def pretty (level : Nat) : Value → List Char
  | .list [] => ['[', ']']
  | .list (x :: xs) => '[' :: prettyItems (level + 1) (x :: xs) ++ lineStart level ++ [']']
  | .record [] => ['\x7b', '\x7d']
  | .record (x :: xs) => '\x7b' :: prettyFields (level + 1) (x :: xs) ++ lineStart level ++ ['\x7d']
  | .null => write .null
  | .bool b => write (.bool b)
  | .number n => write (.number n)
  | .text s => write (.text s)

def prettyItems (level : Nat) : List Value → List Char
  | [] => []
  | [x] => lineStart level ++ pretty level x
  | x :: y :: xs => lineStart level ++ pretty level x ++ ',' :: prettyItems level (y :: xs)

def prettyFields (level : Nat) : List (String × Value) → List Char
  | [] => []
  | [(k, x)] => lineStart level ++ writeText k ++ ':' :: ' ' :: pretty level x
  | (k, x) :: y :: xs =>
    lineStart level ++ writeText k ++ ':' :: ' ' :: pretty level x ++
      ',' :: prettyFields level (y :: xs)

end

def toText (v : Value) : String := String.ofList (write v)

def toPrettyText (v : Value) : String := String.ofList (pretty 0 v)

end ViewRendering.Value.Json
