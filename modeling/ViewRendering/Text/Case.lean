import ViewRendering.Text.CaseTable
import ViewRendering.Text.WordTable

/-!
Capital and small forms of texts by the full Unicode case mapping. A character may
become several, and a capital sigma that closes a word becomes the final sigma.
Below 128 the forms are those of the Latin alphabet.
-/
namespace ViewRendering.Text

def CaseRun.shift? (n : Nat) : CaseRun → Option Nat
  | (first, last, step, shift) =>
    if first ≤ n ∧ n ≤ last ∧ (n - first) % step = 0 then some (Int.toNat (n + shift)) else none

def upperOf (c : Char) : List Char :=
  if c.toNat < 128 then [c.toUpper]
  else
    match longUppers.find? (·.1 == c.toNat) with
    | some (_, form) => form.map Char.ofNat
    | none => [(upperRuns.findSome? (CaseRun.shift? c.toNat)).elim c Char.ofNat]

def lowerOf (c : Char) : List Char :=
  if c.toNat < 128 then [c.toLower]
  else if c.toNat = 0x130 then ['i', Char.ofNat 0x307]
  else [(lowerRuns.findSome? (CaseRun.shift? c.toNat)).elim c Char.ofNat]

def upper (s : List Char) : List Char := s.flatMap upperOf

def isCased (c : Char) : Bool := upperOf c != [c] || lowerOf c != [c]

/-- Marks that do not end a word for the choice of sigma. -/
def isCaseIgnorable (c : Char) : Bool :=
  let n := c.toNat
  "'.:^`".contains c || n == 0xA8 || n == 0xAD || n == 0xAF || n == 0xB4 || n == 0xB7 ||
    n == 0xB8 || (0x2B0 ≤ n && n ≤ 0x36F) || n == 0x387 || (0x483 ≤ n && n ≤ 0x489) ||
    (0x591 ≤ n && n ≤ 0x5C7) || (0x64B ≤ n && n ≤ 0x65F) || (0x1AB0 ≤ n && n ≤ 0x1AFF) ||
    (0x1DC0 ≤ n && n ≤ 0x1DFF) || (0x200B ≤ n && n ≤ 0x200F) || n == 0x2018 || n == 0x2019 ||
    n == 0x2024 || n == 0x2027 || (0x20D0 ≤ n && n ≤ 0x20F0) || (0xFE00 ≤ n && n ≤ 0xFE0F) ||
    (0xFE20 ≤ n && n ≤ 0xFE2F) || n == 0xFEFF

/-- Whether the nearest character that matters for case is a letter with case. -/
def touchesCased (s : List Char) : Bool := (s.dropWhile isCaseIgnorable).head?.any isCased

/-- Small forms from the left, given the characters before in reverse order. -/
def lowerAfter (before : List Char) : List Char → List Char
  | [] => []
  | c :: s =>
    (if c.toNat = 0x3A3 then
      [Char.ofNat (if touchesCased before && !touchesCased s then 0x3C2 else 0x3C3)]
     else lowerOf c) ++ lowerAfter (c :: before) s

def lower (s : List Char) : List Char := lowerAfter [] s

/-- Whether two texts differ at most in the case of Latin letters below 128. -/
def sameLetters (s t : List Char) : Bool := s.map Char.toLower == t.map Char.toLower

def isWord (c : Char) : Bool :=
  if c.toNat < 128 then c.isAlphanum || c == '_'
  else wordRuns.any fun r => r.1 ≤ c.toNat && c.toNat ≤ r.2

end ViewRendering.Text
