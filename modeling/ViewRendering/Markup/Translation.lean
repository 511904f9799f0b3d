import ViewRendering.Markup.Segment

/-!
A marked page rewritten for the template language. Each tag that writes something
becomes one construct of the language, and all other text is protected: a brace that
could begin a construct is written as an expression that yields it.
-/
namespace ViewRendering.Markup

def braceMark : List Char := "\x7b\x7b \"\x7b\" \x7d\x7d".toList

/-- Whether a brace in front of this text could begin a construct; at the end of a literal run
the next character may be that of a construct. -/
def opensConstruct : List Char → Bool
  | [] => true
  | c :: _ => c == '\x7b' || c == '%' || c == '#'

def protect : List Char → List Char
  | [] => []
  | c :: s =>
    if c = '\x7b' ∧ opensConstruct s then braceMark ++ protect s else c :: protect s

/-- The name that holds unescaped output on its way to the page. -/
def rawName : List Char := "__viewpress_raw".toList

def construct (mode : Mode) (code : List Char) : List Char :=
  match mode with
  | .escaped => "\x7b\x7b ".toList ++ code ++ " \x7d\x7d".toList
  | .raw =>
    "\x7b% set ".toList ++ rawName ++ " = ".toList ++ code ++ " %\x7d\x7b\x7b ".toList ++ rawName ++
      " | safe \x7d\x7d".toList
  | .statement => "\x7b% ".toList ++ code ++ " %\x7d".toList
  | .comment => []

def Segment.literalText (d : Delimiters) : Segment → List Char
  | .literal s => s
  | .escapedOpening => d.opening
  | .tag _ => []

def Segment.construct? : Segment → Option (List Char)
  | .tag t => if t.isSilent then none else some (construct t.mode t.code)
  | _ => none

/-- The segments in template syntax; `pending` is literal text not yet written. -/
def assemble (d : Delimiters) (pending : List Char) : List Segment → List Char
  | [] => protect pending
  | s :: rest =>
    match s.construct? with
    | some c => protect pending ++ (c ++ assemble d [] rest)
    | none => assemble d (pending ++ s.literalText d) rest

structure Unclosed where
  delimiters : Delimiters
  /-- The line of the opening delimiter, counted from one. -/
  line : Nat
deriving DecidableEq, Repr

namespace Unclosed

def message (e : Unclosed) : String :=
  s!"code region opened with '{String.ofList e.delimiters.opening}'" ++
    s!" is never closed with '{String.ofList e.delimiters.closing}'"

def display (e : Unclosed) : String := s!"{e.message} (line {e.line})"

end Unclosed

/-- The line on which the last `rest` characters of a page begin. -/
def lineBefore (page rest : List Char) : Nat :=
  Text.lineEnds (page.take (page.length - rest.length)) + 1

def translate (d : Delimiters) (page : List Char) : Except Unclosed (List Char) :=
  match (scan d page).unclosed with
  | some rest => .error ⟨d, lineBefore page rest⟩
  | none => .ok (assemble d [] (scan d page).segments)

end ViewRendering.Markup
