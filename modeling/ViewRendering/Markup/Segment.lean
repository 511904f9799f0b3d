import ViewRendering.Text.Scan
import ViewRendering.Text.Space

/-!
A marked page as a sequence of segments: literal text, escaped opening delimiters,
and tags between an opening and a closing delimiter. Scanning goes from left to
right and loses nothing: the segments and the unclosed rest, put together, are the
page again.
-/
namespace ViewRendering.Markup

structure Delimiters where
  opening : List Char
  closing : List Char
deriving DecidableEq, Repr

inductive Mode where
  | escaped
  | raw
  | comment
  | statement
deriving DecidableEq, Repr

/-- A code region: the text between its delimiters and the line end it drops after itself. -/
structure Tag where
  inside : List Char
  newline : List Char
deriving DecidableEq, Repr

inductive Segment where
  | literal (s : List Char)
  | escapedOpening
  | tag (t : Tag)
deriving DecidableEq, Repr

def modeOf : List Char → Mode × List Char
  | '=' :: s => (.escaped, s)
  | '-' :: s => (.raw, s)
  | '#' :: s => (.comment, s)
  | s => (.statement, s)

def withoutTrimMark (s : List Char) : List Char × Bool :=
  match s.reverse with
  | '-' :: r => (r.reverse, true)
  | _ => (s, false)

namespace Tag

def mode (t : Tag) : Mode := (modeOf t.inside).1

/-- The code of a tag, without its marks and the blanks around it. -/
def code (t : Tag) : List Char := Text.trim (withoutTrimMark (modeOf t.inside).2).1

/-- Whether the tag writes nothing into the page: a comment or a blank. -/
def isSilent (t : Tag) : Bool := t.mode = .comment || t.code.isEmpty

end Tag

def cutNewline : List Char → List Char × List Char
  | '\r' :: '\n' :: s => (['\r', '\n'], s)
  | '\n' :: s => (['\n'], s)
  | s => ([], s)

theorem eq_append_cutNewline (s : List Char) : s = (cutNewline s).1 ++ (cutNewline s).2 := by
  unfold cutNewline
  split <;> simp

/-- A tag with the given inside, and the text after it: a trim marker drops one line end. -/
def tagBefore (inside rest : List Char) : Tag × List Char :=
  if (withoutTrimMark (modeOf inside).2).2 then
    (⟨inside, (cutNewline rest).1⟩, (cutNewline rest).2)
  else (⟨inside, []⟩, rest)

inductive Step where
  | noOpening
  | unclosed (before rest : List Char)
  | marked (before : List Char) (segment : Segment) (rest : List Char)
deriving DecidableEq, Repr

/-- An opening followed by a percent sign is escaped; any other opens a tag up to the next
closing delimiter. -/
def step (d : Delimiters) (s : List Char) : Step :=
  match Text.cut? d.opening s with
  | none => .noOpening
  | some (before, '%' :: rest) => .marked before .escapedOpening rest
  | some (before, rest) =>
    match Text.cut? d.closing rest with
    | none => .unclosed before (d.opening ++ rest)
    | some (inside, rest) =>
      .marked before (.tag (tagBefore inside rest).1) (tagBefore inside rest).2

/-- The segments of a text and, if a tag is never closed, the text from its opening on. -/
structure Scan where
  segments : List Segment
  unclosed : Option (List Char)
deriving DecidableEq, Repr

/-- Scans until no opening is left; a step that reads nothing ends the scan. -/
def scan (d : Delimiters) (s : List Char) : Scan :=
  match step d s with
  | .noOpening => ⟨[.literal s], none⟩
  | .unclosed before rest => ⟨[.literal before], some rest⟩
  | .marked before segment rest =>
    if rest.length < s.length then
      ⟨.literal before :: segment :: (scan d rest).segments, (scan d rest).unclosed⟩
    else ⟨[.literal before, segment], none⟩
termination_by s.length

def Segment.source (d : Delimiters) : Segment → List Char
  | .literal s => s
  | .escapedOpening => d.opening ++ ['%']
  | .tag t => d.opening ++ (t.inside ++ (d.closing ++ t.newline))

end ViewRendering.Markup
