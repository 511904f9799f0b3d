import ViewRendering.Template.ExpressionReader
import ViewRendering.Template.Node
import ViewRendering.Text.Space

/-!
Reading templates. Text runs up to the next mark that opens output, a tag or a
comment; a dash inside a mark removes the white space next to it. What may stand in a
body depends on what the body belongs to.
-/
namespace ViewRendering.Template

open ViewRendering.Reader

inductive Place where
  | top
  | block
  | loop
  | macroBody
  | filterBody
deriving DecidableEq, Repr

namespace Reader

def opensNode : List Char → Bool
  | '\x7b' :: c :: _ => c == '\x7b' || c == '%' || c == '#'
  | _ => false

def plainText : List Char → List Char × List Char
  | [] => ([], [])
  | c :: s =>
    if opensNode (c :: s) then ([], c :: s)
    else
      let (t, r) := plainText s
      (c :: t, r)

def opening (m : String) : Reader Bool :=
  either (do exact m; exact "-"; return true) (do exact m; return false)

def closing (m : String) : Reader Bool := do
  blanks
  either (do exact "-"; exact m; return true) (do exact m; return false)

def tagEnd : Reader Bool := closing "%\x7d"

/-- A tag that is a single word: the dashes of its two marks. -/
def plainTag (w : String) : Reader (Bool × Bool) := do
  let l ← opening "\x7b%"
  mark w
  let r ← tagEnd
  return (l, r)

def endTag (w : String) : Reader (Bool × Bool) := do
  let l ← opening "\x7b%"
  mark w
  let _ ← maybe (do someBlanks; name)
  let r ← tagEnd
  return (l, r)

def tagStart (w : String) : Reader Unit := do
  let _ ← opening "\x7b%"
  mark w
  someBlanks

def commentBody : List Char → Option (Bool × List Char)
  | [] => none
  | '-' :: '#' :: '\x7d' :: r => some (true, r)
  | '#' :: '\x7d' :: r => some (false, r)
  | _ :: r => commentBody r

def comment : Reader Bool := do
  let _ ← opening "\x7b#"
  fun s => commentBody s

/-- The text up to the end of a raw section, and the dashes of its end tag. -/
def rawBody : List Char → Option (List Char × (Bool × Bool) × List Char)
  | [] => none
  | c :: s =>
    match plainTag "endraw" (c :: s) with
    | some (dashes, r) => some ([], dashes, r)
    | none => (rawBody s).map fun p => (c :: p.1, p.2)

def trimmed (left right : Bool) (s : List Char) : List Char :=
  let t := if left then Text.trimStart s else s
  if right then Text.trimEnd t else t

def raw : Reader (Node × Bool) := do
  let (_, l) ← plainTag "raw"
  fun s => (rawBody s).map fun p => ((.text (trimmed l p.2.1.1 p.1), p.2.1.2), p.2.2)

def sources : Reader (List String) :=
  either (do let s ← quotedText; return [s])
    (do
      exact "["
      blanks
      let first ← quotedText
      let rest ← many (do mark ","; blanks; quotedText)
      mark "]"
      return first :: rest)

def inclusion : Reader (Node × Bool) := do
  tagStart "include"
  let names ← sources
  let optional ← maybe (do mark "ignore"; mark "missing")
  let r ← tagEnd
  return (.inclusion names optional.isSome, r)

def importing : Reader (Node × Bool) := do
  tagStart "import"
  let source ← quotedText
  someBlanks
  exact "as"
  someBlanks
  let ns ← name
  let r ← tagEnd
  return (.importMacros source ns, r)

def parentTag : Reader (Node × Bool) := do
  tagStart "extends"
  let source ← quotedText
  let r ← tagEnd
  return (.parent source, r)

def literal : Reader Term :=
  firstOf [boolean, do let s ← quotedText; return .text s, real, whole]

def parameter : Reader Parameter := do
  let n ← name
  let d ← maybe (do mark "="; blanks; literal)
  return ⟨n, d.map .ofTerm⟩

def parameters : Reader (List Parameter) := do
  mark "("
  let given ← maybe (do
    blanks
    let first ← parameter
    let rest ← many (do mark ","; blanks; parameter)
    return first :: rest)
  mark ")"
  return given.getD []

/-- Output, and with `parentBlocks` the output of the block that this one replaces. -/
def output (depth : Nat) (parentBlocks : Bool) : Reader (Node × Bool) := do
  let _ ← opening "\x7b\x7b"
  blanks
  let special : Reader (Node × Bool) := do
    exact "super()"
    let r ← closing "\x7d\x7d"
    return (.parentBlock, r)
  let usual : Reader (Node × Bool) := do
    let e ← expression depth
    let r ← closing "\x7d\x7d"
    return (.output e, r)
  if parentBlocks then either special usual else usual

def assign (depth : Nat) (w : String) (everywhere : Bool) : Reader (Node × Bool) := do
  tagStart w
  let n ← name
  mark "="
  blanks
  let e ← expression depth
  let r ← tagEnd
  return (.assign n e everywhere, r)

/-- Reads the nodes of a body; the flag says whether white space in front is removed. -/
abbrev BodyReader := Place → Bool → Reader (List Node)

variable (depth : Nat) (body : BodyReader) (place : Place)

def branch (w : String) : Reader (Expression × List Node) := do
  tagStart w
  let e ← (rulesAt depth).condition
  let r ← tagEnd
  let nodes ← body place r
  return (e, nodes)

def choice : Reader (Node × Bool) := do
  let first ← branch depth body place "if"
  let more ← many (branch depth body place "elif")
  let otherwise ← maybe (do
    let (_, r) ← plainTag "else"
    body place r)
  let (_, r) ← plainTag "endif"
  return (.choice (first :: more) otherwise, r)

def loop : Reader (Node × Bool) := do
  tagStart "for"
  let first ← name
  let second ← maybe (do exact ","; blanks; name)
  someBlanks
  exact "in"
  someBlanks
  let container ← either (filteredSum (rulesAt depth)) (rulesAt depth).listing
  let r ← tagEnd
  let nodes ← body .loop r
  let whenEmpty ← maybe (do
    let (_, r) ← plainTag "else"
    body .loop r)
  let (_, r) ← plainTag "endfor"
  let node : Node := match second with
    | some value => .loop (some first) value container nodes whenEmpty
    | none => .loop none first container nodes whenEmpty
  return (node, r)

def filteredSection : Reader (Node × Bool) := do
  tagStart "filter"
  let c ← callOrName (rulesAt depth)
  let r ← tagEnd
  let nodes ← body .filterBody r
  let (_, r) ← plainTag "endfilter"
  return (.filtered c nodes, r)

def blockSection : Reader (Node × Bool) := do
  tagStart "block"
  let n ← name
  let r ← tagEnd
  let nodes ← body .block r
  let (_, r) ← endTag "endblock"
  return (.block n nodes, r)

def macroSection : Reader (Node × Bool) := do
  tagStart "macro"
  let n ← name
  let ps ← parameters
  let r ← tagEnd
  let nodes ← body .macroBody r
  let (_, r) ← endTag "endmacro"
  return (.macroDefinition n ps nodes, r)

/-- A node that is no text, and whether its last mark has a dash. -/
def node : Reader (Node × Bool) :=
  let everywhere : List (Reader (Node × Bool)) :=
    [output depth (place = .block), inclusion, assign depth "set" false,
      assign depth "set_global" true, choice depth body place, loop depth body, raw]
  let here : List (Reader (Node × Bool)) := match place with
    | .top => [importing, macroSection body, blockSection body, filteredSection depth body]
    | .block => [blockSection body, filteredSection depth body]
    | .loop =>
      [do let (_, r) ← plainTag "break"; return (.leave, r),
        do let (_, r) ← plainTag "continue"; return (.skip, r), filteredSection depth body]
    | .macroBody => [filteredSection depth body]
    | .filterBody => []
  firstOf (everywhere ++ here)

/-- Whether the next mark has a dash, so that white space before it is removed. -/
def dashAhead : List Char → Bool
  | '\x7b' :: c :: '-' :: _ => c == '\x7b' || c == '%' || c == '#'
  | _ => false

/-- Text, a comment or a node; comments leave no node. -/
def item (trimLeft : Bool) : Reader (List Node × Bool) := fun s =>
  if opensNode s then
    either (do let r ← comment; return ([], r))
      (do let (n, r) ← node depth body place; return ([n], r)) s
  else
    match plainText s with
    | ([], _) => none
    | (t, r) => some (([.text (trimmed trimLeft (dashAhead r) t)], false), r)

/-- Items as long as there are any; one that reads nothing is the last. -/
def items (trimLeft : Bool) (s : List Char) : Option (List Node × List Char) :=
  match item depth body place trimLeft s with
  | some ((nodes, dash), r) =>
    if r.length < s.length then (items dash r).map fun q => (nodes ++ q.1, q.2)
    else some (nodes, r)
  | none => some ([], s)
termination_by s.length

end Reader

def bodyAt (depth : Nat) : Nat → Place → Bool → List Char → Option (List Node × List Char)
  | 0, _, _, _ => none
  | n + 1, place, trimLeft, s =>
    Reader.items depth (bodyAt depth n) place trimLeft s

/-- Comments at the front, then the name of a parent if there is one. -/
def headAt : Nat → Bool → List Char → List Node × Bool × List Char
  | 0, trimLeft, s => ([], trimLeft, s)
  | n + 1, trimLeft, s =>
    match Reader.comment s with
    | some (dash, r) => headAt n dash r
    | none =>
      match Reader.parentTag s with
      | some ((node, dash), r) => ([node], dash, r)
      | none => ([], trimLeft, s)

def readNodes (s : List Char) : Option (List Node) :=
  let depth := s.length + 1
  let (head, trimLeft, r) := headAt depth false s
  match bodyAt depth depth .top trimLeft r with
  | some (nodes, []) => some (head ++ nodes)
  | _ => none

end ViewRendering.Template
