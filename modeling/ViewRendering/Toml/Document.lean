import ViewRendering.Toml.Moment
import ViewRendering.Toml.Table

/-!
TOML documents. A document is a sequence of lines: pairs of a key and a value, headers
of tables, and lines that say nothing. Pairs belong to the table of the header above
them. A document that breaks a rule is refused as a whole.
-/
namespace ViewRendering.Toml

open ViewRendering.Reader

def isBareChar (c : Char) : Bool := c.isAlphanum || c == '_' || c == '-'

def bareKey : Reader (List Char) := fun s =>
  match s.takeWhile isBareChar with
  | [] => none
  | k => some (k, s.dropWhile isBareChar)

def simpleKey : Reader String := do
  let k ← firstOf [bareKey, basicText, literalText]
  return String.ofList k

def key : Reader (List String) := do
  let first ← simpleKey
  let rest ← many (do blanks; exact "."; blanks; simpleKey)
  return first :: rest

def comment : Reader Unit := fun s =>
  match s with
  | '#' :: r => some ((), r.dropWhile isPlain)
  | _ => none

def gaps : Reader Unit := do
  let _ ← many (firstOf [newline, do let _ ← one isBlank, do comment; newline])

def isBoundary : List Char → Bool
  | [] => true
  | c :: _ => " \t\r\n,]\x7d#".toList.contains c

/-- What `p` reads, if nothing more of a value comes behind it. -/
def bounded (p : Reader Value) : Reader Value := fun s =>
  match p s with
  | some (v, r) => if isBoundary r then some (v, r) else none
  | none => none

variable (inner : Reader Value)

def pair : Reader (List String × Value) := do
  let k ← key
  blanks
  exact "="
  blanks
  let v ← inner
  return (k, v)

/-- What `p` reads, any number of times with commas between, a last comma being allowed. -/
def separated {α : Type} (p : Reader α) : Reader (List α) := do
  gaps
  let items ← many (do let a ← p; gaps; exact ","; gaps; return a)
  let last ← maybe (do let a ← p; gaps; return a)
  return items ++ last.toList

def array : Reader Value := do
  exact "["
  let items ← separated inner
  exact "]"
  return .list items

def inlineTable : Reader Value := do
  exact "\x7b"
  let pairs ← separated (pair inner)
  exact "\x7d"
  match pairs.foldlM (fun t p => Table.put p.2 p.1 t) ([] : Table) with
  | some t => return (Entry.table .opened t).toValue
  | none => refuse

def value : Reader Value :=
  firstOf [text, boolean, array inner, inlineTable inner, bounded moment, bounded real,
    bounded whole, bounded unbounded]

def valueAt : Nat → Reader Value
  | 0 => refuse
  | n + 1 => value (valueAt n)

def depthLimit : Nat := 80

inductive Line where
  | silent
  | pair (key : List String) (v : Value)
  | header (repeats : Bool) (key : List String)

def header : Reader Line :=
  either
    (do
      exact "[["
      blanks
      let k ← key
      blanks
      exact "]]"
      return .header true k)
    (do
      exact "["
      blanks
      let k ← key
      blanks
      exact "]"
      return .header false k)

def line : Reader Line := do
  blanks
  let l ← firstOf [header, do let p ← pair (valueAt depthLimit); return .pair p.1 p.2, pure .silent]
  blanks
  let _ ← maybe comment
  fun s => if s.isEmpty then some (l, s) else (newline s).map fun r => (l, r.2)

structure Section where
  repeats : Bool
  key : List String
  pairs : List (List String × Value)

def sections : List Line → List (List String × Value) × List Section
  | [] => ([], [])
  | .silent :: rest => sections rest
  | .pair k v :: rest =>
    let (pairs, more) := sections rest
    ((k, v) :: pairs, more)
  | .header repeats k :: rest =>
    let (pairs, more) := sections rest
    ([], ⟨repeats, k, pairs⟩ :: more)

def withPairs (pairs : List (List String × Value)) (t : Table) : Option Table :=
  pairs.foldlM (fun t p => Table.put p.2 p.1 t) t

def withSection (t : Table) (s : Section) : Option Table :=
  Table.fill s.repeats (withPairs s.pairs) s.key t

/-- The lines of a whole document; a mark of the byte order may stand in front. -/
def lines (s : List Char) : Option (List Line) :=
  let s := match s with
    | c :: r => if c.toNat = 0xFEFF then r else c :: r
    | [] => []
  match many line s with
  | some (ls, []) => some ls
  | _ => none

def parse (s : List Char) : Option (Dict Value) :=
  (lines s).bind fun ls =>
    let (pairs, more) := sections ls
    ((withPairs pairs []).bind fun t => more.foldlM withSection t).map fieldValues

end ViewRendering.Toml
