import ViewRendering.Template.Fault
import ViewRendering.Text.Scan
import ViewRendering.Value.Json

/-!
The names a template sees. Frames stand on each other, the innermost first: loops and
inclusions see the frames below them, a macro does not. What no frame knows is looked
up in the locals of the page. A path is a name with keys behind points, and keys in
brackets are values looked up first.
-/
namespace ViewRendering.Template

structure LoopState where
  keyName : Option String
  valueName : String
  key : String
  value : Value
  index : Nat
  count : Nat

inductive FrameKind where
  | page
  | macroBody
  | loop (state : LoopState)
  | inclusion

structure Frame where
  kind : FrameKind
  values : Dict Value

/-- The frames, innermost first, over the locals of the page. -/
structure Scope where
  frames : List Frame
  locals : Dict Value

/-- The parts of a path between its points; points in quotes do not count and quotes are
dropped. -/
def pathParts : Option Char → List Char → List Char → List (List Char)
  | _, part, [] => [part.reverse]
  | some q, part, c :: s =>
    if c = q then pathParts none part s else pathParts (some q) (c :: part) s
  | none, part, c :: s =>
    if c = '"' ∨ c = '\'' then pathParts (some c) part s
    else if c = '.' then part.reverse :: pathParts none [] s
    else pathParts none (c :: part) s

/-- The item number that a key stands for: digits without zeros in front. -/
def indexOf? (key : List Char) : Option Nat :=
  match key with
  | [] => none
  | ['0'] => some 0
  | '0' :: _ => none
  | ds =>
    if ds.all Char.isDigit then some (ds.foldl (fun n c => n * 10 + (c.toNat - 48)) 0) else none

def child? (v : Value) (key : List Char) : Option Value :=
  match v with
  | .record fields => Dict.lookup fields (String.ofList key)
  | .list items => (indexOf? key).bind fun i => items[i]?
  | _ => none

def descend (v : Value) : List (List Char) → Option Value
  | [] => some v
  | k :: rest => (child? v k).bind (descend · rest)

/-- A key with its spelled slashes and tildes put back. -/
def plainKey (key : List Char) : List Char :=
  Text.replace "~0".toList "~".toList (Text.replace "~1".toList "/".toList key)

def valueAt? (v : Value) (path : List Char) : Option Value :=
  descend v (((pathParts none [] path).filter (!·.isEmpty)).map plainKey)

namespace LoopState

def counter? (l : LoopState) (path : String) : Option Value :=
  match path with
  | "loop.index" => some (.ofNat (l.index + 1))
  | "loop.index0" => some (.ofNat l.index)
  | "loop.first" => some (.bool (l.index = 0))
  | "loop.last" => some (.bool (l.index + 1 = l.count))
  | _ => none

end LoopState

def splitPath (path : List Char) : List Char × Option (List Char) :=
  match Text.splitOnce? '.' path with
  | some (head, tail) => (head, some tail)
  | none => (path, none)

def inDict (d : Dict Value) (path : String) : Option Value :=
  match splitPath path.toList with
  | (head, some tail) => (d.lookup (String.ofList head)).bind (valueAt? · tail)
  | (head, none) => d.lookup (String.ofList head)

namespace Frame

def inLoop (f : Frame) (path : String) : Option Value :=
  match f.kind with
  | .loop l =>
    match l.counter? path with
    | some v => some v
    | none =>
      let (head, tail) := splitPath path.toList
      if String.ofList head = l.valueName then valueAt? l.value (tail.getD [])
      else if some (String.ofList head) = l.keyName ∧ tail.isNone then some (.text l.key)
      else none
  | _ => none

def find? (f : Frame) (path : String) : Option Value :=
  match inDict f.values path with
  | some v => some v
  | none => f.inLoop path

def isBottom (f : Frame) : Bool :=
  match f.kind with
  | .page => true
  | .macroBody => true
  | _ => false

end Frame

/-- Searches the frames down to the first that hides those below it. -/
def findInFrames : List Frame → String → Option Value
  | [], _ => none
  | f :: rest, path =>
    match f.find? path with
    | some v => some v
    | none => if f.isBottom then none else findInFrames rest path

namespace Scope

def find? (s : Scope) (path : String) : Option Value :=
  match findInFrames s.frames path with
  | some v => some v
  | none => inDict s.locals path

def assign (s : Scope) (name : String) (v : Value) : Scope :=
  match s.frames with
  | [] => s
  | f :: rest => { s with frames := { f with values := f.values.insert name v } :: rest }

/-- Writes a value into the innermost frame that is no loop. -/
def assignEverywhere (s : Scope) (name : String) (v : Value) : Scope :=
  let rec go : List Frame → List Frame
    | [] => []
    | f :: rest =>
      match f.kind with
      | .loop _ => f :: go rest
      | _ => { f with values := f.values.insert name v } :: rest
  { s with frames := go s.frames }

def push (s : Scope) (f : Frame) : Scope := { s with frames := f :: s.frames }

def inLoop (s : Scope) : Bool :=
  match s.frames with
  | ⟨.loop _, _⟩ :: _ => true
  | _ => false

def pop (s : Scope) : Scope := { s with frames := s.frames.drop 1 }

def frameEntries (f : Frame) : List (String × Value) :=
  f.values ++ match f.kind with
    | .loop l =>
      (l.valueName, l.value) :: (l.keyName.elim [] fun k => [(k, .text l.key)])
    | _ => []

/-- All names in scope; a lower frame wins, and inside a macro the locals are left out. -/
def dump (s : Scope) : Dict Value :=
  let rec go (d : Dict Value) : List Frame → Dict Value × Bool
    | [] => (d, true)
    | f :: rest =>
      let d := (frameEntries f).foldl (fun d e => d.insert e.1 e.2) d
      match f.kind with
      | .macroBody => (d, false)
      | _ => go d rest
  let (d, withLocals) := go [] s.frames
  if withLocals then d.foldl (fun l e => l.insert e.1 e.2) s.locals else d

def dumpName : String := "__tera_context"

end Scope

/-- The texts between outermost square brackets that are neither quoted nor a number. -/
def bracketKeys : Nat → List Char → List (List Char)
  | 0, _ => []
  | n + 1, s =>
    match s.dropWhile (· ≠ '[') with
    | '[' :: c :: r =>
      if c = '"' ∨ c = '\'' then bracketKeys n r
      else
        let rec inside (depth : Nat) (done : List Char) : List Char → List Char × List Char
          | [] => (done.reverse, [])
          | c :: s =>
            if c = ']' then
              if depth ≤ 1 then (done.reverse, s) else inside (depth - 1) (c :: done) s
            else inside (if c = '[' then depth + 1 else depth) (c :: done) s
        let (key, rest) := inside 1 [] (c :: r)
        if key.all Char.isDigit then bracketKeys n rest else key :: bracketKeys n rest
    | _ => []

def pointed (path : List Char) : List Char :=
  let r := Text.replace "/".toList "~1".toList path
  let r := Text.replace "['".toList ".\"".toList r
  let r := Text.replace "[\"".toList ".\"".toList r
  let r := Text.replace "[".toList ".".toList r
  let r := Text.replace "']".toList "\"".toList r
  let r := Text.replace "\"]".toList "\"".toList r
  Text.replace "]".toList [] r

def keyText? : Value → Option (List Char)
  | .text s => some ('"' :: s.toList ++ ['"'])
  | .number n => some (n.write .data)
  | _ => none

def notFound (path view : String) : String :=
  s!"Variable `{path}` not found in context while rendering '{view}'"

/-- The value of a path. Keys in brackets are looked up and put into the path first. -/
def lookupBelow (s : Scope) (view : String) : Nat → String → Result Value
  | 0, _ => .error .endless
  | n + 1, path =>
    let chars := path.toList
    if !chars.contains '[' then
      match s.find? path with
      | some v => .ok v
      | none => failed (notFound path view)
    else do
      let full ← (bracketKeys chars.length chars).foldlM (fun whole key => do
        let v ← match lookupBelow s view n (String.ofList key) with
          | .ok v => .ok v
          | .error (.chain ms) =>
            failed (s!"Variable {path} can not be evaluated because: " ++ ms.headD "")
          | .error f => .error f
        let text ← match keyText? v with
          | some t => .ok t
          | none =>
            failed ("Only variables evaluating to String or Number can be used as index (`" ++
              String.ofList key ++ "` of `" ++ path ++ "`)")
        match Text.cut? ('[' :: key ++ [']']) whole with
        | some (a, b) => .ok (a ++ '.' :: text ++ b)
        | none => .ok (whole ++ '.' :: text)) chars
      let full := String.ofList (pointed full)
      match s.find? full with
      | some v => .ok v
      | none =>
        failed (notFound path view ++ s!": the evaluated version was `{full}`. " ++
          "Maybe the index is out of bounds?")

def lookup (s : Scope) (view path : String) : Result Value :=
  if path = Scope.dumpName then .ok (.text (Value.Json.toPrettyText (.record s.dump)))
  else lookupBelow s view (path.length + 1) path

end ViewRendering.Template
