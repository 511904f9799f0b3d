import ViewRendering.Template.Evaluation
import ViewRendering.Text.Cluster

/-!
The meaning of nodes. A node adds text to the page, may change the names in scope, and
says whether the rest of its body is still rendered. Bodies of macros and included
pages are rendered in frames of their own, which vanish with them; they nest up to a
fixed depth.
-/
namespace ViewRendering.Template

inductive Course where
  | onward
  /-- The rest of the body and all further turns of the loop are left out. -/
  | leave
  /-- The rest of the body is left out. -/
  | skip
deriving DecidableEq, Repr

/-- What rendering has come to: the text, the names in scope, and how it goes on. -/
structure Progress where
  text : List Char
  scope : Scope
  course : Course

namespace Progress

def ofText (c : Context) (s : List Char) : Progress := ⟨s, c.scope, .onward⟩

end Progress

/-- The name under which messages speak of what a loop runs over. -/
def containerName (e : Expression) : Result String :=
  match e.term with
  | .name path => .ok path
  | .function call => .ok call.name
  | .list _ => .ok "an array literal"
  | t =>
    failed ("Forloop containers have to be an ident or a function call (tried to iterate on '" ++
      t.notationText ++ "')")

def outsideLoop (word : String) : String :=
  s!"Attempted `{word}` while not in for loop"

/-- The items a loop runs over, with their keys. Lists and texts have no keys, and records
have to be given a name for them. -/
def loopItems (name : String) (withKeys : Bool) (v : Value) : Result (List (String × Value)) :=
  let onVariable := s!"Tried to iterate using key value on variable `{name}`, but it "
  match v with
  | .list items =>
    if withKeys then failed (onVariable ++ "isn't an object/map")
    else .ok (items.map fun i => ("", i))
  | .text s =>
    if withKeys then failed (onVariable ++ "isn't an object/map")
    else .ok ((Text.clusters s.toList).map fun t => ("", .ofChars t))
  | .record fields => if withKeys then .ok fields else failed (onVariable ++ "is missing a key")
  | _ => failed s!"Tried to iterate on a container (`{name}`) that has a unsupported type"

/-- A body once for each item, in a frame with the state of the loop. Assignments in the
frame do not outlive their turn. -/
def turns (body : Scope → Result Progress) (state : Nat → String × Value → LoopState) :
    Nat → List (String × Value) → Scope → Result (List Char × Scope)
  | _, [], s => .ok ([], s)
  | i, item :: rest, s => do
    let p ← body (s.push ⟨.loop (state i item), []⟩)
    if p.course = .leave then return (p.text, p.scope.pop)
    else
      let more ← turns body state (i + 1) rest p.scope.pop
      return (p.text ++ more.1, more.2)

section

variable (nested : Nested)

mutual

def Node.render (c : Context) : Node → Result Progress
  | .text s => .ok (.ofText c s)
  | .output e => do return .ofText c (pageText (← e.value nested c))
  | .assign name e everywhere => do
    let v ← e.value nested c.unescaped
    let s := if everywhere then c.scope.assignEverywhere name v else c.scope.assign name v
    return ⟨[], s, .onward⟩
  | .choice branches otherwise => do
    match ← renderBranches c branches with
    | some p => return p
    | none => renderOption c otherwise
  | .loop key value container body whenEmpty => do
    let name ← containerName container
    let items ← loopItems name key.isSome (← container.value nested c.unescaped)
    if items.isEmpty then renderOption c whenEmpty
    else
      let count := items.length
      let (text, s) ← turns (fun s => renderAll { c with scope := s } body)
        (fun i item => ⟨key, value, item.1, item.2, i, count⟩) 0 items c.scope
      return ⟨text, s, .onward⟩
  | .leave =>
    if c.scope.inLoop then .ok ⟨[], c.scope, .leave⟩
    else failed (outsideLoop "break")
  | .skip =>
    if c.scope.inLoop then .ok ⟨[], c.scope, .skip⟩
    else failed (outsideLoop "continue")
  | .filtered call body => do
    let p ← renderAll c body
    if call.name = "safe" then return p
    else
      let v ← call.filterResult nested { c with scope := p.scope } (.ofChars p.text)
      return { p with text := pageText v }
  | .block _ body => renderAll c body
  | .parentBlock => failed "Tried to use super() in the top level block"
  | .inclusion names optional =>
    if names.contains c.page.name then do
      return .ofText c (← nested { c with scope := c.scope.push ⟨.inclusion, []⟩ } c.page.nodes)
    else if optional then .ok (.ofText c [])
    else failed ("Template '[" ++ String.intercalate ", " names ++ "]' not found")
  | .macroDefinition _ _ _ => .ok (.ofText c [])
  | .importMacros _ _ => .ok (.ofText c [])
  | .parent name =>
    failed s!"Inheritance in included templates is currently not supported: extended `{name}`"

def renderAll (c : Context) : List Node → Result Progress
  | [] => .ok (.ofText c [])
  | n :: rest => do
    let p ← n.render c
    if p.course = .onward then
      let q ← renderAll { c with scope := p.scope } rest
      return { q with text := p.text ++ q.text }
    else return p

def renderBranches (c : Context) : List (Expression × List Node) → Result (Option Progress)
  | [] => .ok none
  | (e, body) :: rest => do
    if ← e.truth nested c then return some (← renderAll c body)
    else renderBranches c rest

def renderOption (c : Context) : Option (List Node) → Result Progress
  | none => .ok (.ofText c [])
  | some body => renderAll c body

end

end

def nestedText : Nat → Nested
  | 0, _, _ => .error .endless
  | n + 1, c, nodes => do return (← renderAll (nestedText n) c nodes).text

/-- How deeply macros and inclusions may nest. The program has no such bound; it nests as deeply as
its stack allows. -/
def nestingLimit : Nat := 1000

def Page.render (p : Page) (filters : Dict Filter) (engine : Engine) (locals : Dict Value) :
    Result (List Char) :=
  nestedText (nestingLimit + 1) ⟨p, filters, engine, ⟨[⟨.page, []⟩], locals⟩, true⟩ p.nodes

end ViewRendering.Template
