import ViewRendering.Event
import ViewRendering.Settings
import ViewRendering.Partial.Directive
import ViewRendering.Partial.Expression

/-!
Replacing partial directives by the texts they name. A partial is expanded like the
view it stands in; the names being expanded form a chain without repetitions, so a
partial never contains itself, and the chain never grows beyond a fixed depth. A
directive that cannot be expanded contributes nothing to the page and, unless its
name is on the chain, one warning to the journal.
-/
namespace ViewRendering.Partial

def depthLimit : Nat := 32

/-- What an expansion depends on, the same for all directives of a view. -/
structure Surroundings where
  settings : Settings
  files : Files
  view : String
  locals : Dict Value

inductive Dropped where
  | expression (fault : ExpressionFault)
  | onChain (name : String)
  | tooDeep (name : String)
  | refused (name : String) (failure : FileFailure)
  | unreadable (name path : String) (failure : FileFailure)
deriving DecidableEq, Repr

/-- The event for a dropped directive; only a name on the chain is no warning. -/
def Dropped.event (view : String) : Dropped → Occurrence
  | .expression fault =>
    Journal.warn .partials s!"Skipping partial in view '{view}': {fault.message}"
  | .onChain name =>
    Journal.debug .partials s!"Partial '{name}' is already being expanded in view '{view}'"
  | .tooDeep name =>
    Journal.warn .partials
      s!"Skipping partial '{name}' in view '{view}': nesting exceeds {depthLimit} levels"
  | .refused name failure =>
    Journal.warn .partials s!"Skipping partial '{name}' in view '{view}': {failure.fault.message}"
  | .unreadable name path failure =>
    Journal.warn .partials
      s!"Cannot read partial '{name}' ({path}) in view '{view}': {failure.fault.message}"

def Dropped.reads : Dropped → Journal
  | .unreadable _ path _ => [.read path]
  | _ => []

structure Inclusion where
  name : String
  path : String
  text : List Char
deriving DecidableEq, Repr

namespace Surroundings

def nameOf (e : Surroundings) (expression : List Char) : Except ExpressionFault String :=
  match Expression.parse expression with
  | .error fault => .error fault
  | .ok parsed =>
    match parsed.evaluate e.locals with
    | .error fault => .error fault
    | .ok name => .ok (e.settings.viewName (String.ofList name))

/-- What becomes of a directive below the given chain: its expression, the chain, the depth, the
path and the file are looked at in this order. -/
def decide (e : Surroundings) (chain : List String) (expression : List Char) :
    Except Dropped Inclusion :=
  match e.nameOf expression with
  | .error fault => .error (.expression fault)
  | .ok name =>
    if name ∈ chain then .error (.onChain name)
    else if depthLimit ≤ chain.length then .error (.tooDeep name)
    else
      match e.settings.viewPath name with
      | .error failure => .error (.refused name failure)
      | .ok path =>
        match e.files.readFor path e.settings.root "partial include" "partials" with
        | .error failure => .error (.unreadable name path failure)
        | .ok text => .ok ⟨name, path, text⟩

def includedEvent (e : Surroundings) (chain : List String) (name : String) : Occurrence :=
  Journal.debug .partials
    s!"Expanding partial '{name}' at depth {chain.length + 1} in view '{e.view}'"

/-- A piece of a text with its journal; `nested` expands the text of an included partial. -/
def expandPiece (e : Surroundings) (nested : List String → List Char → List Char × Journal)
    (chain : List String) : Piece → List Char × Journal
  | .plain c => ([c], [])
  | .directive d =>
    match e.decide chain d.expression with
    | .error dropped => ([], dropped.reads ++ [dropped.event e.view])
    | .ok inclusion =>
      let inner := nested (chain ++ [inclusion.name]) inclusion.text
      (inner.1, .read inclusion.path :: e.includedEvent chain inclusion.name :: inner.2)

def gather (parts : List (List Char × Journal)) : List Char × Journal :=
  (parts.flatMap (·.1), parts.flatMap (·.2))

def expandWith (e : Surroundings) (nested : List String → List Char → List Char × Journal)
    (chain : List String) (text : List Char) : List Char × Journal :=
  gather ((pieces e.settings.delimiters text).map (e.expandPiece nested chain))

/-- Expands below a chain with `levels` more partials to go; at the last level every directive is
dropped. -/
def expandBelow (e : Surroundings) : Nat → List String → List Char → List Char × Journal
  | 0 => e.expandWith fun _ _ => ([], [])
  | levels + 1 => e.expandWith (e.expandBelow levels)

def expand (e : Surroundings) (text : List Char) : List Char × Journal :=
  e.expandBelow depthLimit [] text

end Surroundings

end ViewRendering.Partial
