import ViewRendering.Failure
import ViewRendering.Markup.Translation
import ViewRendering.Template.NodeReader
import ViewRendering.Template.Rendering
import ViewRendering.Template.Suggestion

/-!
Views that are ready to be rendered. Compiling translates the marked-up text into the
template language and reads it as a page; what a page may not have, such as a block of
the same name twice, is refused. Executing renders the page with locals and turns every
fault into a failure of the view.
-/
namespace ViewRendering.Template

structure Compiled where
  page : Page
  filters : Dict Filter

namespace Compiled

def name (t : Compiled) : String := t.page.name

end Compiled

/-- Why a text is no page, as a chain of messages. -/
def refusal? (name : String) (nodes : List Node) : Option (List String) :=
  let within (cause : String) : Option (List String) := some [s!"Failed to parse '{name}'", cause]
  let page := Page.ofNodes name nodes
  match (oversizedNodes nodes).head?, firstRepeated [] (page.blocks.map (·.1)),
      firstRepeated [] (page.macros.map (·.1)), page.parent with
  | some n, _, _, _ =>
    within ("Integer out of bounds: `" ++ String.ofList (Number.wholeText n) ++ "`")
  | none, some b, _, _ => within s!"Block `{b}` is duplicated"
  | none, none, some m, _ => within s!"Macro `{m}` is duplicated"
  | none, none, none, some p =>
    if p = name then
      some ["Circular extend detected for template '" ++ name ++ "'. Inheritance chain: `[" ++
        Text.quoted name ++ "]`"]
    else
      some [s!"Template '{name}' is inheriting from '{p}', which doesn't exist or isn't loaded."]
  | none, none, none, none =>
    (page.imports.find? (·.1 ≠ name)).map fun i =>
      [s!"Template `{name}` loads macros from `{i.1}` which isn't present in Tera"]

def readPage (name : String) (text : List Char) : Except String Page :=
  match readNodes text with
  | none => .error (chainText [s!"Failed to parse '{name}'"])
  | some nodes =>
    match refusal? name nodes with
    | some chain => .error (chainText chain)
    | none => .ok (Page.ofNodes name nodes)

def compile (d : Markup.Delimiters) (filters : Dict Filter) (name : String) (text : List Char) :
    Except Failure Compiled :=
  match Markup.translate d text with
  | .error e => .error (.compile name e.message (some e.line))
  | .ok translated =>
    match readPage name translated with
    | .error message => .error (.compile name message none)
    | .ok page => .ok ⟨page, filters⟩

def Fault.failure (view : String) (locals : Dict Value) : Fault → Failure
  | .chain ms =>
    let message := chainText (s!"Failed to render '{view}'" :: ms)
    .execution view message (suggestions message locals)
  | .breakdown text =>
    .execution view ("template code panicked: " ++ text.getD "unknown panic payload") []
  | .endless => .execution view "template code nests without end" []

def Compiled.execute (t : Compiled) (locals : Dict Value) (engine : Engine := .plain) :
    Except Failure (List Char) :=
  match t.page.render t.filters engine locals with
  | .ok s => .ok s
  | .error e => .error (e.failure t.name locals)

end ViewRendering.Template
