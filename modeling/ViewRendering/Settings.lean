import ViewRendering.Failure
import ViewRendering.Markup.Segment
import ViewRendering.Path
import ViewRendering.Text.Quoted
import ViewRendering.Value

/-!
The settings of a renderer, and what they say about view names: a name gets the
configured extension once, and it leads to a path below the root or is refused.
-/
namespace ViewRendering

structure Settings where
  /-- The directory that views, layouts and partials are looked up in. -/
  root : String := "views"
  /-- Whether compiled views are kept. -/
  cache : Bool := true
  /-- The layout around every view, if there is one. -/
  layout : Option String := some "layout.html"
  /-- The text appended to view names. -/
  extension : String := ""
  opening : String := "<%"
  closing : String := "%>"
  /-- Settings the renderer does not know. -/
  extra : Dict Value := []

namespace Settings

def defaultLayout : String := "layout.html"

def delimiters (c : Settings) : Markup.Delimiters := ⟨c.opening.toList, c.closing.toList⟩

/-- The name with the extension, unless it ends with it already. -/
def viewName (c : Settings) (view : String) : String :=
  if c.extension.toList.isSuffixOf view.toList then view else view ++ c.extension

def refused (c : Settings) (name reason : String) : FileFailure :=
  ⟨.validate, name, "view lookup", "config", ⟨.invalidInput, reason⟩, [c.root]⟩

/-- The path of a view below the root. Blank names, absolute names and names that climb above
the root are refused. -/
def viewPath (c : Settings) (name : String) : Except FileFailure String :=
  if Text.isBlank name.toList then .error (c.refused name "view name is empty")
  else if Path.isAbsolute name then
    .error (c.refused name
      s!"absolute view path '{name}' is not allowed; names are relative to the view root")
  else if Path.staysInside name then .ok (Path.join c.root name)
  else .error (c.refused name s!"view path '{name}' escapes the view root")

def check (c : Settings) : Except Failure Unit :=
  if c.opening.isEmpty then .error (.settings "open delimiter must not be empty")
  else if c.closing.isEmpty then .error (.settings "close delimiter must not be empty")
  else if c.opening = c.closing then
    .error (.settings s!"open and close delimiters must differ (both are '{c.opening}')")
  else .ok ()

def layoutText (c : Settings) : String :=
  c.layout.elim "None" fun name => "Some(" ++ Text.quoted name ++ ")"

theorem viewName_viewName (c : Settings) (view : String) :
    c.viewName (c.viewName view) = c.viewName view := by
  unfold viewName
  split
  · simp_all
  · simp

end Settings

end ViewRendering
