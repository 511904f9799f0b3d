import ViewRendering.Event
import ViewRendering.Failure
import ViewRendering.Http.Request
import ViewRendering.Template.Fault
import ViewRendering.Text.Quoted

/-!
The locals of a render. What the caller gives comes first, then the helpers for names
the caller does not give, then the request. The names of filters are reserved: whatever
bears one of them is left out.
-/
namespace ViewRendering

/-- A value that is always at hand, or one that is made from each request. Making it may break
down, leaving a text or none. -/
inductive Helper where
  | value (v : Value)
  | factory (f : Http.Request → Except (Option String) Value)

namespace Helper

def compute (h : Helper) (r : Http.Request) : Except (Option String) Value :=
  match h with
  | .value v => .ok v
  | .factory f => f r

end Helper

abbrev FilterTable := Dict Template.Filter

namespace FilterTable

def namesText (names : List String) : String :=
  "\x7b" ++ String.intercalate ", " (names.map Text.quoted) ++ "\x7d"

end FilterTable

namespace Locals

def bodyKey : String := "body"

def requestKey : String := "request"

def helperFailure (view name : String) (text : Option String) : Failure :=
  .execution view (s!"helper '{name}' panicked: " ++ text.getD "unknown panic payload") []

/-- The locals with the helpers added, one after another, that none of them hides. -/
def withHelpers (view : String) (request : Http.Request) :
    Dict Helper → Dict Value → Except Failure (Dict Value)
  | [], locals => .ok locals
  | (name, h) :: rest, locals =>
    if locals.has name then withHelpers view request rest locals
    else
      match h.compute request with
      | .error text => .error (helperFailure view name text)
      | .ok v => withHelpers view request rest (locals.insert name v)

def withRequest (request : Http.Request) (locals : Dict Value) : Dict Value :=
  if locals.has requestKey then locals else locals.insert requestKey request.snapshot

def withoutReserved (reserved : List String) (locals : Dict Value) : Dict Value :=
  reserved.foldl Dict.erase locals

def reservedEvents (reserved : List String) (locals : Dict Value) : Journal :=
  (reserved.filter locals.has).map fun name =>
    Journal.debug .locals s!"Local '{name}' is shadowed by the configured filter of the same name"

/-- The locals of a render of `view`, or the failure of the first helper that broke down. -/
def assemble (view : String) (given : Dict Value) (filters : FilterTable) (helpers : Dict Helper)
    (request : Http.Request) : Except Failure (Dict Value) × Journal :=
  match withHelpers view request helpers given with
  | .error f => (.error f, [])
  | .ok locals =>
    let all := withRequest request locals
    (.ok (withoutReserved filters.keys all), reservedEvents filters.keys all)

end Locals

end ViewRendering
