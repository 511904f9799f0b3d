/-!
What a render reports while it runs: events for the log, and the paths it reads. The
journal of an activity lists both in the order in which they happen.
-/
namespace ViewRendering

inductive Level where
  | error
  | warn
  | info
  | debug
  | trace
deriving DecidableEq, Repr

namespace Level

def rank : Level → Nat
  | .error => 1
  | .warn => 2
  | .info => 3
  | .debug => 4
  | .trace => 5

def label : Level → String
  | .error => "ERROR"
  | .warn => "WARN"
  | .info => "INFO"
  | .debug => "DEBUG"
  | .trace => "TRACE"

end Level

inductive Area where
  | settings
  | partials
  | compiler
  | locals
  | service
  | response
  | command
deriving DecidableEq, Repr

def Area.target : Area → String
  | .settings => "viewpress::config"
  | .partials => "viewpress::templating::partials"
  | .compiler => "viewpress::templating::renderer"
  | .locals => "viewpress::templating::locals"
  | .service => "viewpress::render"
  | .response => "viewpress::render::response"
  | .command => "viewpress::cli::render"

structure Event where
  level : Level
  area : Area
  text : String
deriving DecidableEq, Repr

def Event.line (e : Event) : String := e.level.label ++ " " ++ e.text

inductive Occurrence where
  | event (e : Event)
  | read (path : String)
deriving DecidableEq, Repr

abbrev Journal := List Occurrence

namespace Journal

def warn (area : Area) (text : String) : Occurrence := .event ⟨.warn, area, text⟩

def debug (area : Area) (text : String) : Occurrence := .event ⟨.debug, area, text⟩

def events (j : Journal) : List Event :=
  j.filterMap fun o => match o with
    | .event e => some e
    | .read _ => none

def reads (j : Journal) : List String :=
  j.filterMap fun o => match o with
    | .event _ => none
    | .read path => some path

def warnings (j : Journal) : List Event := j.events.filter (·.level = .warn)

end Journal

end ViewRendering
