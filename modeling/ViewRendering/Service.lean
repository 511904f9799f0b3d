import ViewRendering.Cache
import ViewRendering.Emission
import ViewRendering.Locals
import ViewRendering.Options
import ViewRendering.Partial.Expansion
import ViewRendering.Template.Compiled

/-!
The render service. It finds a view by name, puts its partials in, compiles it, keeps
the compiled view if it is told to, and renders it inside its layout. Every activity
hands back what came of it, the journal, and the cache it leaves behind.
-/
namespace ViewRendering

structure Service where
  settings : Settings
  filters : FilterTable
  helpers : Dict Helper
  engine : Template.Engine := .plain
  cache : Cache Template.Compiled := {}

/-- What came of an activity, what was reported, and the cache it leaves behind. -/
structure Outcome (α : Type) where
  result : Except Failure α
  journal : Journal
  cache : Cache Template.Compiled

namespace Service

def shadowedEvents (filters : FilterTable) (helpers : Dict Helper) : Journal :=
  (helpers.keys.filter filters.has).map fun name =>
    Journal.warn .service
      s!"Helper '{name}' is shadowed by the filter of the same name and is ignored"

def readyEvent (s : Service) : Occurrence :=
  Journal.debug .service (s!"Render service ready (root={s.settings.root}, " ++
    s!"cache={s.settings.cache}, layout={s.settings.layoutText}, " ++
    s!"filters={FilterTable.namesText s.filters.keys}, helpers={s.helpers.length})")

/-- A service for valid settings. Helpers with the name of a filter are left out. -/
def build (settings : Settings) (filters : FilterTable) (helpers : Dict Helper)
    (engine : Template.Engine := .plain) : Except Failure Service × Journal :=
  match settings.check with
  | .error f => (.error f, [])
  | .ok _ =>
    let s : Service :=
      { settings := settings, filters := filters
        helpers := helpers.filter fun h => !filters.has h.1
        engine := engine }
    (.ok s, shadowedEvents filters helpers ++ [s.readyEvent])

def compiledEvent (s : Service) (name : String) (text : List Char) : Occurrence :=
  Journal.debug .compiler (s!"Compiled view '{name}' ({Text.utf8Size text} source bytes, " ++
    s!"{s.filters.length} filters)")

def load (s : Service) (files : Files) (name : String) (locals : Dict Value) :
    Except Failure Template.Compiled × Journal :=
  match s.settings.viewPath name with
  | .error f => (.error (.viewRead name f), [])
  | .ok path =>
    match files.readFor path s.settings.root "view rendering" "render service" with
    | .error f => (.error (.viewRead name f), [.read path])
    | .ok source =>
      let surroundings : Partial.Surroundings := ⟨s.settings, files, name, locals⟩
      let (text, journal) := surroundings.expand source
      match Template.compile s.settings.delimiters s.filters name text with
      | .error f => (.error f, .read path :: journal)
      | .ok t => (.ok t, .read path :: journal ++ [s.compiledEvent name text])

def hitEvent (name : String) : Occurrence :=
  Journal.debug .service s!"Template cache hit for '{name}'"

def missEvent (name : String) : Occurrence :=
  Journal.debug .service s!"Template cache miss for '{name}'"

def kept (cache : Cache Template.Compiled) (name : String)
    (loaded : Except Failure Template.Compiled) : Cache Template.Compiled :=
  match loaded with
  | .ok t => cache.insert name t
  | .error _ => cache

/-- The compiled view of a name: the kept one, or one made from the files now. -/
def resolve (s : Service) (files : Files) (view : String) (locals : Dict Value) :
    Outcome Template.Compiled :=
  let name := s.settings.viewName view
  if s.settings.cache then
    match s.cache.lookup name with
    | (some t, cache) => ⟨.ok t, [hitEvent name], cache⟩
    | (none, cache) =>
      let (loaded, journal) := s.load files name locals
      ⟨loaded, missEvent name :: journal, kept cache name loaded⟩
  else
    let (loaded, journal) := s.load files name locals
    ⟨loaded, journal, s.cache⟩

def renderAlone (s : Service) (files : Files) (view : String) (locals : Dict Value) :
    Outcome (String × List Char) :=
  let r := s.resolve files view locals
  match r.result with
  | .error f => ⟨.error f, r.journal, r.cache⟩
  | .ok t => ⟨(t.execute locals s.engine).map fun text => (t.name, text), r.journal, r.cache⟩

def withoutLayoutEvent (name : String) : Occurrence :=
  Journal.debug .service s!"Rendered '{name}' without layout"

def wrappingEvent (name layout : String) : Occurrence :=
  Journal.debug .service s!"Wrapping '{name}' in layout '{layout}'"

/-- Wraps a rendered view in a layout, which finds it under its own name among the locals. -/
def wrap (s : Service) (files : Files) (locals : Dict Value) (name : String) (body : List Char)
    (layout : Option String) : Outcome (List Char) :=
  match layout with
  | none => ⟨.ok body, [withoutLayoutEvent name], s.cache⟩
  | some layout =>
    let r := s.renderAlone files layout (locals.insert Locals.bodyKey (.ofChars body))
    ⟨r.result.map (·.2), wrappingEvent name layout :: r.journal, r.cache⟩

def renderWith (s : Service) (files : Files) (view : String) (locals : Dict Value)
    (layout : Option String) : Outcome (List Char) :=
  let r := s.renderAlone files view locals
  match r.result with
  | .error f => ⟨.error f, r.journal, r.cache⟩
  | .ok (name, body) =>
    let w := { s with cache := r.cache }.wrap files locals name body layout
    { w with journal := r.journal ++ w.journal }

def renderText (s : Service) (files : Files) (request : Http.Request) (view : String)
    (options : Options) : Outcome (List Char) :=
  match Locals.assemble (s.settings.viewName view) options.locals s.filters s.helpers request with
  | (.error f, journal) => ⟨.error f, journal, s.cache⟩
  | (.ok locals, journal) =>
    let r := s.renderWith files view locals (options.layout.resolve s.settings.layout)
    { r with journal := journal ++ r.journal }

/-- A page inside a response. A head that is faulty shows only when the page is there. -/
def render (s : Service) (files : Files) (request : Http.Request) (draft : Http.Draft)
    (view : String) (options : Options) : Outcome Http.Response :=
  let r := s.renderText files request view options
  match r.result with
  | .error f => ⟨.error f, r.journal, r.cache⟩
  | .ok page =>
    let (response, journal) := Emission.emit draft page
    ⟨response, r.journal ++ journal, r.cache⟩

def atMoment (s : Service) (moment : Template.Moment) : Service :=
  { s with engine := { s.engine with toMoment := moment } }

@[simp] theorem atMoment_settings (s : Service) (moment : Template.Moment) :
    (s.atMoment moment).settings = s.settings := rfl

@[simp] theorem atMoment_filters (s : Service) (moment : Template.Moment) :
    (s.atMoment moment).filters = s.filters := rfl

@[simp] theorem atMoment_helpers (s : Service) (moment : Template.Moment) :
    (s.atMoment moment).helpers = s.helpers := rfl

@[simp] theorem atMoment_cache (s : Service) (moment : Template.Moment) :
    (s.atMoment moment).cache = s.cache := rfl

def clearCache (s : Service) : Service × Journal :=
  ({ s with cache := s.cache.clear },
    [Journal.debug .service s!"Clearing {s.cache.size} cached templates"])

end Service

end ViewRendering
