import ViewRendering.Proofs.Service.Resolution
import ViewRendering.Session

/-!
Runs of a session, and the look-ups they are made of. A step looks up no view, one, or a
view and then its layout; the session behind the step is the one that these look-ups
leave, one after another.
-/
namespace ViewRendering.Session

def run (s : Session) : List Step → Session
  | [] => s
  | step :: rest => (s.step step).2.2.run rest

def answers (s : Session) : List Step → List Answer
  | [] => []
  | step :: rest => (s.step step).1 :: (s.step step).2.2.answers rest

structure Lookup where
  view : String
  tree : FileTree
  locals : Dict Value
  result : Except Failure Template.Compiled

def lookup (s : Session) (view : String) (locals : Dict Value) : Lookup :=
  ⟨view, s.tree, locals, (s.service.resolve s.tree.files view locals).result⟩

def afterLookup (s : Session) (view : String) (locals : Dict Value) : Session :=
  s.withCache (s.service.resolve s.tree.files view locals).cache

inductive LookedUp : Session → List Lookup → Session → Prop
  | nil (s : Session) : LookedUp s [] s
  | cons {s s' : Session} {view : String} {locals : Dict Value} {rest : List Lookup} :
      LookedUp (s.afterLookup view locals) rest s' →
      LookedUp s (s.lookup view locals :: rest) s'

/-- The look-ups of a page: its view, and the layout if the view could be rendered. -/
def pageLookups (s : Session) (request : Http.Request) (view : String) (options : Options)
    (moment : Template.Moment) : List Lookup :=
  match (Locals.assemble (s.service.settings.viewName view) options.locals s.service.filters
      s.service.helpers request).1 with
  | .error _ => []
  | .ok locals =>
    s.lookup view locals ::
      match ((s.service.atMoment moment).renderAlone s.tree.files view locals).result,
          options.layout.resolve s.service.settings.layout with
      | .ok (_, body), some layout =>
        [(s.afterLookup view locals).lookup layout
          (locals.insert Locals.bodyKey (.ofChars body))]
      | _, _ => []

def lookups (s : Session) : Step → List Lookup
  | .text request view options moment => s.pageLookups request view options moment
  | .render request _ view options moment => s.pageLookups request view options moment
  | .resolve view locals => [s.lookup view locals]
  | _ => []

/-- The moment decides whether the layout is looked up, but no look-up depends on it otherwise. -/
theorem lookedUp_page (s : Session) (request : Http.Request) (view : String) (options : Options)
    (moment : Template.Moment) :
    LookedUp s (s.pageLookups request view options moment)
      (s.withCache ((s.service.atMoment moment).renderText s.tree.files request view
        options).cache) := by
  unfold pageLookups Service.renderText
  simp only [Service.atMoment_settings, Service.atMoment_filters,
    Service.atMoment_helpers, Service.atMoment_cache]
  rcases Locals.assemble (s.service.settings.viewName view) options.locals s.service.filters
    s.service.helpers request with ⟨f | locals, journal⟩
  · exact .nil s
  · have hcache := Service.renderAlone_cache (s.service.atMoment moment) s.tree.files view
      locals
    dsimp only [Service.renderWith]
    cases ((s.service.atMoment moment).renderAlone s.tree.files view locals).result with
    | error f =>
      dsimp only
      rw [hcache]
      exact .cons (.nil _)
    | ok page =>
      obtain ⟨name, body⟩ := page
      cases options.layout.resolve s.service.settings.layout with
      | none =>
        dsimp only [Service.wrap]
        rw [hcache]
        exact .cons (.nil _)
      | some layout =>
        dsimp only [Service.wrap]
        rw [Service.renderAlone_cache, hcache]
        exact .cons (.cons (.nil _))

/-- The session behind a step is the one that its look-ups leave, unless the step changes the files
or clears the cache. -/
theorem lookedUp_step (s : Session) {step : Step}
    (hwrite : ∀ path content, step ≠ .write path content)
    (hremove : ∀ path, step ≠ .remove path) (hclear : step ≠ .clear) :
    LookedUp s (s.lookups step) (s.step step).2.2 := by
  cases step with
  | text request view options moment => exact lookedUp_page s request view options moment
  | render request draft view options moment =>
    have hpage := lookedUp_page s request view options moment
    rw [← Service.render_cache _ _ _ draft] at hpage
    exact hpage
  | resolve view locals => exact .cons (.nil _)
  | write path content => exact absurd rfl (hwrite path content)
  | remove path => exact absurd rfl (hremove path)
  | clear => exact absurd rfl hclear

end ViewRendering.Session
