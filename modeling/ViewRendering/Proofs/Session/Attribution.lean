import ViewRendering.Proofs.Dict.Order
import ViewRendering.Proofs.Session.Snapshot

/-!
Which template a failure belongs to. Every failure on the way to a page names the view or
the layout that it happened in, under its normal name; for a kept template this rests on
the names that a session keeps its templates under. The layout is to blame only for what
happens when the view has already written its text.
-/
namespace ViewRendering

/-- A view that cannot be read, is no template, or fails while it writes its text. -/
inductive Failure.OfView (view : String) : Failure → Prop
  | viewRead (cause : FileFailure) : OfView view (.viewRead view cause)
  | compile (message : String) (line : Option Nat) : OfView view (.compile view message line)
  | execution (message : String) (suggestions : List String) :
      OfView view (.execution view message suggestions)

theorem Failure.OfView.view?_eq {view : String} {f : Failure} (h : f.OfView view) :
    f.view? = some view := by
  cases h <;> rfl

theorem Template.ofView_of_compile {d : Markup.Delimiters} {filters : Dict Template.Filter}
    {name : String} {text : List Char} {f : Failure}
    (h : Template.compile d filters name text = .error f) : f.OfView name := by
  unfold Template.compile at h
  split at h
  · cases h
    exact .compile _ _
  · split at h
    · cases h
      exact .compile _ _
    · cases h

theorem Template.ofView_of_execute {t : Template.Compiled} {engine : Template.Engine}
    {locals : Dict Value} {f : Failure} (h : t.execute locals engine = .error f) :
    f.OfView t.name := by
  unfold Template.Compiled.execute at h
  split at h
  · cases h
  · rename_i fault _
    cases h
    cases fault <;> exact .execution _ _

theorem Locals.ofView_of_withHelpers {view : String} {helpers : Dict Helper}
    {request : Http.Request} {locals : Dict Value} {f : Failure}
    (h : Locals.withHelpers view request helpers locals = .error f) : f.OfView view := by
  induction helpers generalizing locals with
  | nil => cases h
  | cons e helpers ih =>
    unfold Locals.withHelpers at h
    split at h
    · exact ih h
    · split at h
      · cases h
        exact .execution _ _
      · exact ih h

theorem Locals.ofView_of_assemble {view : String} {given : Dict Value} {filters : FilterTable}
    {helpers : Dict Helper} {request : Http.Request} {f : Failure}
    (h : (Locals.assemble view given filters helpers request).1 = .error f) : f.OfView view := by
  unfold Locals.assemble at h
  split at h
  · rename_i hhelpers
    cases h
    exact ofView_of_withHelpers hhelpers
  · cases h

namespace Service

variable {s : Service} {files : Files} {view : String} {locals : Dict Value} {f : Failure}

theorem ofView_of_load {name : String} (h : (s.load files name locals).1 = .error f) :
    f.OfView name := by
  unfold load at h
  split at h
  · cases h
    exact .viewRead _
  · split at h
    · cases h
      exact .viewRead _
    · dsimp only at h
      split at h
      · rename_i hcompile
        cases h
        exact Template.ofView_of_compile hcompile
      · cases h

theorem ofView_of_resolve (h : (s.resolve files view locals).result = .error f) :
    f.OfView (s.settings.viewName view) := by
  cases hcache : s.settings.cache with
  | false =>
    rw [(resolve_of_not_cache hcache files view locals).1] at h
    exact ofView_of_load h
  | true =>
    rcases resolve_of_cache hcache files view locals with ⟨t, -, hresult, -⟩ | ⟨-, hresult, -⟩
    · rw [hresult] at h
      cases h
    · rw [hresult] at h
      exact ofView_of_load h

def KeepsNames (s : Service) : Prop := ∀ e ∈ s.cache.entries, e.2.name = e.1

/-- Whether it was kept or has just been made, a template has the name it was looked up by. -/
theorem KeepsNames.name_of_resolve {t : Template.Compiled} (hs : s.KeepsNames)
    (h : (s.resolve files view locals).result = .ok t) : t.name = s.settings.viewName view := by
  cases hcache : s.settings.cache with
  | false =>
    rw [(resolve_of_not_cache hcache files view locals).1] at h
    exact load_name h
  | true =>
    rcases resolve_of_cache hcache files view locals with ⟨t', hkept, hresult, -⟩ |
      ⟨-, hresult, -⟩
    · rw [hresult, Except.ok.injEq] at h
      subst h
      exact hs _ (Dict.mem_of_lookup hkept)
    · rw [hresult] at h
      exact load_name h

theorem KeepsNames.resolve (hs : s.KeepsNames) (files : Files) (view : String)
    (locals : Dict Value) :
    ({ s with cache := (s.resolve files view locals).cache } : Service).KeepsNames := by
  have hkept : ∀ e ∈ (s.resolve files view locals).cache.entries, e.2.name = e.1 := by
    cases hcache : s.settings.cache with
    | false =>
      rw [(resolve_of_not_cache hcache files view locals).2]
      exact hs
    | true =>
      rcases resolve_of_cache hcache files view locals with ⟨t, -, -, hentries⟩ |
        ⟨-, -, ⟨t, hload, hentries⟩ | ⟨f, -, hentries⟩⟩
      · rw [hentries]
        exact hs
      · intro e he
        rw [hentries] at he
        rcases Dict.mem_insert he with rfl | he
        · exact load_name hload
        · exact hs e he
      · rw [hentries]
        exact hs
  exact hkept

inductive FailsAlone (s : Service) (files : Files) (view : String) (locals : Dict Value) :
    Failure → Prop
  | lookup {f : Failure} : (s.resolve files view locals).result = .error f →
      FailsAlone s files view locals f
  | execution {t : Template.Compiled} {f : Failure} :
      (s.resolve files view locals).result = .ok t → t.execute locals s.engine = .error f →
      FailsAlone s files view locals f

theorem renderAlone_eq_error_iff :
    (s.renderAlone files view locals).result = .error f ↔ s.FailsAlone files view locals f := by
  rw [renderAlone_result_eq, bind_eq_error_iff]
  constructor
  · rintro (h | ⟨t, ht, h⟩)
    · exact .lookup h
    · rcases bind_eq_error_iff.mp h with h | ⟨text, -, h⟩
      · exact .execution ht h
      · cases h
  · rintro (h | ⟨ht, h⟩)
    · exact Or.inl h
    · exact Or.inr ⟨_, ht, bind_eq_error_iff.mpr (Or.inl h)⟩

theorem KeepsNames.ofView_of_failsAlone (hs : s.KeepsNames)
    (h : s.FailsAlone files view locals f) : f.OfView (s.settings.viewName view) := by
  cases h with
  | lookup h => exact ofView_of_resolve h
  | execution ht h =>
    rw [← hs.name_of_resolve ht]
    exact Template.ofView_of_execute h

/-- How a page fails, and in which template: a helper or the view in the view, and when the view has
been rendered, the layout in the layout. -/
inductive Fails (s : Service) (files : Files) (request : Http.Request) (view : String)
    (options : Options) : String → Failure → Prop
  | helper {f : Failure} :
      (Locals.assemble (s.settings.viewName view) options.locals s.filters s.helpers
        request).1 = .error f →
      Fails s files request view options (s.settings.viewName view) f
  | view {locals : Dict Value} {f : Failure} :
      (Locals.assemble (s.settings.viewName view) options.locals s.filters s.helpers
        request).1 = .ok locals →
      s.FailsAlone files view locals f →
      Fails s files request view options (s.settings.viewName view) f
  | layout {locals : Dict Value} {name layout : String} {body : List Char} {f : Failure} :
      (Locals.assemble (s.settings.viewName view) options.locals s.filters s.helpers
        request).1 = .ok locals →
      (s.renderAlone files view locals).result = .ok (name, body) →
      options.layout.resolve s.settings.layout = some layout →
      FailsAlone { s with cache := (s.renderAlone files view locals).cache } files layout
        (locals.insert Locals.bodyKey (.ofChars body)) f →
      Fails s files request view options (s.settings.viewName layout) f

theorem wrap_eq_error_iff {name : String} {body : List Char} {layout : Option String} :
    (s.wrap files locals name body layout).result = .error f ↔
      ∃ l, layout = some l ∧
        s.FailsAlone files l (locals.insert Locals.bodyKey (.ofChars body)) f := by
  cases layout with
  | none => simp [wrap]
  | some l =>
    have hmap : (s.wrap files locals name body (some l)).result =
        (s.renderAlone files l (locals.insert Locals.bodyKey (.ofChars body))).result.bind
          fun r => .ok r.2 := rfl
    rw [hmap, bind_eq_error_iff, renderAlone_eq_error_iff]
    simp

/-- A page fails exactly as one of its stages fails. -/
theorem renderText_eq_error_iff {request : Http.Request} {options : Options} :
    (s.renderText files request view options).result = .error f ↔
      ∃ name, s.Fails files request view options name f := by
  rw [renderText_result_eq, bind_eq_error_iff]
  constructor
  · rintro (h | ⟨locals, hlocals, h⟩)
    · exact ⟨_, .helper h⟩
    · rw [renderWith_result_eq, bind_eq_error_iff] at h
      rcases h with h | ⟨⟨name, body⟩, hview, h⟩
      · exact ⟨_, .view hlocals (renderAlone_eq_error_iff.mp h)⟩
      · obtain ⟨layout, hlayout, h⟩ := wrap_eq_error_iff.mp h
        exact ⟨_, .layout hlocals hview hlayout h⟩
  · rintro ⟨name, h⟩
    cases h with
    | helper h => exact Or.inl h
    | view hlocals h =>
      refine Or.inr ⟨_, hlocals, ?_⟩
      rw [renderWith_result_eq, bind_eq_error_iff]
      exact Or.inl (renderAlone_eq_error_iff.mpr h)
    | layout hlocals hview hlayout h =>
      refine Or.inr ⟨_, hlocals, ?_⟩
      rw [renderWith_result_eq, bind_eq_error_iff]
      exact Or.inr ⟨_, hview, wrap_eq_error_iff.mpr ⟨_, hlayout, h⟩⟩

theorem KeepsNames.ofView_of_fails {request : Http.Request} {options : Options} {name : String}
    (hs : s.KeepsNames) (h : s.Fails files request view options name f) :
    f.OfView name ∧ s.settings.viewName name = name := by
  cases h with
  | helper h => exact ⟨Locals.ofView_of_assemble h, Settings.viewName_viewName _ _⟩
  | view _ h => exact ⟨hs.ofView_of_failsAlone h, Settings.viewName_viewName _ _⟩
  | @layout locals _ _ _ _ _ _ _ h =>
    have hafter : ({ s with cache := (s.renderAlone files view locals).cache } :
        Service).KeepsNames := by
      rw [renderAlone_cache]
      exact hs.resolve files view locals
    exact ⟨hafter.ofView_of_failsAlone h, Settings.viewName_viewName _ _⟩

end Service

namespace Session

/-- After any run and whatever the files are then, a page fails exactly as a helper, its view or its
layout fails, and the failure belongs to that view or layout, under its normal name. -/
theorem run_failure_iff (service : Service) (tree : FileTree) (steps : List Step) (files : Files)
    (request : Http.Request) (view : String) (options : Options) (f : Failure) :
    let s := ((⟨{ service with cache := {} }, tree⟩ : Session).run steps).service
    (s.renderText files request view options).result = .error f ↔
      ∃ name, s.Fails files request view options name f ∧ f.OfView name ∧
        f.view? = some name ∧ s.settings.viewName name = name := by
  intro s
  have hnames : s.KeepsNames := ((Remembers.fresh service tree).run steps).2.named
  rw [Service.renderText_eq_error_iff]
  constructor
  · rintro ⟨name, h⟩
    obtain ⟨hview, hnormal⟩ := hnames.ofView_of_fails h
    exact ⟨name, h, hview, hview.view?_eq, hnormal⟩
  · rintro ⟨name, h, -⟩
    exact ⟨name, h⟩

end Session

end ViewRendering
