import ViewRendering.Service

/-!
What a look-up of a view returns and what it keeps, with and without a cache. A compiled
view has the name that it was loaded under, and rendering keeps what its look-ups keep.
-/
namespace ViewRendering

theorem Template.compile_name {d : Markup.Delimiters} {filters : Dict Template.Filter}
    {name : String} {text : List Char} {t : Template.Compiled}
    (h : Template.compile d filters name text = .ok t) : t.name = name := by
  unfold Template.compile at h
  split at h
  · cases h
  · split at h
    · cases h
    · rename_i page hpage
      cases h
      unfold Template.readPage at hpage
      split at hpage
      · cases hpage
      · split at hpage
        · cases hpage
        · cases hpage
          rfl

namespace Service

theorem eq_of_build {settings : Settings} {filters : FilterTable} {helpers : Dict Helper}
    {engine : Template.Engine} {s : Service}
    (h : (build settings filters helpers engine).1 = .ok s) :
    s = { settings := settings, filters := filters
          helpers := helpers.filter fun h => !filters.has h.1
          engine := engine } := by
  unfold build at h
  split at h
  · cases h
  · cases h
    rfl

theorem load_name {s : Service} {files : Files} {name : String} {locals : Dict Value}
    {t : Template.Compiled} (h : (s.load files name locals).1 = .ok t) : t.name = name := by
  unfold Service.load at h
  split at h
  · cases h
  · split at h
    · cases h
    · dsimp only at h
      split at h
      · cases h
      · rename_i hcompile
        cases h
        exact Template.compile_name hcompile

/-- A look-up of a caching service finds the view kept, or loads and keeps it, or fails to load it.
It counts as a hit in the first case and as a miss in the others. -/
theorem resolve_cases {s : Service} (hs : s.settings.cache = true) (files : Files)
    (view : String) (locals : Dict Value) :
    (∃ t, s.cache.entries.lookup (s.settings.viewName view) = some t ∧
      (s.resolve files view locals).result = .ok t ∧
      (s.resolve files view locals).cache = { s.cache with hits := s.cache.hits + 1 }) ∨
    (∃ t, s.cache.entries.lookup (s.settings.viewName view) = none ∧
      (s.load files (s.settings.viewName view) locals).1 = .ok t ∧
      (s.resolve files view locals).result = .ok t ∧
      (s.resolve files view locals).cache =
        ⟨s.cache.entries.insert (s.settings.viewName view) t, s.cache.hits,
          s.cache.misses + 1⟩) ∨
    (∃ f, s.cache.entries.lookup (s.settings.viewName view) = none ∧
      (s.load files (s.settings.viewName view) locals).1 = .error f ∧
      (s.resolve files view locals).result = .error f ∧
      (s.resolve files view locals).cache = { s.cache with misses := s.cache.misses + 1 }) := by
  unfold Service.resolve Cache.lookup
  simp only [hs, if_true]
  cases s.cache.entries.lookup (s.settings.viewName view) with
  | some t => exact Or.inl ⟨t, rfl, rfl, rfl⟩
  | none =>
    cases hload : (s.load files (s.settings.viewName view) locals).1 with
    | ok t => exact Or.inr (Or.inl ⟨t, rfl, rfl, rfl, rfl⟩)
    | error f => exact Or.inr (Or.inr ⟨f, rfl, rfl, rfl, rfl⟩)

/-- What a look-up of a caching service returns, and what it keeps. -/
theorem resolve_of_cache {s : Service} (hs : s.settings.cache = true) (files : Files)
    (view : String) (locals : Dict Value) :
    (∃ t, s.cache.entries.lookup (s.settings.viewName view) = some t ∧
      (s.resolve files view locals).result = .ok t ∧
      (s.resolve files view locals).cache.entries = s.cache.entries) ∨
    (s.cache.entries.lookup (s.settings.viewName view) = none ∧
      (s.resolve files view locals).result =
        (s.load files (s.settings.viewName view) locals).1 ∧
      ((∃ t, (s.load files (s.settings.viewName view) locals).1 = .ok t ∧
        (s.resolve files view locals).cache.entries =
          s.cache.entries.insert (s.settings.viewName view) t) ∨
      (∃ f, (s.load files (s.settings.viewName view) locals).1 = .error f ∧
        (s.resolve files view locals).cache.entries = s.cache.entries))) := by
  rcases resolve_cases hs files view locals with ⟨t, hkept, hresult, hcache⟩ |
    ⟨t, hnone, hload, hresult, hcache⟩ | ⟨f, hnone, hload, hresult, hcache⟩
  · exact Or.inl ⟨t, hkept, hresult, by rw [hcache]⟩
  · exact Or.inr ⟨hnone, hresult.trans hload.symm, Or.inl ⟨t, hload, by rw [hcache]⟩⟩
  · exact Or.inr ⟨hnone, hresult.trans hload.symm, Or.inr ⟨f, hload, by rw [hcache]⟩⟩

/-- A look-up that finds no view kept and none to load is a miss and nothing else. -/
theorem resolve_of_load_error {s : Service} {files : Files} {view : String}
    {locals : Dict Value} {f : Failure} (hs : s.settings.cache = true)
    (hnone : s.cache.entries.lookup (s.settings.viewName view) = none)
    (hload : (s.load files (s.settings.viewName view) locals).1 = .error f) :
    (s.resolve files view locals).result = .error f ∧
      (s.resolve files view locals).cache = { s.cache with misses := s.cache.misses + 1 } := by
  rcases resolve_cases hs files view locals with ⟨t, hkept, -, -⟩ | ⟨t, -, hok, -, -⟩ |
    ⟨f', -, herror, hresult, hcache⟩
  · rw [hnone] at hkept
    cases hkept
  · rw [hload] at hok
    cases hok
  · rw [hload] at herror
    cases herror
    exact ⟨hresult, hcache⟩

theorem resolve_of_not_cache {s : Service} (hs : s.settings.cache = false) (files : Files)
    (view : String) (locals : Dict Value) :
    (s.resolve files view locals).result = (s.load files (s.settings.viewName view) locals).1 ∧
      (s.resolve files view locals).cache = s.cache := by
  unfold Service.resolve
  rw [hs]
  exact ⟨rfl, rfl⟩

theorem renderAlone_cache (s : Service) (files : Files) (view : String) (locals : Dict Value) :
    (s.renderAlone files view locals).cache = (s.resolve files view locals).cache := by
  unfold Service.renderAlone
  dsimp only
  split <;> rfl

theorem render_cache (s : Service) (files : Files) (request : Http.Request) (draft : Http.Draft)
    (view : String) (options : Options) :
    (s.render files request draft view options).cache =
      (s.renderText files request view options).cache := by
  unfold Service.render
  dsimp only
  split <;> rfl

section

variable {s : Service} {files : Files}

theorem exists_of_bind_eq_ok {α β : Type} {x : Except Failure α} {f : α → Except Failure β}
    {b : β} (h : x.bind f = .ok b) : ∃ a, x = .ok a ∧ f a = .ok b := by
  cases x with
  | error e => cases h
  | ok a => exact ⟨a, rfl, h⟩

theorem bind_eq_error_iff {α β : Type} {x : Except Failure α} {g : α → Except Failure β}
    {f : Failure} : x.bind g = .error f ↔ x = .error f ∨ ∃ a, x = .ok a ∧ g a = .error f := by
  cases x with
  | error e => simp [Except.bind]
  | ok a => simp [Except.bind]

/-- A view by itself is looked up first, and then writes its text. -/
theorem renderAlone_result_eq (view : String) (locals : Dict Value) :
    (s.renderAlone files view locals).result =
      (s.resolve files view locals).result.bind fun t =>
        (t.execute locals s.engine).bind fun text => .ok (t.name, text) := by
  unfold renderAlone
  dsimp only
  split <;> rename_i h <;> rw [h] <;> rfl

theorem renderAlone_of_resolve {view : String} {locals : Dict Value} {t : Template.Compiled}
    {out : List Char} (hresolve : (s.resolve files view locals).result = .ok t)
    (hexecute : t.execute locals s.engine = .ok out) :
    (s.renderAlone files view locals).result = .ok (t.name, out) := by
  rw [renderAlone_result_eq, hresolve]
  change (t.execute locals s.engine).bind _ = _
  rw [hexecute]
  rfl

/-- What a layout makes of a body. -/
theorem wrap_of_resolve {locals : Dict Value} {name layout : String} {body out : List Char}
    {t : Template.Compiled}
    (hresolve : (s.resolve files layout (locals.insert Locals.bodyKey (.ofChars body))).result =
      .ok t)
    (hexecute : t.execute (locals.insert Locals.bodyKey (.ofChars body)) s.engine = .ok out) :
    (s.wrap files locals name body (some layout)).result = .ok out := by
  unfold wrap
  simp only [renderAlone_of_resolve hresolve hexecute]
  rfl

/-- With a layout or without, the view is rendered first, and a failure of it is the outcome. -/
theorem renderWith_result_eq (view : String) (locals : Dict Value) (layout : Option String) :
    (s.renderWith files view locals layout).result =
      (s.renderAlone files view locals).result.bind fun r =>
        ({ s with cache := (s.renderAlone files view locals).cache }.wrap files locals r.1 r.2
          layout).result := by
  unfold renderWith
  dsimp only
  split <;> rename_i h <;> rw [h] <;> rfl

/-- The locals are put together first, and a helper that fails is the outcome. -/
theorem renderText_result_eq (request : Http.Request) (view : String) (options : Options) :
    (s.renderText files request view options).result =
      (Locals.assemble (s.settings.viewName view) options.locals s.filters s.helpers
        request).1.bind fun locals =>
          (s.renderWith files view locals (options.layout.resolve s.settings.layout)).result := by
  unfold renderText
  split <;> rename_i h <;> rw [h] <;> rfl

end

end Service

end ViewRendering
