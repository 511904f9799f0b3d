import ViewRendering.Proofs.Markup.OutputTags
import ViewRendering.Proofs.Partial.Decision
import ViewRendering.Proofs.Partial.Pieces
import ViewRendering.Proofs.Service.Resolution

/-!
From the file of a view to its page. A view that is not kept is made from its file: what its text
expands to is compiled under its name. The page without a layout is what the compiled view
writes.
-/
namespace ViewRendering

theorem delimiters_of_usual {settings : Settings} (hopening : settings.opening = "<%")
    (hclosing : settings.closing = "%>") : settings.delimiters = usualDelimiters := by
  unfold Settings.delimiters
  rw [hopening, hclosing]
  rfl

namespace Service

variable {s : Service} {files : Files}

theorem build_eq_ok {settings : Settings} {filters : FilterTable} {helpers : Dict Helper}
    {engine : Template.Engine} (h : (build settings filters helpers engine).1 = .ok s) :
    s.settings = settings ∧ s.cache = {} := by
  rw [eq_of_build h]
  exact ⟨rfl, rfl⟩

/-- A readable view is compiled from the expansion of its text. -/
theorem load_of_read {name path : String} {text : List Char}
    (hpath : s.settings.viewPath name = .ok path) (hread : files.read path = .ok text)
    (locals : Dict Value) :
    (s.load files name locals).1 = Template.compile s.settings.delimiters s.filters name
      ((⟨s.settings, files, name, locals⟩ : Partial.Surroundings).expand text).1 := by
  have hreadFor := (Partial.Surroundings.readFor_eq_ok_iff files path s.settings.root
    "view rendering" "render service" _).mpr hread
  unfold load
  simp only [hpath, hreadFor]
  split <;> rename_i h <;> exact h.symm

/-- A view without directives is the same template for all locals. -/
theorem load_of_plain {name path : String} {text : List Char} {t : Template.Compiled}
    (hpath : s.settings.viewPath name = .ok path) (hread : files.read path = .ok text)
    (hplain : Partial.pieces s.settings.delimiters text = text.map .plain)
    (hcompile : Template.compile s.settings.delimiters s.filters name text = .ok t)
    (locals : Dict Value) : (s.load files name locals).1 = .ok t := by
  rw [load_of_read hpath hread, Partial.Surroundings.expand_of_plain hplain]
  exact hcompile

/-- A kept view, if there is one of this name, is the loaded one. -/
theorem resolve_of_load {view : String} {locals : Dict Value} {t : Template.Compiled}
    (hload : (s.load files (s.settings.viewName view) locals).1 = .ok t)
    (hkept : ∀ t', s.cache.entries.lookup (s.settings.viewName view) = some t' → t' = t) :
    (s.resolve files view locals).result = .ok t := by
  cases hcache : s.settings.cache with
  | false => rw [(resolve_of_not_cache hcache files view locals).1, hload]
  | true =>
    rcases resolve_of_cache hcache files view locals with ⟨t', hlookup, hresult, -⟩ |
      ⟨-, hresult, -⟩
    · rw [hresult, hkept t' hlookup]
    · rw [hresult, hload]

theorem resolve_of_not_kept {view : String} (locals : Dict Value)
    (hkept : s.cache.entries.lookup (s.settings.viewName view) = none) :
    (s.resolve files view locals).result = (s.load files (s.settings.viewName view) locals).1 := by
  cases hcache : s.settings.cache with
  | false => exact (resolve_of_not_cache hcache files view locals).1
  | true =>
    rcases resolve_of_cache hcache files view locals with ⟨t, hlookup, -⟩ | ⟨-, hresult, -⟩
    · rw [hkept] at hlookup
      cases hlookup
    · exact hresult

/-- The page of a loaded view without a layout is what the view writes. -/
theorem renderText_withoutLayout {request : Http.Request} {view : String} {options : Options}
    {locals : Dict Value} {t : Template.Compiled} {out : List Char}
    (hlocals : (Locals.assemble (s.settings.viewName view) options.locals s.filters s.helpers
      request).1 = .ok locals)
    (hload : (s.load files (s.settings.viewName view) locals).1 = .ok t)
    (hkept : ∀ t', s.cache.entries.lookup (s.settings.viewName view) = some t' → t' = t)
    (hexecute : t.execute locals s.engine = .ok out) :
    (s.renderText files request view options.withoutLayout).result = .ok out := by
  have halone := renderAlone_of_resolve (resolve_of_load hload hkept) hexecute
  rw [renderText_result_eq]
  change (Locals.assemble (s.settings.viewName view) options.locals s.filters s.helpers
    request).1.bind (fun locals => (s.renderWith files view locals none).result) = _
  rw [hlocals]
  change (s.renderWith files view locals none).result = _
  rw [renderWith_result_eq, halone]
  rfl

end Service

end ViewRendering
