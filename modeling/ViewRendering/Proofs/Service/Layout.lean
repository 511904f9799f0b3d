import ViewRendering.Proofs.Service.Loading
import ViewRendering.Proofs.Template.PageRendering

/-!
A page inside its layout. A layout that is literal text around a tag for the body is loaded as
the same template whatever the locals are, and writes the body between the two texts of
the layout as it was rendered.
-/
namespace ViewRendering

open Text (FirstAt)

def bodyLayout (pre post : List Char) : List Char := pre ++ ("<%- body %>".toList ++ post)

section

variable {pre post : List Char}

theorem firstAt_bodyLayout (hpre : ¬ usualDelimiters.opening <:+: pre) (post : List Char) :
    FirstAt usualDelimiters.opening (bodyLayout pre post) pre
      ("- body ".toList ++ (usualDelimiters.closing ++ post)) :=
  Text.firstAt_of_not_infix (by decide) hpre _

/-- The tag for the body is no directive, and there is no other tag. -/
theorem pieces_bodyLayout (hpre : ¬ usualDelimiters.opening <:+: pre)
    (hpost : ¬ usualDelimiters.opening <:+: post) :
    Partial.pieces usualDelimiters (bodyLayout pre post) = (bodyLayout pre post).map .plain := by
  have hbehind : ¬ usualDelimiters.opening <:+: '%' :: ("- body %>".toList ++ post) := by
    intro h
    apply hpost
    simpa [usualDelimiters, List.infix_cons_iff] using h
  have hat : Partial.directiveAt? usualDelimiters ('<' :: '%' :: ("- body %>".toList ++ post)) =
      none := rfl
  rw [Partial.pieces_of_firstAt (firstAt_bodyLayout hpre post)]
  change _ ++ Partial.pieces usualDelimiters ('<' :: '%' :: ("- body %>".toList ++ post)) = _
  rw [Partial.pieces_of_directiveAt?_none hat, Partial.pieces_of_not_infix hbehind, bodyLayout,
    List.map_append]
  rfl

end

theorem compile_bodyLayout {pre post : List Char} (hpre : ¬ usualDelimiters.opening <:+: pre)
    (hpost : ¬ usualDelimiters.opening <:+: post) (filters : Dict Template.Filter) (name : String) :
    ∃ t, Template.compile usualDelimiters filters name (bodyLayout pre post) = .ok t ∧
      ∀ engine locals s, Dict.lookup locals Locals.bodyKey = some (.text s) →
        t.execute locals engine = .ok (pre ++ (s.toList ++ post)) := by
  have hsolid : ∀ c ∈ "body".toList, Text.isSpace c = false ∧ c ≠ '%' := by
    simp [Text.isSpace]
  have hname : Template.OwnName "body".toList := by decide
  have hslots : ∀ s ∈ [(⟨pre, false, "body".toList⟩ : Markup.Slot)], s.Proper :=
    List.forall_mem_singleton.mpr ⟨hpre, List.cons_ne_nil _ _, hsolid⟩
  obtain ⟨t, hcompile, hexecute⟩ := Template.compile_slotPage filters name hslots hpost
    (List.forall_mem_singleton.mpr hname)
  refine ⟨t, hcompile, fun engine locals s hbody => ?_⟩
  exact hexecute engine locals (fun _ => s) (List.forall_mem_singleton.mpr hbody)

namespace Service

variable {s : Service} {files : Files}

/-- A layout is the same template for all locals. -/
theorem load_bodyLayout {name path : String} {pre post : List Char}
    (hd : s.settings.delimiters = usualDelimiters) (hpath : s.settings.viewPath name = .ok path)
    (hread : files.read path = .ok (bodyLayout pre post))
    (hpre : ¬ usualDelimiters.opening <:+: pre) (hpost : ¬ usualDelimiters.opening <:+: post) :
    ∃ t, (∀ locals, (s.load files name locals).1 = .ok t) ∧
      ∀ engine locals body, Dict.lookup locals Locals.bodyKey = some (.text body) →
        t.execute locals engine = .ok (pre ++ (body.toList ++ post)) := by
  obtain ⟨t, hcompile, hexecute⟩ := compile_bodyLayout hpre hpost s.filters name
  have hplain : Partial.pieces s.settings.delimiters (bodyLayout pre post) =
      (bodyLayout pre post).map .plain := by
    rw [hd]
    exact pieces_bodyLayout hpre hpost
  rw [← hd] at hcompile
  exact ⟨t, load_of_plain hpath hread hplain hcompile, hexecute⟩

/-- After its first look-up a service keeps nothing but what it has loaded. -/
theorem lookup_resolve_of_fresh (hfresh : s.cache = {}) {view name : String} {locals : Dict Value}
    {t : Template.Compiled} (hload : (s.load files name locals).1 = .ok t) :
    ∀ t', (s.resolve files view locals).cache.entries.lookup name = some t' → t' = t := by
  intro t' hlookup
  cases hcache : s.settings.cache with
  | false =>
    rw [(resolve_of_not_cache hcache files view locals).2, hfresh] at hlookup
    cases hlookup
  | true =>
    rcases resolve_of_cache hcache files view locals with ⟨t₀, hfound, -⟩ |
      ⟨-, -, ⟨t₀, ht₀, hentries⟩ | ⟨f, -, hentries⟩⟩
    · rw [hfresh] at hfound
      cases hfound
    · rw [hentries, hfresh, Dict.lookup_insert] at hlookup
      split at hlookup
      · rename_i hname
        rw [hname, hload] at ht₀
        cases hlookup
        cases ht₀
        rfl
      · cases hlookup
    · rw [hentries, hfresh] at hlookup
      cases hlookup

/-- A page without a layout is its view, rendered by itself. -/
theorem exists_of_renderText_withoutLayout {request : Http.Request} {view : String}
    {options : Options} {body : List Char}
    (h : (s.renderText files request view options.withoutLayout).result = .ok body) :
    ∃ locals name, (Locals.assemble (s.settings.viewName view) options.locals s.filters s.helpers
        request).1 = .ok locals ∧
      (s.renderAlone files view locals).result = .ok (name, body) := by
  rw [renderText_result_eq] at h
  obtain ⟨locals, hlocals, hwithout⟩ := exists_of_bind_eq_ok h
  rw [renderWith_result_eq] at hwithout
  obtain ⟨⟨name, page⟩, halone, hpage⟩ := exists_of_bind_eq_ok hwithout
  cases hpage
  exact ⟨locals, name, hlocals, halone⟩

/-- A view that a fresh service renders stands in its layout between the two texts. -/
theorem renderWith_inLayout (hd : s.settings.delimiters = usualDelimiters) (hfresh : s.cache = {})
    {view name layout path : String} {locals : Dict Value} {body pre post : List Char}
    (halone : (s.renderAlone files view locals).result = .ok (name, body))
    (hpath : s.settings.viewPath (s.settings.viewName layout) = .ok path)
    (hread : files.read path = .ok (bodyLayout pre post))
    (hpre : ¬ usualDelimiters.opening <:+: pre) (hpost : ¬ usualDelimiters.opening <:+: post) :
    (s.renderWith files view locals (some layout)).result = .ok (pre ++ body ++ post) := by
  obtain ⟨t, hload, hexecute⟩ := load_bodyLayout hd hpath hread hpre hpost
  -- the layout is looked up after the view, among what the view has left in the cache
  have hkept : ∀ t', (s.renderAlone files view locals).cache.entries.lookup
      (s.settings.viewName layout) = some t' → t' = t := by
    rw [renderAlone_cache]
    exact lookup_resolve_of_fresh hfresh (hload locals)
  have hresolve :=
    resolve_of_load (s := { s with cache := (s.renderAlone files view locals).cache })
      (hload (locals.insert Locals.bodyKey (.ofChars body))) hkept
  have hout := hexecute s.engine (locals.insert Locals.bodyKey (.ofChars body)) (String.ofList body)
    (Dict.lookup_insert_self locals Locals.bodyKey _)
  rw [String.toList_ofList, ← List.append_assoc] at hout
  rw [renderWith_result_eq, halone]
  exact wrap_of_resolve hresolve hout

/-- A page that is rendered without a layout appears in its layout as it is, once, between the
texts of the layout. -/
theorem renderText_inLayout (settings : Settings) (filters : FilterTable) (helpers : Dict Helper)
    (engine : Template.Engine) (hbuild : (build settings filters helpers engine).1 = .ok s)
    (hopening : settings.opening = "<%") (hclosing : settings.closing = "%>")
    (files : Files) (request : Http.Request) (view : String) (options : Options)
    (body : List Char)
    (hview : (s.renderText files request view options.withoutLayout).result = .ok body)
    (layout path : String) (hlayout : options.layout.resolve settings.layout = some layout)
    (hpath : settings.viewPath (settings.viewName layout) = .ok path) (pre post : List Char)
    (hread : files.read path = .ok (pre ++ "<%- body %>".toList ++ post))
    (hpre : ¬ "<%".toList <:+: pre) (hpost : ¬ "<%".toList <:+: post) :
    (s.renderText files request view options).result = .ok (pre ++ body ++ post) := by
  obtain ⟨rfl, hfresh⟩ := build_eq_ok hbuild
  have hd : s.settings.delimiters = usualDelimiters := by
    unfold Settings.delimiters
    rw [hopening, hclosing]
    rfl
  obtain ⟨locals, name, hlocals, halone⟩ := exists_of_renderText_withoutLayout hview
  rw [List.append_assoc] at hread
  rw [renderText_result_eq, hlocals, hlayout]
  exact renderWith_inLayout hd hfresh halone hpath hread hpre hpost

def quotingFiles : Files :=
  .ofKnown [("views/layout.html", .ok (Text.Utf8.encode (bodyLayout "\x7b<main>".toList
      "</main>\x7b".toList))),
    ("views/page.html", .ok (Text.Utf8.encode (bodyLayout "\x7b\x7b body \x7d\x7d ".toList [])))]

def quotingOptions : Options := { locals := [("body", .text "<%- partial('page.html') %>")] }

theorem renderText_inLayout_quoting :
    let s : Service := { settings := {}, filters := [], helpers := [] }
    let request : Http.Request := ⟨"GET", ⟨none, ['/'], ['/'], none⟩, []⟩
    let body := "\x7b\x7b body \x7d\x7d <%- partial('page.html') %>".toList
    (s.renderText quotingFiles request "page.html" quotingOptions.withoutLayout).result =
        .ok body ∧
      (s.renderText quotingFiles request "page.html" quotingOptions).result =
        .ok ("\x7b<main>".toList ++ body ++ "</main>\x7b".toList) := by
  intro s request body
  have hview : (s.renderText quotingFiles request "page.html"
      quotingOptions.withoutLayout).result = .ok body := by
    have hpath : s.settings.viewPath "page.html" = .ok "views/page.html" := by decide +kernel
    have hread : quotingFiles.read "views/page.html" =
        .ok (bodyLayout "\x7b\x7b body \x7d\x7d ".toList []) := by
      decide +kernel
    obtain ⟨t, hload, hexecute⟩ := load_bodyLayout delimiters_default hpath hread
      (by simp [usualDelimiters, List.infix_cons_iff]) (by simp [usualDelimiters])
    rw [renderText_result_eq]
    change (s.renderWith quotingFiles "page.html" _ none).result = _
    rw [renderWith_result_eq, renderAlone_of_resolve (resolve_of_load (hload _) (by simp [s]))
      (hexecute _ _ _ rfl)]
    rfl
  exact ⟨hview, renderText_inLayout {} [] [] .plain rfl rfl rfl quotingFiles request "page.html"
    quotingOptions body hview "layout.html" "views/layout.html" rfl (by rfl) "\x7b<main>".toList
    "</main>\x7b".toList (by decide +kernel) (by simp [List.infix_cons_iff])
    (by simp [List.infix_cons_iff])⟩

end Service

end ViewRendering
