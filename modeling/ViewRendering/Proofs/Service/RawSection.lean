import ViewRendering.Proofs.Service.Loading
import ViewRendering.Proofs.Template.RawSection

/-!
Views that are literal text, and views that are a raw section around such a text. The first
kind of page is the text. The second is the text as it stands protected: every brace that
could begin a construct shows as the escape that was written for it.
-/
namespace ViewRendering

open Markup (Bare protect rawSection)

/-- Neither tag of a raw section is a directive. -/
theorem pieces_rawSection {text : List Char} (h : ¬ usualDelimiters.opening <:+: text) :
    Partial.pieces usualDelimiters (rawSection text) = (rawSection text).map .plain := by
  have hbegin : Partial.directiveAt? usualDelimiters
      ('<' :: '%' :: (" raw %>".toList ++ (text ++ "<% endraw %>".toList))) = none := rfl
  have hinside : ¬ usualDelimiters.opening <:+: "% raw %>".toList ++ text := by
    intro hinfix
    apply h
    simpa [usualDelimiters, List.infix_cons_iff] using hinfix
  have hfirst : Text.FirstAt usualDelimiters.opening
      ("% raw %>".toList ++ text ++ (usualDelimiters.opening ++ " endraw %>".toList))
      ("% raw %>".toList ++ text) " endraw %>".toList :=
    Text.firstAt_of_not_infix (by decide) hinside _
  have hend : Partial.directiveAt? usualDelimiters ('<' :: '%' :: " endraw %>".toList) = none := rfl
  have hlast : ¬ usualDelimiters.opening <:+: '%' :: " endraw %>".toList := by
    simp [usualDelimiters, List.infix_cons_iff]
  have hbehind : Partial.pieces usualDelimiters
      (usualDelimiters.opening ++ " endraw %>".toList) =
        (usualDelimiters.opening ++ " endraw %>".toList).map .plain := by
    change Partial.pieces usualDelimiters ('<' :: '%' :: " endraw %>".toList) = _
    rw [Partial.pieces_of_directiveAt?_none hend, Partial.pieces_of_not_infix hlast]
    rfl
  have htail := Partial.pieces_of_firstAt hfirst
  rw [hbehind, ← List.map_append, List.append_assoc] at htail
  change Partial.pieces usualDelimiters
    ('<' :: '%' :: (" raw %>".toList ++ (text ++ "<% endraw %>".toList))) = _
  rw [Partial.pieces_of_directiveAt?_none hbegin]
  exact congrArg (Partial.Piece.plain '<' :: ·) htail

namespace Service

variable {s : Service} {files : Files} {name path : String} {text : List Char}

theorem load_rawSection (hd : s.settings.delimiters = usualDelimiters)
    (hpath : s.settings.viewPath name = .ok path) (hread : files.read path = .ok (rawSection text))
    (htext : ¬ usualDelimiters.opening <:+: text) :
    ∃ t, (∀ locals, (s.load files name locals).1 = .ok t) ∧
      ∀ engine locals, t.execute locals engine = .ok (protect text) := by
  obtain ⟨t, hcompile, hexecute⟩ := Template.compile_rawSection s.filters name htext
  have hplain := pieces_rawSection htext
  rw [← hd] at hcompile hplain
  exact ⟨t, load_of_plain hpath hread hplain hcompile, hexecute⟩

theorem load_literal (hd : s.settings.delimiters = usualDelimiters)
    (hpath : s.settings.viewPath name = .ok path) (hread : files.read path = .ok text)
    (htext : ¬ usualDelimiters.opening <:+: text) :
    ∃ t, (∀ locals, (s.load files name locals).1 = .ok t) ∧
      ∀ engine locals, t.execute locals engine = .ok text := by
  obtain ⟨t, hcompile, hexecute⟩ := Template.compile_literal s.filters name htext
  have hplain := Partial.pieces_of_not_infix htext
  rw [← hd] at hcompile hplain
  exact ⟨t, load_of_plain hpath hread hplain hcompile, hexecute⟩

/-- A raw section shows its text protected, and the text alone shows as it is; the two are the same
exactly if no brace of the text needs an escape. -/
theorem renderText_rawSection (settings : Settings) (filters : FilterTable) (helpers : Dict Helper)
    (engine : Template.Engine) (hbuild : (build settings filters helpers engine).1 = .ok s)
    (hopening : settings.opening = "<%") (hclosing : settings.closing = "%>")
    (files : Files) (request : Http.Request) (options : Options) (text : List Char)
    (htext : ¬ "<%".toList <:+: text) (raw plain rawPath plainPath : String)
    (hrawPath : settings.viewPath (settings.viewName raw) = .ok rawPath)
    (hraw : files.read rawPath = .ok ("<% raw %>".toList ++ text ++ "<% endraw %>".toList))
    (hplainPath : settings.viewPath (settings.viewName plain) = .ok plainPath)
    (hplain : files.read plainPath = .ok text) (rawLocals plainLocals : Dict Value)
    (hrawLocals : (Locals.assemble (settings.viewName raw) options.locals s.filters s.helpers
      request).1 = .ok rawLocals)
    (hplainLocals : (Locals.assemble (settings.viewName plain) options.locals s.filters s.helpers
      request).1 = .ok plainLocals) :
    (s.renderText files request raw options.withoutLayout).result = .ok (protect text) ∧
      (s.renderText files request plain options.withoutLayout).result = .ok text ∧
      (protect text = text ↔ Bare text) := by
  obtain ⟨rfl, hfresh⟩ := build_eq_ok hbuild
  have hd := delimiters_of_usual hopening hclosing
  have hkept (name : String) (t t' : Template.Compiled)
      (h : s.cache.entries.lookup name = some t') : t' = t := by
    rw [hfresh] at h
    cases h
  rw [List.append_assoc] at hraw
  obtain ⟨t, hload, hexecute⟩ := load_rawSection hd hrawPath hraw htext
  obtain ⟨t', hload', hexecute'⟩ := load_literal hd hplainPath hplain htext
  exact ⟨renderText_withoutLayout hrawLocals (hload rawLocals) (hkept _ t)
      (hexecute s.engine rawLocals),
    renderText_withoutLayout hplainLocals (hload' plainLocals) (hkept _ t')
      (hexecute' s.engine plainLocals),
    Markup.protect_eq_self_iff text⟩

def bracedFiles : Files :=
  .ofKnown [("views/raw.html", .ok (Text.Utf8.encode "<% raw %>\x7b\x7b x<% endraw %>".toList)),
    ("views/plain.html", .ok (Text.Utf8.encode "\x7b\x7b x".toList))]

def plainRequest : Http.Request := ⟨"GET", ⟨none, ['/'], ['/'], none⟩, []⟩

theorem renderText_rawSection_braces :
    let s : Service := { settings := {}, filters := [], helpers := [] }
    (s.renderText bracedFiles plainRequest "raw.html" ({} : Options).withoutLayout).result =
        .ok "\x7b\x7b \"\x7b\" \x7d\x7d\x7b x".toList ∧
      (s.renderText bracedFiles plainRequest "plain.html" ({} : Options).withoutLayout).result =
        .ok "\x7b\x7b x".toList := by
  intro s
  obtain ⟨hraw, hplain, -⟩ := renderText_rawSection (s := s) {} [] [] .plain rfl rfl rfl bracedFiles
    plainRequest {} "\x7b\x7b x".toList (by simp [List.infix_cons_iff]) "raw.html" "plain.html"
    "views/raw.html" "views/plain.html" (by rfl) (by decide +kernel) (by rfl) (by decide +kernel)
    _ _ rfl rfl
  have hprotect : protect "\x7b\x7b x".toList = "\x7b\x7b \"\x7b\" \x7d\x7d\x7b x".toList := by
    decide
  rw [hprotect] at hraw
  exact ⟨hraw, hplain⟩

/-- A raw section need not show its text. -/
theorem not_forall_rawSection_verbatim :
    ¬ ∀ (settings : Settings) (filters : FilterTable) (helpers : Dict Helper) (s : Service),
      (build settings filters helpers).1 = .ok s →
      settings.opening = "<%" → settings.closing = "%>" →
      ∀ (files : Files) (request : Http.Request) (options : Options) (text : List Char),
      ¬ "<%".toList <:+: text →
      ∀ (view path : String) (locals : Dict Value),
      settings.viewPath (settings.viewName view) = .ok path →
      files.read path = .ok ("<% raw %>".toList ++ text ++ "<% endraw %>".toList) →
      (Locals.assemble (settings.viewName view) options.locals s.filters s.helpers request).1 =
        .ok locals →
      (s.renderText files request view options.withoutLayout).result = .ok text := by
  intro h
  have htext : ¬ "<%".toList <:+: "\x7b\x7b x".toList := by simp [List.infix_cons_iff]
  have hpath : ({} : Settings).viewPath (({} : Settings).viewName "raw.html") =
      .ok "views/raw.html" := by rfl
  have hread : bracedFiles.read "views/raw.html" = .ok (rawSection "\x7b\x7b x".toList) := by
    decide +kernel
  have hverbatim := h {} [] [] { settings := {}, filters := [], helpers := [] } rfl rfl rfl
    bracedFiles plainRequest {} _ htext "raw.html" _ _ hpath hread rfl
  obtain ⟨t, hload, hexecute⟩ :=
    load_rawSection (s := { settings := {}, filters := [], helpers := [] }) rfl hpath hread htext
  rw [renderText_withoutLayout rfl (hload _) (fun _ hkept => nomatch hkept) (hexecute _ _)]
    at hverbatim
  exact absurd (Except.ok.inj hverbatim) (by decide)

end Service

end ViewRendering
