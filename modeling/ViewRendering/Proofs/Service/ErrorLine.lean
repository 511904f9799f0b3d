import ViewRendering.Proofs.Partial.OpenTag
import ViewRendering.Proofs.Service.Loading

/-!
The line of a tag that is never closed. A view is translated with its partials in place, and
the line of the failure is a line of that text. It is the line in the file of the view exactly
if the partials above the tag have as many line ends as the directives they stand for.
-/
namespace ViewRendering.Service

open Markup (LeftOpen lineBefore)
open Partial (Directive Seamless Surroundings Tagwise directiveLines pieces)

variable {s : Service} {files : Files} {view path : String} {locals : Dict Value}
variable {text tail : List Char}

/-- A view whose expansion has a tag that is never closed fails with the line of that tag in the
expansion. -/
theorem resolve_of_leftOpen (hs : s.settings.check = .ok ())
    (hkept : s.cache.entries.lookup (s.settings.viewName view) = none)
    (hpath : s.settings.viewPath (s.settings.viewName view) = .ok path)
    (hread : files.read path = .ok text)
    (hopen : LeftOpen s.settings.delimiters
      ((⟨s.settings, files, s.settings.viewName view, locals⟩ : Surroundings).expand text).1
      tail) :
    let page :=
      ((⟨s.settings, files, s.settings.viewName view, locals⟩ : Surroundings).expand text).1
    let e : Markup.Unclosed := ⟨s.settings.delimiters, lineBefore page tail⟩
    (s.resolve files view locals).result =
      .error (.compile (s.settings.viewName view) e.message (some e.line)) := by
  intro page e
  have htranslate : Markup.translate s.settings.delimiters page = .error e :=
    (Markup.translate_eq_error_iff (Markup.opening_ne_nil_of_check hs) page e).mpr
      ⟨tail, hopen, rfl⟩
  rw [resolve_of_not_kept locals hkept, load_of_read hpath hread]
  unfold Template.compile
  rw [htranslate]

/-- A view with a tag that is never closed fails with the line of that tag in the view with its
partials in place. Against the line in the file of the view it counts the line ends of what the
directives contribute in place of their own. -/
theorem resolve_unclosed_line (s : Service) (hs : s.settings.check = .ok ()) (files : Files)
    (view path : String) (locals : Dict Value) (text tail : List Char)
    (hkept : s.cache.entries.lookup (s.settings.viewName view) = none)
    (hpath : s.settings.viewPath (s.settings.viewName view) = .ok path)
    (hread : files.read path = .ok text)
    (hopen : (Markup.scan s.settings.delimiters text).unclosed = some tail)
    (hnewline : s.settings.delimiters.opening.head? ≠ some '\n')
    (hcarriage : s.settings.delimiters.opening.head? ≠ some '\r')
    (htags : Tagwise s.settings.delimiters text
      (Markup.scan s.settings.delimiters text).segments)
    (hclosed : ∀ m, .directive m ∈ pieces s.settings.delimiters text →
      (Markup.scan s.settings.delimiters
        ((⟨s.settings, files, s.settings.viewName view, locals⟩ : Surroundings).contribution
          m)).unclosed = none)
    (hseams : Seamless s.settings.delimiters
      (⟨s.settings, files, s.settings.viewName view, locals⟩ : Surroundings).contribution
      (pieces s.settings.delimiters text)) :
    let e : Surroundings := ⟨s.settings, files, s.settings.viewName view, locals⟩
    let ps := pieces s.settings.delimiters text
    ∃ line,
      (s.resolve files view locals).result =
        .error (.compile (s.settings.viewName view)
          (⟨s.settings.delimiters, line⟩ : Markup.Unclosed).message (some line)) ∧
      line + directiveLines Directive.source ps =
        lineBefore text tail + directiveLines e.contribution ps ∧
      (line = lineBefore text tail ↔
        directiveLines e.contribution ps = directiveLines Directive.source ps) := by
  intro e ps
  have hopening := Markup.opening_ne_nil_of_check hs
  have hd : Markup.Inline s.settings.delimiters := {
    opening := hopening
    closing := Markup.closing_ne_nil_of_check hs
    newline := hnewline
    carriage := hcarriage }
  have hfilled := Partial.leftOpen_fill hd (Markup.halts_scan hopening hopen) htags
    (fun m hm => Markup.closed_of_scan hopening (hclosed m hm)) hseams
  have hlines := Partial.lineEnds_fill e.contribution ps
  have hview := ((Markup.leftOpen_iff_scan hopening).mpr hopen).lineBefore_add
  have hpage := hfilled.lineBefore_add
  rw [Partial.flatMap_source_pieces] at hlines
  rw [← Surroundings.expand_eq_fill e text] at hfilled hlines hpage
  have hsum : lineBefore (e.expand text).1 tail + directiveLines Directive.source ps =
      lineBefore text tail + directiveLines e.contribution ps := by omega
  refine ⟨lineBefore (e.expand text).1 tail, resolve_of_leftOpen hs hkept hpath hread hfilled,
    hsum, ?_⟩
  omega

def openView : List Char := "<%- partial('nav.html') %>\n<% if x".toList

def openFiles : Files :=
  .ofKnown [("views/index.html", .ok (Text.Utf8.encode openView)),
    ("views/nav.html", .ok (Text.Utf8.encode "a\nb\n".toList))]

def openService : Service := { settings := {}, filters := [], helpers := [] }

def openDirective : Directive := ⟨"<%- partial('nav.html') %>".toList, "'nav.html'".toList⟩

def openSurroundings : Surroundings := ⟨{}, openFiles, "index.html", []⟩

theorem read_openView :
    pieces ({} : Settings).delimiters openView =
        .directive openDirective :: "\n<% if x".toList.map .plain ∧
      Markup.scan ({} : Settings).delimiters openView =
        ⟨[.literal [], .tag ⟨"- partial('nav.html') ".toList, []⟩, .literal ['\n']],
          some "<% if x".toList⟩ ∧
      ({} : Settings).viewPath (({} : Settings).viewName "index.html") = .ok "views/index.html" ∧
      openFiles.read "views/index.html" = .ok openView := by
  decide +kernel

theorem expand_openView :
    openSurroundings.contribution openDirective = "a\nb\n".toList ∧
      (Markup.scan ({} : Settings).delimiters "a\nb\n".toList).unclosed = none ∧
      (Markup.scan ({} : Settings).delimiters (openSurroundings.expand openView).1).unclosed =
        some "<% if x".toList ∧
      lineBefore (openSurroundings.expand openView).1 "<% if x".toList = 4 := by
  decide +kernel

theorem tagwise_openView :
    Tagwise ({} : Settings).delimiters openView
      (Markup.scan ({} : Settings).delimiters openView).segments := by
  obtain ⟨hpieces, hscan, -⟩ := read_openView
  intro before m after h
  rw [hpieces] at h
  obtain ⟨rfl, rfl, -⟩ := Partial.eq_of_directive_plain h
  rw [hscan]
  exact ⟨⟨"- partial('nav.html') ".toList, []⟩, ⟨[.literal []], [.literal ['\n']], rfl, rfl⟩,
    by decide⟩

theorem seamless_openView :
    Seamless ({} : Settings).delimiters openSurroundings.contribution
      (pieces ({} : Settings).delimiters openView) := by
  intro before m after h
  rw [read_openView.1] at h
  obtain ⟨rfl, rfl, rfl⟩ := Partial.eq_of_directive_plain h
  rw [expand_openView.1, Partial.fill_plain]
  decide

theorem closed_openView (m : Directive)
    (hm : .directive m ∈ pieces ({} : Settings).delimiters openView) :
    (Markup.scan ({} : Settings).delimiters (openSurroundings.contribution m)).unclosed = none := by
  obtain ⟨before, after, h⟩ := List.append_of_mem hm
  rw [read_openView.1] at h
  obtain ⟨-, rfl, -⟩ := Partial.eq_of_directive_plain h
  rw [expand_openView.1]
  exact expand_openView.2.1

theorem directiveLines_openView :
    directiveLines Directive.source (pieces ({} : Settings).delimiters openView) = 0 ∧
      directiveLines openSurroundings.contribution
        (pieces ({} : Settings).delimiters openView) = 2 := by
  rw [read_openView.1, directiveLines, directiveLines, Partial.directiveLines_plain,
    Partial.directiveLines_plain, expand_openView.1]
  decide

/-- The tag on the second line of the view is reported on the fourth. -/
theorem resolve_unclosed_line_openView :
    lineBefore openView "<% if x".toList = 2 ∧
      (openService.resolve openFiles "index.html" []).result =
        .error (.compile "index.html" "code region opened with '<%' is never closed with '%>'"
          (some 4)) := by
  have hview : lineBefore openView "<% if x".toList = 2 := by decide
  obtain ⟨-, hscan, hpath, hread⟩ := read_openView
  obtain ⟨line, hresult, hsum, -⟩ := resolve_unclosed_line openService (by decide) openFiles
    "index.html" "views/index.html" [] openView "<% if x".toList (by decide) hpath hread
    (congrArg Markup.Scan.unclosed hscan) (by decide) (by decide) tagwise_openView
    closed_openView seamless_openView
  obtain ⟨hsource, hcontribution⟩ := directiveLines_openView
  change line + directiveLines Directive.source (pieces ({} : Settings).delimiters openView) =
    lineBefore openView _ + directiveLines openSurroundings.contribution
      (pieces ({} : Settings).delimiters openView) at hsum
  rw [hsource, hcontribution, hview] at hsum
  obtain rfl : line = 4 := hsum
  exact ⟨hview, hresult⟩

/-- The line of the failure need not be the line in the file of the view. -/
theorem not_forall_line_in_view :
    ¬ ∀ (s : Service) (files : Files) (view path : String) (locals : Dict Value)
      (text tail : List Char),
      s.settings.check = .ok () →
      s.cache.entries.lookup (s.settings.viewName view) = none →
      s.settings.viewPath (s.settings.viewName view) = .ok path →
      files.read path = .ok text →
      (Markup.scan s.settings.delimiters text).unclosed = some tail →
      (∀ m, .directive m ∈ pieces s.settings.delimiters text →
        (Markup.scan s.settings.delimiters
          ((⟨s.settings, files, s.settings.viewName view, locals⟩ : Surroundings).contribution
            m)).unclosed = none) →
      ∃ message, (s.resolve files view locals).result =
        .error (.compile (s.settings.viewName view) message (some (lineBefore text tail))) := by
  intro h
  obtain ⟨-, hscan, hpath, hread⟩ := read_openView
  obtain ⟨-, -, hexpansion, hline⟩ := expand_openView
  obtain ⟨message, hview⟩ := h openService openFiles "index.html" "views/index.html" [] openView
    "<% if x".toList (by decide) (by decide) hpath hread
    (congrArg Markup.Scan.unclosed hscan) closed_openView
  have hopen : LeftOpen ({} : Settings).delimiters (openSurroundings.expand openView).1
      "<% if x".toList :=
    (Markup.leftOpen_iff_scan (by decide)).mpr hexpansion
  have hresult := resolve_of_leftOpen (s := openService) (by decide) (by decide) hpath
    hread hopen
  have hsame : some (lineBefore openView "<% if x".toList) =
      some (lineBefore (openSurroundings.expand openView).1 "<% if x".toList) :=
    (Failure.compile.inj (Except.error.inj (hview.symm.trans hresult))).2.2
  rw [hline] at hsame
  exact absurd hsame (by decide)

end ViewRendering.Service
