import ViewRendering.Proofs.Partial.Decision
import ViewRendering.Proofs.Path.Containment
import ViewRendering.Service

/-!
What a render can see of the files. Views, layouts and partials are all looked up by
names that lead below the root, so every path that is read lies there, and files
elsewhere make no difference to a page.
-/
namespace ViewRendering.Service

open Partial (Surroundings)

def ReadsBelow (root : String) (j : Journal) : Prop := ∀ path, .read path ∈ j → Path.Below root path

theorem readsBelow_append {root : String} {j k : Journal} (hj : ReadsBelow root j)
    (hk : ReadsBelow root k) : ReadsBelow root (j ++ k) := by
  intro path h
  rcases List.mem_append.mp h with h | h
  · exact hj path h
  · exact hk path h

theorem readsBelow_event_cons {root : String} {j : Journal} (e : Event) (hj : ReadsBelow root j) :
    ReadsBelow root (.event e :: j) := by
  intro path h
  rcases List.mem_cons.mp h with h | h
  · cases h
  · exact hj path h

theorem readsBelow_read_cons {root path : String} {j : Journal} (hpath : Path.Below root path)
    (hj : ReadsBelow root j) : ReadsBelow root (.read path :: j) := by
  intro q h
  rcases List.mem_cons.mp h with h | h
  · cases h
    exact hpath
  · exact hj q h

theorem readsBelow_nil (root : String) : ReadsBelow root [] := fun _ h => absurd h List.not_mem_nil

theorem load_readsBelow (s : Service) (files : Files) (name : String) (locals : Dict Value) :
    ReadsBelow s.settings.root (s.load files name locals).2 := by
  unfold load
  split
  · exact readsBelow_nil _
  · rename_i path hpath
    have hbelow := Path.below_of_viewPath hpath
    split
    · exact readsBelow_read_cons hbelow (readsBelow_nil _)
    · rename_i source _
      have hexpand : ReadsBelow s.settings.root
          ((⟨s.settings, files, name, locals⟩ : Surroundings).expand source).2 := by
        intro q hq
        obtain ⟨n, hn⟩ := Surroundings.viewPath_of_expandBelow _ _ _ _ hq
        exact Path.below_of_viewPath hn
      dsimp only
      split
      · exact readsBelow_read_cons hbelow hexpand
      · exact readsBelow_append (readsBelow_read_cons hbelow hexpand)
          (readsBelow_event_cons _ (readsBelow_nil _))

theorem resolve_readsBelow (s : Service) (files : Files) (view : String) (locals : Dict Value) :
    ReadsBelow s.settings.root (s.resolve files view locals).journal := by
  have hload := load_readsBelow s files (s.settings.viewName view) locals
  unfold resolve
  dsimp only
  split
  · split
    · exact readsBelow_event_cons _ (readsBelow_nil _)
    · exact readsBelow_event_cons _ hload
  · exact hload

theorem renderAlone_readsBelow (s : Service) (files : Files) (view : String)
    (locals : Dict Value) :
    ReadsBelow s.settings.root (s.renderAlone files view locals).journal := by
  have hresolve := resolve_readsBelow s files view locals
  unfold renderAlone
  dsimp only
  split <;> exact hresolve

theorem wrap_readsBelow (s : Service) (files : Files) (locals : Dict Value) (name : String)
    (body : List Char) (layout : Option String) :
    ReadsBelow s.settings.root (s.wrap files locals name body layout).journal := by
  cases layout with
  | none => exact readsBelow_event_cons _ (readsBelow_nil _)
  | some layout => exact readsBelow_event_cons _ (renderAlone_readsBelow s files layout _)

theorem renderWith_readsBelow (s : Service) (files : Files) (view : String) (locals : Dict Value)
    (layout : Option String) :
    ReadsBelow s.settings.root (s.renderWith files view locals layout).journal := by
  have halone := renderAlone_readsBelow s files view locals
  unfold renderWith
  dsimp only
  split
  · exact halone
  · rename_i name body _
    exact readsBelow_append halone
      (wrap_readsBelow { s with cache := (s.renderAlone files view locals).cache } files locals
        name body layout)

theorem assemble_readsBelow (root view : String) (given : Dict Value) (filters : FilterTable)
    (helpers : Dict Helper) (request : Http.Request) :
    ReadsBelow root (Locals.assemble view given filters helpers request).2 := by
  unfold Locals.assemble
  split
  · exact readsBelow_nil _
  · intro path h
    simp [Locals.reservedEvents, Journal.debug] at h

theorem renderText_readsBelow (s : Service) (files : Files) (request : Http.Request)
    (view : String) (options : Options) :
    ReadsBelow s.settings.root (s.renderText files request view options).journal := by
  have hlocals := assemble_readsBelow s.settings.root (s.settings.viewName view) options.locals
    s.filters s.helpers request
  unfold renderText
  split
  · rename_i f journal heq
    rw [heq] at hlocals
    exact hlocals
  · rename_i locals journal heq
    rw [heq] at hlocals
    exact readsBelow_append hlocals (renderWith_readsBelow s files view locals _)

theorem emit_readsBelow (root : String) (draft : Http.Draft) (page : List Char) :
    ReadsBelow root (Emission.emit draft page).2 := by
  have htype : ReadsBelow root (ContentType.withCharset (Emission.declaredType draft)).2 := by
    unfold ContentType.withCharset
    split
    · exact readsBelow_nil _
    · dsimp only
      split
      · exact readsBelow_nil _
      · split
        · exact readsBelow_nil _
        · exact readsBelow_event_cons _ (readsBelow_nil _)
  have hall := readsBelow_append htype (readsBelow_event_cons
    ⟨.debug, .response, s!"Emitting response ({(Emission.octets page).length} bytes)"⟩
    (readsBelow_nil _))
  unfold Emission.emit
  dsimp only
  split
  · exact htype
  · split <;> exact hall

theorem render_readsBelow (s : Service) (files : Files) (request : Http.Request)
    (draft : Http.Draft) (view : String) (options : Options) :
    ReadsBelow s.settings.root (s.render files request draft view options).journal := by
  have htext := renderText_readsBelow s files request view options
  unfold render
  dsimp only
  split
  · exact htext
  · exact readsBelow_append htext (emit_readsBelow _ draft _)

def AgreeBelow (root : String) (files files' : Files) : Prop :=
  ∀ path, Path.Below root path → files.octets path = files'.octets path

theorem read_eq_of_agreeBelow {root path : String} {files files' : Files}
    (h : AgreeBelow root files files') (hpath : Path.Below root path) :
    files.read path = files'.read path := by
  unfold Files.read
  rw [h path hpath]

theorem readFor_eq_of_agreeBelow {root path : String} {files files' : Files}
    (h : AgreeBelow root files files') (hpath : Path.Below root path) (purpose caller : String) :
    files.readFor path root purpose caller = files'.readFor path root purpose caller := by
  unfold Files.readFor
  rw [read_eq_of_agreeBelow h hpath]

theorem expand_eq_of_agreeBelow {c : Settings} {files files' : Files}
    (h : AgreeBelow c.root files files') (view : String) (locals : Dict Value)
    (text : List Char) :
    (⟨c, files, view, locals⟩ : Surroundings).expand text =
      (⟨c, files', view, locals⟩ : Surroundings).expand text := by
  have hagree : Surroundings.Agree ⟨c, files, view, locals⟩ ⟨c, files', view, locals⟩
      fun _ => True := by
    refine ⟨rfl, rfl, ?_, fun _ _ _ _ => trivial⟩
    intro _ d _ _ chain
    unfold Surroundings.decide
    have hname : (⟨c, files, view, locals⟩ : Surroundings).nameOf d.expression =
        (⟨c, files', view, locals⟩ : Surroundings).nameOf d.expression := rfl
    rw [hname]
    split
    · rfl
    · split
      · rfl
      · split
        · rfl
        · split
          · rename_i hpath
            simp only [hpath]
          · rename_i path hpath
            simp only [hpath]
            rw [readFor_eq_of_agreeBelow h (Path.below_of_viewPath hpath)]
  exact hagree.expand text trivial

theorem load_eq_of_agreeBelow {s : Service} {files files' : Files}
    (h : AgreeBelow s.settings.root files files') : s.load files = s.load files' := by
  funext name locals
  unfold load
  split
  · rfl
  · rename_i path hpath
    rw [readFor_eq_of_agreeBelow h (Path.below_of_viewPath hpath)]
    split
    · rfl
    · rename_i source _
      dsimp only
      rw [expand_eq_of_agreeBelow h name locals source]

theorem resolve_eq_of_load {s : Service} {files files' : Files}
    (h : s.load files = s.load files') : s.resolve files = s.resolve files' := by
  funext view locals
  unfold resolve
  rw [h]

theorem renderAlone_eq_of_load {s : Service} {files files' : Files}
    (h : s.load files = s.load files') : s.renderAlone files = s.renderAlone files' := by
  funext view locals
  unfold renderAlone
  rw [resolve_eq_of_load h]

/-- Files reach a page only through the views that are loaded. -/
theorem renderText_eq_of_load {s : Service} {files files' : Files}
    (h : s.load files = s.load files') : s.renderText files = s.renderText files' := by
  have hwrap (cache : Cache Template.Compiled) :
      ({ s with cache := cache } : Service).wrap files =
        ({ s with cache := cache } : Service).wrap files' := by
    funext locals name body layout
    have hlayout : ({ s with cache := cache } : Service).renderAlone files =
        ({ s with cache := cache } : Service).renderAlone files' := renderAlone_eq_of_load h
    unfold wrap
    rw [hlayout]
  funext request view options
  unfold renderText renderWith
  rw [renderAlone_eq_of_load h]
  simp only [hwrap]

theorem mem_reads_iff (j : Journal) (path : String) : path ∈ j.reads ↔ .read path ∈ j := by
  unfold Journal.reads
  rw [List.mem_filterMap]
  constructor
  · rintro ⟨o, ho, hpath⟩
    cases o with
    | event e => simp at hpath
    | read q =>
      simp only [Option.some.injEq] at hpath
      exact hpath ▸ ho
  · intro h
    exact ⟨.read path, h, rfl⟩

/-- Every path that is read is the root with a relative path joined to it that never climbs above
it, and its normal form goes on from that of the root. -/
def Contained (root : String) (j : Journal) : Prop :=
  ∀ path ∈ j.reads, Path.Below root path ∧ Path.isAbsolute path = Path.isAbsolute root ∧
    Path.normalSteps root <+: Path.normalSteps path

theorem ReadsBelow.contained {root : String} {j : Journal} (h : ReadsBelow root j) :
    Contained root j := by
  intro path hpath
  have hbelow := h path ((mem_reads_iff j path).mp hpath)
  exact ⟨hbelow, hbelow.normalSteps_prefix⟩

/-- Rendering reads nothing outside the root, and nothing outside the root changes what comes of
it. -/
theorem render_contained (s : Service) (files : Files) (request : Http.Request)
    (draft : Http.Draft) (view : String) (options : Options) :
    Contained s.settings.root (s.renderText files request view options).journal ∧
    Contained s.settings.root (s.render files request draft view options).journal ∧
    ∀ files', AgreeBelow s.settings.root files files' →
      s.renderText files request view options = s.renderText files' request view options ∧
      s.render files request draft view options = s.render files' request draft view options := by
  refine ⟨(renderText_readsBelow s files request view options).contained,
    (render_readsBelow s files request draft view options).contained, ?_⟩
  intro files' hfiles
  have htext := renderText_eq_of_load (load_eq_of_agreeBelow hfiles)
  refine ⟨by rw [htext], ?_⟩
  unfold render
  rw [htext]

def page (secret : List UInt8) : Files :=
  .ofKnown [("secret", .ok secret),
    ("views/index.html", .ok (Text.Utf8.encode "<%- partial('a/../../secret') %>".toList))]

theorem octets_ofKnown_cons_of_ne {key path : String} (r : Except FileFault (List UInt8))
    (known : Dict (Except FileFault (List UInt8))) (h : key ≠ path) :
    (Files.ofKnown ((key, r) :: known)).octets path = (Files.ofKnown known).octets path := by
  simp only [Files.ofKnown, Dict.lookup_cons, if_neg h]

theorem agreeBelow_page (secret secret' : List UInt8) :
    AgreeBelow "views" (page secret) (page secret') := by
  intro path hpath
  have hne : "secret" ≠ path := by
    rintro rfl
    exact absurd hpath.normalSteps_prefix.2 (by decide +kernel)
  unfold page
  rw [octets_ofKnown_cons_of_ne _ _ hne, octets_ofKnown_cons_of_ne _ _ hne]

theorem render_contained_page :
    AgreeBelow "views" (page [1]) (page [2]) ∧
      ({ settings := {}, filters := [], helpers := [] } : Service).renderText (page [1])
          ⟨"GET", ⟨none, ['/'], ['/'], none⟩, []⟩ "index.html" {} =
        ({ settings := {}, filters := [], helpers := [] } : Service).renderText (page [2])
          ⟨"GET", ⟨none, ['/'], ['/'], none⟩, []⟩ "index.html" {} :=
  ⟨agreeBelow_page [1] [2],
    ((render_contained _ (page [1]) _ (.ok {}) "index.html" {}).2.2 (page [2])
      (agreeBelow_page [1] [2])).1⟩

end ViewRendering.Service
