import ViewRendering.Proofs.Command.Work
import ViewRendering.Proofs.Locals.Precedence
import ViewRendering.Proofs.Service.Layout
import ViewRendering.Proofs.Settings.Reading

/-!
The settings, the locals and the layout that a command renders its view with. What the command says
itself goes before its locals, and these go before the settings in its file. Yet a file or locals
that are faulty are refused even if nothing in them would have been used.
-/
namespace ViewRendering

theorem LayoutChoice.resolve_ofName (name : String) (configured : Option String) :
    (ofName name).resolve configured = if name = "" then none else some name := by
  unfold ofName
  by_cases hname : name = ""
  · rw [if_pos hname, if_pos (String.isEmpty_iff.mpr hname)]
    rfl
  · rw [if_neg hname, if_neg (mt String.isEmpty_iff.mp hname)]
    rfl

namespace Options

/-- What may stand under the name of the layout in a record of locals. -/
inductive IsChoice : Option Value → Prop
  | left : IsChoice none
  | null : IsChoice (some .null)
  | bool (b : Bool) : IsChoice (some (.bool b))
  | text (name : String) : IsChoice (some (.text name))

/-- A record and its fields. Nothing at all counts as a record without fields. -/
inductive FieldsOf : Value → Dict Value → Prop
  | null : FieldsOf .null []
  | record (fields : Dict Value) : FieldsOf (.record fields) fields

theorem exists_layoutOf_iff {v : Option Value} :
    (∃ choice, layoutOf v = .ok choice) ↔ IsChoice v := by
  constructor
  · rintro ⟨choice, h⟩
    unfold layoutOf at h
    split at h
    · exact .left
    · exact .bool true
    · exact .bool false
    · exact .null
    · exact .text _
    · cases h
  · rintro (_ | _ | ⟨_ | _⟩ | _) <;> exact ⟨_, rfl⟩

/-- Options are read from a record in which any layout is a choice. The layout is taken out of the
locals. -/
theorem ofValue_eq_ok_iff {v : Value} {o : Options} :
    ofValue v = .ok o ↔ ∃ fields choice, FieldsOf v fields ∧
      layoutOf (Dict.lookup fields layoutKey) = .ok choice ∧
      o = ⟨choice, Dict.erase fields layoutKey⟩ := by
  constructor
  · intro h
    unfold ofValue at h
    split at h
    · exact ⟨[], .usual, .null, rfl, (Except.ok.inj h).symm⟩
    · rename_i fields
      split at h
      · cases h
      · rename_i choice hchoice
        exact ⟨fields, choice, .record fields, hchoice, (Except.ok.inj h).symm⟩
    · cases h
  · rintro ⟨fields, choice, hfields, hchoice, rfl⟩
    cases hfields with
    | null =>
      cases hchoice
      rfl
    | record fields => rw [ofValue, hchoice]

end Options

namespace Command

open Options (IsChoice)

inductive StartsFrom (c : Command) (files : Files) : Settings → Prop
  | usual (h : c.settingsFile = none) : StartsFrom c files {}
  | loaded {path : String} {s : Settings} (h : c.settingsFile = some path)
      (hs : Settings.InFile files path s) : StartsFrom c files s

inductive Gives (c : Command) : Dict Value → Prop
  | nothing (h : c.locals = none) : Gives c []
  | text {text : String} {v : Value} {fields : Dict Value} (h : c.locals = some text)
      (hv : Value.Json.parse text = .ok v) (hfields : Options.FieldsOf v fields) : Gives c fields

/-- The layout around the view. The first of these that says something decides: the name that the
command gives, its refusal of any layout, what stands under that name in the locals, the
settings. An empty name stands for no layout. -/
def layoutInForce (c : Command) (inLocals : Option Value) (configured : Option String) :
    Option String :=
  match c.layout, c.noLayout, inLocals with
  | some name, _, _ => if name = "" then none else some name
  | none, true, _ => none
  | none, false, some (.text name) => if name = "" then none else some name
  | none, false, some (.bool false) => none
  | none, false, some .null => none
  | none, false, _ => configured

def pageLocals (fields : Dict Value) : Dict Value :=
  Locals.withRequest request (Dict.erase fields Options.layoutKey)

def rendering (c : Command) (files : Files) (service : Service) (fields : Dict Value) :
    Outcome (List Char) :=
  service.renderWith files c.view (pageLocals fields)
    (c.layoutInForce (fields.lookup "layout") service.settings.layout)

variable {c : Command} {files : Files} {engine : Template.Engine} {s : Settings} {o : Options}
  {fields : Dict Value}

theorem override_eq (c : Command) (base : Settings) :
    c.override base = { base with
      root := c.root.getD base.root
      extension := c.extension.getD base.extension
      cache := if c.noCache then false else base.cache } := by
  unfold override
  cases c.noCache <;> simp

theorem settings_eq_ok_iff :
    (c.settings files).1 = .ok s ↔ ∃ base, c.StartsFrom files base ∧ s = c.override base := by
  unfold settings
  constructor
  · intro h
    split at h
    · rename_i hfile
      exact ⟨{}, .usual hfile, (Except.ok.inj h).symm⟩
    · rename_i path hfile
      dsimp only at h
      cases hload : (Settings.load files path).1 with
      | error f =>
        rw [hload] at h
        cases h
      | ok base =>
        rw [hload] at h
        exact ⟨base, .loaded hfile (Settings.load_eq_ok_iff.mp hload), (Except.ok.inj h).symm⟩
  · rintro ⟨base, hbase, rfl⟩
    cases hbase with
    | usual hfile => rw [hfile]
    | loaded hfile hs =>
      rw [hfile]
      dsimp only
      rw [Settings.load_eq_ok_iff.mpr hs]
      rfl

theorem options_eq_ok_iff :
    c.options = .ok o ↔ ∃ fields choice, c.Gives fields ∧
      Options.layoutOf (fields.lookup Options.layoutKey) = .ok choice ∧
      o = c.withLayout ⟨choice, Dict.erase fields Options.layoutKey⟩ := by
  unfold options
  constructor
  · intro h
    split at h
    · rename_i hlocals
      exact ⟨[], .usual, .nothing hlocals, rfl, (Except.ok.inj h).symm⟩
    · rename_i text hlocals
      split at h
      · cases h
      · rename_i v hv
        split at h
        · cases h
        · rename_i o' ho'
          obtain ⟨fields, choice, hfields, hchoice, rfl⟩ := Options.ofValue_eq_ok_iff.mp ho'
          exact ⟨fields, choice, .text hlocals hv hfields, hchoice, (Except.ok.inj h).symm⟩
  · rintro ⟨fields, choice, hgives, hchoice, rfl⟩
    cases hgives with
    | nothing hlocals =>
      rw [hlocals]
      cases hchoice
      rfl
    | text hlocals hv hfields =>
      have ho := Options.ofValue_eq_ok_iff.mpr ⟨fields, choice, hfields, hchoice, rfl⟩
      rw [hlocals]
      simp only [hv, ho]

/-- The choice in the locals counts if the command says nothing of a layout. -/
theorem resolve_withLayout {v : Option Value} {choice : LayoutChoice}
    (h : Options.layoutOf v = .ok choice) (locals : Dict Value) (configured : Option String) :
    (c.withLayout ⟨choice, locals⟩).layout.resolve configured = c.layoutInForce v configured := by
  unfold withLayout layoutInForce
  cases c.layout with
  | some name => exact LayoutChoice.resolve_ofName name configured
  | none =>
    cases c.noLayout with
    | true => rfl
    | false =>
      -- the command leaves the choice to its locals
      unfold Options.layoutOf at h
      split at h <;> cases h
      · rfl
      · rfl
      · rfl
      · rfl
      · exact LayoutChoice.resolve_ofName _ configured

/-- The layout is no local of the page. -/
theorem lookup_pageLocals (fields : Dict Value) (key : String) :
    (pageLocals fields).lookup key =
      if key = "layout" then none
      else (fields.lookup key).or (if key = "request" then some request.snapshot else none) := by
  rw [pageLocals, Locals.lookup_withRequest, Dict.lookup_erase]
  by_cases hkey : key = "layout"
  · subst hkey
    rfl
  · have hother : Options.layoutKey ≠ key := Ne.symm hkey
    rw [if_neg hother, if_neg hkey]
    rfl

theorem withLayout_locals (c : Command) (o : Options) : (c.withLayout o).locals = o.locals := by
  unfold withLayout
  split
  · rfl
  · split <;> rfl

/-- Without filters and helpers there are no other locals than those of the page. -/
theorem renderText_of_build {service : Service} {choice : LayoutChoice}
    (hbuild : (Service.build s [] [] engine).1 = .ok service)
    (hchoice : Options.layoutOf (fields.lookup Options.layoutKey) = .ok choice) :
    service.renderText files request c.view
        (c.withLayout ⟨choice, Dict.erase fields Options.layoutKey⟩) =
      c.rendering files service fields := by
  rw [rendering, Service.renderText, withLayout_locals, resolve_withLayout hchoice,
    Service.eq_of_build hbuild]
  rfl

/-- What is reported on the way to a response. -/
theorem respond_journal {service : Service} {page : List Char}
    (hbuild : (Service.build s [] [] engine).1 = .ok service)
    (hpage : (service.renderText files request c.view o).result = .ok page) :
    (c.respond files engine s o).2 =
      service.readyEvent :: (service.renderText files request c.view o).journal ++
        (Emission.emit c.draft page).2 := by
  have hready : (Service.build s [] [] engine).2 = [service.readyEvent] := by
    rw [Service.eq_of_build hbuild]
    unfold Service.build at hbuild ⊢
    split at hbuild
    · cases hbuild
    · rfl
  unfold respond Service.render
  rcases hbuilt : Service.build s [] [] engine with ⟨built, journal⟩
  rw [hbuilt] at hbuild hready
  cases hbuild
  cases hready
  simp only [hpage, List.cons_append, List.nil_append]

/-- The work of a command is done exactly if its view can be rendered with its settings and locals,
inside the layout in force, and a response can carry the page. The page is then what it prints. -/
theorem runFrom_work_eq_iff {p q : Progress} :
    (c.work files engine).runFrom p = (.ok (), q) ↔
      ∃ s fields service page head, (c.settings files).1 = .ok s ∧ c.Gives fields ∧
        IsChoice (fields.lookup "layout") ∧ (Service.build s [] [] engine).1 = .ok service ∧
        (c.rendering files service fields).result = .ok page ∧ c.draft = .ok head ∧
        q = ⟨p.output ++ c.printed (Emission.carrier head page),
          p.journal ++ (c.settings files).2 ++ [c.renderingEvent s] ++
            (service.readyEvent :: (c.rendering files service fields).journal ++
              (Emission.emit c.draft page).2)⟩ := by
  constructor
  · intro hdone
    obtain ⟨s, o, r, hsettings, hoptions, hresponse⟩ :=
      exists_of_work (congrArg Prod.fst hdone)
    have hrun := runFrom_work_of_respond hsettings hoptions hresponse p
    obtain ⟨service, page, head, hservice, hpage, hdraft, rfl⟩ := respond_eq_ok_iff.mp hresponse
    obtain ⟨fields, choice, hgives, hchoice, rfl⟩ := options_eq_ok_iff.mp hoptions
    rw [respond_journal hservice hpage, hdone] at hrun
    rw [renderText_of_build hservice hchoice] at hpage hrun
    exact ⟨s, fields, service, page, head, hsettings, hgives,
      Options.exists_layoutOf_iff.mp ⟨_, hchoice⟩, hservice, hpage, hdraft,
      congrArg Prod.snd hrun⟩
  · rintro ⟨s, fields, service, page, head, hsettings, hgives, hkey, hservice, hpage, hdraft, rfl⟩
    obtain ⟨choice, hchoice⟩ := Options.exists_layoutOf_iff.mpr hkey
    have hoptions := options_eq_ok_iff.mpr ⟨fields, choice, hgives, hchoice, rfl⟩
    rw [← renderText_of_build hservice hchoice] at hpage
    have hresponse := respond_eq_ok_iff.mpr ⟨service, page, head, hservice, hpage, hdraft, rfl⟩
    rw [runFrom_work_of_respond hsettings hoptions hresponse, respond_journal hservice hpage,
      renderText_of_build hservice hchoice]

/-- Work is refused if it is not done. -/
theorem exists_refusal {p : Progress} (h : ((c.work files engine).runFrom p).1 ≠ .ok ()) :
    ∃ refusal, ((c.work files engine).runFrom p).1 = .error refusal := by
  cases hrun : ((c.work files engine).runFrom p).1 with
  | error refusal => exact ⟨refusal, rfl⟩
  | ok done => exact absurd hrun h

/-- A command works with settings of its own where it has them, with those in its file or the usual
ones elsewhere. It prints its view, rendered by a service with these settings inside the layout in
force, and is refused if there is no such page. The layout is not among the locals of the page.
Without settings to start from, or with locals in which the layout is no choice, a command is
refused, whatever else it says. -/
theorem work_effective_settings (c : Command) (files : Files) (engine : Template.Engine)
    (p : Progress) :
    (∀ s, (c.settings files).1 = .ok s ↔ ∃ base, c.StartsFrom files base ∧
      s = { base with
        root := c.root.getD base.root
        extension := c.extension.getD base.extension
        cache := if c.noCache then false else base.cache }) ∧
    (∀ q, (c.work files engine).runFrom p = (.ok (), q) ↔
      ∃ s fields service page head, (c.settings files).1 = .ok s ∧ c.Gives fields ∧
        IsChoice (fields.lookup "layout") ∧ (Service.build s [] [] engine).1 = .ok service ∧
        (c.rendering files service fields).result = .ok page ∧ c.draft = .ok head ∧
        q = ⟨p.output ++ c.printed (Emission.carrier head page),
          p.journal ++ (c.settings files).2 ++ [c.renderingEvent s] ++
            (service.readyEvent :: (c.rendering files service fields).journal ++
              (Emission.emit c.draft page).2)⟩) ∧
    (∀ fields key, (pageLocals fields).lookup key =
      if key = "layout" then none
      else (fields.lookup key).or (if key = "request" then some request.snapshot else none)) ∧
    ((¬ ∃ base, c.StartsFrom files base) →
      ∃ refusal, ((c.work files engine).runFrom p).1 = .error refusal) ∧
    ((¬ ∃ fields, c.Gives fields ∧ IsChoice (fields.lookup "layout")) →
      ∃ refusal, ((c.work files engine).runFrom p).1 = .error refusal) := by
  refine ⟨fun s => ?_, fun q => runFrom_work_eq_iff, lookup_pageLocals, fun hnone => ?_,
    fun hnone => ?_⟩
  · simp only [← override_eq]
    exact settings_eq_ok_iff
  · refine exists_refusal fun hdone => hnone ?_
    obtain ⟨s, -, -, hsettings, -, -⟩ := exists_of_work hdone
    obtain ⟨base, hbase, -⟩ := settings_eq_ok_iff.mp hsettings
    exact ⟨base, hbase⟩
  · refine exists_refusal fun hdone => hnone ?_
    obtain ⟨-, o, -, -, hoptions, -⟩ := exists_of_work hdone
    obtain ⟨fields, choice, hgives, hchoice, -⟩ := options_eq_ok_iff.mp hoptions
    exact ⟨fields, hgives, Options.exists_layoutOf_iff.mp ⟨choice, hchoice⟩⟩

def layeredText : List Char := "root = 'pages'\nview_ext = '.tera'\nlayout = 'file'\n".toList

def layeredFiles : Files :=
  .ofKnown [("conf/render.toml", .ok (Text.Utf8.encode layeredText)),
    ("conf/pages/page.html", .ok (Text.Utf8.encode (bodyLayout "view ".toList []))),
    ("conf/pages/flag.html", .ok (Text.Utf8.encode (bodyLayout "flag ".toList []))),
    ("conf/pages/locals.html", .ok (Text.Utf8.encode (bodyLayout "locals ".toList []))),
    ("conf/pages/file.html", .ok (Text.Utf8.encode (bodyLayout "file ".toList [])))]

/-- The settings in the file, with their root below its directory. -/
theorem inFile_layered : Settings.InFile layeredFiles "conf/render.toml"
    { root := "conf/pages", layout := some "file", extension := ".tera" } := by
  obtain ⟨⟨root, cache, layout, extension, opening, closing, extra⟩, hload, hfields⟩ :=
    exists_of_any (x := (Settings.load layeredFiles "conf/render.toml").1)
      (p := fun s => decide (s.root = "conf/pages" ∧ s.cache = true ∧ s.layout = some "file" ∧
        s.extension = ".tera" ∧ s.opening = "<%" ∧ s.closing = "%>") && s.extra.isEmpty)
      (by decide +kernel)
  simp only [Bool.and_eq_true, decide_eq_true_eq, List.isEmpty_iff] at hfields
  obtain ⟨⟨rfl, rfl, rfl, rfl, rfl, rfl⟩, rfl⟩ := hfields
  exact Settings.load_eq_ok_iff.mp hload

def layeredService : Service where
  settings := { root := "conf/pages", cache := false, layout := some "file", extension := ".html" }
  filters := []
  helpers := []

theorem renderWith_layered {locals : Dict Value}
    (hbody : locals.lookup Locals.bodyKey = some (.text "text")) :
    (layeredService.renderWith layeredFiles "page" locals (some "flag")).result =
      .ok "flag view text".toList := by
  have hd : layeredService.settings.delimiters = usualDelimiters := delimiters_of_usual rfl rfl
  have hpath : layeredService.settings.viewPath (layeredService.settings.viewName "page") =
      .ok "conf/pages/page.html" := by
    decide +kernel
  have hread : layeredFiles.read "conf/pages/page.html" = .ok (bodyLayout "view ".toList []) := by
    decide +kernel
  have hlayoutPath : layeredService.settings.viewPath (layeredService.settings.viewName "flag") =
      .ok "conf/pages/flag.html" := by
    decide +kernel
  have hlayout : layeredFiles.read "conf/pages/flag.html" = .ok (bodyLayout "flag ".toList []) := by
    decide +kernel
  obtain ⟨t, hload, hexecute⟩ :=
    Service.load_bodyLayout hd hpath hread (by decide) (by decide)
  have halone : (layeredService.renderAlone layeredFiles "page" locals).result =
      .ok (t.name, "view text".toList) :=
    Service.renderAlone_of_resolve (Service.resolve_of_load (hload _) nofun)
      (hexecute _ _ _ hbody)
  exact Service.renderWith_inLayout hd rfl halone hlayoutPath hlayout (by decide) (by decide)

/-- The root is the one in the file, the extension and the layout are those of the command, though
the file and the locals name others. Locals with a number for the layout are refused even so. -/
theorem work_effective_settings_layered :
    let c : Command :=
      { view := "page", settingsFile := some "conf/render.toml"
        locals := some "\x7b\"layout\": \"locals\", \"body\": \"text\"\x7d"
        layout := some "flag", extension := some ".html", noCache := true }
    let numbered : Command := { c with locals := some "\x7b\"layout\": 1\x7d" }
    (((c.work layeredFiles .plain).runFrom {}).1 = .ok () ∧
      ((c.work layeredFiles .plain).runFrom {}).2.output =
        Text.Utf8.encode "flag view text".toList) ∧
    ∃ refusal, ((numbered.work layeredFiles .plain).runFrom {}).1 = .error refusal := by
  intro c numbered
  obtain ⟨hsettings, hdone, -, -, -⟩ := work_effective_settings c layeredFiles .plain {}
  have hs := (hsettings layeredService.settings).mpr ⟨_, .loaded rfl inFile_layered, rfl⟩
  obtain ⟨o, hoptions, hlocal⟩ := exists_of_any (x := c.options)
    (p := fun o => (o.locals.lookup "body").bind Value.text? == some "text") (by decide +kernel)
  obtain ⟨fields, choice, hgives, hchoice, rfl⟩ := options_eq_ok_iff.mp hoptions
  have hbody : (pageLocals fields).lookup Locals.bodyKey = some (.text "text") := by
    obtain ⟨v, hv, htext⟩ := Option.bind_eq_some_iff.mp (beq_iff_eq.mp hlocal)
    cases Value.text?_eq_some_iff.mp htext
    rw [withLayout_locals] at hv
    rw [pageLocals, Locals.lookup_withRequest]
    exact congrArg (Option.or · none) hv
  have hpage : (c.rendering layeredFiles layeredService fields).result =
      .ok "flag view text".toList :=
    renderWith_layered hbody
  have hrun := (hdone _).mpr ⟨layeredService.settings, fields, layeredService, _, {}, hs, hgives,
    Options.exists_layoutOf_iff.mp ⟨choice, hchoice⟩, rfl, hpage, rfl, rfl⟩
  obtain ⟨-, -, -, -, hrefused⟩ := work_effective_settings numbered layeredFiles .plain {}
  refine ⟨by rw [hrun]; exact ⟨rfl, rfl⟩, hrefused ?_⟩
  rintro ⟨given, hgiven, hkey⟩
  obtain ⟨choice, hchoice⟩ := Options.exists_layoutOf_iff.mpr hkey
  have hnone : numbered.options.toOption.isNone = true := by decide +kernel
  rw [options_eq_ok_iff.mpr ⟨given, choice, hgiven, hchoice, rfl⟩] at hnone
  cases hnone

end Command

end ViewRendering
