import ViewRendering.Proofs.Template.NodeReading
import ViewRendering.Template.Compiled

/-!
What the nodes of translated pages write. Literal text comes out as it was, and a name comes
out as the text it has among the locals: escaped in the construct for output, and as it is
in the construct for unescaped output, whatever filters are configured.
-/
namespace ViewRendering.Template

open Markup (Slot rawName slotPage slotTemplate)

/-- A node that writes or assigns and declares nothing, with whole literals that fit. -/
inductive Node.Simple : Node → Prop
  | text (s : List Char) : Simple (.text s)
  | output {e : Expression} : e.oversized = [] → Simple (.output e)
  | assign {e : Expression} (name : String) : e.oversized = [] → Simple (.assign name e false)

theorem Literal.simple {nodes : List Node} {s : List Char} (h : Literal nodes s) :
    ∀ n ∈ nodes, n.Simple := by
  induction h with
  | nil => simp
  | text t _ ih => exact List.forall_mem_cons.mpr ⟨.text t, ih⟩
  | brace _ ih => exact List.forall_mem_cons.mpr ⟨.output rfl, ih⟩

theorem simple_rawNodes (n : List Char) : ∀ m ∈ Reader.rawNodes n, m.Simple :=
  List.forall_mem_cons.mpr ⟨.assign _ rfl, List.forall_mem_cons.mpr ⟨.output rfl, by simp⟩⟩

theorem Slotted.simple {nodes : List Node} {slots : List Slot} {last : List Char}
    (h : Slotted nodes slots last) : ∀ n ∈ nodes, n.Simple := by
  induction h with
  | last hlast => exact hlast.simple
  | @slot s ns nodes slots last hns _ ih =>
    have hslot : ∀ n ∈ slotNodes s, n.Simple := by
      unfold slotNodes
      split
      · exact List.forall_mem_cons.mpr ⟨.output rfl, by simp⟩
      · exact simple_rawNodes s.name
    simp only [List.mem_append]
    rintro n (hn | hn | hn)
    · exact hns.simple n hn
    · exact hslot n hn
    · exact ih n hn

/-- Nothing that a page may not have stands among simple nodes. -/
theorem refusal?_of_simple (name : String) {nodes : List Node} (h : ∀ n ∈ nodes, n.Simple) :
    refusal? name nodes = none := by
  have hnone : oversizedNodes nodes = [] ∧ blocksIn nodes = [] ∧ macrosIn nodes = [] ∧
      importsIn nodes = [] ∧ parentIn nodes = none := by
    induction nodes with
    | nil => simp [oversizedNodes, blocksIn, macrosIn, importsIn, parentIn]
    | cons n nodes ih =>
      obtain ⟨hn, hrest⟩ := List.forall_mem_cons.mp h
      obtain ⟨ho, hb, hm, hi, hp⟩ := ih hrest
      have hblocks : blocksIn (n :: nodes) = [] := by
        cases hn <;> rw [blocksIn, hb] <;> simp
      have hoversized : oversizedNodes (n :: nodes) = [] := by
        cases hn with
        | text s => exact ho
        | output he => rw [oversizedNodes, Node.oversized, he, ho, List.nil_append]
        | assign k he => rw [oversizedNodes, Node.oversized, he, ho, List.nil_append]
      cases hn <;> exact ⟨hoversized, hblocks, hm, hi, hp⟩
  obtain ⟨ho, hb, hm, hi, hp⟩ := hnone
  unfold refusal? Page.ofNodes
  simp [ho, hb, hm, hi, hp, firstRepeated]

theorem readPage_of_simple (name : String) {text : List Char} {nodes : List Node}
    (hnodes : readNodes text = some nodes) (h : ∀ n ∈ nodes, n.Simple) :
    readPage name text = .ok (Page.ofNodes name nodes) := by
  unfold readPage
  simp only [hnodes, refusal?_of_simple name h]

section

variable {n : List Char}

/-- A name without points is looked up as it is. -/
theorem inDict_of_plain (hn : Reader.Plain n) (d : Dict Value) :
    inDict d (String.ofList n) = d.lookup (String.ofList n) := by
  have hpoint : ¬ ['.'] <:+: n := fun h =>
    hn.not_mem (by decide) (h.subset (List.mem_singleton_self '.'))
  have hsplit : splitPath n = (n, none) := by
    unfold splitPath Text.splitOnce?
    rw [(Text.cut?_eq_none_iff ['.'] n).mpr hpoint]
  unfold inDict
  rw [String.toList_ofList, hsplit]

theorem lookup_of_plain (hn : Reader.Plain n) (hdump : String.ofList n ≠ Scope.dumpName)
    {scope : Scope} {v : Value} (view : String) (h : scope.find? (String.ofList n) = some v) :
    lookup scope view (String.ofList n) = .ok v := by
  have hbracket : '[' ∉ n := hn.not_mem (by decide)
  unfold lookup
  rw [if_neg hdump, lookupBelow]
  simp [hbracket, h]

/-- What has been assigned is found. -/
theorem find?_assign (hn : Reader.Plain n) {scope : Scope} (hframes : scope.frames ≠ [])
    (v : Value) :
    (scope.assign (String.ofList n) v).find? (String.ofList n) = some v := by
  unfold Scope.assign
  cases hscope : scope.frames with
  | nil => exact absurd hscope hframes
  | cons f rest =>
    simp only [Scope.find?, findInFrames, Frame.find?, inDict_of_plain hn, Dict.lookup_insert_self]

/-- Other names are found as before. -/
theorem find?_assign_of_ne (hn : Reader.Plain n) {m : String} (hne : m ≠ String.ofList n)
    (scope : Scope) (v : Value) :
    (scope.assign m v).find? (String.ofList n) = scope.find? (String.ofList n) := by
  unfold Scope.assign
  cases hscope : scope.frames with
  | nil => rfl
  | cons f rest =>
    have hframe : ({ f with values := f.values.insert m v } : Frame).find? (String.ofList n) =
        f.find? (String.ofList n) := by
      simp only [Frame.find?, inDict_of_plain hn, Dict.lookup_insert_of_ne _ _ hne]
      rfl
    simp only [Scope.find?, hscope, findInFrames, hframe]
    rfl

/-- A page without assignments finds its locals. -/
theorem find?_local (hn : Reader.Plain n) (locals : Dict Value) :
    (⟨[⟨.page, []⟩], locals⟩ : Scope).find? (String.ofList n) =
      locals.lookup (String.ofList n) := by
  simp only [Scope.find?, findInFrames, Frame.find?, inDict_of_plain hn]
  rfl

end

section

variable {nested : Nested} {c : Context} {nodes : List Node} {p : Progress}

/-- What a node writes stands in front of what the nodes behind it write. -/
theorem renderAll_cons {n : Node} {first : Progress} (hn : n.render nested c = .ok first)
    (hcourse : first.course = .onward)
    (h : renderAll nested { c with scope := first.scope } nodes = .ok p) :
    renderAll nested c (n :: nodes) = .ok { p with text := first.text ++ p.text } := by
  rw [renderAll, hn]
  change (if first.course = .onward then _ else _) = _
  rw [if_pos hcourse, h]
  rfl

theorem render_output {e : Expression} {v : Value} (he : e.value nested c = .ok v) :
    (Node.output e).render nested c = .ok (.ofText c (pageText v)) := by
  rw [Node.render, he]
  rfl

theorem pageText_ofChars (s : List Char) : pageText (.ofChars s) = s := by
  change (String.ofList s).toList = s
  exact String.toList_ofList

/-- A literal text that HTML gives no meaning. -/
theorem value_text {s : String} (hs : escapeHtml s.toList = s.toList) :
    (Expression.ofTerm (.text s)).value nested c = .ok (.text s) := by
  have hvalue : (Expression.ofTerm (.text s)).value nested c =
      .ok (completed c false [] (.text s, true)) := by
    unfold Expression.ofTerm
    simp only [Expression.value, Term.path?, Term.value, filtered]
    rfl
  rw [hvalue]
  unfold completed Value.ofChars
  simp [hs, String.ofList_toList]

theorem render_braceOutput : braceOutput.render nested c = .ok (.ofText c ['\x7b']) :=
  render_output (value_text (by decide))

theorem renderAll_literal {ms : List Node} {s : List Char} (hms : Literal ms s)
    (h : renderAll nested c nodes = .ok p) :
    renderAll nested c (ms ++ nodes) = .ok { p with text := s ++ p.text } := by
  induction hms with
  | nil => exact h
  | text t _ ih =>
    have htext : (Node.text t).render nested c = .ok (.ofText c t) := by rw [Node.render]
    rw [List.append_assoc]
    exact renderAll_cons htext rfl ih
  | brace _ ih => exact renderAll_cons render_braceOutput rfl ih

/-- The value of a name that is not missing, or whose first filter would not replace a missing
one: what the filters make of the value that is found. -/
theorem value_name_filtered {n : String} {v : Value} {fs : List Call} (hlookup : c.lookup n = .ok v)
    (hfs : v ≠ .null ∨ hasDefault fs = false) :
    (Expression.mk (.name n) false fs).value nested c =
      (filtered nested c fs (v, n ≠ Scope.dumpName)).map (completed c false fs) := by
  simp only [Expression.value, Term.path?, namedValue, hlookup]
  cases v with
  | null =>
    rw [hfs.resolve_left (fun hnull => hnull rfl)]
    rfl
  | _ => rfl

/-- The text of a name that is not escaped: within other expressions, or marked as safe. -/
theorem value_name {n s : String} (fs : List Call) (hlookup : c.lookup n = .ok (.text s))
    (hfs : (fs = [] ∧ c.escaping = false) ∨ fs = [.mk "safe" []]) :
    (Expression.mk (.name n) false fs).value nested c = .ok (.text s) := by
  rw [value_name_filtered hlookup (Or.inl nofun)]
  rcases hfs with ⟨rfl, hescaping⟩ | rfl
  · simp only [filtered]
    simp [Except.map, completed, hescaping]
  · simp only [filtered, Call.name]
    simp [Except.map, isMarker, completed, endsSafe, Call.name]

/-- The text of a name that is escaped. -/
theorem value_name_escaped {n s : String} (hdump : n ≠ Scope.dumpName)
    (hescaping : c.escaping = true) (hlookup : c.lookup n = .ok (.text s)) :
    (Expression.ofTerm (.name n)).value nested c = .ok (.ofChars (escapeHtml s.toList)) := by
  unfold Expression.ofTerm
  rw [value_name_filtered hlookup (Or.inl nofun)]
  simp only [filtered]
  simp [Except.map, completed, hescaping, hdump, endsSafe]

theorem render_assign {n : String} {e : Expression} {v : Value}
    (he : e.value nested c.unescaped = .ok v) :
    (Node.assign n e false).render nested c = .ok ⟨[], c.scope.assign n v, .onward⟩ := by
  rw [Node.render, he]
  rfl

/-- The construct for unescaped output writes the text of the name and keeps it in scope. -/
theorem renderAll_rawNodes {n : List Char} {s : String} (hframes : c.scope.frames ≠ [])
    (hlookup : c.lookup (String.ofList n) = .ok (.text s))
    (h : renderAll nested
      { c with scope := c.scope.assign (String.ofList rawName) (.text s) } nodes = .ok p) :
    renderAll nested c (Reader.rawNodes n ++ nodes) =
      .ok { p with text := s.toList ++ p.text } := by
  have hassign : (Node.assign (String.ofList rawName) (.ofTerm (.name (String.ofList n)))
      false).render nested c =
        .ok ⟨[], c.scope.assign (String.ofList rawName) (.text s), .onward⟩ :=
    render_assign (value_name [] hlookup (Or.inl ⟨rfl, rfl⟩))
  refine renderAll_cons (p := { p with text := s.toList ++ p.text }) hassign rfl ?_
  have hraw : Context.lookup { c with scope := c.scope.assign (String.ofList rawName) (.text s) }
      (String.ofList rawName) = .ok (.text s) :=
    lookup_of_plain Reader.plain_rawName (by decide) _
      (find?_assign Reader.plain_rawName hframes _)
  exact renderAll_cons (render_output (value_name _ hraw (Or.inr rfl))) rfl h

def slotText (value : List Char → String) : List Slot → List Char → List Char
  | [], last => last
  | s :: rest, last =>
    let text := (value s.name).toList
    s.before ++ ((if s.escaped then escapeHtml text else text) ++ slotText value rest last)

/-- A name that can be read as nothing else and is not one that pages use themselves. -/
structure OwnName (n : List Char) : Prop where
  plain : Reader.Plain n
  ne_dump : String.ofList n ≠ Scope.dumpName
  ne_raw : String.ofList n ≠ String.ofList rawName

instance (n : List Char) : Decidable (OwnName n) :=
  decidable_of_iff (Reader.Plain n ∧ String.ofList n ≠ Scope.dumpName ∧
      String.ofList n ≠ String.ofList rawName)
    ⟨fun h => ⟨h.1, h.2.1, h.2.2⟩, fun h => ⟨h.plain, h.ne_dump, h.ne_raw⟩⟩

/-- One slot: its text comes out, and the other names keep theirs. -/
theorem renderAll_slotNodes {value : List Char → String} {s : Slot} {slots : List Slot}
    {last : List Char} (hname : OwnName s.name) (hframes : c.scope.frames ≠ [])
    (hescaping : c.escaping = true)
    (hfind : c.scope.find? (String.ofList s.name) = some (.text (value s.name)))
    (hrest : ∀ scope : Scope, scope.frames ≠ [] →
      (∀ n, OwnName n → scope.find? (String.ofList n) = c.scope.find? (String.ofList n)) →
      ∃ after, renderAll nested { c with scope := scope } nodes =
        .ok ⟨slotText value slots last, after, .onward⟩) :
    ∃ after, renderAll nested c (slotNodes s ++ nodes) =
      .ok ⟨(if s.escaped then escapeHtml (value s.name).toList else (value s.name).toList) ++
        slotText value slots last, after, .onward⟩ := by
  have hlookup : c.lookup (String.ofList s.name) = .ok (.text (value s.name)) :=
    lookup_of_plain hname.plain hname.ne_dump _ hfind
  unfold slotNodes
  by_cases hs : s.escaped = true
  · obtain ⟨after, hafter⟩ := hrest c.scope hframes fun _ _ => rfl
    have hwritten : (Node.output (.ofTerm (.name (String.ofList s.name)))).render nested c =
        .ok (.ofText c (escapeHtml (value s.name).toList)) := by
      rw [render_output (value_name_escaped hname.ne_dump hescaping hlookup), pageText_ofChars]
    refine ⟨after, ?_⟩
    rw [if_pos hs, if_pos hs]
    exact renderAll_cons hwritten rfl hafter
  · have hkept : (c.scope.assign (String.ofList rawName) (.text (value s.name))).frames ≠ [] := by
      unfold Scope.assign
      cases hscope : c.scope.frames with
      | nil => exact absurd hscope hframes
      | cons f rest => simp
    obtain ⟨after, hafter⟩ := hrest _ hkept fun n hn =>
      find?_assign_of_ne hn.plain (Ne.symm hn.ne_raw) c.scope _
    refine ⟨after, ?_⟩
    rw [if_neg hs, if_neg hs]
    exact renderAll_rawNodes hframes hlookup hafter

/-- A page of slots writes its literal text and, in between, the texts of its names. -/
theorem renderAll_slots {value : List Char → String} {slots : List Slot} {last : List Char}
    (h : Slotted nodes slots last) (hnames : ∀ s ∈ slots, OwnName s.name)
    (hframes : c.scope.frames ≠ []) (hescaping : c.escaping = true)
    (hfind : ∀ s ∈ slots, c.scope.find? (String.ofList s.name) = some (.text (value s.name))) :
    ∃ after, renderAll nested c nodes = .ok ⟨slotText value slots last, after, .onward⟩ := by
  induction h generalizing c with
  | last hlast =>
    have hend : renderAll nested c [] = .ok (.ofText c []) := by rw [renderAll]
    have htext := renderAll_literal hlast hend
    rw [List.append_nil] at htext
    refine ⟨c.scope, ?_⟩
    rw [htext]
    simp [Progress.ofText, slotText]
  | @slot s ns nodes slots last hns _ ih =>
    obtain ⟨hname, hrest⟩ := List.forall_mem_cons.mp hnames
    obtain ⟨hslot, hothers⟩ := List.forall_mem_cons.mp hfind
    have hbehind (scope : Scope) (hscope : scope.frames ≠ [])
        (hsame : ∀ n, OwnName n →
          scope.find? (String.ofList n) = c.scope.find? (String.ofList n)) :
        ∃ after, renderAll nested { c with scope := scope } nodes =
          .ok ⟨slotText value slots last, after, .onward⟩ :=
      ih (c := { c with scope := scope }) hrest hscope hescaping fun s' hs' =>
        (hsame s'.name (hrest s' hs')).trans (hothers s' hs')
    obtain ⟨after, hafter⟩ := renderAll_slotNodes hname hframes hescaping hslot hbehind
    exact ⟨after, renderAll_literal hns hafter⟩

end

/-- A page whose nodes write slots comes to the literal text with the texts that the names have
among the locals, escaped or not. -/
theorem execute_of_slotted (filters : Dict Filter) (view : String) {nodes : List Node}
    {slots : List Slot} {last : List Char} (h : Slotted nodes slots last)
    (hnames : ∀ s ∈ slots, OwnName s.name) (engine : Engine) (locals : Dict Value)
    (value : List Char → String)
    (hvalue : ∀ s ∈ slots,
      Dict.lookup locals (String.ofList s.name) = some (.text (value s.name))) :
    Compiled.execute ⟨Page.ofNodes view nodes, filters⟩ locals engine =
      .ok (slotText value slots last) := by
  have hfind : ∀ s ∈ slots, (⟨[⟨.page, []⟩], locals⟩ : Scope).find? (String.ofList s.name) =
      some (.text (value s.name)) := fun s hs =>
    (find?_local (hnames s hs).plain locals).trans (hvalue s hs)
  obtain ⟨after, hafter⟩ : ∃ after, renderAll (nestedText nestingLimit)
      ⟨Page.ofNodes view nodes, filters, engine, ⟨[⟨.page, []⟩], locals⟩, true⟩ nodes =
        .ok ⟨slotText value slots last, after, .onward⟩ :=
    renderAll_slots h hnames (by simp) rfl hfind
  have hrender : (Page.ofNodes view nodes).render filters engine locals =
      .ok (slotText value slots last) := by
    unfold Page.render
    rw [nestedText, show (Page.ofNodes view nodes).nodes = nodes from rfl, hafter]
    rfl
  unfold Compiled.execute
  rw [hrender]

/-- A page of slots compiles under any name and with any filters, and writes its literal text as it
is and the texts that its names have among the locals, escaped or not. -/
theorem compile_slotPage (filters : Dict Filter) (view : String) {slots : List Slot}
    {last : List Char} (hslots : ∀ s ∈ slots, s.Proper)
    (hlast : ¬ usualDelimiters.opening <:+: last) (hnames : ∀ s ∈ slots, OwnName s.name) :
    ∃ t, compile usualDelimiters filters view (slotPage slots last) = .ok t ∧
      ∀ engine locals (value : List Char → String),
        (∀ s ∈ slots, Dict.lookup locals (String.ofList s.name) = some (.text (value s.name))) →
        t.execute locals engine = .ok (slotText value slots last) := by
  obtain ⟨nodes, hnodes, hread⟩ := exists_readNodes_slots last fun s hs => (hnames s hs).plain
  refine ⟨⟨Page.ofNodes view nodes, filters⟩, ?_, execute_of_slotted filters view hnodes hnames⟩
  unfold compile
  simp only [Markup.translate_slotPage hslots hlast, readPage_of_simple view hread hnodes.simple]

end ViewRendering.Template
