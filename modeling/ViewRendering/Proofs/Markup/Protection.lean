import ViewRendering.Proofs.Markup.Reading
import ViewRendering.Settings
import Mathlib.Tactic.IntervalCases

/-!
What a translated page is made of. The tags that write something become constructs,
one each and in their order; the literal text between them is protected, so that no
construct can begin there, and exchanging the escapes for braces gives it back.
-/
namespace ViewRendering.Markup

/-- A stretch of a translated page: literal text that has been protected, or a construct. -/
inductive Part where
  | run (s : List Char)
  | construct (c : List Char)

def Part.written : Part → List Char
  | .run s => protect s
  | .construct c => c

def alternate : List (List Char) → List (List Char) → List Part
  | r :: runs, c :: constructs => .run r :: .construct c :: alternate runs constructs
  | runs, _ => runs.map .run

def Segment.writes (s : Segment) : Bool := s.construct?.isSome

def writingTags (segments : List Segment) : List Tag :=
  segments.filterMap fun
    | .tag t => if t.isSilent then none else some t
    | _ => none

/-- What a tag becomes: its code as an expression, whose value is escaped; as an expression whose
value is held by a name and shown as it is; or as a statement. -/
inductive Tag.Becomes (t : Tag) : List Char → Prop
  | escaped (h : t.mode = .escaped) :
      t.Becomes ("\x7b\x7b ".toList ++ t.code ++ " \x7d\x7d".toList)
  | raw (h : t.mode = .raw) :
      t.Becomes ("\x7b% set __viewpress_raw = ".toList ++ t.code ++
        " %\x7d\x7b\x7b __viewpress_raw | safe \x7d\x7d".toList)
  | statement (h : t.mode = .statement) :
      t.Becomes ("\x7b% ".toList ++ t.code ++ " %\x7d".toList)

def runs (d : Delimiters) (segments : List Segment) : List (List Char) :=
  (segments.splitOnP Segment.writes).map (·.flatMap (Segment.literalText d))

def constructs (segments : List Segment) : List (List Char) := segments.filterMap Segment.construct?

def parts (d : Delimiters) (segments : List Segment) : List Part :=
  alternate (runs d segments) (constructs segments)

def constructMarks : List (List Char) := [['\x7b', '\x7b'], ['\x7b', '%'], ['\x7b', '#']]

/-- The occurrence of `mark` behind `before` lies within a part, not across a border. -/
def Within (ps : List Part) (p : Part) (before mark : List Char) : Prop :=
  ∃ left right x y, ps = left ++ p :: right ∧ p.written = x ++ (mark ++ y) ∧
    before = left.flatMap Part.written ++ x

structure Protects (d : Delimiters) (segments : List Segment) (out : List Char) : Prop where
  written : out = (parts d segments).flatMap Part.written
  between : (runs d segments).length = (constructs segments).length + 1
  literal : (runs d segments).flatten = segments.flatMap (Segment.literalText d)
  marked : ∀ mark ∈ constructMarks, ∀ before after, out = before ++ (mark ++ after) →
    (∃ c, Within (parts d segments) (.construct c) before mark) ∨
      ∃ s, Within (parts d segments) (.run s) before braceMark
  restored : ∀ s, Part.run s ∈ parts d segments →
    Text.replace braceMark ['\x7b'] (protect s) = s
  become : List.Forall₂ Tag.Becomes (writingTags segments) (constructs segments)

theorem braceMark_eq :
    braceMark = ['\x7b', '\x7b', ' ', '"', '\x7b', '"', ' ', '\x7d', '\x7d'] := by decide

theorem literalText_of_writes (d : Delimiters) {s : Segment} (h : s.writes = true) :
    s.literalText d = [] := by
  cases s with
  | tag t => rfl
  | literal s => simp [Segment.writes, Segment.construct?] at h
  | escapedOpening => simp [Segment.writes, Segment.construct?] at h

theorem runs_nil (d : Delimiters) : runs d [] = [[]] := rfl

theorem runs_cons_of_writes (d : Delimiters) {s : Segment} (segments : List Segment)
    (h : s.writes = true) : runs d (s :: segments) = [] :: runs d segments := by
  simp [runs, List.splitOnP_cons_eq_if_modifyHead, h]

theorem runs_cons_of_not_writes (d : Delimiters) {s : Segment} (segments : List Segment)
    (h : s.writes = false) :
    runs d (s :: segments) = (runs d segments).modifyHead (s.literalText d ++ ·) := by
  unfold runs
  rw [List.splitOnP_cons_eq_if_modifyHead, if_neg (by simp [h])]
  cases segments.splitOnP Segment.writes <;> simp

theorem runs_ne_nil (d : Delimiters) (segments : List Segment) : runs d segments ≠ [] := by
  simp [runs, List.splitOnP_ne_nil]

theorem runs_flatten (d : Delimiters) (segments : List Segment) :
    (runs d segments).flatten = segments.flatMap (Segment.literalText d) := by
  induction segments with
  | nil => rfl
  | cons s segments ih =>
    cases hw : s.writes with
    | true =>
      rw [runs_cons_of_writes d segments hw, List.flatMap_cons, literalText_of_writes d hw, ← ih]
      rfl
    | false =>
      rw [runs_cons_of_not_writes d segments hw, List.flatMap_cons, ← ih]
      cases hruns : runs d segments with
      | nil => exact absurd hruns (runs_ne_nil d segments)
      | cons r rs => simp

theorem length_runs (d : Delimiters) (segments : List Segment) :
    (runs d segments).length = (constructs segments).length + 1 := by
  induction segments with
  | nil => rfl
  | cons s segments ih =>
    cases hc : s.construct? with
    | some c =>
      have hw : s.writes = true := by simp [Segment.writes, hc]
      have hconstructs : constructs (s :: segments) = c :: constructs segments :=
        List.filterMap_cons_some hc
      rw [runs_cons_of_writes d segments hw, hconstructs, List.length_cons, List.length_cons, ih]
    | none =>
      have hw : s.writes = false := by simp [Segment.writes, hc]
      have hconstructs : constructs (s :: segments) = constructs segments :=
        List.filterMap_cons_none hc
      rw [runs_cons_of_not_writes d segments hw, hconstructs, List.length_modifyHead, ih]

/-- What is assembled behind pending text belongs to the first run. -/
theorem assemble_eq_parts (d : Delimiters) (pending : List Char) (segments : List Segment) :
    assemble d pending segments =
      (alternate ((runs d segments).modifyHead (pending ++ ·)) (constructs segments)).flatMap
        Part.written := by
  induction segments generalizing pending with
  | nil => simp [assemble, runs_nil, constructs, alternate, Part.written]
  | cons s segments ih =>
    cases hc : s.construct? with
    | some c =>
      have hw : s.writes = true := by simp [Segment.writes, hc]
      have hid : (runs d segments).modifyHead ([] ++ ·) = runs d segments := by
        cases runs d segments <;> rfl
      have htail := ih []
      rw [hid] at htail
      simp [assemble, hc, runs_cons_of_writes d segments hw, constructs, alternate, Part.written,
        htail]
    | none =>
      have hw : s.writes = false := by simp [Segment.writes, hc]
      rw [assemble, hc, runs_cons_of_not_writes d segments hw]
      simp only [constructs, List.filterMap_cons, hc]
      rw [ih]
      cases runs d segments with
      | nil => rfl
      | cons r rs => simp [constructs]

theorem protect_of_opens {c : Char} {s : List Char} (h : c = '\x7b' ∧ opensConstruct s) :
    protect (c :: s) = braceMark ++ protect s := by
  rw [protect, if_pos h]

theorem protect_of_not_opens {c : Char} {s : List Char} (h : ¬ (c = '\x7b' ∧ opensConstruct s)) :
    protect (c :: s) = c :: protect s := by
  rw [protect, if_neg h]

/-- Text in front of which a brace may stand bare still is such text when protected, whatever
follows it. -/
theorem opensConstruct_protect_append {s : List Char} (rest : List Char)
    (h : opensConstruct s = false) : opensConstruct (protect s ++ rest) = false := by
  cases s with
  | nil => simp [opensConstruct] at h
  | cons c s =>
    have hc : c ≠ '\x7b' := by
      rintro rfl
      simp [opensConstruct] at h
    rw [protect_of_not_opens (fun ho => hc ho.1)]
    exact h

/-- Exchanging the escapes of protected text for braces gives the text back. -/
theorem replace_protect (s : List Char) : Text.replace braceMark ['\x7b'] (protect s) = s := by
  have hmark : braceMark ≠ [] := by simp [braceMark_eq]
  induction s with
  | nil => exact Text.replace_nil _ hmark
  | cons c s ih =>
    by_cases h : c = '\x7b' ∧ opensConstruct s
    · rw [protect_of_opens h, Text.replace_append_of_mark _ _ hmark, ih, h.1]
      rfl
    · rw [protect_of_not_opens h]
      have hplain : Text.after? braceMark (c :: protect s) = none := by
        rw [Text.after?_eq_none_iff]
        intro b hb
        rw [braceMark_eq] at hb
        simp only [List.cons_append, List.cons.injEq] at hb
        have hs : opensConstruct s = false := by
          simpa [hb.1] using h
        have hopen := opensConstruct_protect_append [] hs
        rw [List.append_nil, hb.2] at hopen
        simp [opensConstruct] at hopen
      rw [Text.replace_cons _ c (protect s) hmark hplain, ih]

private theorem exists_append_of_length_le {a b c e : List Char} (h : a ++ b = c ++ e)
    (hle : a.length ≤ c.length) : ∃ x, c = a ++ x ∧ b = x ++ e := by
  obtain ⟨x, rfl⟩ : a <+: c :=
    List.prefix_of_prefix_length_le ⟨b, rfl⟩ ⟨e, h.symm⟩ hle
  rw [List.append_assoc] at h
  exact ⟨x, rfl, List.append_cancel_left h⟩

/-- Within an escape, behind its first character, no construct begins. -/
private theorem braceMark_inner (x y rest after : List Char) (hx : x ≠ []) (hy : y ≠ [])
    (hxy : braceMark = x ++ y) (h : '\x7b' :: after = y ++ rest) :
    opensConstruct after = false := by
  have hlength := congrArg List.length hxy
  have hdrop : y = braceMark.drop x.length := by rw [hxy, List.drop_left]
  have hpos := List.length_pos_iff.mpr hx
  have hpos' := List.length_pos_iff.mpr hy
  rw [braceMark_eq] at hdrop hlength
  simp only [List.length_cons, List.length_nil, List.length_append] at hlength
  have hlt : x.length < 9 := by omega
  rw [hdrop] at h
  generalize x.length = n at h hpos hlt
  interval_cases n <;> simp at h
  all_goals
    subst h
    rfl

/-- In protected text, whatever follows it, a construct could begin only where an escape does. -/
theorem braceMark_of_opens (s rest before after : List Char)
    (h : protect s ++ rest = before ++ '\x7b' :: after) (hopens : opensConstruct after = true)
    (hbefore : before.length < (protect s).length) :
    ∃ y, protect s = before ++ (braceMark ++ y) := by
  induction s generalizing before with
  | nil => simp [protect] at hbefore
  | cons c s ih =>
    by_cases hc : c = '\x7b' ∧ opensConstruct s
    · rw [protect_of_opens hc] at h hbefore ⊢
      rw [List.append_assoc] at h
      rw [List.length_append] at hbefore
      by_cases hlong : braceMark.length ≤ before.length
      · obtain ⟨x, rfl, hx⟩ := exists_append_of_length_le h hlong
        rw [List.length_append] at hbefore
        obtain ⟨z, hz⟩ := ih x hx (by omega)
        exact ⟨z, by rw [hz, List.append_assoc]⟩
      · obtain ⟨y, hy, hafter⟩ := exists_append_of_length_le h.symm (by omega)
        by_cases hnil : before = []
        · exact ⟨protect s, by rw [hnil]; rfl⟩
        · have hend : y ≠ [] := by
            rintro rfl
            rw [hy, List.append_nil] at hlong
            exact hlong (Nat.le_refl _)
          have hnot := braceMark_inner before y _ after hnil hend hy hafter
          rw [hopens] at hnot
          exact Bool.noConfusion hnot
    · rw [protect_of_not_opens hc] at h hbefore ⊢
      cases before with
      | nil =>
        simp only [List.cons_append, List.nil_append, List.cons.injEq] at h
        have hs : opensConstruct s = false := by simpa [h.1] using hc
        have hnot := opensConstruct_protect_append rest hs
        rw [h.2, hopens] at hnot
        exact Bool.noConfusion hnot
      | cons x before =>
        simp only [List.cons_append, List.cons.injEq] at h
        simp only [List.length_cons] at hbefore
        obtain ⟨y, hy⟩ := ih before h.2 (by omega)
        exact ⟨y, by rw [hy, h.1]; rfl⟩

theorem mem_constructs_of_mem_alternate {rs cs : List (List Char)} {c : List Char}
    (h : Part.construct c ∈ alternate rs cs) : c ∈ cs := by
  fun_induction alternate rs cs with
  | case1 r rs c' cs ih =>
    simp only [List.mem_cons, Part.construct.injEq] at h ⊢
    rcases h with h | h | h
    · exact absurd h (by simp)
    · exact Or.inl h
    · exact Or.inr (ih h)
  | case2 rs cs _ => simp at h

theorem getLast?_construct (mode : Mode) (code : List Char) (h : mode ≠ .comment) :
    (construct mode code).getLast? = some '\x7d' := by
  have hend (x y : List Char) (hy : y.getLast? = some '\x7d') :
      (x ++ y).getLast? = some '\x7d' := by
    rw [List.getLast?_append, hy]
    rfl
  cases mode with
  | escaped => exact hend _ _ (by decide)
  | raw => exact hend _ _ (by decide)
  | statement => exact hend _ _ (by decide)
  | comment => exact absurd rfl h

/-- A construct ends with a closing brace, so none ends like a mark begins. -/
theorem getLast?_of_construct? {s : Segment} {c : List Char} (h : s.construct? = some c) :
    c.getLast? = some '\x7d' := by
  cases s with
  | literal s => simp [Segment.construct?] at h
  | escapedOpening => simp [Segment.construct?] at h
  | tag t =>
    cases hsilent : t.isSilent with
    | true => simp [Segment.construct?, hsilent] at h
    | false =>
      simp only [Segment.construct?, hsilent, Bool.false_eq_true, if_false,
        Option.some.injEq] at h
      subst h
      apply getLast?_construct
      intro hmode
      simp [Tag.isSilent, hmode] at hsilent

theorem Tag.becomes_construct {t : Tag} (h : t.isSilent = false) :
    t.Becomes (construct t.mode t.code) := by
  cases hmode : t.mode with
  | escaped => exact .escaped hmode
  | raw =>
    have hset : "\x7b% set ".toList ++ rawName ++ " = ".toList =
        "\x7b% set __viewpress_raw = ".toList := by
      decide
    have hsafe : " %\x7d\x7b\x7b ".toList ++ (rawName ++ " | safe \x7d\x7d".toList) =
        " %\x7d\x7b\x7b __viewpress_raw | safe \x7d\x7d".toList := by
      decide
    have hbecomes := Becomes.raw hmode
    rw [← hset, ← hsafe, ← List.append_assoc, ← List.append_assoc] at hbecomes
    exact hbecomes
  | statement => exact .statement hmode
  | comment => simp [Tag.isSilent, hmode] at h

theorem becomes_constructs (segments : List Segment) :
    List.Forall₂ Tag.Becomes (writingTags segments) (constructs segments) := by
  induction segments with
  | nil => exact .nil
  | cons s segments ih =>
    cases s with
    | literal s => exact ih
    | escapedOpening => exact ih
    | tag t =>
      cases hsilent : t.isSilent with
      | true =>
        simpa [writingTags, constructs, Segment.construct?, hsilent] using ih
      | false =>
        have hcons := List.Forall₂.cons (Tag.becomes_construct hsilent) ih
        simpa [writingTags, constructs, Segment.construct?, hsilent] using hcons

theorem Within.cons {ps : List Part} {q : Part} {before mark : List Char} (p : Part)
    (h : Within ps q before mark) : Within (p :: ps) q (p.written ++ before) mark := by
  obtain ⟨left, right, x, y, hps, hq, hbefore⟩ := h
  exact ⟨p :: left, right, x, y, by rw [hps]; rfl, hq, by simp [hbefore]⟩

/-- Constructs begin nowhere in a page but inside constructs and at escapes. -/
theorem within_of_opens (ps : List Part)
    (hps : ∀ c, Part.construct c ∈ ps → c.getLast? = some '\x7d') (before after : List Char)
    (k : Char) (h : ps.flatMap Part.written = before ++ '\x7b' :: k :: after)
    (hopens : opensConstruct (k :: after) = true) :
    (∃ c, Within ps (.construct c) before ['\x7b', k]) ∨
      ∃ s, Within ps (.run s) before braceMark := by
  induction ps generalizing before with
  | nil => simp at h
  | cons p ps ih =>
    rw [List.flatMap_cons] at h
    by_cases hlt : before.length < p.written.length
    · cases p with
      | run s =>
        obtain ⟨y, hy⟩ := braceMark_of_opens s _ before (k :: after) h hopens hlt
        exact Or.inr ⟨s, [], ps, before, y, rfl, hy, rfl⟩
      | construct c =>
        have hlast := hps c List.mem_cons_self
        simp only [Part.written] at h hlt
        obtain ⟨y, rfl, hy⟩ := exists_append_of_length_le h.symm (Nat.le_of_lt hlt)
        rcases y with _ | ⟨a, _ | ⟨b, y⟩⟩
        · simp at hlt
        · -- the occurrence would begin with the last character of the construct
          simp only [List.cons_append, List.cons.injEq] at hy
          rw [← hy.1] at hlast
          simp at hlast
        · simp only [List.cons_append, List.cons.injEq] at hy
          obtain ⟨rfl, rfl, -⟩ := hy
          exact Or.inl ⟨_, [], ps, before, y, rfl, rfl, rfl⟩
    · obtain ⟨x, rfl, hx⟩ := exists_append_of_length_le h (Nat.le_of_not_lt hlt)
      rcases ih (fun c hc => hps c (List.mem_cons_of_mem p hc)) x hx with ⟨c, hw⟩ | ⟨s, hw⟩
      · exact Or.inl ⟨c, hw.cons p⟩
      · exact Or.inr ⟨s, hw.cons p⟩

theorem protects_written (d : Delimiters) (segments : List Segment) :
    Protects d segments ((parts d segments).flatMap Part.written) where
  written := rfl
  between := length_runs d segments
  literal := runs_flatten d segments
  marked mark hmark before after h := by
    obtain ⟨k, rfl, hopens⟩ : ∃ k, mark = ['\x7b', k] ∧ opensConstruct (k :: after) = true := by
      simp only [constructMarks, List.mem_cons, List.not_mem_nil, or_false] at hmark
      rcases hmark with rfl | rfl | rfl
      · exact ⟨_, rfl, rfl⟩
      · exact ⟨_, rfl, rfl⟩
      · exact ⟨_, rfl, rfl⟩
    apply within_of_opens (parts d segments) _ before after k h hopens
    intro c hc
    obtain ⟨s, -, hs⟩ := List.mem_filterMap.mp (mem_constructs_of_mem_alternate hc)
    exact getLast?_of_construct? hs
  restored s _ := replace_protect s
  become := becomes_constructs segments

theorem assemble_eq_written (d : Delimiters) (segments : List Segment) :
    assemble d [] segments = (parts d segments).flatMap Part.written := by
  rw [assemble_eq_parts]
  unfold parts
  cases runs d segments <;> rfl

theorem opening_ne_nil_of_check {c : Settings} (h : c.check = .ok ()) :
    c.delimiters.opening ≠ [] := by
  intro hnil
  have hempty : c.opening.isEmpty = true := by
    simpa [Settings.delimiters, String.toList_eq_nil_iff] using hnil
  simp [Settings.check, hempty] at h

theorem closing_ne_nil_of_check {c : Settings} (h : c.check = .ok ()) :
    c.delimiters.closing ≠ [] := by
  intro hnil
  have hempty : c.closing.isEmpty = true := by
    simpa [Settings.delimiters, String.toList_eq_nil_iff] using hnil
  rw [Settings.check, hempty] at h
  split at h <;> cases h

/-- A page is translated exactly when all of its tags are closed, and then its literal text is
protected and its tags become constructs in their order. -/
theorem translate_protects_literals (c : Settings) (hc : c.check = .ok ()) (page out : List Char) :
    translate c.delimiters page = .ok out ↔
      ∃ segments, Reading c.delimiters page segments ∧ Protects c.delimiters segments out := by
  rw [translate_eq_ok_iff (opening_ne_nil_of_check hc)]
  constructor
  · rintro ⟨segments, hreading, rfl⟩
    refine ⟨segments, hreading, ?_⟩
    rw [assemble_eq_written]
    exact protects_written c.delimiters segments
  · rintro ⟨segments, hreading, hprotects⟩
    exact ⟨segments, hreading, by rw [assemble_eq_written, hprotects.written]⟩

/-- A brace in front of a trimmed tag, and a percent sign behind the line end it drops. -/
theorem translate_protects_literals_trimmed :
    ({} : Settings).check = .ok () ∧ ∃ segments,
      Reading ({} : Settings).delimiters ['\x7b', '<', '%', '=', 'a', '-', '%', '>', '\n', '\x7b']
        segments ∧
      Protects ({} : Settings).delimiters segments
        (braceMark ++ construct .escaped ['a'] ++ braceMark) := by
  have hcheck : ({} : Settings).check = .ok () := by decide
  have hstep : step ({} : Settings).delimiters
      ['\x7b', '<', '%', '=', 'a', '-', '%', '>', '\n', '\x7b'] =
      .marked ['\x7b'] (.tag ⟨['=', 'a', '-'], ['\n']⟩) ['\x7b'] := by decide
  have hrest : step ({} : Settings).delimiters ['\x7b'] = .noOpening := by decide
  have hassemble : assemble ({} : Settings).delimiters []
      [.literal ['\x7b'], .tag ⟨['=', 'a', '-'], ['\n']⟩, .literal ['\x7b']] =
      braceMark ++ construct .escaped ['a'] ++ braceMark := by decide
  refine ⟨hcheck, (translate_protects_literals {} hcheck _ _).mp ?_⟩
  unfold translate
  rw [scan_of_marked hstep (by decide), scan, hrest]
  exact congrArg Except.ok hassemble

end ViewRendering.Markup
