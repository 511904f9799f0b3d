import ViewRendering.Proofs.Markup.Halting
import ViewRendering.Proofs.Text.Octets

/-!
The translation of a page by a cursor, which stands at an offset in the octets of the page. In every
turn it looks for an opening delimiter behind its offset and moves behind what it finds there. All
that it looks at are slices, and a turn fails if there is no such slice. Unless there is nothing to
read in either of the delimiters, no turn fails, each turn moves the cursor on from one border to a
later one, and the result is that of the translation.
-/
namespace ViewRendering.Markup

/-- A place in the page, the literal text in front of it that is not written yet, and all that is
written. -/
structure Cursor where
  position : Nat
  pending : List Char
  written : List Char

inductive Turn where
  | onwards (c : Cursor)
  | finished (result : Except Unclosed (List Char))

def offsetOf? (mark s : List Char) : Option Nat :=
  (Text.cut? mark s).map fun p => Text.utf8Size p.1

/-- The inside of a tag without the mark of its mode, which is cut off as one octet. -/
def unmarked? (inside : List Char) : Option (List Char) :=
  if (modeOf inside).1 = .statement then some inside
  else Text.slice? inside 1 (Text.utf8Size inside)

def untrimmed? (code : List Char) : Option (List Char × Bool) :=
  if code.getLast? = some '-' then
    (Text.slice? code 0 (Text.utf8Size code - 1)).map fun front => (front, true)
  else some (code, false)

def behindTag? (page : List Char) (trimmed : Bool) (closed : Nat) : Option Nat :=
  if trimmed then
    (Text.slice? page closed (Text.utf8Size page)).map fun after =>
      if ['\r', '\n'] <+: after then closed + 2
      else if ['\n'] <+: after then closed + 1
      else closed
  else some closed

def turnAtTag (d : Delimiters) (page : List Char) (c : Cursor) (before : List Char)
    (start size : Nat) : Option Turn := do
  let inside ← Text.slice? page start (start + size)
  let code ← unmarked? inside
  let (code, trimmed) ← untrimmed? code
  let position ← behindTag? page trimmed (start + size + Text.utf8Size d.closing)
  let mode := (modeOf inside).1
  let code := Text.trim code
  let pending := c.pending ++ before
  if mode = .comment ∨ code.isEmpty then return .onwards ⟨position, pending, c.written⟩
  else return .onwards ⟨position, [], c.written ++ (protect pending ++ construct mode code)⟩

def turnAtOpening (d : Delimiters) (page : List Char) (c : Cursor) (opening : Nat) :
    Option Turn := do
  let before ← Text.slice? page c.position opening
  let start := opening + Text.utf8Size d.opening
  let behind ← Text.slice? page start (Text.utf8Size page)
  if behind.head? = some '%' then
    return .onwards ⟨start + 1, c.pending ++ before ++ d.opening, c.written⟩
  else
    match offsetOf? d.closing behind with
    | some size => turnAtTag d page c before start size
    | none =>
      let front ← Text.slice? page 0 opening
      return .finished (.error ⟨d, Text.lineEnds front + 1⟩)

/-- The turn of a cursor. It fails if it has to look at what is no slice. -/
def turn (d : Delimiters) (page : List Char) (c : Cursor) : Option Turn := do
  let ahead ← Text.slice? page c.position (Text.utf8Size page)
  match offsetOf? d.opening ahead with
  | some found => turnAtOpening d page c (c.position + found)
  | none => return .finished (.ok (c.written ++ protect (c.pending ++ ahead)))

def Cursor.start : Cursor := ⟨0, [], []⟩

inductive Visits (d : Delimiters) (page : List Char) : Cursor → Prop
  | start : Visits d page .start
  | onwards {c c' : Cursor} :
      Visits d page c → turn d page c = some (.onwards c') → Visits d page c'

inductive Finishes (d : Delimiters) (page : List Char) :
    Nat → Cursor → Except Unclosed (List Char) → Prop
  | last {c : Cursor} {result : Except Unclosed (List Char)} :
      turn d page c = some (.finished result) → Finishes d page 1 c result
  | onwards {n : Nat} {c c' : Cursor} {result : Except Unclosed (List Char)} :
      turn d page c = some (.onwards c') → Finishes d page n c' result →
      Finishes d page (n + 1) c result

def Cursor.Before (page : List Char) (c : Cursor) (rest : List Char) : Prop :=
  ∃ front, page = front ++ rest ∧ c.position = Text.utf8Size front

def outcome (d : Delimiters) (page : List Char) (c : Cursor) (rest : List Char) :
    Except Unclosed (List Char) :=
  match (scan d rest).unclosed with
  | some tail => .error ⟨d, lineBefore page tail⟩
  | none => .ok (c.written ++ assemble d c.pending (scan d rest).segments)

variable {d : Delimiters} {page rest : List Char} {c c' : Cursor}

/-- The mark of a mode is one octet. -/
theorem slice?_modeOf {inside : List Char} (h : (modeOf inside).1 ≠ .statement) :
    Text.slice? inside 1 (Text.utf8Size inside) = some (modeOf inside).2 := by
  unfold modeOf at h ⊢
  split at h
  · exact Text.slice?_to_end ['='] _
  · exact Text.slice?_to_end ['-'] _
  · exact Text.slice?_to_end ['#'] _
  · exact absurd rfl h

theorem modeOf_of_statement {inside : List Char} (h : (modeOf inside).1 = .statement) :
    (modeOf inside).2 = inside := by
  unfold modeOf at h ⊢
  split at h
  · cases h
  · cases h
  · cases h
  · rfl

theorem unmarked?_eq (inside : List Char) : unmarked? inside = some (modeOf inside).2 := by
  unfold unmarked?
  by_cases hmode : (modeOf inside).1 = .statement
  · rw [if_pos hmode, modeOf_of_statement hmode]
  · rw [if_neg hmode, slice?_modeOf hmode]

theorem untrimmed?_eq (code : List Char) : untrimmed? code = some (withoutTrimMark code) := by
  unfold untrimmed?
  by_cases hlast : code.getLast? = some '-'
  · obtain ⟨front, rfl⟩ := List.getLast?_eq_some_iff.mp hlast
    have hsize : Text.utf8Size (front ++ ['-']) - 1 = Text.utf8Size front := by
      rw [Text.utf8Size_append]
      rfl
    rw [if_pos hlast, hsize, Text.slice?_from_start, withoutTrimMark_concat]
    rfl
  · rw [if_neg hlast, withoutTrimMark_of_getLast? hlast]

/-- The line end that a cursor moves over is the one that is cut off. -/
theorem behindNewline_eq (n : Nat) (after : List Char) :
    (if ['\r', '\n'] <+: after then n + 2 else if ['\n'] <+: after then n + 1 else n) =
      n + Text.utf8Size (cutNewline after).1 := by
  have hdrops := dropsNewline_cutNewline after
  have hsplit := eq_append_cutNewline after
  generalize (cutNewline after).1 = newline at hdrops hsplit ⊢
  generalize (cutNewline after).2 = rest at hdrops hsplit
  cases hdrops with
  | newline =>
    have hcarriage : ¬ ['\r', '\n'] <+: ['\n'] ++ rest := by simp
    rw [hsplit, if_neg hcarriage, if_pos (List.prefix_append ['\n'] rest)]
    rfl
  | carriage =>
    rw [hsplit, if_pos (List.prefix_append ['\r', '\n'] rest)]
    rfl
  | none hnewline hcarriage =>
    rw [hsplit, List.nil_append, if_neg hcarriage, if_neg hnewline]
    rfl

/-- Behind a tag the cursor has moved over the line end that the tag drops. -/
theorem behindTag?_eq (front inside after : List Char) :
    behindTag? (front ++ after) (withoutTrimMark (modeOf inside).2).2 (Text.utf8Size front) =
      some (Text.utf8Size (front ++ (tagBefore inside after).1.newline)) := by
  unfold behindTag? tagBefore
  split
  · rw [Text.slice?_to_end, Option.map_some, behindNewline_eq, Text.utf8Size_append]
  · rw [List.append_nil]

def Cursor.past (d : Delimiters) (c : Cursor) (position : Nat) (before : List Char)
    (segment : Segment) : Cursor :=
  match segment.construct? with
  | some construct => ⟨position, [], c.written ++ (protect (c.pending ++ before) ++ construct)⟩
  | none => ⟨position, c.pending ++ before ++ segment.literalText d, c.written⟩

theorem Cursor.past_tag (position : Nat) (before : List Char) (t : Tag) :
    c.past d position before (.tag t) =
      let pending := c.pending ++ before
      if t.mode = .comment ∨ t.code.isEmpty then ⟨position, pending, c.written⟩
      else ⟨position, [], c.written ++ (protect pending ++ construct t.mode t.code)⟩ := by
  have hsilent : t.isSilent = true ↔ t.mode = .comment ∨ t.code.isEmpty = true := by
    simp [Tag.isSilent]
  have hconstruct : (Segment.tag t).construct? =
      if t.isSilent then none else some (construct t.mode t.code) := rfl
  unfold Cursor.past
  rw [hconstruct]
  by_cases h : t.isSilent = true
  · rw [if_pos h, if_pos (hsilent.mp h)]
    simp only [Segment.literalText, List.append_nil]
  · rw [if_neg h, if_neg (mt hsilent.mpr h)]

theorem turnAtTag_eq (front before inside after : List Char) :
    turnAtTag d (front ++ (inside ++ (d.closing ++ after))) c before (Text.utf8Size front)
        (Text.utf8Size inside) =
      some (.onwards (c.past d
        (Text.utf8Size (front ++ (inside ++ (d.closing ++ (tagBefore inside after).1.newline))))
        before (.tag (tagBefore inside after).1))) := by
  have hsplit : front ++ (inside ++ (d.closing ++ after)) =
      (front ++ (inside ++ d.closing)) ++ after := by
    simp only [List.append_assoc]
  have hclosed : Text.utf8Size front + Text.utf8Size inside + Text.utf8Size d.closing =
      Text.utf8Size (front ++ (inside ++ d.closing)) := by
    rw [Text.utf8Size_append, Text.utf8Size_append, Nat.add_assoc]
  have hbehind := behindTag?_eq (front ++ (inside ++ d.closing)) inside after
  rw [← hsplit, ← hclosed] at hbehind
  unfold turnAtTag
  simp only [Text.slice?_append, unmarked?_eq, untrimmed?_eq, hbehind, Option.bind_eq_bind,
    Option.bind_some, Cursor.past_tag, Tag.mode, Tag.code, inside_tagBefore, List.append_assoc]
  split <;> rfl

theorem offsetOf?_eq_some {mark s a b : List Char} (h : Text.FirstAt mark s a b) :
    offsetOf? mark s = some (Text.utf8Size a) := by
  rw [offsetOf?, (Text.cut?_eq_some_iff mark s a b).mpr h]
  rfl

theorem offsetOf?_eq_none {mark s : List Char} (h : ¬ mark <:+: s) : offsetOf? mark s = none := by
  rw [offsetOf?, (Text.cut?_eq_none_iff mark s).mpr h]
  rfl

section Opening

variable {front before behind : List Char}

/-- The cursor looks at all that is ahead of it. -/
theorem turn_eq (hc : c.position = Text.utf8Size front) (ahead : List Char) :
    turn d (front ++ ahead) c =
      match offsetOf? d.opening ahead with
      | some found => turnAtOpening d (front ++ ahead) c (c.position + found)
      | none => some (.finished (.ok (c.written ++ protect (c.pending ++ ahead)))) := by
  unfold turn
  rw [hc, Text.slice?_to_end]
  rfl

/-- At an opening delimiter the cursor looks at the text between its place and the delimiter and at
the text behind the delimiter. -/
theorem turnAtOpening_eq (hc : c.position = Text.utf8Size front) :
    turnAtOpening d (front ++ (before ++ (d.opening ++ behind))) c
        (Text.utf8Size (front ++ before)) =
      if behind.head? = some '%' then
        some (.onwards (c.past d (Text.utf8Size (front ++ (before ++ (d.opening ++ ['%'])))) before
          .escapedOpening))
      else
        match offsetOf? d.closing behind with
        | some size =>
          turnAtTag d (front ++ (before ++ (d.opening ++ behind))) c before
            (Text.utf8Size (front ++ (before ++ d.opening))) size
        | none => some (.finished (.error ⟨d, Text.lineEnds (front ++ before) + 1⟩)) := by
  have hbefore := Text.slice?_append front before (d.opening ++ behind)
  have hbehind := Text.slice?_to_end (front ++ (before ++ d.opening)) behind
  have hfront := Text.slice?_from_start (front ++ before) (d.opening ++ behind)
  rw [← Text.utf8Size_append] at hbefore
  simp only [List.append_assoc] at hbefore hbehind hfront
  have hstart : Text.utf8Size (front ++ before) + Text.utf8Size d.opening =
      Text.utf8Size (front ++ (before ++ d.opening)) := by
    rw [← Text.utf8Size_append, List.append_assoc]
  have hescaped : Text.utf8Size (front ++ (before ++ d.opening)) + 1 =
      Text.utf8Size (front ++ (before ++ (d.opening ++ ['%']))) := by
    have hpercent : Text.utf8Size ['%'] = 1 := rfl
    simp only [Text.utf8Size_append, hpercent, Nat.add_assoc]
  unfold turnAtOpening
  rw [hc, hbefore, hstart]
  simp only [Option.bind_eq_bind, Option.bind_some, hbehind, hfront, hescaped]
  rfl

theorem turn_of_plain (hc : c.position = Text.utf8Size front) {ahead : List Char}
    (h : ¬ d.opening <:+: ahead) :
    turn d (front ++ ahead) c =
      some (.finished (.ok (c.written ++ protect (c.pending ++ ahead)))) := by
  rw [turn_eq hc, offsetOf?_eq_none h]

/-- The cursor comes to the first opening delimiter ahead. -/
theorem turn_of_opening (hc : c.position = Text.utf8Size front) {ahead : List Char}
    (h : Text.FirstAt d.opening ahead before behind) :
    turn d (front ++ ahead) c =
      turnAtOpening d (front ++ (before ++ (d.opening ++ behind))) c
        (Text.utf8Size (front ++ before)) := by
  rw [turn_eq hc, offsetOf?_eq_some h, Text.utf8Size_append, ← hc, ← h.split]

theorem turn_of_escaped (hc : c.position = Text.utf8Size front) {ahead rest : List Char}
    (h : Text.FirstAt d.opening ahead before ('%' :: rest)) :
    turn d (front ++ ahead) c =
      some (.onwards (c.past d (Text.utf8Size (front ++ (before ++ (d.opening ++ ['%'])))) before
        .escapedOpening)) := by
  rw [turn_of_opening hc h, turnAtOpening_eq hc, if_pos List.head?_cons]

theorem turn_of_unclosed (hc : c.position = Text.utf8Size front) {ahead : List Char}
    (h : Text.FirstAt d.opening ahead before behind) (hpercent : behind.head? ≠ some '%')
    (hclose : ¬ d.closing <:+: behind) :
    turn d (front ++ ahead) c =
      some (.finished (.error ⟨d, Text.lineEnds (front ++ before) + 1⟩)) := by
  rw [turn_of_opening hc h, turnAtOpening_eq hc, if_neg hpercent, offsetOf?_eq_none hclose]

theorem turn_of_tag (hc : c.position = Text.utf8Size front) {ahead inside after : List Char}
    (h : Text.FirstAt d.opening ahead before behind) (hpercent : behind.head? ≠ some '%')
    (hclose : Text.FirstAt d.closing behind inside after) :
    turn d (front ++ ahead) c =
      some (.onwards (c.past d
        (Text.utf8Size (front ++ (before ++ (Segment.tag (tagBefore inside after).1).source d)))
        before (.tag (tagBefore inside after).1))) := by
  rw [turn_of_opening hc h, turnAtOpening_eq hc, if_neg hpercent, offsetOf?_eq_some hclose]
  have htag := turnAtTag_eq (d := d) (c := c) (front ++ (before ++ d.opening)) before inside after
  simp only [List.append_assoc, ← hclose.split] at htag
  simp only [Segment.source, inside_tagBefore]
  exact htag

end Opening

theorem Cursor.position_past (position : Nat) (before : List Char) (segment : Segment) :
    (c.past d position before segment).position = position := by
  unfold Cursor.past
  split <;> rfl

/-- What the translation makes of the rest of the page does not change in a turn. -/
theorem outcome_past {ahead before : List Char} {segment : Segment}
    (h : step d ahead = .marked before segment rest) (hlt : rest.length < ahead.length)
    (position : Nat) :
    outcome d page (c.past d position before segment) rest = outcome d page c ahead := by
  unfold outcome
  rw [scan_of_marked h hlt]
  cases (scan d rest).unclosed with
  | some tail => rfl
  | none =>
    have hliteral : (Segment.literal before).construct? = none := rfl
    unfold Cursor.past
    cases hconstruct : segment.construct? with
    | some construct =>
      simp only [assemble, hliteral, hconstruct, Segment.literalText, List.append_assoc]
    | none => simp only [assemble, hliteral, hconstruct, Segment.literalText]

/-- A turn never fails. It finishes with the outcome, or it moves the cursor on, so that less of the
page is left and the outcome is the same. -/
theorem turn_cases (hd : d.opening ≠ [] ∨ d.closing ≠ []) (h : c.Before page rest) :
    turn d page c = some (.finished (outcome d page c rest)) ∨
      ∃ c' rest', turn d page c = some (.onwards c') ∧ c'.Before page rest' ∧
        rest'.length < rest.length ∧ outcome d page c' rest' = outcome d page c rest := by
  obtain ⟨front, rfl, hc⟩ := h
  -- The cases of the scanner's step: the page ends, an escaped opening, no end of a tag, a tag.
  rcases step_cases d rest with ⟨hplain, hs⟩ | ⟨before, behind, hfirst, hs⟩ |
    ⟨before, behind, hfirst, hpercent, hclose, hs⟩ |
    ⟨before, behind, inside, after, hfirst, hpercent, hclose, hs⟩
  · refine Or.inl ?_
    rw [turn_of_plain hc hplain, outcome, scan, hs]
    rfl
  · have hlt := length_lt_of_marked hd hs
    refine Or.inr ⟨_, behind, turn_of_escaped hc hfirst, ⟨_, ?_, Cursor.position_past ..⟩, hlt,
      outcome_past hs hlt _⟩
    rw [hfirst.split]
    simp only [List.append_assoc, List.cons_append, List.nil_append]
  · have hline : lineBefore (front ++ rest) (d.opening ++ behind) =
        Text.lineEnds (front ++ before) + 1 := by
      rw [hfirst.split, ← List.append_assoc, lineBefore_append]
    refine Or.inl ?_
    rw [turn_of_unclosed hc hfirst hpercent hclose, outcome, scan, hs, ← hline]
  · have hlt := length_lt_of_marked hd hs
    refine Or.inr ⟨_, _, turn_of_tag hc hfirst hpercent hclose,
      ⟨_, ?_, Cursor.position_past ..⟩, hlt, outcome_past hs hlt _⟩
    rw [List.append_assoc, List.append_assoc, source_append_tagBefore, ← hclose.split,
      ← hfirst.split]

theorem Cursor.Before.isBorder (h : c.Before page rest) : Text.IsBorder page c.position := by
  obtain ⟨front, rfl, hc⟩ := h
  rw [hc]
  exact Text.isBorder_append front rest

/-- The cursor with less of the page behind it stands further on. -/
theorem Cursor.Before.position_lt {rest' : List Char} (h : c.Before page rest)
    (h' : c'.Before page rest') (hlt : rest'.length < rest.length) : c.position < c'.position := by
  obtain ⟨front, rfl, hc⟩ := h
  obtain ⟨front', hpage, hc'⟩ := h'
  rcases List.append_eq_append_iff.mp hpage with ⟨between, rfl, rfl⟩ | ⟨between, rfl, rfl⟩
  · have hbetween : between ≠ [] := by
      intro hnil
      rw [hnil, List.nil_append] at hlt
      omega
    have hpos := Text.utf8Size_pos hbetween
    rw [hc, hc', Text.utf8Size_append]
    omega
  · rw [List.length_append] at hlt
    omega

theorem Visits.before (hd : d.opening ≠ [] ∨ d.closing ≠ []) (h : Visits d page c) :
    ∃ rest, c.Before page rest := by
  induction h with
  | start => exact ⟨page, [], rfl, rfl⟩
  | onwards _ hturn ih =>
    obtain ⟨rest, hrest⟩ := ih
    rcases turn_cases hd hrest with hlast | ⟨next, rest', hnext, hrest', -⟩
    · rw [hturn] at hlast
      cases hlast
    · rw [hturn] at hnext
      cases hnext
      exact ⟨rest', hrest'⟩

/-- From every place the cursor finishes with the outcome, in a turn for each character that is left
and one more at most. -/
theorem finishes_of_before (hd : d.opening ≠ [] ∨ d.closing ≠ []) (h : c.Before page rest) :
    ∃ n ≤ rest.length + 1, Finishes d page n c (outcome d page c rest) := by
  -- On the number of characters that are left, since turns move over octets of mixed counts.
  induction hn : rest.length using Nat.strongRecOn generalizing c rest with
  | ind k ih =>
    rcases turn_cases hd h with hlast | ⟨c', rest', hturn, hrest', hlt, houtcome⟩
    · exact ⟨1, Nat.le_add_left 1 k, .last hlast⟩
    · obtain ⟨n, hle, hfinishes⟩ := ih rest'.length (hn ▸ hlt) hrest' rfl
      rw [houtcome] at hfinishes
      exact ⟨n + 1, by omega, .onwards hturn hfinishes⟩

/-- Unless both delimiters are empty, the cursor finishes on every page, in a turn for each of its
characters and one more at most, with what the translation makes of the page. Wherever it comes to
on the way, it stands at a border of the page, its turn finds all the slices that it looks at, and
if it moves on, then to a later place. -/
theorem translate_finishes (hd : d.opening ≠ [] ∨ d.closing ≠ []) (page : List Char) :
    (∃ n ≤ page.length + 1, Finishes d page n .start (translate d page)) ∧
      ∀ c, Visits d page c →
        c.position ≤ Text.utf8Size page ∧ Text.IsBorder page c.position ∧
          ∃ t, turn d page c = some t ∧ ∀ c', t = .onwards c' → c.position < c'.position := by
  constructor
  · exact finishes_of_before hd ⟨[], rfl, rfl⟩
  · intro c hvisits
    obtain ⟨rest, hrest⟩ := hvisits.before hd
    refine ⟨hrest.isBorder.le, hrest.isBorder, ?_⟩
    rcases turn_cases hd hrest with hlast | ⟨next, rest', hturn, hrest', hlt, -⟩
    · exact ⟨_, hlast, nofun⟩
    · refine ⟨_, hturn, ?_⟩
      intro c' heq
      rw [← Turn.onwards.inj heq]
      exact hrest.position_lt hrest' hlt

/-- The same delimiter of two octets a character opens and closes, in front of a line end that is
dropped and of a percent sign. -/
theorem translate_finishes_accents :
    let d : Delimiters := ⟨"éé".toList, "éé".toList⟩
    let page := "aéé= x -éé\r\nbéé% ü".toList
    (d.opening ≠ [] ∨ d.closing ≠ []) ∧
      (∃ n ≤ page.length + 1,
        Finishes d page n .start (.ok "a\x7b\x7b x \x7d\x7dbéé ü".toList)) ∧
      ∀ c, Visits d page c → Text.IsBorder page c.position ∧ (turn d page c).isSome := by
  intro d page
  have hd : d.opening ≠ [] ∨ d.closing ≠ [] := by decide
  have hpage : translate d page = .ok "a\x7b\x7b x \x7d\x7dbéé ü".toList := by decide +kernel
  obtain ⟨hfinishes, hvisits⟩ := translate_finishes hd page
  rw [hpage] at hfinishes
  refine ⟨hd, hfinishes, ?_⟩
  intro c hc
  obtain ⟨-, hborder, t, hturn, -⟩ := hvisits c hc
  exact ⟨hborder, by rw [hturn]; rfl⟩

/-- With nothing to read in both delimiters the cursor does not move on, unless a percent sign
stands behind it. -/
theorem turn_of_empty (h : c.Before page rest) (hpercent : rest.head? ≠ some '%') :
    turn ⟨[], []⟩ page c = some (.onwards c) := by
  obtain ⟨front, rfl, hc⟩ := h
  have hfirst : Text.FirstAt [] rest [] rest := ⟨rfl, fun _ _ _ => Nat.zero_le _⟩
  have htag : (tagBefore [] rest).1 = ⟨[], []⟩ := rfl
  have hcode : (⟨[], []⟩ : Tag).code.isEmpty = true := rfl
  have hsource : front ++ ([] ++ (Segment.tag ⟨[], []⟩).source ⟨[], []⟩) = front := by
    simp [Segment.source]
  rw [turn_of_tag (d := ⟨[], []⟩) hc hfirst hpercent hfirst, htag, Cursor.past_tag,
    if_pos (Or.inr hcode), hsource, ← hc, List.append_nil]

/-- There it never finishes. -/
theorem not_finishes_of_empty {n : Nat} {result : Except Unclosed (List Char)}
    (h : c.Before page rest) (hpercent : rest.head? ≠ some '%') :
    ¬ Finishes ⟨[], []⟩ page n c result := by
  intro hfinishes
  induction hfinishes with
  | last hturn =>
    rw [turn_of_empty h hpercent] at hturn
    cases hturn
  | onwards hturn _ ih =>
    rw [turn_of_empty h hpercent] at hturn
    cases hturn
    exact ih h

end ViewRendering.Markup
