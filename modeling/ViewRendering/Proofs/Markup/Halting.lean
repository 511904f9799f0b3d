import ViewRendering.Proofs.Markup.Reading

/-!
Pages with a tag that is never closed. Such a page reads up to that tag like any other page,
and the error gives the line on which the text that was read ends. A page whose tags are all
closed can be put in front without changing where the reading halts, as long as no opening
delimiter forms at the border.
-/
namespace ViewRendering.Markup

/-- The segments of a page up to a tag that is never closed, and the text from its opening on. -/
inductive Halts (d : Delimiters) : List Char → List Segment → List Char → Prop
  | unclosed {page before rest : List Char} :
      Text.FirstAt d.opening page before rest → rest.head? ≠ some '%' → ¬ d.closing <:+: rest →
      Halts d page [.literal before] (d.opening ++ rest)
  | escaped {page before rest tail : List Char} {segments : List Segment} :
      Text.FirstAt d.opening page before ('%' :: rest) → Halts d rest segments tail →
      Halts d page (.literal before :: .escapedOpening :: segments) tail
  | tag {page before rest inside after tail : List Char} {segments : List Segment} :
      Text.FirstAt d.opening page before rest → rest.head? ≠ some '%' →
      Text.FirstAt d.closing rest inside after →
      Halts d (tagBefore inside after).2 segments tail →
      Halts d page (.literal before :: .tag (tagBefore inside after).1 :: segments) tail

variable {d : Delimiters} {page tail : List Char} {segments : List Segment}

/-- What is read and what is left open are the page. -/
theorem Halts.source_eq (h : Halts d page segments tail) :
    segments.flatMap (Segment.source d) ++ tail = page := by
  induction h with
  | unclosed hfirst _ _ => simp [Segment.source, hfirst.split]
  | escaped hfirst _ ih => simp [Segment.source, ih, hfirst.split]
  | @tag page before rest inside after tail segments hfirst _ hclose _ ih =>
    rw [List.flatMap_cons, List.flatMap_cons, List.append_assoc, List.append_assoc, ih,
      source_append_tagBefore, ← hclose.split]
    exact hfirst.split.symm

theorem step_of_unclosed {before rest : List Char} (hopen : Text.FirstAt d.opening page before rest)
    (hpercent : rest.head? ≠ some '%') (hclose : ¬ d.closing <:+: rest) :
    step d page = .unclosed before (d.opening ++ rest) := by
  rcases step_cases d page with ⟨hplain, -⟩ | ⟨before', rest', hfirst, -⟩ |
    ⟨before', rest', hfirst, -, -, hs⟩ | ⟨before', rest', inside, after, hfirst, -, hinside, -⟩
  · exact absurd ⟨before, rest, by rw [hopen.split, List.append_assoc]⟩ hplain
  · obtain ⟨-, rfl⟩ := hopen.unique hfirst
    exact absurd rfl hpercent
  · obtain ⟨rfl, rfl⟩ := hopen.unique hfirst
    exact hs
  · obtain ⟨-, rfl⟩ := hopen.unique hfirst
    exact absurd ⟨inside, after, by rw [hinside.split, List.append_assoc]⟩ hclose

/-- The scanner halts where the page does. -/
theorem Halts.scan_eq (hd : d.opening ≠ []) (h : Halts d page segments tail) :
    scan d page = ⟨segments, some tail⟩ := by
  induction h with
  | unclosed hfirst hpercent hclose => rw [scan, step_of_unclosed hfirst hpercent hclose]
  | escaped hfirst _ ih =>
    have hstep := step_of_escaped hfirst
    rw [scan_of_marked hstep (length_lt_of_marked (Or.inl hd) hstep), ih]
  | tag hfirst hpercent hclose _ ih =>
    have hstep := step_of_tag hfirst hpercent hclose
    rw [scan_of_marked hstep (length_lt_of_marked (Or.inl hd) hstep), ih]

theorem halts_scan (hd : d.opening ≠ []) (h : (scan d page).unclosed = some tail) :
    Halts d page (scan d page).segments tail := by
  induction hn : page.length using Nat.strongRecOn generalizing page with
  | ind n ih =>
    rcases step_cases d page with ⟨-, hs⟩ | ⟨before, rest, hfirst, hs⟩ |
      ⟨before, rest, hfirst, hpercent, hclose, hs⟩ |
      ⟨before, rest, inside, after, hfirst, hpercent, hclose, hs⟩
    · rw [scan, hs] at h
      cases h
    · have hlt := length_lt_of_marked (Or.inl hd) hs
      rw [scan_of_marked hs hlt] at h ⊢
      exact .escaped hfirst (ih _ (hn ▸ hlt) h rfl)
    · have heq : scan d page = ⟨[.literal before], some (d.opening ++ rest)⟩ := by rw [scan, hs]
      rw [heq] at h ⊢
      cases h
      exact .unclosed hfirst hpercent hclose
    · have hlt := length_lt_of_marked (Or.inl hd) hs
      rw [scan_of_marked hs hlt] at h ⊢
      exact .tag hfirst hpercent hclose (ih _ (hn ▸ hlt) h rfl)

def LeftOpen (d : Delimiters) (page tail : List Char) : Prop :=
  ∃ segments, Halts d page segments tail

def Closed (d : Delimiters) (page : List Char) : Prop := ∃ segments, Reading d page segments

theorem closed_of_scan (hd : d.opening ≠ []) (h : (scan d page).unclosed = none) :
    Closed d page := ⟨_, reading_scan hd page h⟩

theorem leftOpen_iff_scan (hd : d.opening ≠ []) :
    LeftOpen d page tail ↔ (scan d page).unclosed = some tail := by
  constructor
  · rintro ⟨segments, h⟩
    rw [h.scan_eq hd]
  · exact fun h => ⟨_, halts_scan hd h⟩

/-- A page is refused exactly if a tag of it is left open, with the line on which that tag opens. -/
theorem translate_eq_error_iff (hd : d.opening ≠ []) (page : List Char) (e : Unclosed) :
    translate d page = .error e ↔
      ∃ tail, LeftOpen d page tail ∧ e = ⟨d, lineBefore page tail⟩ := by
  simp only [leftOpen_iff_scan hd]
  unfold translate
  cases (scan d page).unclosed with
  | none => simp
  | some tail => simp [eq_comm]

theorem lineBefore_append (front rest : List Char) :
    lineBefore (front ++ rest) rest = Text.lineEnds front + 1 := by
  unfold lineBefore
  rw [List.length_append, Nat.add_sub_cancel, List.take_left' rfl]

/-- The line ends of a page are those in front of an open tag and those behind its opening. -/
theorem LeftOpen.lineBefore_add (h : LeftOpen d page tail) :
    lineBefore page tail + Text.lineEnds tail = Text.lineEnds page + 1 := by
  obtain ⟨segments, h⟩ := h
  rw [← h.source_eq, lineBefore_append, Text.lineEnds_append]
  omega

/-- Text in which no tag opens can be put in front. -/
theorem LeftOpen.prepend {front : List Char} (h : LeftOpen d page tail)
    (hfront : ¬ d.opening <:+: front) (hborder : ¬ Text.Straddles d.opening front page) :
    LeftOpen d (front ++ page) tail := by
  obtain ⟨segments, h⟩ := h
  cases h with
  | unclosed hfirst hpercent hclose =>
    exact ⟨_, .unclosed (hfirst.prepend hfront hborder) hpercent hclose⟩
  | escaped hfirst h => exact ⟨_, .escaped (hfirst.prepend hfront hborder) h⟩
  | tag hfirst hpercent hclose h =>
    exact ⟨_, .tag (hfirst.prepend hfront hborder) hpercent hclose h⟩

/-- A character that no tag opens with can be dropped from the front. -/
theorem LeftOpen.of_cons {c : Char} (h : LeftOpen d (c :: page) tail) (hd : d.opening ≠ [])
    (hc : d.opening.head? ≠ some c) : LeftOpen d page tail := by
  obtain ⟨segments, h⟩ := h
  cases h with
  | unclosed hfirst hpercent hclose =>
    obtain ⟨before, -, hfirst⟩ := hfirst.of_cons hd hc
    exact ⟨_, .unclosed hfirst hpercent hclose⟩
  | escaped hfirst h =>
    obtain ⟨before, -, hfirst⟩ := hfirst.of_cons hd hc
    exact ⟨_, .escaped hfirst h⟩
  | tag hfirst hpercent hclose h =>
    obtain ⟨before, -, hfirst⟩ := hfirst.of_cons hd hc
    exact ⟨_, .tag hfirst hpercent hclose h⟩

/-- Delimiters whose opening one does not begin with a line end, so that a tag that drops a line
end drops nothing of a delimiter. -/
structure Inline (d : Delimiters) : Prop where
  opening : d.opening ≠ []
  closing : d.closing ≠ []
  newline : d.opening.head? ≠ some '\n'
  carriage : d.opening.head? ≠ some '\r'

theorem LeftOpen.of_newline (hd : Inline d) (h : LeftOpen d page tail) :
    LeftOpen d (cutNewline page).2 tail := by
  unfold cutNewline
  split
  · exact (h.of_cons hd.opening hd.carriage).of_cons hd.opening hd.newline
  · exact h.of_cons hd.opening hd.newline
  · exact h

theorem cutNewline_newline_append (after page : List Char) :
    (cutNewline after).1 = [] ∨
      (cutNewline ((cutNewline after).1 ++ page)).2 = page := by
  unfold cutNewline
  split
  · exact Or.inr rfl
  · exact Or.inr rfl
  · exact Or.inl rfl

/-- Behind a tag the reading halts where it halts in the text that follows: a line end that the
tag drops opens no tag. -/
theorem LeftOpen.behind_tag (hd : Inline d) (inside after : List Char)
    (h : LeftOpen d page tail) :
    LeftOpen d (tagBefore inside ((tagBefore inside after).1.newline ++ page)).2 tail := by
  unfold tagBefore
  split
  · rcases cutNewline_newline_append after page with hnone | hdropped
    · simp only [hnone]
      exact h.of_newline hd
    · simp only [hdropped]
      exact h
  · exact h

/-- The text of an escaped opening can be put in front. -/
theorem LeftOpen.escaped {front before rest : List Char} (h : LeftOpen d page tail)
    (hfirst : Text.FirstAt d.opening front before ('%' :: rest)) :
    LeftOpen d (before ++ (d.opening ++ '%' :: page)) tail := by
  obtain ⟨segments, h⟩ := h
  exact ⟨_, .escaped (hfirst.with_rest ('%' :: page)) h⟩

/-- The text of a tag can be put in front. -/
theorem LeftOpen.tag (hd : Inline d) {front before rest inside after : List Char}
    (h : LeftOpen d page tail) (hfirst : Text.FirstAt d.opening front before rest)
    (hpercent : rest.head? ≠ some '%') (hclose : Text.FirstAt d.closing rest inside after) :
    LeftOpen d
      (before ++ ((Segment.tag (tagBefore inside after).1).source d ++ page)) tail := by
  obtain ⟨segments, hpage⟩ := h.behind_tag hd inside after
  obtain ⟨rest', hopen, hhead, hends⟩ :=
    exists_firstAt_tag hd.closing hfirst hpercent hclose page
  exact ⟨_, .tag hopen hhead hends hpage⟩

/-- A page whose tags are all closed can be put in front, unless an opening delimiter begins in it
and ends behind it. -/
theorem LeftOpen.prepend_closed (hd : Inline d) {front : List Char} (h : LeftOpen d page tail)
    (hfront : Closed d front) (hborder : ¬ Text.Straddles d.opening front page) :
    LeftOpen d (front ++ page) tail := by
  obtain ⟨segments, hreading⟩ := hfront
  -- the border stays where it is, so the hypothesis about it goes with every text that is read
  induction hreading with
  | plain hplain => exact h.prepend hplain hborder
  | @escaped front before rest segments hfirst _ ih =>
    have hfront : front = (before ++ (d.opening ++ ['%'])) ++ rest := by
      rw [hfirst.split]
      simp only [List.append_assoc, List.cons_append, List.nil_append]
    have hopen := (ih fun hs => hborder (hfront ▸ hs.prepend _)).escaped hfirst
    rw [hfront]
    simpa only [List.append_assoc, List.cons_append, List.nil_append] using hopen
  | @tag front before rest inside after segments hfirst hpercent hclose _ ih =>
    have hfront : front = (before ++ (Segment.tag (tagBefore inside after).1).source d) ++
        (tagBefore inside after).2 := by
      rw [hfirst.split, hclose.split]
      simp only [Segment.source, inside_tagBefore, List.append_assoc, newline_append_tagBefore]
    have hopen := (ih fun hs => hborder (hfront ▸ hs.prepend _)).tag hd hfirst hpercent hclose
    rw [hfront]
    simpa only [List.append_assoc] using hopen

end ViewRendering.Markup
