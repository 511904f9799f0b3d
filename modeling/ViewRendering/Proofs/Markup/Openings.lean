import ViewRendering.Proofs.Markup.Halting
import ViewRendering.Proofs.Markup.Protection

/-!
The opening delimiters that a page is read up to, from left to right. What stands in front of one
of them reads on its own as it does on the page, with all of its tags closed. A page is refused
exactly if one of these delimiters opens a tag that is never closed, which is then the first such
tag, and the line of the failure is that of the delimiter in the page.
-/
namespace ViewRendering.Markup

variable {d : Delimiters} {page front rest tail : List Char}

/-- Reading the page comes to an opening delimiter between these two texts. -/
inductive Reaches (d : Delimiters) : List Char → List Char → List Char → Prop
  | first {page before rest : List Char} :
      Text.FirstAt d.opening page before rest → Reaches d page before rest
  | escaped {page before next front rest : List Char} :
      Text.FirstAt d.opening page before ('%' :: next) → Reaches d next front rest →
      Reaches d page (before ++ (d.opening ++ '%' :: front)) rest
  | tag {page before next inside after front rest : List Char} :
      Text.FirstAt d.opening page before next → next.head? ≠ some '%' →
      Text.FirstAt d.closing next inside after →
      Reaches d (tagBefore inside after).2 front rest →
      Reaches d page (before ++ ((Segment.tag (tagBefore inside after).1).source d ++ front)) rest

/-- Nothing is left out in front of an opening delimiter: neither tags nor the line ends that they
drop. -/
theorem Reaches.source_eq (h : Reaches d page front rest) :
    page = front ++ (d.opening ++ rest) := by
  induction h with
  | first hfirst => exact hfirst.split
  | escaped hfirst _ ih =>
    rw [hfirst.split, ih]
    simp only [List.append_assoc, List.cons_append]
  | @tag page before next inside after front rest hfirst _ hclose _ ih =>
    rw [hfirst.split, hclose.split, ← source_append_tagBefore, ih]
    simp only [List.append_assoc]

/-- The line end that is cut off a text is also cut off a shorter text. -/
theorem cutNewline_of_append {after u v : List Char} (h : (cutNewline after).2 = u ++ v) :
    cutNewline ((cutNewline after).1 ++ u) = ((cutNewline after).1, u) := by
  have hdrops := dropsNewline_cutNewline after
  rw [h] at hdrops
  exact hdrops.of_append.cutNewline_eq

/-- A tag drops the same line end when the text behind it ends earlier. -/
theorem tagBefore_of_append {inside after u v : List Char}
    (h : (tagBefore inside after).2 = u ++ v) :
    tagBefore inside ((tagBefore inside after).1.newline ++ u) =
      ((tagBefore inside after).1, u) := by
  unfold tagBefore at h ⊢
  split
  · rename_i htrim
    rw [if_pos htrim] at h
    simp only [cutNewline_of_append h]
  · rfl

/-- The text in front of an opening delimiter reads like a page of its own. -/
theorem Reaches.closed (hopening : d.opening ≠ []) (hclosing : d.closing ≠ [])
    (h : Reaches d page front rest) : Closed d front := by
  induction h with
  | first hfirst => exact ⟨_, .plain (hfirst.not_infix_before hopening)⟩
  | escaped hfirst _ ih =>
    obtain ⟨segments, hfront⟩ := ih
    exact ⟨_, .escaped (hfirst.with_rest _) hfront⟩
  | @tag page before next inside after front rest hfirst hpercent hclose hreach ih =>
    obtain ⟨segments, hfront⟩ := ih
    obtain ⟨next', hopen, hhead, hends⟩ :=
      exists_firstAt_tag hclosing hfirst hpercent hclose front
    have hsame := tagBefore_of_append hreach.source_eq
    have hbehind : (tagBefore inside ((tagBefore inside after).1.newline ++ front)).2 = front := by
      rw [hsame]
    exact ⟨_, .tag hopen hhead hends (hbehind.symm ▸ hfront)⟩

/-- A tag is left open where the reading reaches its opening delimiter and no closing delimiter
follows. -/
theorem leftOpen_iff_reaches :
    LeftOpen d page tail ↔ ∃ front rest, Reaches d page front rest ∧ rest.head? ≠ some '%' ∧
      ¬ d.closing <:+: rest ∧ tail = d.opening ++ rest := by
  constructor
  · rintro ⟨segments, h⟩
    induction h with
    | unclosed hfirst hpercent hclose => exact ⟨_, _, .first hfirst, hpercent, hclose, rfl⟩
    | escaped hfirst _ ih =>
      obtain ⟨front, rest, hreach, hopen⟩ := ih
      exact ⟨_, rest, .escaped hfirst hreach, hopen⟩
    | tag hfirst hpercent hclose _ ih =>
      obtain ⟨front, rest, hreach, hopen⟩ := ih
      exact ⟨_, rest, .tag hfirst hpercent hclose hreach, hopen⟩
  · rintro ⟨front, rest, hreach, hhead, hunclosed, rfl⟩
    induction hreach with
    | first hfirst => exact ⟨_, .unclosed hfirst hhead hunclosed⟩
    | escaped hfirst _ ih =>
      obtain ⟨segments, hrest⟩ := ih hhead hunclosed
      exact ⟨_, .escaped hfirst hrest⟩
    | tag hfirst hpercent hclose _ ih =>
      obtain ⟨segments, hrest⟩ := ih hhead hunclosed
      exact ⟨_, .tag hfirst hpercent hclose hrest⟩

/-- A page is refused exactly if the reading reaches an opening delimiter that is not escaped and
that no closing delimiter follows. The line of the failure counts the line ends of all the page in
front of the delimiter. In front of every opening delimiter that the reading reaches stands a part
of the page which is translated on its own, so the tag that is never closed is the first one. -/
theorem translate_refuses_iff_unclosed (c : Settings) (hc : c.check = .ok ()) (page : List Char) :
    (∀ e, translate c.delimiters page = .error e ↔
      ∃ front rest, Reaches c.delimiters page front rest ∧ rest.head? ≠ some '%' ∧
        ¬ c.delimiters.closing <:+: rest ∧ e = ⟨c.delimiters, Text.lineEnds front + 1⟩) ∧
    ∀ front rest, Reaches c.delimiters page front rest →
      page = front ++ (c.delimiters.opening ++ rest) ∧
        ∃ out, translate c.delimiters front = .ok out := by
  have hopening := opening_ne_nil_of_check hc
  have hclosing := closing_ne_nil_of_check hc
  have hline {front rest : List Char} (h : Reaches c.delimiters page front rest) :
      lineBefore page (c.delimiters.opening ++ rest) = Text.lineEnds front + 1 := by
    rw [h.source_eq, lineBefore_append]
  refine ⟨fun e => ?_, fun front rest h => ⟨h.source_eq, ?_⟩⟩
  · rw [translate_eq_error_iff hopening]
    simp only [leftOpen_iff_reaches]
    constructor
    · rintro ⟨tail, ⟨front, rest, hreach, hhead, hunclosed, rfl⟩, rfl⟩
      exact ⟨front, rest, hreach, hhead, hunclosed, by rw [hline hreach]⟩
    · rintro ⟨front, rest, hreach, hhead, hunclosed, rfl⟩
      exact ⟨_, ⟨front, rest, hreach, hhead, hunclosed, rfl⟩, by rw [hline hreach]⟩
  · obtain ⟨segments, hreading⟩ := h.closed hopening hclosing
    exact ⟨_, (translate_eq_ok_iff hopening front _).mpr ⟨segments, hreading, rfl⟩⟩

/-- A comment over two lines, the line end it drops and one behind an escaped opening stand in
front of the tag that is never closed. -/
theorem translate_refuses_iff_unclosed_comment :
    let page := "<%# a\nb -%>\n<%%\n<% x".toList
    ({} : Settings).check = .ok () ∧ ∃ front rest,
      Reaches ({} : Settings).delimiters page front rest ∧ Text.lineEnds front + 1 = 4 ∧
      page = front ++ (({} : Settings).delimiters.opening ++ rest) ∧
      ∃ out, translate ({} : Settings).delimiters front = .ok out := by
  intro page
  have hcheck : ({} : Settings).check = .ok () := by decide
  have herror : translate ({} : Settings).delimiters page =
      .error ⟨({} : Settings).delimiters, 4⟩ := by decide +kernel
  obtain ⟨front, rest, hreach, -, -, heq⟩ :=
    ((translate_refuses_iff_unclosed {} hcheck page).1 _).mp herror
  exact ⟨hcheck, front, rest, hreach, (congrArg Unclosed.line heq).symm,
    (translate_refuses_iff_unclosed {} hcheck page).2 front rest hreach⟩

end ViewRendering.Markup
