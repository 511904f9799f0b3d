import ViewRendering.Proofs.Markup.Protection
import ViewRendering.Proofs.Partial.Pieces

/-!
Directives beside the tags of a page. A directive has the shape of a tag, but its finder does
not read the page from left to right as the scanner does: it is a tag of the page if a tag
begins at its place and the closing delimiter does not come up inside it. Neither has to be
so, and a directive that reaches over several tags takes the text between them along.
-/
namespace ViewRendering.Partial

open Markup (Delimiters Reading Segment Tag source_append_tagBefore tagBefore)
open Text (FirstAt)

def TagBehind (d : Delimiters) (segments : List Segment) (front : List Char) (t : Tag) : Prop :=
  ∃ left right, segments = left ++ .tag t :: right ∧ left.flatMap (Segment.source d) = front

variable {d : Delimiters}

/-- A tag among segments that begin with literal text and another segment is that segment, or one
behind it. -/
theorem tagBehind_cases {lit front : List Char} {seg : Segment} {segments : List Segment} {t : Tag}
    (h : TagBehind d (.literal lit :: seg :: segments) front t) :
    (front = lit ∧ seg = .tag t) ∨
      ∃ front', front = lit ++ (seg.source d ++ front') ∧ TagBehind d segments front' t := by
  obtain ⟨left, right, hsegments, rfl⟩ := h
  rcases left with _ | ⟨x, _ | ⟨y, left⟩⟩
  · cases hsegments
  · simp only [List.cons_append, List.nil_append, List.cons.injEq] at hsegments
    obtain ⟨rfl, rfl, -⟩ := hsegments
    exact Or.inl ⟨List.append_nil lit, rfl⟩
  · simp only [List.cons_append, List.cons.injEq] at hsegments
    obtain ⟨rfl, rfl, rfl⟩ := hsegments
    exact Or.inr ⟨left.flatMap (Segment.source d), rfl, left, right, rfl, rfl⟩

theorem not_tagBehind_literal (lit front : List Char) (t : Tag) :
    ¬ TagBehind d [.literal lit] front t := by
  rintro ⟨left, right, hsegments, -⟩
  rcases left with _ | ⟨x, left⟩
  · cases hsegments
  · simp at hsegments

/-- Where a reading has a tag, the page has an opening delimiter, and the first closing delimiter
behind it closes the tag. -/
theorem tag_of_tagBehind {page front : List Char} {segments : List Segment} {t : Tag}
    (h : Reading d page segments) (ht : TagBehind d segments front t) :
    ∃ rest inside after, page = front ++ (d.opening ++ rest) ∧
      FirstAt d.closing rest inside after ∧ t = (tagBefore inside after).1 := by
  induction h generalizing front with
  | plain _ => exact absurd ht (not_tagBehind_literal _ front t)
  | escaped hfirst _ ih =>
    rcases tagBehind_cases ht with ⟨-, hseg⟩ | ⟨front, rfl, hbehind⟩
    · cases hseg
    · obtain ⟨rest, inside, after, hpage, hclose, rfl⟩ := ih hbehind
      refine ⟨rest, inside, after, ?_, hclose, rfl⟩
      rw [hfirst.split, hpage]
      simp [Segment.source]
  | @tag page before rest inside after segments hfirst _ hclose _ ih =>
    rcases tagBehind_cases ht with ⟨rfl, hseg⟩ | ⟨front, rfl, hbehind⟩
    · cases hseg
      exact ⟨rest, inside, after, hfirst.split, hclose, rfl⟩
    · obtain ⟨rest', inside', after', hpage, hclose', rfl⟩ := ih hbehind
      refine ⟨rest', inside', after', ?_, hclose', rfl⟩
      have hsource := source_append_tagBefore d inside after
      rw [hpage] at hsource
      rw [hfirst.split, hclose.split, ← hsource]
      simp only [List.append_assoc]

/-- A directive reads like a tag. It is the tag that the page has at its place exactly if the page
has one there and the directive contains the closing delimiter only where it is closed. -/
theorem directive_is_tag_iff (c : Settings) (hc : c.check = .ok ()) (page out : List Char)
    (hpage : Markup.translate c.delimiters page = .ok out) (before after : List Piece)
    (m : Directive) (hm : pieces c.delimiters page = before ++ .directive m :: after) :
    let segments := (Markup.scan c.delimiters page).segments
    let front := before.flatMap Piece.source
    ∃ t, (Segment.tag t).source c.delimiters = m.source ∧
      (TagBehind c.delimiters segments front t ↔
        (∃ t', TagBehind c.delimiters segments front t') ∧
          FirstAt c.delimiters.closing (t.inside ++ (c.delimiters.closing ++ t.newline))
            t.inside t.newline) := by
  intro segments front
  have hopening := Markup.opening_ne_nil_of_check hc
  have hreading : Reading c.delimiters page segments := by
    obtain ⟨segments', hreading, -⟩ := (Markup.translate_eq_ok_iff hopening page out).mp hpage
    have hscan := hreading.scan_eq hopening
    rwa [show segments = segments' from congrArg Markup.Scan.segments hscan]
  have hsplit : page = front ++ (m.source ++ after.flatMap Piece.source) := by
    rw [← flatMap_source_pieces c.delimiters page, hm, List.flatMap_append, List.flatMap_cons]
    rfl
  obtain ⟨t, hsource, hends⟩ := exists_tag_of_directiveAt? (directiveAt?_of_pieces hm)
  have hsame := List.append_cancel_right hsource
  rw [hsame, Segment.source, List.append_assoc] at hsplit
  refine ⟨t, hsame.symm, fun h => ⟨⟨t, h⟩, ?_⟩, ?_⟩
  · obtain ⟨rest, inside, tail, hrest, hclose, ht⟩ := tag_of_tagBehind hreading h
    have hinside : t.inside = inside := by rw [ht, Markup.inside_tagBefore]
    have heq := List.append_cancel_left (List.append_cancel_left (hrest.symm.trans hsplit))
    rw [heq, ← hinside] at hclose
    have htail : tail = t.newline ++ after.flatMap Piece.source := by
      have hpieces := hclose.split
      rw [List.append_assoc, List.append_assoc] at hpieces
      exact (List.append_cancel_left (List.append_cancel_left hpieces)).symm
    rw [htail] at hclose
    exact hclose.of_append
  · rintro ⟨⟨t', ht'⟩, hfirst⟩
    obtain ⟨rest, inside, tail, hrest, hclose, rfl⟩ := tag_of_tagBehind hreading ht'
    have heq := List.append_cancel_left (List.append_cancel_left (hrest.symm.trans hsplit))
    rw [heq] at hclose
    obtain ⟨rfl, rfl⟩ := hclose.unique (hfirst.append _)
    rw [hends] at ht'
    exact ht'

def acrossTags : List Char := "<%=partial('a')|safe%>kept<%-partial('b')%>".toList

theorem segments_acrossTags :
    (Markup.scan ({} : Settings).delimiters acrossTags).segments =
      [.literal [], .tag ⟨"=partial('a')|safe".toList, []⟩, .literal "kept".toList,
        .tag ⟨"-partial('b')".toList, []⟩, .literal []] := by
  decide +kernel

theorem pieces_acrossTags :
    pieces ({} : Settings).delimiters acrossTags =
      [] ++ .directive ⟨acrossTags, "'a')|safe%>kept<%-partial('b'".toList⟩ :: [] := by
  decide +kernel

theorem translate_acrossTags :
    Markup.translate ({} : Settings).delimiters acrossTags =
      .ok (Markup.assemble ({} : Settings).delimiters []
        (Markup.scan ({} : Settings).delimiters acrossTags).segments) := by
  decide +kernel

/-- Here the directive is not the tag at its place: the closing delimiter comes up inside it. -/
theorem directive_is_tag_iff_acrossTags :
    ({} : Settings).check = .ok () ∧
      ∃ t, (Segment.tag t).source ({} : Settings).delimiters = acrossTags ∧
        (TagBehind ({} : Settings).delimiters
            (Markup.scan ({} : Settings).delimiters acrossTags).segments [] t ↔
          (∃ t', TagBehind ({} : Settings).delimiters
            (Markup.scan ({} : Settings).delimiters acrossTags).segments [] t') ∧
          FirstAt ({} : Settings).delimiters.closing
            (t.inside ++ (({} : Settings).delimiters.closing ++ t.newline)) t.inside t.newline) :=
  ⟨by decide, directive_is_tag_iff {} (by decide) acrossTags _ translate_acrossTags [] []
    ⟨acrossTags, "'a')|safe%>kept<%-partial('b'".toList⟩ pieces_acrossTags⟩

/-- A directive may reach over several tags and take the text between them along. -/
theorem not_forall_directive_is_tag :
    ¬ ∀ (c : Settings), c.check = .ok () → ∀ page out,
      Markup.translate c.delimiters page = .ok out →
      ∀ before m after, pieces c.delimiters page = before ++ .directive m :: after →
        ∃ t, TagBehind c.delimiters (Markup.scan c.delimiters page).segments
          (before.flatMap Piece.source) t ∧ (Segment.tag t).source c.delimiters = m.source := by
  intro h
  obtain ⟨t, ⟨left, right, hsegments, -⟩, hsource⟩ :=
    h {} (by decide) _ _ translate_acrossTags _ _ _ pieces_acrossTags
  have hmem : Segment.tag t ∈ (Markup.scan ({} : Settings).delimiters acrossTags).segments := by
    rw [hsegments]
    exact List.mem_append_right left List.mem_cons_self
  rw [segments_acrossTags] at hmem
  simp only [List.mem_cons, Segment.tag.injEq, reduceCtorEq, List.not_mem_nil, or_false,
    false_or] at hmem
  rcases hmem with rfl | rfl <;> revert hsource <;> decide +kernel

end ViewRendering.Partial
