import ViewRendering.Proofs.Markup.Halting
import ViewRendering.Proofs.Partial.TagAgreement

/-!
Pages with a tag that is never closed, and directives above it. Where the directives are tags
of the page, a text without such a tag takes the place of each, and no opening delimiter forms
at the borders, the tag is still the one that is never closed, and the same text is left open.
Its line is another one by the line ends that come and go with the directives.
-/
namespace ViewRendering.Partial

open Markup (Delimiters Segment Tag Halts Inline LeftOpen Closed source_append_tagBefore tagBefore)
open Text (Straddles lineEnds)

def Tagwise (d : Delimiters) (page : List Char) (segments : List Segment) : Prop :=
  ∀ before m after, pieces d page = before ++ .directive m :: after →
    ∃ t, TagBehind d segments (before.flatMap Piece.source) t ∧ (Segment.tag t).source d = m.source

/-- No opening delimiter begins on one side of a border of a text that takes the place of a
directive and ends on the other. -/
def Seamless (d : Delimiters) (g : Directive → List Char) (ps : List Piece) : Prop :=
  ∀ before m after, ps = before ++ .directive m :: after →
    ¬ Straddles d.opening (fill g before) (g m ++ fill g after) ∧
      ¬ Straddles d.opening (fill g before ++ g m) (fill g after)

def directiveLines (g : Directive → List Char) : List Piece → Nat
  | [] => 0
  | .plain _ :: ps => directiveLines g ps
  | .directive m :: ps => lineEnds (g m) + directiveLines g ps

variable {d : Delimiters} {g : Directive → List Char}

theorem directiveLines_plain (g : Directive → List Char) (s : List Char) :
    directiveLines g (s.map .plain) = 0 := by
  induction s with
  | nil => rfl
  | cons c s ih => exact ih

/-- Line ends come and go with the directives only. -/
theorem lineEnds_fill (g : Directive → List Char) (ps : List Piece) :
    lineEnds (fill g ps) + directiveLines Directive.source ps =
      lineEnds (ps.flatMap Piece.source) + directiveLines g ps := by
  induction ps with
  | nil => rfl
  | cons p ps ih =>
    cases p with
    | plain c =>
      have hfill : fill g (.plain c :: ps) = [c] ++ fill g ps := rfl
      have hsource : (Piece.plain c :: ps).flatMap Piece.source =
        [c] ++ ps.flatMap Piece.source := rfl
      rw [hfill, hsource, Text.lineEnds_append, Text.lineEnds_append, directiveLines,
        directiveLines]
      omega
    | directive m =>
      have hfill : fill g (.directive m :: ps) = g m ++ fill g ps := rfl
      have hsource : (Piece.directive m :: ps).flatMap Piece.source =
        m.source ++ ps.flatMap Piece.source := rfl
      rw [hfill, hsource, Text.lineEnds_append, Text.lineEnds_append, directiveLines,
        directiveLines]
      omega

theorem Seamless.of_append {ps qs : List Piece} (h : Seamless d g (ps ++ qs)) :
    Seamless d g qs := by
  rintro before m after rfl
  obtain ⟨hleft, hright⟩ := h (ps ++ before) m after (List.append_assoc ..).symm
  rw [fill_append] at hleft hright
  rw [List.append_assoc] at hright
  exact ⟨fun hs => hleft (hs.prepend _), fun hs => hright (hs.prepend _)⟩

theorem Seamless.of_cons {p : Piece} {ps : List Piece} (h : Seamless d g (p :: ps)) :
    Seamless d g ps :=
  have happend : Seamless d g ([p] ++ ps) := h
  happend.of_append

/-- A directive in front of plain characters is the only one. -/
theorem eq_of_directive_plain {m m' : Directive} {s : List Char} {before after : List Piece}
    (h : .directive m :: s.map .plain = before ++ .directive m' :: after) :
    before = [] ∧ m' = m ∧ after = s.map .plain := by
  cases before with
  | nil =>
    obtain ⟨hm, hafter⟩ := List.cons.inj h
    exact ⟨rfl, (Piece.directive.inj hm).symm, hafter.symm⟩
  | cons p before =>
    have hmem : Piece.directive m' ∈ s.map Piece.plain :=
      (List.cons.inj h).2 ▸ List.mem_append_right before List.mem_cons_self
    obtain ⟨c, -, hc⟩ := List.mem_map.mp hmem
    cases hc

namespace Tagwise

variable {lit page : List Char} {seg : Segment} {segments : List Segment}

/-- The literal text in front has no directives. -/
theorem pieces_literal
    (h : Tagwise d (lit ++ (seg.source d ++ page)) (.literal lit :: seg :: segments)) :
    pieces d (lit ++ (seg.source d ++ page)) =
      lit.map .plain ++ pieces d (seg.source d ++ page) := by
  apply pieces_append_of_none
  intro before m after hm
  obtain ⟨t, ht, -⟩ := h before m after hm
  rcases tagBehind_cases ht with ⟨hfront, -⟩ | ⟨front, hfront, -⟩
  · rw [hfront]
  · rw [hfront, List.length_append]
    exact Nat.le_add_right _ _

/-- Behind the literal text a directive is the segment that begins there, or a tag behind it. -/
theorem place (h : Tagwise d (lit ++ (seg.source d ++ page)) (.literal lit :: seg :: segments))
    (before : List Piece) (m : Directive) (after : List Piece)
    (hm : pieces d (seg.source d ++ page) = before ++ .directive m :: after) :
    ∃ t, (Segment.tag t).source d = m.source ∧
      ((before = [] ∧ seg = .tag t) ∨
        ∃ front, before.flatMap Piece.source = seg.source d ++ front ∧
          TagBehind d segments front t) := by
  obtain ⟨t, ht, hsource⟩ := h (lit.map .plain ++ before) m after
    (by rw [h.pieces_literal, hm, List.append_assoc])
  rw [List.flatMap_append, flatMap_source_plain] at ht
  refine ⟨t, hsource, ?_⟩
  rcases tagBehind_cases ht with ⟨hfront, hseg⟩ | ⟨front, hfront, ht⟩
  · left
    have hnil := List.append_right_eq_self.mp hfront
    refine ⟨?_, hseg⟩
    cases before with
    | nil => rfl
    | cons p before =>
      have hmem : p ∈ pieces d (seg.source d ++ page) := by
        rw [hm]
        exact List.mem_cons_self
      have hp := source_ne_nil_of_mem_pieces hmem
      exact absurd (List.append_eq_nil_iff.mp hnil).1 hp
  · exact Or.inr ⟨front, List.append_cancel_left hfront, ht⟩

/-- Where the segment is read piece by piece, the directives behind it are tags as well. -/
theorem behind (h : Tagwise d (lit ++ (seg.source d ++ page)) (.literal lit :: seg :: segments))
    (hseg : seg.source d ≠ []) {front : List Piece}
    (hfront : front.flatMap Piece.source = seg.source d)
    (hpieces : pieces d (seg.source d ++ page) = front ++ pieces d page) :
    Tagwise d page segments := by
  intro before m after hm
  obtain ⟨t, ht, hcases⟩ := h.place (front ++ before) m after
    (by rw [hpieces, hm, List.append_assoc])
  rw [List.flatMap_append, hfront] at hcases
  rcases hcases with ⟨hnil, -⟩ | ⟨rest, hrest, htag⟩
  · rw [(List.append_eq_nil_iff.mp hnil).1] at hfront
    exact absurd hfront.symm hseg
  · rw [List.append_cancel_left hrest]
    exact ⟨t, htag, ht⟩

/-- How a page begins whose directives are tags: with the characters of the first two segments, or
with a directive that is the second. -/
theorem begins (h : Tagwise d (lit ++ (seg.source d ++ page)) (.literal lit :: seg :: segments))
    (hseg : seg.source d ≠ []) :
    Tagwise d page segments ∧
      (pieces d (lit ++ (seg.source d ++ page)) =
          (lit ++ seg.source d).map .plain ++ pieces d page ∨
        ∃ t m, seg = .tag t ∧
          pieces d (lit ++ (seg.source d ++ page)) =
            lit.map .plain ++ .directive m :: pieces d page) := by
  rw [h.pieces_literal]
  have hsource := flatMap_source_pieces d (seg.source d ++ page)
  cases hpieces : pieces d (seg.source d ++ page) with
  | nil =>
    rw [hpieces] at hsource
    exact absurd (List.append_eq_nil_iff.mp hsource.symm).1 hseg
  | cons p ps =>
    cases p with
    | directive m =>
      obtain ⟨t, ht, ⟨-, rfl⟩ | ⟨front, hfront, -⟩⟩ := h.place [] m ps hpieces
      · have hpage : ps.flatMap Piece.source = page := by
          rw [hpieces, List.flatMap_cons, ht] at hsource
          exact List.append_cancel_left hsource
        have hps := pieces_tail hpieces
        rw [hpage] at hps
        rw [← hps] at hpieces ⊢
        have hfront : [Piece.directive m].flatMap Piece.source = (Segment.tag t).source d := by
          rw [List.flatMap_singleton]
          exact ht.symm
        exact ⟨h.behind hseg hfront hpieces, Or.inr ⟨t, m, rfl, rfl⟩⟩
      · exact absurd (List.append_eq_nil_iff.mp hfront.symm).1 hseg
    | plain c =>
      have hplain : pieces d (seg.source d ++ page) =
          (seg.source d).map .plain ++ pieces d page := by
        apply pieces_append_of_none
        intro before m after hm
        obtain ⟨t, -, ⟨rfl, -⟩ | ⟨front, hfront, -⟩⟩ := h.place before m after hm
        · rw [hpieces] at hm
          cases hm
        · rw [hfront, List.length_append]
          exact Nat.le_add_right _ _
      refine ⟨h.behind hseg (flatMap_source_plain _) hplain, Or.inl ?_⟩
      rw [← hpieces, hplain, List.map_append, List.append_assoc]

end Tagwise

/-- A tag that is left open in a page is left open when texts take the place of the directives. -/
theorem leftOpen_fill (hd : Inline d) {page tail : List Char} {segments : List Segment}
    (h : Halts d page segments tail) (htags : Tagwise d page segments)
    (hclosed : ∀ m, .directive m ∈ pieces d page → Closed d (g m))
    (hseams : Seamless d g (pieces d page)) : LeftOpen d (fill g (pieces d page)) tail := by
  -- the reading of the page before the texts are put in; a directive is one of its tags
  induction h with
  | @unclosed page before rest hfirst hpercent hclose =>
    have hplain : pieces d (page ++ []) = page.map .plain ++ pieces d [] := by
      apply pieces_append_of_none
      intro front m after hm
      rw [List.append_nil] at hm
      obtain ⟨t, ht, -⟩ := htags front m after hm
      exact absurd ht (not_tagBehind_literal before _ t)
    rw [List.append_nil, pieces_nil, List.append_nil] at hplain
    rw [hplain, fill_plain]
    exact ⟨_, .unclosed hfirst hpercent hclose⟩
  | @escaped page before rest tail segments hfirst _ ih =>
    have hpage : page = before ++ (Segment.escapedOpening.source d ++ rest) := by
      rw [hfirst.split]
      simp [Segment.source]
    subst hpage
    obtain ⟨hrest, hplain | ⟨t, m, hseg, -⟩⟩ := htags.begins (by simp [Segment.source])
    · rw [hplain] at hclosed hseams ⊢
      rw [fill_append, fill_plain, List.append_assoc]
      have hopen := ih hrest (fun m hm => hclosed m (List.mem_append_right _ hm)) hseams.of_append
      simpa [Segment.source] using hopen.escaped hfirst
    · cases hseg
  | @tag page before rest inside after tail segments hfirst hpercent hclose _ ih =>
    have hpage : page = before ++ ((Segment.tag (tagBefore inside after).1).source d ++
        (tagBefore inside after).2) := by
      rw [source_append_tagBefore, ← hclose.split]
      exact hfirst.split
    have hsource : (Segment.tag (tagBefore inside after).1).source d ≠ [] := by
      simp [Segment.source, hd.opening]
    rw [hpage] at htags hclosed hseams ⊢
    obtain ⟨hrest, hplain | ⟨t, m, -, hdirective⟩⟩ := htags.begins hsource
    · rw [hplain] at hclosed hseams ⊢
      rw [fill_append, fill_plain, List.append_assoc]
      have hopen := ih hrest (fun m hm => hclosed m (List.mem_append_right _ hm)) hseams.of_append
      exact hopen.tag hd hfirst hpercent hclose
    · rw [hdirective] at hclosed hseams ⊢
      obtain ⟨hleft, hright⟩ := hseams _ m _ rfl
      rw [fill_plain] at hleft hright
      have hopen := ih hrest
        (fun m hm => hclosed m (List.mem_append_right _ (List.mem_cons_of_mem _ hm)))
        hseams.of_append.of_cons
      have hfilled := (hopen.prepend_closed hd
        (hclosed m (List.mem_append_right _ List.mem_cons_self))
        (fun hs => hright (hs.prepend before))).prepend
          (hfirst.not_infix_before hd.opening) hleft
      rwa [fill_append, fill_plain]

namespace Surroundings

/-- The text that a directive of the view contributes to its page: that of the partial with its own
partials in place, or none. -/
def contribution (e : Surroundings) (m : Directive) : List Char :=
  match e.decide [] m.expression with
  | .error _ => []
  | .ok i => (e.expandBelow (depthLimit - 1) [i.name] i.text).1

theorem expand_eq_fill (e : Surroundings) (text : List Char) :
    (e.expand text).1 = fill e.contribution (pieces e.settings.delimiters text) := by
  change (e.expandWith (e.expandBelow (depthLimit - 1)) [] text).1 = _
  rw [expandWith_eq_fill]
  apply fill_congr
  intro m _
  simp only [expandPiece, contribution]
  cases e.decide [] m.expression <;> rfl

end Surroundings

end ViewRendering.Partial
