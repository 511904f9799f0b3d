import ViewRendering.Proofs.Partial.Finding
import ViewRendering.Proofs.Partial.Recursion

/-!
Texts put together. Where the directives of two texts are those of the texts put together, in their
places, so are the expansions. Each piece of a text is found again when it stands alone; so the
characters outside of directives stay as they are, and a directive is replaced by what it would
become without the text around it.
-/
namespace ViewRendering.Partial

open Markup (Delimiters dropsNewline_cutNewline)
open Text (utf8Size)

variable {d : Delimiters} {a b c s t e r : List Char} {x : Char}

/-- An ending does not need the end of the text behind it. -/
theorem Closes.of_append (h : Closes d t (a ++ b)) : ∃ t', t = t' ++ b ∧ Closes d t' a := by
  cases h with
  | plain => exact ⟨d.closing ++ a, (List.append_assoc ..).symm, .plain⟩
  | @trimmed newline _ hdrops =>
    refine ⟨'-' :: (d.closing ++ (newline ++ a)), ?_, .trimmed hdrops.of_append⟩
    rw [List.cons_append, List.append_assoc, List.append_assoc]

/-- In front of more text an ending is still one, but it may drop a line end that begins there. -/
theorem Closes.append (h : Closes d t r) (b : List Char) :
    ∃ r', Closes d (t ++ b) r' ∧ r'.length ≤ (r ++ b).length := by
  cases h with
  | plain =>
    rw [List.append_assoc]
    exact ⟨r ++ b, .plain, Nat.le_refl _⟩
  | @trimmed newline _ hdrops =>
    rw [List.cons_append, List.append_assoc, List.append_assoc]
    cases hdrops with
    | newline => exact ⟨r ++ b, .trimmed .newline, Nat.le_refl _⟩
    | carriage => exact ⟨r ++ b, .trimmed .carriage, Nat.le_refl _⟩
    | none =>
      have hclose := Closes.trimmed (d := d) (dropsNewline_cutNewline (r ++ b))
      rw [← Markup.eq_append_cutNewline] at hclose
      exact ⟨_, hclose, length_cutNewline_le (r ++ b)⟩

theorem Shape.of_append (h : Shape d s e (a ++ b)) : ∃ s', s = s' ++ b ∧ Shape d s' e a := by
  cases h with
  | mk hmode hblanks hne hline hblanks' hclose =>
    obtain ⟨ending, rfl, hending⟩ := hclose.of_append
    refine ⟨_, ?_, .mk hmode hblanks hne hline hblanks' hending⟩
    simp only [List.append_assoc, List.cons_append]

theorem Shape.append (h : Shape d s e r) (b : List Char) :
    ∃ r', Shape d (s ++ b) e r' ∧ r'.length ≤ (r ++ b).length := by
  cases h with
  | mk hmode hblanks hne hline hblanks' hclose =>
    obtain ⟨r', hending, hle⟩ := hclose.append b
    refine ⟨r', ?_, hle⟩
    have hshape := Shape.mk hmode hblanks hne hline hblanks' hending
    simpa only [List.append_assoc, List.cons_append] using hshape

/-- The expression that is found is known by its length. -/
theorem expression_eq_of_length {e' r' : List Char} (h : directiveAt? d s = some (e, r))
    (h' : Shape d s e' r') (hlength : e.length = e'.length) : e = e' := by
  cases h' with
  | mk hmode hblanks _ _ _ _ =>
    rw [directiveAt?_append hmode hblanks] at h
    obtain ⟨t, ht, -⟩ := argument?_split h
    exact (List.append_inj_left ht hlength.symm).symm

/-- A directive is found alike when the end of the text behind it is cut off. -/
theorem directiveAt?_of_append (h : directiveAt? d (a ++ (b ++ c)) = some (e, b ++ c)) :
    directiveAt? d (a ++ b) = some (e, b) := by
  obtain ⟨s, hs, hshape⟩ := (shape_of_directiveAt? h).of_append
  rw [← List.append_assoc] at h hs
  obtain rfl := List.append_cancel_right hs
  obtain ⟨⟨e', r⟩, hfound, hle⟩ := exists_directiveAt?_le hshape
  obtain ⟨r', hlonger, hrest⟩ := (shape_of_directiveAt? hfound).append c
  -- what can be read in front of less text can be read in front of more: nothing shorter is found
  have hge := length_le_of_directiveAt? h hlonger
  have hexpression : e' = e := expression_eq_of_length hfound hshape (Nat.le_antisymm hle hge)
  subst hexpression
  have hupper := length_rest_le_of_directiveAt? hfound hshape
  have hlower := Nat.le_trans (length_rest_le_of_directiveAt? h hlonger) hrest
  rw [List.length_append, List.length_append] at hlower
  obtain ⟨tag, htag, -⟩ := exists_tag_of_directiveAt? hfound
  have hlength : b.length = r.length := Nat.le_antisymm (Nat.le_of_add_le_add_right hlower) hupper
  rw [hfound, (List.append_inj' htag hlength).2]

/-- Nor does one come about by cutting. -/
theorem directiveAt?_none_of_append (h : directiveAt? d (a ++ b) = none) :
    directiveAt? d a = none := by
  cases hat : directiveAt? d a with
  | none => rfl
  | some p =>
    obtain ⟨r, hshape, -⟩ := (shape_of_directiveAt? hat).append b
    obtain ⟨q, hq, -⟩ := exists_directiveAt?_le hshape
    rw [h] at hq
    cases hq

/-- No directive begins at a plain character. -/
theorem directiveAt?_of_pieces_plain {ps : List Piece} (h : pieces d s = .plain x :: ps) :
    directiveAt? d (x :: ps.flatMap Piece.source) = none := by
  have hs := flatMap_source_pieces d s
  rw [h, List.flatMap_cons, Piece.source, List.singleton_append] at hs
  subst hs
  cases hat : directiveAt? d (x :: ps.flatMap Piece.source) with
  | none => rfl
  | some p =>
    obtain ⟨m, hm⟩ := pieces_of_directiveAt?_some hat
    rw [h] at hm
    cases hm

/-- The first pieces of a text are the pieces of the text in front. -/
theorem pieces_front {ps qs : List Piece} (h : pieces d s = ps ++ qs) :
    pieces d (ps.flatMap Piece.source) = ps := by
  induction ps generalizing s with
  | nil => exact pieces_nil d
  | cons p ps ih =>
    rw [List.cons_append] at h
    have hrest := ih (pieces_tail h)
    cases p with
    | plain x =>
      have hnone := directiveAt?_of_pieces_plain h
      rw [List.flatMap_append, ← List.cons_append] at hnone
      rw [List.flatMap_cons, Piece.source, List.singleton_append,
        pieces_of_directiveAt?_none (directiveAt?_none_of_append hnone), hrest]
    | directive m =>
      have hfirst : pieces d s = [] ++ .directive m :: (ps ++ qs) := h
      have hat := directiveAt?_of_pieces hfirst
      rw [List.flatMap_append] at hat
      rw [List.flatMap_cons, Piece.source, pieces_of_directiveAt? (directiveAt?_of_append hat),
        hrest]

/-- The last pieces of a text are the pieces of the text behind. -/
theorem pieces_behind {ps qs : List Piece} (h : pieces d s = ps ++ qs) :
    pieces d (qs.flatMap Piece.source) = qs := by
  induction ps generalizing s with
  | nil =>
    rw [List.nil_append] at h
    rw [← h, flatMap_source_pieces]
  | cons p ps ih => exact ih (pieces_tail h)

/-- A piece of a text is the only piece of its own text. -/
theorem pieces_source_of_mem {p : Piece} (h : p ∈ pieces d s) : pieces d p.source = [p] := by
  obtain ⟨before, after, hpieces⟩ := List.append_of_mem h
  have hfront : pieces d ([p].flatMap Piece.source) = [p] := pieces_front (pieces_behind hpieces)
  rwa [List.flatMap_singleton] at hfront

theorem placed_append (n : Nat) (ps qs : List Piece) :
    placed n (ps ++ qs) = placed n ps ++ placed (n + utf8Size (ps.flatMap Piece.source)) qs := by
  induction ps generalizing n with
  | nil => rfl
  | cons p ps ih =>
    cases p with
    | plain x =>
      rw [List.flatMap_cons, Piece.source, List.singleton_append, Text.utf8Size_cons,
        ← Nat.add_assoc]
      exact ih (n + x.utf8Size)
    | directive m =>
      rw [List.flatMap_cons, Piece.source, Text.utf8Size_append, ← Nat.add_assoc]
      exact congrArg ((n, m) :: ·) (ih (n + utf8Size m.source))

theorem placed_add (k n : Nat) (ps : List Piece) :
    placed (k + n) ps = (placed n ps).map fun x => (k + x.1, x.2) := by
  induction ps generalizing n with
  | nil => rfl
  | cons p ps ih =>
    cases p with
    | plain x =>
      rw [placed, placed, Nat.add_assoc]
      exact ih (n + x.utf8Size)
    | directive m =>
      rw [placed, placed, Nat.add_assoc, ih, List.map_cons]

/-- A place behind a character is none in front of it. -/
theorem placed_ne_cons (n : Nat) (ps : List Piece) (m : Directive) (rest : List (Nat × Directive)) :
    placed (n + x.utf8Size) ps ≠ (n, m) :: rest := by
  intro h
  have hle := le_of_mem_placed (h ▸ List.mem_cons_self : (n, m) ∈ placed (n + x.utf8Size) ps)
  have hpos := x.utf8Size_pos
  omega

/-- Pieces are known by their text and the directives in their places. -/
theorem eq_of_placed {n : Nat} {ps qs : List Piece}
    (hsource : ps.flatMap Piece.source = qs.flatMap Piece.source)
    (hplaced : placed n ps = placed n qs) : ps = qs := by
  induction ps generalizing n qs with
  | nil =>
    cases qs with
    | nil => rfl
    | cons q qs =>
      cases q with
      | plain y => cases hsource
      | directive m => cases hplaced
  | cons p ps ih =>
    cases qs with
    | nil =>
      cases p with
      | plain x => cases hsource
      | directive m => cases hplaced
    | cons q qs =>
      cases p with
      | plain x =>
        cases q with
        | plain y =>
          obtain ⟨rfl, hrest⟩ := List.cons.inj hsource
          rw [ih hrest hplaced]
        | directive m => exact absurd hplaced (placed_ne_cons n ps m _)
      | directive m =>
        cases q with
        | plain y => exact absurd hplaced.symm (placed_ne_cons n qs m _)
        | directive m' =>
          obtain ⟨heq, hrest⟩ := List.cons.inj hplaced
          cases heq
          rw [ih (List.append_cancel_left hsource) hrest]

/-- Where the directives of two texts are those of the texts put together, so are the pieces. -/
theorem pieces_append (h : directives d (a ++ b) =
      directives d a ++ (directives d b).map fun x => (utf8Size a + x.1, x.2)) :
    pieces d (a ++ b) = pieces d a ++ pieces d b := by
  have hplaces : placed 0 (pieces d a ++ pieces d b) =
      directives d a ++ (directives d b).map fun x => (utf8Size a + x.1, x.2) := by
    rw [placed_append, flatMap_source_pieces, Nat.zero_add]
    exact congrArg (directives d a ++ ·) (placed_add (utf8Size a) 0 (pieces d b))
  refine eq_of_placed ?_ (h.trans hplaces.symm)
  rw [List.flatMap_append]
  simp only [flatMap_source_pieces]

namespace Surroundings

theorem gather_append (ps qs : List (List Char × Journal)) :
    gather (ps ++ qs) = ((gather ps).1 ++ (gather qs).1, (gather ps).2 ++ (gather qs).2) := by
  simp only [gather, List.flatMap_append]

theorem exists_expandWith (e : Surroundings) (levels : Nat) :
    ∃ nested, e.expandBelow levels = e.expandWith nested := by
  cases levels with
  | zero => exact ⟨_, rfl⟩
  | succ levels => exact ⟨_, rfl⟩

/-- The text of a piece alone becomes what the piece becomes among others. -/
theorem expandWith_source (e : Surroundings)
    (nested : List String → List Char → List Char × Journal) (chain : List String)
    {text : List Char} {p : Piece} (h : p ∈ pieces e.settings.delimiters text) :
    e.expandWith nested chain p.source = e.expandPiece nested chain p := by
  unfold expandWith
  rw [pieces_source_of_mem h, List.map_singleton, gather_cons]
  simp only [gather, List.flatMap_nil, List.append_nil]

/-- An expansion is made of what the directives become alone, with the characters outside of them
in between. -/
theorem expandBelow_eq_fill (e : Surroundings) (levels : Nat) (chain : List String)
    (text : List Char) :
    (e.expandBelow levels chain text).1 =
      fill (fun m => (e.expandBelow levels chain m.source).1)
        (pieces e.settings.delimiters text) := by
  obtain ⟨nested, hnested⟩ := e.exists_expandWith levels
  rw [hnested, expandWith_eq_fill]
  apply fill_congr
  intro m hm
  rw [← expandWith_source e nested chain hm]
  rfl

/-- Below any chain and with any number of levels to go an expansion keeps texts apart: where the
directives of two texts are those of the texts put together, their expansions are put together as
well, and so are the journals. The characters outside of directives stay where they are, and a
directive becomes what it becomes without the text around it. -/
theorem expandBelow_append (e : Surroundings) (levels : Nat) (chain : List String) :
    (∀ a b : List Char,
      directives e.settings.delimiters (a ++ b) =
        directives e.settings.delimiters a ++
          (directives e.settings.delimiters b).map (fun x => (utf8Size a + x.1, x.2)) →
      e.expandBelow levels chain (a ++ b) =
        ((e.expandBelow levels chain a).1 ++ (e.expandBelow levels chain b).1,
          (e.expandBelow levels chain a).2 ++ (e.expandBelow levels chain b).2)) ∧
    ∀ text : List Char,
      (pieces e.settings.delimiters text).flatMap Piece.source = text ∧
      (e.expandBelow levels chain text).1 =
        fill (fun m => (e.expandBelow levels chain m.source).1)
          (pieces e.settings.delimiters text) := by
  refine ⟨fun a b h => ?_, fun text =>
    ⟨flatMap_source_pieces _ text, e.expandBelow_eq_fill levels chain text⟩⟩
  obtain ⟨nested, hnested⟩ := e.exists_expandWith levels
  rw [hnested]
  unfold expandWith
  rw [pieces_append h, List.map_append, gather_append]

def single : Surroundings where
  settings := {}
  files := .ofKnown [("views/a", .ok [0x61])]
  view := "index"
  locals := []

/-- Directives for a missing file, for the partial, and without an expression that has a value. -/
theorem expandBelow_append_skipping :
    let front := "1<%-partial('m')%>2<%-partial('a')%>".toList
    let back := "3<%=partial(zz)-%>\n4<%-partial('a')%>5".toList
    directives single.settings.delimiters (front ++ back) =
        directives single.settings.delimiters front ++
          (directives single.settings.delimiters back).map (fun x => (utf8Size front + x.1, x.2)) ∧
      (single.expandBelow depthLimit [] (front ++ back)).1 = "12a34a5".toList := by
  intro front back
  have hdirectives : directives single.settings.delimiters (front ++ back) =
      directives single.settings.delimiters front ++
        (directives single.settings.delimiters back).map
          (fun x => (utf8Size front + x.1, x.2)) := by
    decide +kernel
  have hfront : (single.expandBelow depthLimit [] front).1 = "12a".toList := by decide +kernel
  have hback : (single.expandBelow depthLimit [] back).1 = "34a5".toList := by decide +kernel
  refine ⟨hdirectives, ?_⟩
  rw [(single.expandBelow_append depthLimit []).1 front back hdirectives, hfront, hback]
  rfl

end Surroundings

end ViewRendering.Partial
