import ViewRendering.Proofs.Partial.Shape

/-!
How a text falls into plain characters and directives. The pieces are the text again, and each
directive is found where it stands. In front of the first opening delimiter there are plain
characters only.
-/
namespace ViewRendering.Partial

open Markup (Delimiters)

def Piece.filled (g : Directive → List Char) : Piece → List Char
  | .plain c => [c]
  | .directive m => g m

def fill (g : Directive → List Char) (ps : List Piece) : List Char := ps.flatMap (Piece.filled g)

variable {d : Delimiters}

theorem pieces_nil (d : Delimiters) : pieces d [] = [] := by
  unfold pieces
  rfl

theorem pieces_of_directiveAt?_none {c : Char} {s : List Char}
    (h : directiveAt? d (c :: s) = none) : pieces d (c :: s) = .plain c :: pieces d s := by
  rw [pieces]
  split
  · rename_i h'
    rw [h] at h'
    cases h'
  · rfl

theorem take_length_sub_of_append {s a b : List Char} (h : s = a ++ b) :
    s.take (s.length - b.length) = a := by
  rw [h, List.length_append, Nat.add_sub_cancel, List.take_left']
  rfl

theorem pieces_of_directiveAt? {a b e : List Char} (h : directiveAt? d (a ++ b) = some (e, b)) :
    pieces d (a ++ b) = .directive ⟨a, e⟩ :: pieces d b := by
  cases a with
  | nil => exact absurd (length_directiveAt?_lt h) (Nat.lt_irrefl _)
  | cons c a =>
    rw [List.cons_append] at h ⊢
    rw [pieces]
    split
    · rename_i h'
      rw [h] at h'
      cases h'
      rw [← List.cons_append, take_length_sub_of_append rfl]
    · rename_i h'
      rw [h] at h'
      cases h'

theorem pieces_of_directiveAt?_some {s e r : List Char} (h : directiveAt? d s = some (e, r)) :
    ∃ m, pieces d s = .directive m :: pieces d r := by
  obtain ⟨t, rfl, -⟩ := exists_tag_of_directiveAt? h
  exact ⟨_, pieces_of_directiveAt? h⟩

theorem flatMap_source_pieces (d : Delimiters) (s : List Char) :
    (pieces d s).flatMap Piece.source = s := by
  fun_induction pieces d s with
  | case1 => rfl
  | case2 c s e r h ih =>
    obtain ⟨t, hs, -⟩ := exists_tag_of_directiveAt? h
    rw [List.flatMap_cons, ih, Piece.source, take_length_sub_of_append hs, ← hs]
  | case3 c s h ih =>
    rw [List.flatMap_cons, ih]
    rfl

/-- Each directive is found at the place where it stands, with its expression. -/
theorem directiveAt?_of_pieces {s : List Char} {before after : List Piece} {m : Directive}
    (h : pieces d s = before ++ .directive m :: after) :
    directiveAt? d (m.source ++ after.flatMap Piece.source) =
      some (m.expression, after.flatMap Piece.source) := by
  fun_induction pieces d s generalizing before with
  | case1 => cases before <;> cases h
  | case2 c s e r hat ih =>
    cases before with
    | nil =>
      obtain ⟨hm, rfl⟩ := List.cons.inj h
      cases hm
      obtain ⟨t, hs, -⟩ := exists_tag_of_directiveAt? hat
      rw [flatMap_source_pieces, take_length_sub_of_append hs, ← hs, hat]
    | cons p before => exact ih (List.cons.inj h).2
  | case3 c s hat ih =>
    cases before with
    | nil => cases h
    | cons p before => exact ih (List.cons.inj h).2

theorem flatMap_source_plain (s : List Char) :
    (s.map Piece.plain).flatMap Piece.source = s := by
  induction s with
  | nil => rfl
  | cons c s ih => exact congrArg (c :: ·) ih

theorem fill_append (g : Directive → List Char) (ps qs : List Piece) :
    fill g (ps ++ qs) = fill g ps ++ fill g qs := List.flatMap_append

theorem fill_congr {g g' : Directive → List Char} {ps : List Piece}
    (h : ∀ m, .directive m ∈ ps → g m = g' m) : fill g ps = fill g' ps := by
  apply List.flatMap_congr
  intro p hp
  cases p with
  | plain c => rfl
  | directive m => exact h m hp

theorem fill_plain (g : Directive → List Char) (s : List Char) : fill g (s.map .plain) = s := by
  induction s with
  | nil => rfl
  | cons c s ih => exact congrArg (c :: ·) ih

/-- The pieces behind the first one are the pieces of the text behind it. -/
theorem pieces_tail {s : List Char} {p : Piece} {ps : List Piece} (h : pieces d s = p :: ps) :
    pieces d (ps.flatMap Piece.source) = ps := by
  cases s with
  | nil =>
    rw [pieces_nil] at h
    cases h
  | cons c s =>
    rw [pieces] at h
    split at h <;> rw [← (List.cons.inj h).2, flatMap_source_pieces]

/-- No piece is an empty text. -/
theorem source_ne_nil_of_mem_pieces {s : List Char} {p : Piece} (h : p ∈ pieces d s) :
    p.source ≠ [] := by
  cases p with
  | plain c => exact List.cons_ne_nil c []
  | directive m =>
    obtain ⟨before, after, hpieces⟩ := List.append_of_mem h
    have hlt := length_directiveAt?_lt (directiveAt?_of_pieces hpieces)
    intro hnil
    change m.source = [] at hnil
    rw [hnil] at hlt
    exact absurd hlt (Nat.lt_irrefl _)

/-- The pieces of a text behind a front in which no directive begins. -/
theorem pieces_append_of_none {a b : List Char}
    (h : ∀ before m after, pieces d (a ++ b) = before ++ .directive m :: after →
      a.length ≤ (before.flatMap Piece.source).length) :
    pieces d (a ++ b) = a.map .plain ++ pieces d b := by
  induction a with
  | nil => rfl
  | cons c a ih =>
    have hat : directiveAt? d (c :: (a ++ b)) = none := by
      cases hat : directiveAt? d (c :: (a ++ b)) with
      | none => rfl
      | some p =>
        obtain ⟨m, hm⟩ := pieces_of_directiveAt?_some hat
        exact absurd (h [] m (pieces d p.2) hm) (Nat.not_succ_le_zero _)
    rw [List.cons_append, pieces_of_directiveAt?_none hat] at h ⊢
    rw [ih, List.map_cons, List.cons_append]
    intro before m after hm
    have hle := h (.plain c :: before) m after (by rw [hm, List.cons_append])
    exact Nat.le_of_succ_le_succ hle

theorem directiveAt?_of_not_prefix {s : List Char} (h : ¬ d.opening <+: s) :
    directiveAt? d s = none := by
  have hafter : Text.after? d.opening s = none := by
    rw [Text.after?_eq_none_iff]
    rintro b rfl
    exact h (List.prefix_append d.opening b)
  unfold directiveAt?
  rw [hafter]

/-- Without an opening delimiter there is no directive. -/
theorem pieces_of_not_infix {s : List Char} (h : ¬ d.opening <:+: s) :
    pieces d s = s.map .plain := by
  induction s with
  | nil => exact pieces_nil d
  | cons c s ih =>
    have hat : directiveAt? d (c :: s) = none :=
      directiveAt?_of_not_prefix fun hprefix => h hprefix.isInfix
    rw [pieces_of_directiveAt?_none hat, ih fun hinfix => h (List.infix_cons hinfix), List.map_cons]

/-- In front of the first opening delimiter there is no directive. -/
theorem pieces_of_firstAt {s before rest : List Char} (h : Text.FirstAt d.opening s before rest) :
    pieces d s = before.map .plain ++ pieces d (d.opening ++ rest) := by
  obtain ⟨rfl, hfirst⟩ := h
  induction before with
  | nil => rfl
  | cons c before ih =>
    have hat : directiveAt? d (c :: (before ++ (d.opening ++ rest))) = none := by
      apply directiveAt?_of_not_prefix
      rintro ⟨b, hb⟩
      have hle := hfirst [] b hb.symm
      simp at hle
    rw [List.cons_append, pieces_of_directiveAt?_none hat, ih, List.map_cons, List.cons_append]
    intro a b hab
    have hle := hfirst (c :: a) b (by rw [List.cons_append, hab, List.cons_append])
    exact Nat.le_of_succ_le_succ hle

/-- An expansion has a text in place of each directive. -/
theorem Surroundings.expandWith_eq_fill (e : Surroundings)
    (nested : List String → List Char → List Char × Journal) (chain : List String)
    (text : List Char) :
    (e.expandWith nested chain text).1 =
      fill (fun m => (e.expandPiece nested chain (.directive m)).1)
        (pieces e.settings.delimiters text) := by
  unfold expandWith gather fill
  rw [List.flatMap_map]
  apply List.flatMap_congr
  intro p _
  cases p with
  | plain c => rfl
  | directive m => rfl

/-- A text without directives is its own expansion. -/
theorem Surroundings.expand_of_plain {e : Surroundings} {text : List Char}
    (h : pieces e.settings.delimiters text = text.map .plain) : e.expand text = (text, []) := by
  change e.expandWith _ [] text = (text, [])
  unfold expandWith gather
  rw [h, List.map_map, List.flatMap_map, List.flatMap_map]
  simp [expandPiece]

end ViewRendering.Partial
