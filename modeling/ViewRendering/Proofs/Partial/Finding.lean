import ViewRendering.Proofs.Partial.Pieces
import ViewRendering.Proofs.Text.Parts

/-!
What the finder of directives finds. The shape of a directive leaves much open: where the
expression ends, how many blanks there are, and whether a dash belongs to the ending. The finder
takes each directive as far to the left as it can begin behind the one before, with the shortest
expression that any ending completes there.
-/
namespace ViewRendering.Partial

open Markup (Delimiters DropsNewline)
open Text (isBlank utf8Size)

variable {d : Delimiters} {s t e r r' : List Char}

/-- Behind a trim marker no more is read than the line end that it drops. -/
theorem afterClosing?_trimmed {newline : List Char} (h : DropsNewline newline r) :
    afterClosing? d ('-' :: (d.closing ++ (newline ++ r))) = some r := by
  have hafter := Text.after?_append ('-' :: d.closing) (newline ++ r)
  rw [List.cons_append] at hafter
  unfold afterClosing?
  rw [hafter]
  exact congrArg (fun p => some p.2) h.cutNewline_eq

theorem afterClosing?_isSome (h : Closes d t r) : (afterClosing? d t).isSome = true := by
  cases h with
  | plain =>
    unfold afterClosing?
    split
    · rfl
    · rw [Text.after?_append]
      rfl
  | trimmed hdrops =>
    rw [afterClosing?_trimmed hdrops]
    rfl

/-- A trim marker is preferred, and so is more text with it. -/
theorem length_le_of_afterClosing? (h : afterClosing? d t = some r) (h' : Closes d t r') :
    r.length ≤ r'.length := by
  cases h' with
  | plain =>
    have hle := (closes_of_afterClosing? h).length_le
    rw [List.length_append] at hle
    exact Nat.le_of_add_le_add_left hle
  | trimmed hdrops =>
    rw [afterClosing?_trimmed hdrops] at h
    cases h
    exact Nat.le_refl _

/-- Where blanks and a closing delimiter stand, an ending is found, though perhaps another one. -/
theorem afterEnding?_isSome {blanks : List Char} (hblanks : isBlank blanks = true)
    (h : (afterClosing? d t).isSome = true) : (afterEnding? d (blanks ++ t)).isSome = true := by
  induction blanks with
  | nil =>
    cases t with
    | nil => exact h
    | cons c t =>
      rw [List.nil_append, afterEnding?]
      split
      · split
        · rfl
        · exact h
      · exact h
  | cons c blanks ih =>
    rw [isBlank, List.all_cons, Bool.and_eq_true] at hblanks
    obtain ⟨hc, hrest⟩ := hblanks
    obtain ⟨r, hr⟩ := Option.isSome_iff_exists.mp (ih hrest)
    rw [List.cons_append, afterEnding?, if_pos hc, hr]
    rfl

/-- No ending behind the same argument reaches further than the one that is found. -/
theorem length_le_of_afterEnding? {blanks : List Char} (hblanks : isBlank blanks = true)
    (h : afterEnding? d (blanks ++ t) = some r) (h' : Closes d t r') : r.length ≤ r'.length := by
  induction blanks with
  | nil =>
    obtain ⟨blanks', t', ht, hspaces, hclosing⟩ := afterEnding?_split h
    rw [List.nil_append] at ht
    cases blanks' with
    | nil => exact length_le_of_afterClosing? (ht ▸ hclosing) h'
    | cons c blanks' =>
      have hle := (closes_of_afterClosing? hclosing).length_le
      have hlength := congrArg List.length ht
      -- behind a blank there is no trim marker, so the later of the two endings reaches further
      cases h' with
      | plain =>
        simp only [List.length_append, List.length_cons] at hlength
        omega
      | trimmed _ =>
        obtain ⟨rfl, -⟩ := List.cons.inj ht
        exact absurd (hspaces '-' List.mem_cons_self) (by decide)
  | cons c blanks ih =>
    rw [isBlank, List.all_cons, Bool.and_eq_true] at hblanks
    obtain ⟨hc, hrest⟩ := hblanks
    rw [List.cons_append, afterEnding?, if_pos hc] at h
    split at h
    · rename_i hfound
      cases h
      exact ih hrest hfound
    · rename_i hnone
      have hsome := afterEnding?_isSome (d := d) hrest (afterClosing?_isSome h')
      rw [hnone] at hsome
      cases hsome

/-- The argument that is read is no longer than any that an ending completes. -/
theorem exists_argument?_le (he : e ≠ []) (hline : '\n' ∉ e)
    (h : (afterEnding? d t).isSome = true) :
    ∃ p, argument? d (e ++ ')' :: t) = some p ∧ p.1.length ≤ e.length := by
  induction e with
  | nil => exact absurd rfl he
  | cons c e ih =>
    have hc : c ≠ '\n' := fun heq => hline (heq ▸ List.mem_cons_self)
    rw [List.cons_append, argument?, if_neg hc]
    cases hargument : afterArgument? d (e ++ ')' :: t) with
    | some r => exact ⟨_, rfl, Nat.succ_le_succ (Nat.zero_le _)⟩
    | none =>
      have hne : e ≠ [] := by
        rintro rfl
        rw [List.nil_append, afterArgument?] at hargument
        rw [hargument] at h
        cases h
      obtain ⟨p, hp, hle⟩ := ih hne fun hmem => hline (List.mem_cons_of_mem c hmem)
      exact ⟨(c :: p.1, p.2), by rw [hp]; rfl, Nat.succ_le_succ hle⟩

/-- In front of its argument a directive can be read in one way only. -/
theorem directiveAt?_append {mode : Char} {blanks : List Char} (hmode : mode = '-' ∨ mode = '=')
    (hblanks : isBlank blanks = true) (argument : List Char) :
    directiveAt? d (d.opening ++ mode :: (blanks ++ ("partial(".toList ++ argument))) =
      argument? d argument := by
  have hword (c : Char) (hc : ("partial(".toList ++ argument).head? = some c) :
      Text.isSpace c = false := by
    cases hc
    decide
  unfold directiveAt?
  rw [Text.after?_append]
  dsimp only
  rw [if_pos hmode, Text.dropWhile_padded (List.all_eq_true.mp hblanks) hword, Text.after?_append]
  rfl

/-- Where a directive could begin, one is found, and its expression is no longer than any that
could stand there. -/
theorem exists_directiveAt?_le (h : Shape d s e r) :
    ∃ p, directiveAt? d s = some p ∧ p.1.length ≤ e.length := by
  cases h with
  | mk hmode hblanks hne hline hblanks' hclose =>
    rw [directiveAt?_append hmode hblanks]
    exact exists_argument?_le hne hline (afterEnding?_isSome hblanks' (afterClosing?_isSome hclose))

/-- The directive at a place has the shortest expression of all that could stand there. -/
theorem length_le_of_directiveAt? {e' : List Char} (h : directiveAt? d s = some (e, r))
    (h' : Shape d s e' r') : e.length ≤ e'.length := by
  obtain ⟨p, hp, hle⟩ := exists_directiveAt?_le h'
  rw [h] at hp
  cases hp
  exact hle

/-- Of all directives at a place that have the same expression, the longest one is found. -/
theorem length_rest_le_of_directiveAt? (h : directiveAt? d s = some (e, r))
    (h' : Shape d s e r') : r.length ≤ r'.length := by
  cases h' with
  | mk hmode hblanks _ _ hblanks' hclose =>
    rw [directiveAt?_append hmode hblanks] at h
    obtain ⟨t, ht, -, -, hending⟩ := argument?_split h
    have hsame := (List.cons.inj (List.append_cancel_left ht)).2
    exact length_le_of_afterEnding? hblanks' (hsame ▸ hending) hclose

theorem mem_placed {n k : Nat} {m : Directive} {ps : List Piece} (h : (k, m) ∈ placed n ps) :
    ∃ before after, ps = before ++ .directive m :: after ∧
      k = n + utf8Size (before.flatMap Piece.source) := by
  induction ps generalizing n with
  | nil => cases h
  | cons p ps ih =>
    cases p with
    | plain c =>
      obtain ⟨before, after, rfl, rfl⟩ := ih h
      refine ⟨.plain c :: before, after, rfl, ?_⟩
      rw [List.flatMap_cons, Piece.source, List.singleton_append, Text.utf8Size_cons, Nat.add_assoc]
    | directive x =>
      rcases List.mem_cons.mp h with heq | h
      · cases heq
        exact ⟨[], ps, rfl, rfl⟩
      · obtain ⟨before, after, rfl, rfl⟩ := ih h
        refine ⟨.directive x :: before, after, rfl, ?_⟩
        rw [List.flatMap_cons, Piece.source, Text.utf8Size_append, Nat.add_assoc]

theorem le_of_mem_placed {n : Nat} {x : Nat × Directive} {ps : List Piece} (h : x ∈ placed n ps) :
    n ≤ x.1 := by
  obtain ⟨before, after, -, hk⟩ := mem_placed h
  omega

/-- Directives come in the order of their places, and none begins before the one in front of it
has ended. -/
theorem placed_increasing (n : Nat) (ps : List Piece) :
    (placed n ps).Pairwise fun a b => a.1 + utf8Size a.2.source ≤ b.1 := by
  induction ps generalizing n with
  | nil => exact List.Pairwise.nil
  | cons p ps ih =>
    cases p with
    | plain c => exact ih _
    | directive m => exact List.pairwise_cons.mpr ⟨fun x hx => le_of_mem_placed hx, ih _⟩

/-- Whatever place a directive could begin at lies within one that is found. -/
theorem exists_placed_of_shape {front text : List Char} (h : Shape d text e r)
    (hs : s = front ++ text) (n : Nat) :
    ∃ k m, (k, m) ∈ placed n (pieces d s) ∧ k ≤ n + utf8Size front ∧
      n + utf8Size front < k + utf8Size m.source := by
  obtain ⟨p, hat, -⟩ := exists_directiveAt?_le h
  fun_induction pieces d s generalizing front n with
  | case1 =>
    have hlt := length_directiveAt?_lt hat
    rw [(List.append_eq_nil_iff.mp hs.symm).2] at hlt
    exact absurd hlt (Nat.not_lt_zero _)
  | case2 c s e' r' hfound ih =>
    obtain ⟨t, hsource, -⟩ := exists_tag_of_directiveAt? hfound
    have hm := take_length_sub_of_append hsource
    rw [hm]
    rw [hsource] at hs
    generalize (Markup.Segment.tag t).source d = source at hs ⊢
    -- the place is inside of this directive, or in the text behind it
    by_cases hinside : front.length < source.length
    · obtain ⟨rest, hrest⟩ : front <+: source :=
        List.prefix_of_prefix_length_le ⟨text, hs.symm⟩ ⟨r', rfl⟩ (Nat.le_of_lt hinside)
      have hne : rest ≠ [] := by
        rintro rfl
        rw [← hrest, List.append_nil] at hinside
        exact absurd hinside (Nat.lt_irrefl _)
      have hpos := Text.utf8Size_pos hne
      refine ⟨n, ⟨source, e'⟩, List.mem_cons_self, Nat.le_add_right n _, ?_⟩
      change n + utf8Size front < n + utf8Size source
      rw [← hrest, Text.utf8Size_append]
      omega
    · obtain ⟨front', rfl⟩ : source <+: front :=
        List.prefix_of_prefix_length_le ⟨r', rfl⟩ ⟨text, hs.symm⟩ (Nat.not_lt.mp hinside)
      rw [List.append_assoc] at hs
      obtain ⟨k, m, hmem, hle, hlt⟩ := ih (List.append_cancel_left hs) (n + utf8Size source)
      rw [Text.utf8Size_append, ← Nat.add_assoc]
      exact ⟨k, m, List.mem_cons_of_mem _ hmem, hle, hlt⟩
  | case3 c s hnone ih =>
    cases front with
    | nil =>
      rw [hs, List.nil_append, hat] at hnone
      cases hnone
    | cons c' front =>
      obtain ⟨rfl, hrest⟩ := List.cons.inj hs
      obtain ⟨k, m, hmem, hle, hlt⟩ := ih hrest (n + c.utf8Size)
      rw [Text.utf8Size_cons, ← Nat.add_assoc]
      exact ⟨k, m, hmem, hle, hlt⟩

/-- The directives that are found come one behind the other. Each stands where it was found and has
the shape of a directive, with the shortest expression that completes such a shape there and, for
this expression, with as much text as its ending can have. Wherever such a shape begins, one of the
directives that are found begins at or before that place and ends behind it, so that none begins
between them or behind the last. -/
theorem directives_leftmost_shortest (d : Delimiters) (s : List Char) :
    (directives d s).Pairwise (fun a b => a.1 + utf8Size a.2.source ≤ b.1) ∧
    (∀ n m, (n, m) ∈ directives d s →
      ∃ front rest, s = front ++ (m.source ++ rest) ∧ n = utf8Size front ∧
        Shape d (m.source ++ rest) m.expression rest ∧
        (∀ e r, Shape d (m.source ++ rest) e r → m.expression.length ≤ e.length) ∧
        ∀ r, Shape d (m.source ++ rest) m.expression r → rest.length ≤ r.length) ∧
    ∀ front text e r, s = front ++ text → Shape d text e r →
      ∃ n m, (n, m) ∈ directives d s ∧ n ≤ utf8Size front ∧
        utf8Size front < n + utf8Size m.source := by
  refine ⟨placed_increasing 0 (pieces d s), ?_, ?_⟩
  · intro n m hmem
    obtain ⟨before, after, hpieces, hn⟩ := mem_placed hmem
    have hat := directiveAt?_of_pieces hpieces
    have hs : s = before.flatMap Piece.source ++ (m.source ++ after.flatMap Piece.source) := by
      rw [← flatMap_source_pieces d s, hpieces, List.flatMap_append, List.flatMap_cons]
      rfl
    rw [Nat.zero_add] at hn
    exact ⟨_, _, hs, hn, shape_of_directiveAt? hat, fun e r h => length_le_of_directiveAt? hat h,
      fun r h => length_rest_le_of_directiveAt? hat h⟩
  · intro front text e r hs h
    obtain ⟨n, m, hmem, hle, hlt⟩ := exists_placed_of_shape h hs 0
    rw [Nat.zero_add] at hle hlt
    exact ⟨n, m, hmem, hle, hlt⟩

/-- Delimiters with special characters. At the first place a longer expression would do as well; the
second directive drops the line end behind its trim marker. -/
theorem directives_leftmost_shortest_brackets :
    let d : Delimiters := ⟨"[?".toList, "?]".toList⟩
    let first : Directive := ⟨"[?- partial('a)?]".toList, "'a".toList⟩
    let second : Directive := ⟨"[?=partial(c ) -?]\r\n".toList, "c ".toList⟩
    let text := "[?- partial('a)?]b [?=partial(c ) -?]\r\n".toList
    let longer := "'a)?]b [?=partial(c ".toList
    directives d ('x' :: text) = [(1, first), (20, second)] ∧ Shape d text longer [] ∧
      (∃ front rest, 'x' :: text = front ++ (first.source ++ rest) ∧ 1 = utf8Size front ∧
        Shape d (first.source ++ rest) first.expression rest) ∧
      ∃ n m, (n, m) ∈ directives d ('x' :: text) ∧ n ≤ 1 ∧ 1 < n + utf8Size m.source := by
  intro d first second text longer
  have hfound : directives d ('x' :: text) = [(1, first), (20, second)] := by decide +kernel
  have hlonger : Shape d text longer [] := by
    have hclose : Closes d "-?]\r\n".toList [] := .trimmed .carriage
    exact @Shape.mk d '-' [' '] longer [' '] _ [] (Or.inl rfl) rfl (by decide) (by decide) rfl
      hclose
  obtain ⟨-, hshapes, hcovered⟩ := directives_leftmost_shortest d ('x' :: text)
  obtain ⟨front, rest, hsource, hplace, hshape, -⟩ :=
    hshapes 1 first (by rw [hfound]; exact List.mem_cons_self)
  exact ⟨hfound, hlonger, ⟨front, rest, hsource, hplace, hshape⟩,
    hcovered ['x'] text longer [] rfl hlonger⟩

end ViewRendering.Partial
