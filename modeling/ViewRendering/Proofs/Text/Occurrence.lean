import ViewRendering.Text.Scan
import Mathlib.Data.List.Infix
import Mathlib.Tactic.Common

/-!
Occurrences of a mark in a text. A cut at a mark is the decomposition of the text at
the place where the mark occurs first, and there is no cut exactly when the mark does
not occur. Exchanging a mark takes its occurrences from the left. Where two texts are put
together, a mark may begin in the one and end in the other.
-/
namespace ViewRendering.Text

/-- The text decomposes at an occurrence of `mark`, and no occurrence starts earlier. -/
structure FirstAt (mark s before after : List Char) : Prop where
  split : s = before ++ (mark ++ after)
  first : ∀ a b, s = a ++ (mark ++ b) → before.length ≤ a.length

theorem FirstAt.unique {mark s a b a' b' : List Char} (h : FirstAt mark s a b)
    (h' : FirstAt mark s a' b') : a = a' ∧ b = b' := by
  have hlength : a.length = a'.length :=
    Nat.le_antisymm (h.first a' b' h'.split) (h'.first a b h.split)
  have heq : a ++ (mark ++ b) = a' ++ (mark ++ b') := h.split.symm.trans h'.split
  obtain ⟨ha, hrest⟩ := List.append_inj heq hlength
  exact ⟨ha, List.append_cancel_left hrest⟩

theorem FirstAt.length_eq {mark s a b : List Char} (h : FirstAt mark s a b) :
    a.length + mark.length + b.length = s.length := by
  rw [h.split]
  simp only [List.length_append]
  omega

theorem FirstAt.append {mark s a b : List Char} (h : FirstAt mark s a b) (u : List Char) :
    FirstAt mark (s ++ u) a (b ++ u) where
  split := by rw [h.split, List.append_assoc, List.append_assoc]
  first x y hxy := by
    by_contra hlt
    have hlength := h.length_eq
    -- an earlier occurrence ends within `s`
    have hprefix : x ++ mark <+: s := by
      refine List.prefix_of_prefix_length_le ?_ (List.prefix_append s u) ?_
      · rw [hxy, ← List.append_assoc]
        exact List.prefix_append (x ++ mark) y
      · rw [List.length_append]
        omega
    obtain ⟨z, hz⟩ := hprefix
    exact hlt (h.first x z (by rw [← hz, List.append_assoc]))

theorem FirstAt.of_append {mark s a b u : List Char} (h : FirstAt mark (s ++ u) a (b ++ u)) :
    FirstAt mark s a b where
  split := by
    have hsplit : s ++ u = (a ++ (mark ++ b)) ++ u := by
      rw [h.split, List.append_assoc, List.append_assoc]
    exact List.append_cancel_right hsplit
  first x y hxy := h.first x (y ++ u) (by rw [hxy, List.append_assoc, List.append_assoc])

/-- What stands behind the first occurrence plays no part in finding it. -/
theorem FirstAt.with_rest {mark s a b : List Char} (h : FirstAt mark s a b) (u : List Char) :
    FirstAt mark (a ++ (mark ++ u)) a u := by
  have hfront : FirstAt mark (a ++ mark) a [] := by
    apply FirstAt.of_append (u := b)
    rw [List.append_assoc, ← h.split]
    exact h
  have hrest := hfront.append u
  rwa [List.append_assoc] at hrest

theorem FirstAt.not_infix_before {mark s a b : List Char} (h : FirstAt mark s a b)
    (hmark : mark ≠ []) : ¬ mark <:+: a := by
  rintro ⟨x, y, rfl⟩
  have hpos : 0 < mark.length := List.length_pos_iff.mpr hmark
  have hle := h.first x (y ++ (mark ++ b)) (by rw [h.split]; simp only [List.append_assoc])
  simp only [List.length_append] at hle
  omega

/-- A character occurs first where the text in front does not have it. -/
theorem firstAt_singleton_iff {c : Char} {s a b : List Char} :
    FirstAt [c] s a b ↔ s = a ++ c :: b ∧ c ∉ a := by
  constructor
  · intro h
    have hbefore := h.not_infix_before (List.cons_ne_nil c [])
    rw [List.singleton_infix_iff] at hbefore
    exact ⟨h.split, hbefore⟩
  · rintro ⟨rfl, hfresh⟩
    refine ⟨rfl, fun x y hxy => ?_⟩
    by_contra hlt
    -- an earlier occurrence would be in the text in front
    have hbegins : x ++ [c] <+: a := by
      refine List.prefix_of_prefix_length_le ?_ (List.prefix_append a (c :: b)) ?_
      · rw [hxy, ← List.append_assoc]
        exact List.prefix_append (x ++ [c]) y
      · rw [List.length_append, List.length_singleton]
        omega
    exact hfresh (hbegins.subset (List.mem_append_right x List.mem_cons_self))

/-- A character that the mark does not begin with can be dropped from the front. -/
theorem FirstAt.of_cons {mark s a b : List Char} {c : Char} (h : FirstAt mark (c :: s) a b)
    (hmark : mark ≠ []) (hc : mark.head? ≠ some c) : ∃ a', a = c :: a' ∧ FirstAt mark s a' b := by
  obtain ⟨m, mark, rfl⟩ := List.exists_cons_of_ne_nil hmark
  cases a with
  | nil =>
    have hhead := (List.cons.inj h.split).1
    exact absurd (congrArg some hhead.symm) hc
  | cons x a =>
    obtain ⟨rfl, hsplit⟩ := List.cons.inj h.split
    refine ⟨a, rfl, hsplit, fun y z hyz => ?_⟩
    have hle := h.first (c :: y) z (by rw [hyz]; rfl)
    exact Nat.le_of_succ_le_succ hle

def Straddles (mark a b : List Char) : Prop :=
  ∃ x y, mark = x ++ y ∧ x ≠ [] ∧ y ≠ [] ∧ x <:+ a ∧ y <+: b

theorem straddles_iff (mark a b : List Char) :
    Straddles mark a b ↔
      ∃ i ∈ List.range mark.length, 0 < i ∧ mark.take i <:+ a ∧ mark.drop i <+: b := by
  constructor
  · rintro ⟨x, y, rfl, hx, hy, hsuffix, hprefix⟩
    have hxpos := List.length_pos_iff.mpr hx
    have hypos := List.length_pos_iff.mpr hy
    refine ⟨x.length, ?_, hxpos, ?_, ?_⟩
    · rw [List.mem_range, List.length_append]
      omega
    · rwa [List.take_left' rfl]
    · rwa [List.drop_left' rfl]
  · rintro ⟨i, hi, hpos, hsuffix, hprefix⟩
    rw [List.mem_range] at hi
    refine ⟨mark.take i, mark.drop i, (List.take_append_drop i mark).symm, ?_, ?_, hsuffix,
      hprefix⟩
    · rw [← List.length_pos_iff, List.length_take]
      omega
    · rw [← List.length_pos_iff, List.length_drop]
      omega

instance (mark a b : List Char) : Decidable (Straddles mark a b) :=
  decidable_of_iff _ (straddles_iff mark a b).symm

theorem Straddles.prepend {mark a b : List Char} (h : Straddles mark a b) (front : List Char) :
    Straddles mark (front ++ a) b := by
  obtain ⟨x, y, hmark, hx, hy, hsuffix, hprefix⟩ := h
  exact ⟨x, y, hmark, hx, hy, hsuffix.trans (List.suffix_append front a), hprefix⟩

/-- A mark that neither stands in a text nor reaches into it is found where it was before. -/
theorem FirstAt.prepend {mark s a b front : List Char} (h : FirstAt mark s a b)
    (hfront : ¬ mark <:+: front) (hborder : ¬ Straddles mark front s) :
    FirstAt mark (front ++ s) (front ++ a) b where
  split := by rw [h.split, List.append_assoc]
  first x y hxy := by
    rcases List.append_eq_append_iff.mp hxy with ⟨z, rfl, hz⟩ | ⟨z, rfl, hz⟩
    · have hle := h.first z y hz
      rw [List.length_append, List.length_append]
      omega
    · rcases List.append_eq_append_iff.mp hz with ⟨w, rfl, -⟩ | ⟨w, hmark, hw⟩
      · exact absurd ⟨x, w, List.append_assoc x mark w⟩ hfront
      · -- the mark begins with `z` in front of the border and ends with `w` behind it
        by_cases hbegin : z = []
        · subst hbegin
          have hle := h.first [] y (by rw [hw, hmark]; rfl)
          simp only [List.length_append, List.length_nil] at hle ⊢
          omega
        · by_cases hend : w = []
          · rw [hend, List.append_nil] at hmark
            exact absurd ⟨x, [], by rw [hmark, List.append_nil]⟩ hfront
          · exact absurd
              ⟨z, w, hmark, hbegin, hend, List.suffix_append x z, hw ▸ List.prefix_append w y⟩
              hborder

/-- The first occurrence of a mark of two characters that differ is behind the text without it. -/
theorem firstAt_of_not_infix {a b : Char} (hab : a ≠ b) {s : List Char} (h : ¬ [a, b] <:+: s)
    (rest : List Char) : FirstAt [a, b] (s ++ ([a, b] ++ rest)) s rest := by
  have hmark : FirstAt [a, b] ([a, b] ++ rest) [] rest := ⟨rfl, fun _ _ _ => Nat.zero_le _⟩
  have hborder : ¬ Straddles [a, b] s ([a, b] ++ rest) := by
    rintro ⟨x, y, hmark, hx, hy, -, z, hz⟩
    obtain ⟨c, x, rfl⟩ := List.exists_cons_of_ne_nil hx
    obtain ⟨c', y, rfl⟩ := List.exists_cons_of_ne_nil hy
    -- the part behind the border is the second character, where the first one stands
    simp only [List.cons_append, List.cons.injEq, List.nil_append] at hmark hz
    cases x with
    | nil =>
      simp only [List.nil_append, List.cons.injEq] at hmark
      exact hab (hz.1.symm.trans hmark.2.1.symm)
    | cons c'' x => simp at hmark
  have hfirst := hmark.prepend h hborder
  rwa [List.append_nil] at hfirst

theorem after?_eq_none_iff (mark s : List Char) :
    after? mark s = none ↔ ∀ b, s ≠ mark ++ b := by
  constructor
  · intro h b heq
    rw [heq, after?_append] at h
    exact Option.some_ne_none b h
  · intro h
    cases hr : after? mark s with
    | none => rfl
    | some r => exact absurd (eq_append_of_after? hr) (h r)

theorem cut?_append_isSome (mark a b : List Char) : (cut? mark (a ++ (mark ++ b))).isSome := by
  induction a with
  | nil =>
    cases hs : mark ++ b with
    | nil =>
      have hmark : mark = [] := (List.append_eq_nil_iff.mp hs).1
      subst mark
      rfl
    | cons c s =>
      have hafter : after? mark (c :: s) = some b := by rw [← hs, after?_append]
      simp [cut?, hafter]
  | cons c a ih =>
    simp only [List.cons_append, cut?]
    split
    · rfl
    · rw [Option.isSome_map]
      exact ih

theorem cut?_eq_none_iff (mark s : List Char) : cut? mark s = none ↔ ¬ mark <:+: s := by
  constructor
  · rintro h ⟨a, b, rfl⟩
    have hsome := cut?_append_isSome mark a b
    rw [← List.append_assoc, h] at hsome
    exact Bool.noConfusion hsome
  · intro h
    cases hcut : cut? mark s with
    | none => rfl
    | some p =>
      refine absurd ⟨p.1, p.2, ?_⟩ h
      rw [List.append_assoc]
      exact (eq_append_of_cut? hcut).symm

private theorem le_of_cut? {mark s before after : List Char}
    (h : cut? mark s = some (before, after)) (a b : List Char) (hs : s = a ++ (mark ++ b)) :
    before.length ≤ a.length := by
  induction s generalizing before a with
  | nil =>
    have hlength := length_of_cut? h
    simp only [List.length_nil] at hlength
    omega
  | cons c s ih =>
    unfold cut? at h
    split at h
    · simp only [Option.some.injEq, Prod.mk.injEq] at h
      simp [← h.1]
    · rename_i hnone
      obtain ⟨p, hp, hbefore⟩ := Option.map_eq_some_iff.mp h
      simp only [Prod.mk.injEq] at hbefore
      obtain ⟨rfl, rfl⟩ := hbefore
      cases a with
      | nil => exact absurd hs ((after?_eq_none_iff mark (c :: s)).mp hnone b)
      | cons x a =>
        simp only [List.cons_append, List.cons.injEq] at hs
        have hle := ih hp a hs.2
        simp only [List.length_cons]
        omega

/-- A cut is made where the mark occurs first, and nowhere else. -/
theorem cut?_eq_some_iff (mark s before after : List Char) :
    cut? mark s = some (before, after) ↔ FirstAt mark s before after := by
  constructor
  · intro h
    exact ⟨eq_append_of_cut? h, le_of_cut? h⟩
  · intro h
    have hsome := cut?_append_isSome mark before after
    rw [← h.split] at hsome
    obtain ⟨p, hp⟩ := Option.isSome_iff_exists.mp hsome
    have hfirst : FirstAt mark s p.1 p.2 := ⟨eq_append_of_cut? hp, le_of_cut? hp⟩
    obtain ⟨hbefore, hafter⟩ := h.unique hfirst
    rw [hp, hbefore, hafter]

theorem split_ne_nil (mark s : List Char) : split mark s ≠ [] := by
  cases mark with
  | nil => simp [split]
  | cons m mark =>
    rw [split, splitAtMark]
    split <;> simp

theorem join_nil_cons (sep : List Char) {ps : List (List Char)} (h : ps ≠ []) :
    join sep ([] :: ps) = sep ++ join sep ps := by
  cases ps with
  | nil => exact absurd rfl h
  | cons p ps => rfl

theorem join_cons_cons (sep : List Char) (c : Char) (p : List Char) (ps : List (List Char)) :
    join sep ((c :: p) :: ps) = c :: join sep (p :: ps) := by
  cases ps <;> rfl

theorem replace_nil {mark : List Char} (other : List Char) (h : mark ≠ []) :
    replace mark other [] = [] := by
  cases mark with
  | nil => exact absurd rfl h
  | cons m mark =>
    unfold replace
    rw [split, splitAtMark]
    rfl

theorem replace_append_of_mark {mark : List Char} (other s : List Char) (h : mark ≠ []) :
    replace mark other (mark ++ s) = other ++ replace mark other s := by
  cases mark with
  | nil => exact absurd rfl h
  | cons m mark =>
    have hcut : cut? (m :: mark) (m :: mark ++ s) = some ([], s) := by
      have hafter := after?_append (m :: mark) s
      rw [List.cons_append] at hafter ⊢
      simp only [cut?, hafter]
    have hsplit : split (m :: mark) (m :: mark ++ s) = [] :: split (m :: mark) s := by
      rw [split, splitAtMark]
      split
      · rename_i hnone
        rw [hcut] at hnone
        exact absurd hnone (Option.some_ne_none _)
      · rename_i a b hsome
        rw [hcut, Option.some.injEq, Prod.mk.injEq] at hsome
        obtain ⟨rfl, rfl⟩ := hsome
        rfl
    unfold replace
    rw [hsplit, join_nil_cons other (split_ne_nil (m :: mark) s)]

/-- A character that begins no occurrence of the mark stays where it is. -/
theorem replace_cons {mark : List Char} (other : List Char) (c : Char) (s : List Char)
    (h : mark ≠ []) (hc : after? mark (c :: s) = none) :
    replace mark other (c :: s) = c :: replace mark other s := by
  cases mark with
  | nil => exact absurd rfl h
  | cons m mark =>
    have hcut : cut? (m :: mark) (c :: s) = (cut? (m :: mark) s).map fun p => (c :: p.1, p.2) := by
      simp only [cut?, hc]
    unfold replace
    simp only [split]
    rw [splitAtMark, splitAtMark]
    cases hs : cut? (m :: mark) s with
    | none =>
      have hnone : cut? (m :: mark) (c :: s) = none := by rw [hcut, hs]; rfl
      split
      · rfl
      · rename_i a b hsome
        rw [hnone] at hsome
        exact absurd hsome.symm (Option.some_ne_none _)
    | some p =>
      have hsome : cut? (m :: mark) (c :: s) = some (c :: p.1, p.2) := by rw [hcut, hs]; rfl
      split
      · rename_i hnone
        rw [hsome] at hnone
        exact absurd hnone (Option.some_ne_none _)
      · rename_i a b hab
        rw [hsome, Option.some.injEq, Prod.mk.injEq] at hab
        obtain ⟨rfl, rfl⟩ := hab
        exact join_cons_cons other c p.1 (splitAtMark m mark p.2)

end ViewRendering.Text
