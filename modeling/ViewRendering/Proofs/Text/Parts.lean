import ViewRendering.Text.Space
import Mathlib.Data.List.DropRight
import Mathlib.Tactic.Common

/-!
Texts taken apart at a character, put together with a separator, and freed of the blanks around
them. The parts have no characters that the text does not have, and parts without the separator
come back when what was put together is taken apart.
-/
namespace ViewRendering.Text

theorem mem_of_mem_trimBy {p : Char → Bool} {s : List Char} {c : Char} (h : c ∈ trimBy p s) :
    c ∈ s := by
  have hback := (List.dropWhile_suffix p).subset (List.mem_reverse.mp h)
  exact (List.dropWhile_suffix p).subset (List.mem_reverse.mp hback)

theorem mem_of_mem_splitOn {sep : Char} {s part : List Char} (h : part ∈ splitOn sep s) {c : Char}
    (hc : c ∈ part) : c ∈ s := by
  induction s generalizing part with
  | nil =>
    rw [splitOn, List.mem_singleton] at h
    exact h ▸ hc
  | cons a s ih =>
    unfold splitOn at h
    split at h
    · rcases List.mem_cons.mp h with rfl | h
      · cases hc
      · exact List.mem_cons_of_mem a (ih h hc)
    · split at h
      · rw [List.mem_singleton.mp h] at hc
        exact List.mem_singleton.mp hc ▸ List.mem_cons_self
      · rename_i first others hparts
        rcases List.mem_cons.mp h with rfl | h
        · rcases List.mem_cons.mp hc with rfl | hc
          · exact List.mem_cons_self
          · exact List.mem_cons_of_mem a (ih (hparts ▸ List.mem_cons_self) hc)
        · exact List.mem_cons_of_mem a (ih (hparts ▸ List.mem_cons_of_mem first h) hc)

theorem mem_join {sep : List Char} {parts : List (List Char)} {c : Char} (h : c ∈ join sep parts) :
    c ∈ sep ∨ ∃ part ∈ parts, c ∈ part := by
  induction parts with
  | nil => cases h
  | cons part parts ih =>
    cases parts with
    | nil => exact Or.inr ⟨part, List.mem_cons_self, h⟩
    | cons other parts =>
      rw [join, List.mem_append, List.mem_append] at h
      · rcases h with h | h | h
        · exact Or.inr ⟨part, List.mem_cons_self, h⟩
        · exact Or.inl h
        · rcases ih h with h | ⟨p, hp, h⟩
          · exact Or.inl h
          · exact Or.inr ⟨p, List.mem_cons_of_mem part hp, h⟩
      · exact List.cons_ne_nil other parts

theorem join_cons {sep : List Char} {parts : List (List Char)} (hne : parts ≠ [])
    (part : List Char) : join sep (part :: parts) = part ++ (sep ++ join sep parts) := by
  obtain ⟨other, others, rfl⟩ := List.exists_cons_of_ne_nil hne
  rfl

theorem join_append {sep : List Char} {parts parts' : List (List Char)} (hne : parts ≠ [])
    (hne' : parts' ≠ []) :
    join sep (parts ++ parts') = join sep parts ++ (sep ++ join sep parts') := by
  induction parts with
  | nil => exact absurd rfl hne
  | cons part parts ih =>
    cases parts with
    | nil => exact join_cons hne' part
    | cons other parts =>
      rw [List.cons_append, join_cons (List.append_ne_nil_of_right_ne_nil _ hne'),
        ih (List.cons_ne_nil other parts), join_cons (List.cons_ne_nil other parts),
        List.append_assoc, List.append_assoc]

theorem join_concat {sep : List Char} {parts : List (List Char)} (hne : parts ≠ [])
    (last : List Char) : join sep (parts ++ [last]) = join sep parts ++ (sep ++ last) :=
  join_append hne (List.cons_ne_nil last [])

theorem splitOn_of_not_mem {sep : Char} {s : List Char} (h : sep ∉ s) : splitOn sep s = [s] := by
  induction s with
  | nil => rfl
  | cons c s ih =>
    have hc : c ≠ sep := fun heq => h (heq ▸ List.mem_cons_self)
    rw [splitOn, if_neg hc, ih fun hmem => h (List.mem_cons_of_mem c hmem)]

theorem not_mem_of_mem_splitOn {sep : Char} {s part : List Char} (h : part ∈ splitOn sep s) :
    sep ∉ part := by
  induction s generalizing part with
  | nil =>
    rw [splitOn, List.mem_singleton] at h
    exact h ▸ List.not_mem_nil
  | cons c s ih =>
    unfold splitOn at h
    split at h
    · rcases List.mem_cons.mp h with rfl | h
      · exact List.not_mem_nil
      · exact ih h
    · rename_i hc
      split at h
      · rename_i hparts
        exact absurd hparts (splitOn_ne_nil sep s)
      · rename_i first others hparts
        rw [hparts] at ih
        rcases List.mem_cons.mp h with rfl | h
        · exact List.not_mem_cons_of_ne_of_not_mem (Ne.symm hc) (ih List.mem_cons_self)
        · exact ih (List.mem_cons_of_mem first h)

theorem splitOn_cons_of_ne {sep c : Char} {s first : List Char} {others : List (List Char)}
    (hc : c ≠ sep) (h : splitOn sep s = first :: others) :
    splitOn sep (c :: s) = (c :: first) :: others := by
  rw [splitOn, if_neg hc, h]

/-- Where texts are put together, the last part of the one and the first of the other become one. -/
theorem splitOn_append {sep : Char} {a b last first : List Char} {front behind : List (List Char)}
    (ha : splitOn sep a = front ++ [last]) (hb : splitOn sep b = first :: behind) :
    splitOn sep (a ++ b) = front ++ (last ++ first) :: behind := by
  induction a generalizing front last with
  | nil =>
    cases front with
    | nil =>
      cases ha
      exact hb
    | cons part front => cases front <;> cases ha
  | cons c a ih =>
    obtain ⟨part, parts, hparts⟩ := List.exists_cons_of_ne_nil (splitOn_ne_nil sep a)
    by_cases hc : c = sep
    · subst hc
      rw [splitOn, if_pos rfl, hparts] at ha
      cases front with
      | nil => cases ha
      | cons part' front =>
        obtain ⟨rfl, hrest⟩ := List.cons.inj ha
        rw [List.cons_append, splitOn, if_pos rfl, ih (hparts.trans hrest), List.cons_append]
    · rw [splitOn_cons_of_ne hc hparts] at ha
      cases front with
      | nil =>
        cases ha
        have hnone : splitOn sep a = [] ++ [part] := hparts
        exact splitOn_cons_of_ne hc (ih hnone)
      | cons part' front =>
        rw [List.cons_append] at ha
        obtain ⟨rfl, hrest⟩ := List.cons.inj ha
        rw [hrest, ← List.cons_append] at hparts
        exact splitOn_cons_of_ne hc (ih hparts)

theorem splitOn_append_cons (sep : Char) (a b : List Char) :
    splitOn sep (a ++ sep :: b) = splitOn sep a ++ splitOn sep b := by
  obtain ⟨front, last, ha⟩ :=
    (List.eq_nil_or_concat' (splitOn sep a)).resolve_left (splitOn_ne_nil sep a)
  have hb : splitOn sep (sep :: b) = [] :: splitOn sep b := by rw [splitOn, if_pos rfl]
  rw [splitOn_append ha hb, ha, List.append_nil, List.append_assoc, List.singleton_append]

/-- Parts without the separator come back. -/
theorem splitOn_join {sep : Char} {parts : List (List Char)} (hne : parts ≠ [])
    (h : ∀ part ∈ parts, sep ∉ part) : splitOn sep (join [sep] parts) = parts := by
  induction parts with
  | nil => exact absurd rfl hne
  | cons part parts ih =>
    obtain ⟨hpart, hparts⟩ := List.forall_mem_cons.mp h
    cases parts with
    | nil => exact splitOn_of_not_mem hpart
    | cons other parts =>
      rw [join, List.singleton_append, splitOn_append_cons, splitOn_of_not_mem hpart,
        ih (List.cons_ne_nil other parts) hparts, List.singleton_append]
      exact List.cons_ne_nil other parts

theorem dropWhile_padded {p : Char → Bool} {front s : List Char} (hfront : ∀ c ∈ front, p c = true)
    (hs : ∀ c, s.head? = some c → p c = false) : (front ++ s).dropWhile p = s := by
  rw [List.dropWhile_append_of_pos hfront]
  cases s with
  | nil => rfl
  | cons c s => rw [List.dropWhile_cons_of_neg (by rw [hs c rfl]; exact Bool.false_ne_true)]

/-- Blanks around a text that neither begins nor ends with one are taken away, and no more. -/
theorem trim_padded {before s after : List Char} (hbefore : isBlank before = true)
    (hafter : isBlank after = true) (hfirst : ∀ c, s.head? = some c → isSpace c = false)
    (hlast : ∀ c, s.getLast? = some c → isSpace c = false) :
    trim (before ++ (s ++ after)) = s := by
  have hfront : ∀ c ∈ before, isSpace c = true := List.all_eq_true.mp hbefore
  have hback : ∀ c ∈ after.reverse, isSpace c = true := fun c hc =>
    List.all_eq_true.mp hafter c (List.mem_reverse.mp hc)
  rw [trim_eq, trimStart]
  cases s with
  | nil =>
    have hblank : ∀ c ∈ before ++ after, isSpace c = true := fun c hc =>
      (List.mem_append.mp hc).elim (hfront c) (List.all_eq_true.mp hafter c)
    have hnone := dropWhile_padded (s := []) hblank nofun
    rw [List.append_nil] at hnone
    rw [List.nil_append, hnone]
    rfl
  | cons c s =>
    have hstart : (before ++ (c :: s ++ after)).dropWhile isSpace = c :: s ++ after :=
      dropWhile_padded hfront hfirst
    rw [hstart, trimEnd, List.reverse_append, dropWhile_padded hback, List.reverse_reverse]
    rwa [← List.getLast?_eq_head?_reverse]

theorem trim_eq_self {s : List Char} (hfirst : ∀ c, s.head? = some c → isSpace c = false)
    (hlast : ∀ c, s.getLast? = some c → isSpace c = false) : trim s = s := by
  have hpadded := trim_padded (rfl : isBlank [] = true) (rfl : isBlank [] = true) hfirst hlast
  rwa [List.append_nil] at hpadded

theorem trimBy_of_forall {p : Char → Bool} {s : List Char} (h : ∀ c ∈ s, p c = false) :
    trimBy p s = s := by
  have hstart : ([] ++ s).dropWhile p = s :=
    dropWhile_padded nofun fun c hc => h c (List.mem_of_mem_head? hc)
  have hback : ([] ++ s.reverse).dropWhile p = s.reverse :=
    dropWhile_padded nofun fun c hc => h c (List.mem_reverse.mp (List.mem_of_mem_head? hc))
  rw [List.nil_append] at hstart hback
  rw [trimBy, hstart, hback, List.reverse_reverse]

/-- A text is what trimming leaves of it, with such characters around. -/
theorem exists_padding_trimBy (p : Char → Bool) (s : List Char) :
    ∃ before after, s = before ++ (trimBy p s ++ after) ∧ before.all p = true ∧
      after.all p = true := by
  have hstart := List.takeWhile_append_dropWhile (p := p) (l := s)
  have hback := List.takeWhile_append_dropWhile (p := p) (l := (s.dropWhile p).reverse)
  refine ⟨s.takeWhile p, ((s.dropWhile p).reverse.takeWhile p).reverse, ?_, List.all_takeWhile, ?_⟩
  · have hrest := congrArg List.reverse hback
    rw [List.reverse_append, List.reverse_reverse] at hrest
    rw [trimBy, hrest, hstart]
  · rw [List.all_reverse]
    exact List.all_takeWhile

theorem exists_padding (s : List Char) :
    ∃ before after, s = before ++ (trim s ++ after) ∧ isBlank before = true ∧
      isBlank after = true :=
  exists_padding_trimBy isSpace s

theorem isSpace_of_head?_trim {s : List Char} {c : Char} (h : (trim s).head? = some c) :
    isSpace c = false := by
  have hfirst := List.head?_dropWhile_not isSpace s
  have hprefix : trim s <+: s.dropWhile isSpace := List.rdropWhile_prefix isSpace _
  obtain ⟨rest, hrest⟩ := hprefix
  rw [← hrest, List.head?_append, h] at hfirst
  exact hfirst

theorem isSpace_of_getLast?_trim {s : List Char} {c : Char} (h : (trim s).getLast? = some c) :
    isSpace c = false := by
  have hlast := List.head?_dropWhile_not isSpace (s.dropWhile isSpace).reverse
  rw [trim, trimBy, List.getLast?_reverse] at h
  rwa [h] at hlast

/-- Blanks at the ends of a text make no difference to what trimming leaves. -/
theorem trim_append {before after : List Char} (hbefore : isBlank before = true)
    (hafter : isBlank after = true) (s : List Char) : trim (before ++ (s ++ after)) = trim s := by
  obtain ⟨front, back, hs, hfront, hback⟩ := exists_padding s
  have hall : before ++ (s ++ after) = (before ++ front) ++ (trim s ++ (back ++ after)) := by
    conv_lhs => rw [hs]
    simp only [List.append_assoc]
  rw [hall]
  refine trim_padded ?_ ?_ (fun c => isSpace_of_head?_trim) fun c => isSpace_of_getLast?_trim
  · rw [isBlank, List.all_append, Bool.and_eq_true]
    exact ⟨hbefore, hfront⟩
  · rw [isBlank, List.all_append, Bool.and_eq_true]
    exact ⟨hback, hafter⟩

theorem trim_trim (s : List Char) : trim (trim s) = trim s := by
  obtain ⟨front, back, hs, hfront, hback⟩ := exists_padding s
  have htrim := trim_append hfront hback (trim s)
  rw [← hs] at htrim
  exact htrim.symm

theorem trim_eq_nil_iff (s : List Char) : trim s = [] ↔ isBlank s = true := by
  constructor
  · intro h
    obtain ⟨front, back, hs, hfront, hback⟩ := exists_padding s
    rw [hs, h, List.nil_append, isBlank, List.all_append, Bool.and_eq_true]
    exact ⟨hfront, hback⟩
  · intro h
    have htrim := trim_append h (rfl : isBlank [] = true) []
    rwa [List.append_nil, List.append_nil] at htrim

theorem trim_between_blanks {s : List Char} (hs : ∀ c ∈ s, isSpace c = false) :
    trim (' ' :: (s ++ [' '])) = s := by
  have hblank : isBlank [' '] = true := by decide
  exact trim_padded hblank hblank (fun c hc => hs c (List.mem_of_mem_head? hc))
    fun c hc => hs c (List.mem_of_getLast? hc)

theorem utf8Size_append (s t : List Char) : utf8Size (s ++ t) = utf8Size s + utf8Size t := by
  induction s with
  | nil => exact (Nat.zero_add _).symm
  | cons c s ih => rw [List.cons_append, utf8Size_cons, utf8Size_cons, ih, Nat.add_assoc]

theorem length_le_utf8Size (s : List Char) : s.length ≤ utf8Size s := by
  induction s with
  | nil => exact Nat.le_refl 0
  | cons c s ih =>
    have hpos := c.utf8Size_pos
    rw [utf8Size_cons, List.length_cons]
    omega

theorem utf8Size_eq_length {s : List Char} (h : ∀ c ∈ s, c.toNat < 0x80) :
    utf8Size s = s.length := by
  induction s with
  | nil => rfl
  | cons c s ih =>
    obtain ⟨hc, hs⟩ := List.forall_mem_cons.mp h
    have hone : c.utf8Size = 1 := Char.utf8Size_eq_one_iff.mpr (Nat.le_of_lt_succ hc)
    rw [utf8Size_cons, List.length_cons, ih hs, hone, Nat.add_comm]

theorem utf8Size_pos {s : List Char} (h : s ≠ []) : 0 < utf8Size s := by
  obtain ⟨c, s, rfl⟩ := List.exists_cons_of_ne_nil h
  rw [utf8Size_cons]
  exact Nat.add_pos_left c.utf8Size_pos _

end ViewRendering.Text
