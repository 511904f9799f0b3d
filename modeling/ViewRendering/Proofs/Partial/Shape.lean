import ViewRendering.Partial.Expansion
import ViewRendering.Proofs.Markup.Reading
import Mathlib.Data.List.Basic

/-!
The shape of a directive, stated without the finder: delimiters, a mode, the word `partial`, and an
expression in parentheses with blanks around. Whatever the finder takes for a directive has this
shape, and a text of this shape is that of a tag.
-/
namespace ViewRendering.Partial

open Markup (Delimiters DropsNewline Segment dropsNewline_cutNewline modeOf source_append_tagBefore
  tagBefore)
open Text (isBlank)

variable {d : Delimiters} {s t e r : List Char}

/-- A closing delimiter in front of the rest, alone or between a trim marker and the line end that
it drops. -/
inductive Closes (d : Delimiters) : List Char → List Char → Prop
  | plain {rest : List Char} : Closes d (d.closing ++ rest) rest
  | trimmed {newline rest : List Char} : DropsNewline newline rest →
      Closes d ('-' :: (d.closing ++ (newline ++ rest))) rest

inductive Shape (d : Delimiters) : List Char → List Char → List Char → Prop
  | mk {mode : Char} {blanks expression blanks' ending rest : List Char} :
      mode = '-' ∨ mode = '=' → isBlank blanks = true → expression ≠ [] → '\n' ∉ expression →
      isBlank blanks' = true → Closes d ending rest →
      Shape d (d.opening ++ mode :: (blanks ++ ("partial(".toList ++
        (expression ++ ')' :: (blanks' ++ ending))))) expression rest

theorem Closes.length_le (h : Closes d t r) : d.closing.length + r.length ≤ t.length := by
  cases h with
  | plain => exact Nat.le_of_eq List.length_append.symm
  | trimmed _ =>
    simp only [List.length_cons, List.length_append]
    omega

theorem closes_of_afterClosing? (h : afterClosing? d t = some r) : Closes d t r := by
  unfold afterClosing? at h
  split at h
  · rename_i after hafter
    cases h
    have hclose := Closes.trimmed (d := d) (dropsNewline_cutNewline after)
    rwa [← Markup.eq_append_cutNewline, ← List.cons_append,
      ← Text.eq_append_of_after? hafter] at hclose
  · exact Text.eq_append_of_after? h ▸ .plain

theorem afterEnding?_split (h : afterEnding? d s = some r) :
    ∃ blanks t, s = blanks ++ t ∧ (∀ c ∈ blanks, Text.isSpace c) ∧ afterClosing? d t = some r := by
  induction s with
  | nil => exact ⟨[], [], rfl, nofun, h⟩
  | cons c s ih =>
    unfold afterEnding? at h
    split at h
    · rename_i hspace
      split at h
      · rename_i r' hr'
        rw [h] at hr'
        obtain ⟨blanks, t, rfl, hblanks, ht⟩ := ih hr'
        exact ⟨c :: blanks, t, rfl, List.forall_mem_cons.mpr ⟨hspace, hblanks⟩, ht⟩
      · exact ⟨[], c :: s, rfl, nofun, h⟩
    · exact ⟨[], c :: s, rfl, nofun, h⟩

theorem argument?_split (h : argument? d s = some (e, r)) :
    ∃ t, s = e ++ ')' :: t ∧ e ≠ [] ∧ '\n' ∉ e ∧ afterEnding? d t = some r := by
  induction s generalizing e with
  | nil => cases h
  | cons c s ih =>
    unfold argument? at h
    split at h
    · cases h
    · rename_i hc
      split at h
      · rename_i r' hr'
        cases h
        unfold afterArgument? at hr'
        split at hr'
        · rename_i t
          exact ⟨t, rfl, List.cons_ne_nil c [], fun hline => hc (List.mem_singleton.mp hline).symm,
            hr'⟩
        · cases hr'
      · obtain ⟨p, hp, heq⟩ := Option.map_eq_some_iff.mp h
        cases heq
        obtain ⟨t, rfl, -, hline, ht⟩ := ih hp
        have hline' := List.not_mem_cons_of_ne_of_not_mem (Ne.symm hc) hline
        exact ⟨t, rfl, List.cons_ne_nil c p.1, hline', ht⟩

theorem shape_of_directiveAt? (h : directiveAt? d s = some (e, r)) : Shape d s e r := by
  unfold directiveAt? at h
  split at h
  · rename_i mode behind hbehind
    split at h
    · rename_i hmode
      obtain ⟨argument, hword, harg⟩ := Option.bind_eq_some_iff.mp h
      obtain ⟨ending, rfl, hne, hline, hending⟩ := argument?_split harg
      obtain ⟨blanks', t, rfl, hblanks', hclosing⟩ := afterEnding?_split hending
      have hshape := Shape.mk (d := d) hmode
        (List.all_takeWhile (p := Text.isSpace) (l := behind)) hne hline
        (List.all_eq_true.mpr hblanks') (closes_of_afterClosing? hclosing)
      rwa [← Text.eq_append_of_after? hword, List.takeWhile_append_dropWhile,
        ← Text.eq_append_of_after? hbehind] at hshape
    · cases h
  · cases h

theorem modeOf_of_output {c : Char} (s : List Char) (h : c = '-' ∨ c = '=') :
    (modeOf (c :: s)).2 = s := by
  rcases h with rfl | rfl <;> rfl

/-- Blanks behind a parenthesis hold no trim marker. -/
theorem getLast?_ne_dash {blanks : List Char} (u : List Char) (h : isBlank blanks = true) :
    (u ++ ')' :: blanks).getLast? ≠ some '-' := by
  rw [List.getLast?_append_cons]
  intro hlast
  rcases List.mem_cons.mp (List.mem_of_getLast? hlast) with hparen | hblank
  · exact absurd hparen (by decide)
  · exact absurd (List.all_eq_true.mp h '-' hblank) (by decide)

/-- A directive is delimited like a tag and ends where a tag with its inside would end. -/
theorem Shape.eq_tagBefore (h : Shape d s e r) :
    ∃ inside after, s = d.opening ++ (inside ++ (d.closing ++ after)) ∧
      (tagBefore inside after).2 = r := by
  cases h with
  | @mk mode blanks _ blanks' _ _ hmode _ _ _ hblanks' hclose =>
    let inner := blanks ++ ("partial(".toList ++ e)
    cases hclose with
    | plain =>
      refine ⟨mode :: (inner ++ ')' :: blanks'), r, by simp [inner], ?_⟩
      unfold tagBefore
      rw [modeOf_of_output _ hmode,
        Markup.withoutTrimMark_of_getLast? (getLast?_ne_dash inner hblanks')]
      rfl
    | @trimmed newline _ hdrops =>
      refine ⟨mode :: (inner ++ ')' :: blanks' ++ ['-']), newline ++ r, by simp [inner], ?_⟩
      unfold tagBefore
      rw [modeOf_of_output _ hmode, Markup.withoutTrimMark_concat]
      exact congrArg Prod.snd hdrops.cutNewline_eq

/-- The text of a directive is that of a tag, which leaves the same rest. -/
theorem exists_tag_of_directiveAt? (h : directiveAt? d s = some (e, r)) :
    ∃ t, s = (Segment.tag t).source d ++ r ∧ tagBefore t.inside (t.newline ++ r) = (t, r) := by
  obtain ⟨inside, after, rfl, rfl⟩ := (shape_of_directiveAt? h).eq_tagBefore
  refine ⟨(tagBefore inside after).1, (source_append_tagBefore d inside after).symm, ?_⟩
  rw [Markup.inside_tagBefore, Markup.newline_append_tagBefore]

end ViewRendering.Partial
