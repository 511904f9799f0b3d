import ViewRendering.Proofs.Markup.Reading
import ViewRendering.Proofs.Text.Parts
import ViewRendering.Settings

/-!
Pages of literal text and tags that write a name, with the delimiters of settings that
name no others. Such a page reads tag by tag, whatever the literal text is as long as no
tag opens in it, and is translated into protected text and one construct for each tag.
-/
namespace ViewRendering

open Markup (Delimiters)

def usualDelimiters : Delimiters := ⟨['<', '%'], ['%', '>']⟩

theorem delimiters_default : ({} : Settings).delimiters = usualDelimiters := rfl

namespace Markup

/-- A tag that writes the value of a name, and the literal text in front of it. -/
structure Slot where
  before : List Char
  /-- Whether the value is escaped. -/
  escaped : Bool
  name : List Char

namespace Slot

def mode (s : Slot) : Mode := if s.escaped then .escaped else .raw

def inside (s : Slot) : List Char :=
  (if s.escaped then '=' else '-') :: ' ' :: (s.name ++ [' '])

structure Proper (s : Slot) : Prop where
  plain : ¬ usualDelimiters.opening <:+: s.before
  named : s.name ≠ []
  solid : ∀ c ∈ s.name, Text.isSpace c = false ∧ c ≠ '%'

end Slot

def slotPage : List Slot → List Char → List Char
  | [], last => last
  | s :: rest, last =>
    s.before ++ (usualDelimiters.opening ++
      (s.inside ++ (usualDelimiters.closing ++ slotPage rest last)))

def slotTemplate : List Slot → List Char → List Char
  | [], last => protect last
  | s :: rest, last => protect s.before ++ (construct s.mode s.name ++ slotTemplate rest last)

def slotSegments : List Slot → List Char → List Segment
  | [], last => [.literal last]
  | s :: rest, last => .literal s.before :: .tag ⟨s.inside, []⟩ :: slotSegments rest last

namespace Slot

variable {s : Slot}

theorem withoutTrimMark_inside (s : Slot) :
    withoutTrimMark (modeOf s.inside).2 = (' ' :: (s.name ++ [' ']), false) := by
  have hbehind : (modeOf s.inside).2 = ' ' :: (s.name ++ [' ']) := by
    unfold inside
    cases s.escaped <;> rfl
  have hreverse : (' ' :: (s.name ++ [' '])).reverse = ' ' :: (s.name.reverse ++ [' ']) := by
    simp
  rw [hbehind]
  unfold withoutTrimMark
  rw [hreverse]
  rfl

theorem tagBefore_inside (s : Slot) (rest : List Char) :
    tagBefore s.inside rest = (⟨s.inside, []⟩, rest) := by
  unfold tagBefore
  rw [withoutTrimMark_inside]
  rfl

theorem mode_tag (s : Slot) : (⟨s.inside, []⟩ : Tag).mode = s.mode := by
  unfold Tag.mode inside mode
  cases s.escaped <;> rfl

theorem code_tag (hs : s.Proper) : (⟨s.inside, []⟩ : Tag).code = s.name := by
  unfold Tag.code
  rw [withoutTrimMark_inside]
  exact Text.trim_between_blanks fun c hc => (hs.solid c hc).1

theorem construct?_tag (hs : s.Proper) :
    (Segment.tag ⟨s.inside, []⟩).construct? = some (construct s.mode s.name) := by
  have hwrites : (⟨s.inside, []⟩ : Tag).isSilent = false := by
    unfold Tag.isSilent
    rw [mode_tag, code_tag hs, Bool.or_eq_false_iff]
    refine ⟨decide_eq_false ?_, List.isEmpty_eq_false_iff.mpr hs.named⟩
    unfold mode
    cases s.escaped <;> decide
  unfold Segment.construct?
  dsimp only
  rw [hwrites, mode_tag, code_tag hs]
  rfl

/-- The tag reaches to its own closing delimiter. -/
theorem firstAt_closing (hs : s.Proper) (rest : List Char) :
    Text.FirstAt usualDelimiters.closing (s.inside ++ (usualDelimiters.closing ++ rest)) s.inside
      rest := by
  refine Text.firstAt_of_not_infix (by decide) (fun hinfix => ?_) rest
  have hpercent : '%' ∈ s.inside := hinfix.subset List.mem_cons_self
  have hname : '%' ∈ s.name := by
    unfold inside at hpercent
    cases hescaped : s.escaped <;> simpa [hescaped] using hpercent
  exact (hs.solid '%' hname).2 rfl

end Slot

variable {slots : List Slot} {last : List Char}

theorem reading_slotPage (hslots : ∀ s ∈ slots, s.Proper)
    (hlast : ¬ usualDelimiters.opening <:+: last) :
    Reading usualDelimiters (slotPage slots last) (slotSegments slots last) := by
  induction slots with
  | nil => exact .plain hlast
  | cons s slots ih =>
    obtain ⟨hs, hrest⟩ := List.forall_mem_cons.mp hslots
    have hopen : Text.FirstAt usualDelimiters.opening (slotPage (s :: slots) last) s.before
        (s.inside ++ (usualDelimiters.closing ++ slotPage slots last)) :=
      Text.firstAt_of_not_infix (by decide) hs.plain _
    have hpercent : (s.inside ++ (usualDelimiters.closing ++ slotPage slots last)).head? ≠
        some '%' := by
      unfold Slot.inside
      cases s.escaped <;> simp
    have htag := Slot.tagBefore_inside s (slotPage slots last)
    have hbehind : Reading usualDelimiters (tagBefore s.inside (slotPage slots last)).2
        (slotSegments slots last) := by
      rw [htag]
      exact ih hrest
    have hreading := Reading.tag hopen hpercent (Slot.firstAt_closing hs _) hbehind
    rwa [htag] at hreading

theorem assemble_slotSegments (hslots : ∀ s ∈ slots, s.Proper) (d : Delimiters) :
    assemble d [] (slotSegments slots last) = slotTemplate slots last := by
  induction slots with
  | nil => rfl
  | cons s slots ih =>
    obtain ⟨hs, hrest⟩ := List.forall_mem_cons.mp hslots
    have hliteral : assemble d [] (slotSegments (s :: slots) last) =
        assemble d s.before (.tag ⟨s.inside, []⟩ :: slotSegments slots last) := rfl
    rw [hliteral, assemble, Slot.construct?_tag hs]
    dsimp only
    rw [ih hrest]
    rfl

theorem translate_slotPage (hslots : ∀ s ∈ slots, s.Proper)
    (hlast : ¬ usualDelimiters.opening <:+: last) :
    translate usualDelimiters (slotPage slots last) = .ok (slotTemplate slots last) :=
  (translate_eq_ok_iff (by decide) _ _).mpr
    ⟨_, reading_slotPage hslots hlast, (assemble_slotSegments hslots _).symm⟩

end Markup

end ViewRendering
