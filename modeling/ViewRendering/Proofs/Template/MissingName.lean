import ViewRendering.Template.Suggestion
import Mathlib.Data.List.TakeWhile
import Mathlib.Tactic.Common

/-!
The variable that a message says was not found. A name stands between two fixed marks and holds no
backtick, so the place where the first mark begins settles it; of several places the first counts.
-/
namespace ViewRendering.Template

def SaysMissing (message front name : List Char) : Prop :=
  ∃ behind, message = front ++ ("Variable `".toList ++ (name ++ ("` not found".toList ++ behind))) ∧
    name ≠ [] ∧ Char.ofNat 96 ∉ name

/-- The first variable that the message says was not found has this name. -/
def NamesMissing (message name : List Char) : Prop :=
  ∃ front, SaysMissing message front name ∧
    ∀ front' name', SaysMissing message front' name' → front.length ≤ front'.length

theorem takeWhile_name {name : List Char} (hname : Char.ofNat 96 ∉ name) (behind : List Char) :
    (name ++ (missingEnd ++ behind)).takeWhile (· ≠ Char.ofNat 96) = name := by
  have hall : ∀ c ∈ name, decide (c ≠ Char.ofNat 96) = true := fun c hc =>
    decide_eq_true fun heq => hname (heq ▸ hc)
  rw [List.takeWhile_append_of_pos hall]
  exact List.append_nil name

theorem missingAt?_eq_some_iff {s name : List Char} :
    missingAt? s = some name ↔ SaysMissing s [] name := by
  unfold missingAt?
  constructor
  · intro h
    obtain ⟨r, hr, h⟩ := Option.bind_eq_some_iff.mp h
    dsimp only at h
    split at h
    · cases h
    · rename_i hne
      split at h
      · rename_i hend
        have hname : Char.ofNat 96 ∉ r.takeWhile (· ≠ Char.ofNat 96) := fun hmem =>
          absurd (List.mem_takeWhile_imp hmem) (by simp)
        have hparts := List.takeWhile_append_dropWhile (p := (· ≠ Char.ofNat 96)) (l := r)
        generalize r.takeWhile (· ≠ Char.ofNat 96) = found at h hne hend hname hparts
        cases h
        rw [← hparts, List.drop_left] at hend
        obtain ⟨behind, hbehind⟩ := Option.isSome_iff_exists.mp hend
        refine ⟨behind, ?_, fun hnil => hne (List.isEmpty_iff.mpr hnil), hname⟩
        rw [Text.eq_append_of_after? hr, ← hparts, Text.eq_append_of_after? hbehind]
        rfl
      · cases h
  · rintro ⟨behind, rfl, hne, hname⟩
    change (Text.after? missingStart (missingStart ++ (name ++ (missingEnd ++ behind)))).bind _ = _
    rw [Text.after?_append, Option.bind_some, takeWhile_name hname]
    dsimp only
    rw [List.isEmpty_eq_false_iff.mpr hne, List.drop_left, Text.after?_append]
    rfl

theorem saysMissing_cons_iff {c d : Char} {s front name : List Char} :
    SaysMissing (c :: s) (d :: front) name ↔ c = d ∧ SaysMissing s front name := by
  unfold SaysMissing
  simp only [List.cons_append, List.cons.injEq, and_assoc, exists_and_left]

theorem not_saysMissing_nil (front name : List Char) : ¬ SaysMissing [] front name := by
  rintro ⟨behind, h, -, -⟩
  have hlength := congrArg List.length h
  simp only [List.length_append, List.length_nil, String.reduceToList, List.length_cons] at hlength
  omega

theorem missingName?_eq_some_iff {s name : List Char} :
    missingName? s = some name ↔ NamesMissing s name := by
  induction s with
  | nil =>
    refine iff_of_false nofun ?_
    rintro ⟨front, h, -⟩
    exact not_saysMissing_nil front name h
  | cons c s ih =>
    unfold missingName?
    cases hat : missingAt? (c :: s) with
    | some found =>
      have hfound := missingAt?_eq_some_iff.mp hat
      constructor
      · rintro ⟨⟩
        exact ⟨[], hfound, fun front' _ _ => Nat.zero_le front'.length⟩
      · rintro ⟨front, h, hfirst⟩
        have hfront := List.eq_nil_of_length_eq_zero (Nat.le_zero.mp (hfirst [] found hfound))
        subst hfront
        exact hat.symm.trans (missingAt?_eq_some_iff.mpr h)
    | none =>
      -- the variable is not named at the very front
      have hshift {front name' : List Char} (h : SaysMissing (c :: s) front name') :
          ∃ front', front = c :: front' ∧ SaysMissing s front' name' := by
        cases front with
        | nil =>
          rw [missingAt?_eq_some_iff.mpr h] at hat
          cases hat
        | cons d front' =>
          obtain ⟨rfl, h'⟩ := saysMissing_cons_iff.mp h
          exact ⟨front', rfl, h'⟩
      refine ih.trans ⟨?_, ?_⟩
      · rintro ⟨front, h, hfirst⟩
        refine ⟨c :: front, saysMissing_cons_iff.mpr ⟨rfl, h⟩, fun front' name' h' => ?_⟩
        obtain ⟨rest, rfl, hrest⟩ := hshift h'
        exact Nat.succ_le_succ (hfirst rest name' hrest)
      · rintro ⟨front, h, hfirst⟩
        obtain ⟨rest, rfl, hrest⟩ := hshift h
        refine ⟨rest, hrest, fun front' name' h' => ?_⟩
        exact Nat.le_of_succ_le_succ
          (hfirst (c :: front') name' (saysMissing_cons_iff.mpr ⟨rfl, h'⟩))

theorem missingName?_eq_none {s : List Char} (h : ∀ front name, ¬ SaysMissing s front name) :
    missingName? s = none := by
  rw [Option.eq_none_iff_forall_ne_some]
  intro name hname
  obtain ⟨front, hfront, -⟩ := missingName?_eq_some_iff.mp hname
  exact h front name hfront

end ViewRendering.Template
