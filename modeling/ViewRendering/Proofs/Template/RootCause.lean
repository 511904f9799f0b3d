import ViewRendering.Proofs.Text.Parts
import ViewRendering.Template.Fault

/-!
What is told of a chain of messages. One that only says that rendering failed can be left out where
a cause stands behind it. In a chain of more than one message all of them are left out, so the root
of the failure is lost exactly if it begins like one.
-/
namespace ViewRendering.Template

def OnlyFails (m : String) : Prop := wrapperStart <+: Text.trim m.toList

instance (m : String) : Decidable (OnlyFails m) :=
  inferInstanceAs (Decidable (wrapperStart <+: Text.trim m.toList))

/-- The messages of a chain down to its root. A blank one says nothing, and one that only says that
rendering failed is left out if a cause stands behind it. -/
def causes : List String → List (List Char)
  | [] => []
  | m :: rest =>
    if Text.isBlank m.toList = true ∨
        OnlyFails m ∧ ∃ cause ∈ rest, Text.isBlank cause.toList = false then causes rest
    else Text.trim m.toList :: causes rest

def telling (m : String) : Bool := !Text.isBlank m.toList && !decide (OnlyFails m)

def tellingFront (front : List String) : List (List Char) :=
  (front.filter telling).map fun m => Text.trim m.toList

theorem tellingMessages_eq {chain : List String} (h : 1 < chain.length) :
    tellingMessages chain = tellingFront chain := by
  rw [tellingMessages, tellingFront, List.filter_filter, List.filter_map]
  congr 1
  refine List.filter_congr fun m _ => ?_
  have hwrapper : wrapperStart.isPrefixOf (Text.trim m.toList) = decide (OnlyFails m) := by
    rw [Bool.eq_iff_iff, List.isPrefixOf_iff_prefix, decide_eq_true_iff, OnlyFails]
  have hblank : (Text.trim m.toList).isEmpty = Text.isBlank m.toList := by
    rw [Bool.eq_iff_iff, List.isEmpty_iff, Text.trim_eq_nil_iff]
  simp only [Function.comp_apply, decide_eq_true h, Bool.true_and, hwrapper, hblank, telling]
  exact Bool.and_comm _ _

section

variable {front : List String} {root : String}

/-- With a root that says something, the rule leaves out of the messages in front of it the blank
ones and those that only say that rendering failed. -/
theorem causes_concat (front : List String) (hroot : Text.isBlank root.toList = false) :
    causes (front ++ [root]) = tellingFront front ++ [Text.trim root.toList] := by
  induction front with
  | nil =>
    have hkeep : ¬ (Text.isBlank root.toList = true ∨
        OnlyFails root ∧ ∃ cause ∈ ([] : List String), Text.isBlank cause.toList = false) := by
      simp [hroot]
    exact if_neg hkeep
  | cons m front ih =>
    have hcause : ∃ cause ∈ front ++ [root], Text.isBlank cause.toList = false :=
      ⟨root, List.mem_append_right front (List.mem_singleton_self root), hroot⟩
    have hstep : tellingFront (m :: front) =
        if telling m = true then Text.trim m.toList :: tellingFront front
        else tellingFront front := by
      rw [tellingFront, List.filter_cons]
      split <;> rfl
    rw [List.cons_append, causes, ih, hstep]
    by_cases hm : Text.isBlank m.toList = true ∨ OnlyFails m
    · have hquiet : telling m = false := by
        rcases hm with hm | hm <;> simp [telling, hm]
      rw [if_pos (hm.imp_right fun hm => ⟨hm, hcause⟩), hquiet, if_neg Bool.false_ne_true]
    · obtain ⟨hblank, honly⟩ := not_or.mp hm
      have htelling : telling m = true := by simp [telling, hblank, honly]
      rw [if_neg (not_or.mpr ⟨hblank, fun h => honly h.1⟩), htelling, if_pos rfl]
      rfl

/-- What is told of a chain of more than one message, with its root apart. -/
theorem tellingMessages_concat (hfront : front ≠ []) (hroot : Text.isBlank root.toList = false) :
    tellingMessages (front ++ [root]) =
      tellingFront front ++ if OnlyFails root then [] else [Text.trim root.toList] := by
  have hlength : 1 < (front ++ [root]).length := by
    have hpos := List.length_pos_iff.mpr hfront
    rw [List.length_append, List.length_singleton]
    omega
  rw [tellingMessages_eq hlength, tellingFront, List.filter_append, List.map_append]
  congr 1
  by_cases honly : OnlyFails root <;> simp [telling, hroot, honly]

theorem chainText_of_telling {chain : List String} (h : tellingMessages chain ≠ []) :
    chainText chain = String.ofList (Text.join [':', ' '] (tellingMessages chain)) := by
  unfold chainText
  split
  · contradiction
  · rfl

theorem suffix_join_concat (sep : List Char) (parts : List (List Char)) (last : List Char) :
    last <:+ Text.join sep (parts ++ [last]) := by
  by_cases hparts : parts = []
  · subst hparts
    exact List.suffix_refl last
  · rw [Text.join_concat hparts]
    exact (List.suffix_append sep last).trans (List.suffix_append _ _)

/-- What a chain comes to never has its root where that one begins like those that only say that
rendering failed. -/
theorem chainText_ne_of_onlyFails (hfront : front ≠ [])
    (hroot : Text.isBlank root.toList = false) (honly : OnlyFails root) :
    chainText (front ++ [root]) ≠
      String.ofList (Text.join [':', ' '] (causes (front ++ [root]))) := by
  intro heq
  have htelling := tellingMessages_concat hfront hroot
  rw [if_pos honly, List.append_nil] at htelling
  rw [causes_concat front hroot] at heq
  by_cases hnone : tellingFront front = []
  · rw [hnone] at htelling heq
    have hnothing : chainText (front ++ [root]) = "Template error (no details available)" := by
      rw [chainText, htelling]
    have hstart : wrapperStart <+: (chainText (front ++ [root])).toList := by
      rw [heq, String.toList_ofList]
      exact honly
    rw [hnothing] at hstart
    exact absurd hstart (by decide)
  · rw [chainText_of_telling (htelling ▸ hnone), htelling, String.ofList_inj,
      Text.join_concat hnone] at heq
    have hlength := congrArg List.length heq
    simp only [List.length_append, List.length_cons] at hlength
    omega

/-- Told by the rule, a chain ends with its root, and the messages that are told stand in its order.
What it comes to is what the rule tells exactly if the root does not begin like the messages that
only say that rendering failed. If it does, then the root is what is missing. -/
theorem chainText_tells_causes_iff (hfront : front ≠ [])
    (hroot : Text.isBlank root.toList = false) :
    Text.trim root.toList <:+ Text.join [':', ' '] (causes (front ++ [root])) ∧
      (causes (front ++ [root])).Sublist ((front ++ [root]).map fun m => Text.trim m.toList) ∧
      (chainText (front ++ [root]) =
          String.ofList (Text.join [':', ' '] (causes (front ++ [root]))) ↔ ¬ OnlyFails root) ∧
      (OnlyFails root → causes (front ++ [root]) =
        tellingMessages (front ++ [root]) ++ [Text.trim root.toList]) := by
  have hcauses := causes_concat front hroot
  have htelling := tellingMessages_concat hfront hroot
  refine ⟨?_, ?_, ⟨fun heq honly => ?_, fun honly => ?_⟩, fun honly => ?_⟩
  · rw [hcauses]
    exact suffix_join_concat _ _ _
  · rw [hcauses, List.map_append]
    exact ((List.filter_sublist).map _).append (List.Sublist.refl _)
  · exact chainText_ne_of_onlyFails hfront hroot honly heq
  · rw [if_neg honly, ← hcauses] at htelling
    have hne : tellingMessages (front ++ [root]) ≠ [] := by
      rw [htelling, hcauses]
      exact List.concat_ne_nil _ _
    rw [chainText_of_telling hne, htelling]
  · rw [htelling, hcauses, if_pos honly, List.append_nil]

end

/-- The reason that a page gives for its failure begins like the message around it. -/
theorem chainText_tells_causes_iff_chart :
    let front := ["Failed to render 'index.html'", "Function call 'throw' failed"]
    let root := "Failed to render the chart"
    front ≠ [] ∧ Text.isBlank root.toList = false ∧
      ¬ (chainText (front ++ [root]) =
        String.ofList (Text.join [':', ' '] (causes (front ++ [root])))) ∧
      causes (front ++ [root]) =
        ["Function call 'throw' failed".toList, "Failed to render the chart".toList] := by
  intro front root
  have hfront : front ≠ [] := List.cons_ne_nil _ _
  have hroot : Text.isBlank root.toList = false := by decide +kernel
  have honly : OnlyFails root := by decide +kernel
  obtain ⟨-, -, htold, -⟩ := chainText_tells_causes_iff hfront hroot
  exact ⟨hfront, hroot, fun heq => htold.mp heq honly, by decide +kernel⟩

/-- The text of a chain need not end with its root. -/
theorem not_forall_chainText_ends_with_root :
    ¬ ∀ (front : List String) (root : String), front ≠ [] → Text.isBlank root.toList = false →
      Text.trim root.toList <:+ (chainText (front ++ [root])).toList := by
  intro h
  have hends := h ["Failed to render 'index.html'", "Function call 'throw' failed"]
    "Failed to render the chart" (List.cons_ne_nil _ _) (by decide +kernel)
  exact absurd hends (by decide +kernel)

end ViewRendering.Template
