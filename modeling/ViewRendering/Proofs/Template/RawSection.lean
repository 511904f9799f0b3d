import ViewRendering.Proofs.Template.PageRendering

/-!
Raw sections. Nothing is evaluated between the two tags of a raw section, so its text comes
out as it stands in the translated page: protected. No end tag can begin in protected text,
and the section ends where it should; but the escapes that protect the text stay in it, and
it comes out as it was exactly if there are none.
-/
namespace ViewRendering

namespace Markup

def rawSection (text : List Char) : List Char :=
  "<% raw %>".toList ++ (text ++ "<% endraw %>".toList)

def rawTemplate (text : List Char) : List Char :=
  "\x7b% raw %\x7d".toList ++ (protect text ++ "\x7b% endraw %\x7d".toList)

/-- No brace of the text needs an escape: none stands at its end or in front of a character that
would make it begin a construct. -/
def Bare (s : List Char) : Prop :=
  ∀ before after, s = before ++ '\x7b' :: after → opensConstruct after = false

theorem length_le_protect (s : List Char) : s.length ≤ (protect s).length := by
  induction s with
  | nil => exact Nat.zero_le _
  | cons c s ih =>
    by_cases hc : c = '\x7b' ∧ opensConstruct s = true
    · rw [protect_of_opens hc, braceMark_eq]
      simp only [List.length_append, List.length_cons]
      omega
    · rw [protect_of_not_opens hc]
      simp only [List.length_cons]
      omega

/-- Protection changes nothing but texts with a brace to escape. -/
theorem protect_eq_self_iff (s : List Char) : protect s = s ↔ Bare s := by
  induction s with
  | nil => simp [protect, Bare]
  | cons c s ih =>
    by_cases hc : c = '\x7b' ∧ opensConstruct s = true
    · constructor
      · intro h
        have hlength := congrArg List.length h
        have hle := length_le_protect s
        rw [protect_of_opens hc, braceMark_eq] at hlength
        simp only [List.length_append, List.length_cons, List.length_nil] at hlength
        omega
      · intro h
        have hnot := h [] s (by rw [hc.1]; rfl)
        rw [hc.2] at hnot
        exact Bool.noConfusion hnot
    · rw [protect_of_not_opens hc, List.cons.injEq, ih]
      constructor
      · rintro ⟨-, h⟩ before after hsplit
        cases before with
        | nil =>
          obtain ⟨rfl, rfl⟩ := List.cons.inj hsplit
          exact Bool.eq_false_iff.mpr fun hopens => hc ⟨rfl, hopens⟩
        | cons x before => exact h before after (List.cons.inj hsplit).2
      · intro h
        exact ⟨rfl, fun before after hs => h (c :: before) after (by rw [hs]; rfl)⟩

/-- A tag without a trim marker leaves the text behind it as it is. -/
theorem tagBefore_of_not_trimmed {inside : List Char}
    (h : (withoutTrimMark (modeOf inside).2).2 = false) (rest : List Char) :
    tagBefore inside rest = (⟨inside, []⟩, rest) := by
  unfold tagBefore
  rw [h]
  rfl

theorem Reading.tag_of_eq {d : Delimiters} {page before rest inside after left : List Char}
    {t : Tag} {segments : List Segment} (ht : tagBefore inside after = (t, left))
    (hopen : Text.FirstAt d.opening page before rest) (hpercent : rest.head? ≠ some '%')
    (hclose : Text.FirstAt d.closing rest inside after) (h : Reading d left segments) :
    Reading d page (.literal before :: .tag t :: segments) := by
  obtain ⟨rfl, rfl⟩ := Prod.mk.inj ht.symm
  exact Reading.tag hopen hpercent hclose h

theorem reading_rawSection {text : List Char} (h : ¬ usualDelimiters.opening <:+: text) :
    Reading usualDelimiters (rawSection text)
      [.literal [], .tag ⟨" raw ".toList, []⟩, .literal text, .tag ⟨" endraw ".toList, []⟩,
        .literal []] := by
  have hbegin : Text.FirstAt usualDelimiters.opening (rawSection text) []
      (" raw ".toList ++ (usualDelimiters.closing ++ (text ++ "<% endraw %>".toList))) :=
    Text.firstAt_of_not_infix (s := []) (by decide) (by simp) _
  have hbeginEnd : Text.FirstAt usualDelimiters.closing
      (" raw ".toList ++ (usualDelimiters.closing ++ (text ++ "<% endraw %>".toList)))
      " raw ".toList (text ++ "<% endraw %>".toList) :=
    Text.firstAt_of_not_infix (by decide) (by simp [List.infix_cons_iff]) _
  have hend : Text.FirstAt usualDelimiters.opening (text ++ "<% endraw %>".toList) text
      (" endraw ".toList ++ (usualDelimiters.closing ++ [])) :=
    Text.firstAt_of_not_infix (by decide) h _
  have hendEnd : Text.FirstAt usualDelimiters.closing
      (" endraw ".toList ++ (usualDelimiters.closing ++ [])) " endraw ".toList [] :=
    Text.firstAt_of_not_infix (by decide) (by simp [List.infix_cons_iff]) _
  have hlast : Reading usualDelimiters [] [.literal []] := .plain (by simp [usualDelimiters])
  exact .tag_of_eq (tagBefore_of_not_trimmed (by decide) _) hbegin (by simp) hbeginEnd
    (.tag_of_eq (tagBefore_of_not_trimmed (by decide) _) hend (by simp) hendEnd hlast)

theorem assemble_literal (d : Delimiters) (pending s : List Char) (rest : List Segment) :
    assemble d pending (.literal s :: rest) = assemble d (pending ++ s) rest := by
  rw [assemble]
  rfl

theorem assemble_of_construct? {d : Delimiters} {s : Segment} {c : List Char}
    (h : s.construct? = some c) (pending : List Char) (rest : List Segment) :
    assemble d pending (s :: rest) = protect pending ++ (c ++ assemble d [] rest) := by
  rw [assemble, h]

theorem translate_rawSection {text : List Char} (h : ¬ usualDelimiters.opening <:+: text) :
    translate usualDelimiters (rawSection text) = .ok (rawTemplate text) := by
  have hraw : (Segment.tag ⟨" raw ".toList, []⟩).construct? = some "\x7b% raw %\x7d".toList := by
    decide
  have hendraw : (Segment.tag ⟨" endraw ".toList, []⟩).construct? =
      some "\x7b% endraw %\x7d".toList := by
    decide
  have hassemble : assemble usualDelimiters []
      [.literal [], .tag ⟨" raw ".toList, []⟩, .literal text, .tag ⟨" endraw ".toList, []⟩,
        .literal []] = rawTemplate text := by
    have hlast : assemble usualDelimiters ([] ++ []) [] = [] := rfl
    rw [assemble_literal, assemble_of_construct? hraw, assemble_literal,
      assemble_of_construct? hendraw, assemble_literal, hlast, List.append_nil, List.append_nil]
    rfl
  have hopening : usualDelimiters.opening ≠ [] := by decide
  exact (translate_eq_ok_iff hopening _ _).mpr ⟨_, reading_rawSection h, hassemble.symm⟩

end Markup

namespace Template

open ViewRendering.Reader
open Markup (braceMark_eq opensConstruct protect protect_of_not_opens protect_of_opens rawSection
  rawTemplate translate_rawSection)

namespace Reader

variable {depth : Nat} {body : BodyReader} {place : Place} {s rest : List Char}

theorem rawBody_cons {c : Char} (h : plainTag "endraw" (c :: s) = none) :
    rawBody (c :: s) = (rawBody s).map fun p => (c :: p.1, p.2) := by
  rw [rawBody, h]

/-- The end tag of a raw section is the one behind the protected text. -/
theorem rawBody_protect (s rest : List Char) :
    rawBody (protect s ++ ("\x7b% endraw %\x7d".toList ++ rest)) =
      some (protect s, (false, false), rest) := by
  induction s with
  | nil => rfl
  | cons c s ih =>
    by_cases hc : c = '\x7b' ∧ opensConstruct s = true
    · rw [protect_of_opens hc, braceMark_eq]
      simp only [List.cons_append, List.nil_append]
      -- at none of the nine characters of the escape
      iterate 9 rw [rawBody_cons (by rfl)]
      rw [ih]
      rfl
    · have hopening : opening "\x7b%" (protect (c :: s) ++ ("\x7b% endraw %\x7d".toList ++ rest)) =
          none :=
        opening_refuses_protect rfl (Or.inl rfl) (by simp)
      have hend : plainTag "endraw"
          (protect (c :: s) ++ ("\x7b% endraw %\x7d".toList ++ rest)) = none :=
        bind_of_none hopening
      rw [protect_of_not_opens hc, List.cons_append] at hend ⊢
      rw [rawBody_cons hend, ih]
      rfl

theorem raw_rawTemplate (s : List Char) :
    raw (rawTemplate s) = some ((.text (protect s), false), []) := by
  have hbegin : plainTag "raw" (rawTemplate s) =
      some ((false, false), protect s ++ "\x7b% endraw %\x7d".toList) := rfl
  have hbody := rawBody_protect s []
  rw [List.append_nil] at hbody
  unfold raw
  rw [bind_of_some hbegin]
  simp only [hbody]
  rfl

/-- Nothing but a raw section begins with the tag of one. -/
theorem node_of_raw {n : Node} {dash : Bool}
    (h : raw ("\x7b% raw %\x7d".toList ++ s) = some ((n, dash), rest)) :
    node depth body place ("\x7b% raw %\x7d".toList ++ s) = some ((n, dash), rest) := by
  have houtput (b : Bool) : output depth b ("\x7b% raw %\x7d".toList ++ s) = none := rfl
  have hinclusion : inclusion ("\x7b% raw %\x7d".toList ++ s) = none := rfl
  have hset : assign depth "set" false ("\x7b% raw %\x7d".toList ++ s) = none := rfl
  have hsetGlobal : assign depth "set_global" true ("\x7b% raw %\x7d".toList ++ s) = none := rfl
  have hchoice : choice depth body place ("\x7b% raw %\x7d".toList ++ s) = none := rfl
  have hloop : loop depth body ("\x7b% raw %\x7d".toList ++ s) = none := rfl
  unfold node
  refine (firstOf_cons_of_none (houtput _)).trans ?_
  refine (firstOf_cons_of_none hinclusion).trans ?_
  refine (firstOf_cons_of_none hset).trans ?_
  refine (firstOf_cons_of_none hsetGlobal).trans ?_
  refine (firstOf_cons_of_none hchoice).trans ?_
  refine (firstOf_cons_of_none hloop).trans ?_
  exact firstOf_cons_of_some h

end Reader

theorem readNodes_rawTemplate (s : List Char) :
    readNodes (rawTemplate s) = some [.text (protect s)] := by
  have hhead : Reader.comment (rawTemplate s) = none ∧ Reader.parentTag (rawTemplate s) = none :=
    ⟨rfl, rfl⟩
  have hlast : Reader.items ((rawTemplate s).length + 1)
      (bodyAt ((rawTemplate s).length + 1) (rawTemplate s).length) .top false [] =
        some ([], []) := by
    rw [Reader.items]
    rfl
  refine readNodes_of_items hhead (Reader.items_of_node rfl rfl
    (Reader.node_of_raw (Reader.raw_rawTemplate s)) ?_ hlast)
  unfold rawTemplate
  simp

/-- A raw section writes its text protected, whatever the locals are. -/
theorem compile_rawSection (filters : Dict Filter) (view : String) {text : List Char}
    (h : ¬ usualDelimiters.opening <:+: text) :
    ∃ t, compile usualDelimiters filters view (rawSection text) = .ok t ∧
      ∀ engine locals, t.execute locals engine = .ok (protect text) := by
  have hnodes : Slotted [.text (protect text)] [] (protect text) := by
    have hliteral := Literal.text (protect text) Literal.nil
    rw [List.append_nil] at hliteral
    exact .last hliteral
  refine ⟨⟨Page.ofNodes view [.text (protect text)], filters⟩, ?_, fun engine locals => ?_⟩
  · unfold compile
    simp only [translate_rawSection h,
      readPage_of_simple view (readNodes_rawTemplate text) hnodes.simple]
  · exact execute_of_slotted filters view hnodes (by simp) engine locals (fun _ => "") (by simp)

/-- Literal text alone comes out as it is. -/
theorem compile_literal (filters : Dict Filter) (view : String) {text : List Char}
    (h : ¬ usualDelimiters.opening <:+: text) :
    ∃ t, compile usualDelimiters filters view text = .ok t ∧
      ∀ engine locals, t.execute locals engine = .ok text := by
  have hnone {P : Markup.Slot → Prop} : ∀ s ∈ [], P s := fun _ hs => nomatch hs
  obtain ⟨t, hcompile, hexecute⟩ := compile_slotPage filters view hnone h hnone
  exact ⟨t, hcompile, fun engine locals => hexecute engine locals (fun _ => "") (by simp)⟩

end Template

end ViewRendering
