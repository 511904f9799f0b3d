import ViewRendering.Proofs.Markup.OutputTags
import ViewRendering.Proofs.Markup.Protection
import ViewRendering.Proofs.Template.ExpressionReading
import ViewRendering.Template.NodeReader

/-!
How translated pages are read. Protected text becomes nodes that write the text again, plain
text and braces in turn, whatever construct stands behind it; the constructs for output
become an output, or an assignment and the output of what was assigned.
-/
namespace ViewRendering.Template

open ViewRendering.Reader
open Markup (Slot braceMark braceMark_eq construct opensConstruct opensConstruct_protect_append
  protect protect_of_not_opens protect_of_opens rawName slotTemplate)

def braceOutput : Node := .output (.ofTerm (.text "\x7b"))

/-- Nodes that write a literal text: plain pieces of it, and its other braces one by one. -/
inductive Literal : List Node → List Char → Prop
  | nil : Literal [] []
  | text {nodes : List Node} {s : List Char} (t : List Char) :
      Literal nodes s → Literal (.text t :: nodes) (t ++ s)
  | brace {nodes : List Node} {s : List Char} :
      Literal nodes s → Literal (braceOutput :: nodes) ('\x7b' :: s)

namespace Reader

/-- Where a literal text ends: at the end of the page or in front of a mark without a dash. -/
def Borders (rest : List Char) : Prop :=
  rest = [] ∨ (opensNode rest = true ∧ dashAhead rest = false)

variable {depth : Nat} {body : BodyReader} {place : Place} {nodes : List Node}
  {s rest left : List Char}

theorem output_of_expression {e : Expression} {r : List Char} (hblanks : blanks s = some ((), s))
    (h : expression depth s = some (e, ' ' :: '\x7d' :: '\x7d' :: r)) :
    output depth false ('\x7b' :: '\x7b' :: ' ' :: s) = some ((.output e, false), r) := by
  unfold output
  rw [bind_of_some (a := false) (r := ' ' :: s) rfl, bind_of_some (s := ' ' :: s) hblanks]
  simp only [Bool.false_eq_true, if_false]
  rw [bind_of_some h, bind_of_some (a := false) (r := r) rfl]
  rfl

theorem assign_of_expression {e : Expression} {n r : List Char} (hn : Plain n)
    (hblanks : blanks s = some ((), s))
    (h : expression depth s = some (e, ' ' :: '%' :: '\x7d' :: r)) :
    assign depth "set" false ("\x7b% set ".toList ++ (n ++ ' ' :: '=' :: ' ' :: s)) =
      some ((.assign (String.ofList n) e false, false), r) := by
  have hstart : tagStart "set" ("\x7b% set ".toList ++ (n ++ ' ' :: '=' :: ' ' :: s)) =
      some ((), n ++ ' ' :: '=' :: ' ' :: s) :=
    blanks_name hn _
  unfold assign
  rw [bind_of_some hstart, bind_of_some (name_append hn _),
    bind_of_some (a := ()) (r := ' ' :: s) rfl, bind_of_some (s := ' ' :: s) hblanks,
    bind_of_some h, bind_of_some (a := false) (r := r) rfl]
  rfl

theorem node_of_output (hplace : place ≠ .block) {n : Node} {dash : Bool} {r : List Char}
    (h : output depth false s = some ((n, dash), r)) :
    node depth body place s = some ((n, dash), r) := by
  have hflag : decide (place = .block) = false := decide_eq_false hplace
  unfold node
  rw [hflag]
  exact firstOf_cons_of_some h

theorem node_of_assign {n : Node} {dash : Bool} {r : List Char}
    (h : assign depth "set" false ("\x7b% set ".toList ++ s) = some ((n, dash), r)) :
    node depth body place ("\x7b% set ".toList ++ s) = some ((n, dash), r) := by
  have houtput (b : Bool) : output depth b ("\x7b% set ".toList ++ s) = none := rfl
  have hinclusion : inclusion ("\x7b% set ".toList ++ s) = none := rfl
  unfold node
  exact (firstOf_cons_of_none (houtput _)).trans
    ((firstOf_cons_of_none hinclusion).trans (firstOf_cons_of_some h))

theorem items_of_node {n : Node} {r : List Char} {trimLeft : Bool} (hopens : opensNode s = true)
    (hcomment : comment s = none) (h : node depth body place s = some ((n, false), r))
    (hlt : r.length < s.length)
    (hrest : items depth body place false r = some (nodes, left)) :
    items depth body place trimLeft s = some (n :: nodes, left) := by
  have hitem : item depth body place trimLeft s = some (([n], false), r) := by
    unfold item
    rw [if_pos hopens, either_of_none (bind_of_none hcomment), bind_of_some h]
    rfl
  rw [items, hitem]
  simp only [if_pos hlt, hrest]
  rfl

theorem opensNode_cons {c : Char} (h : ¬ (c = '\x7b' ∧ opensConstruct s = true)) :
    opensNode (c :: s) = false := by
  unfold opensNode
  split
  · rename_i heq
    obtain ⟨rfl, rfl⟩ := List.cons.inj heq
    simpa [opensConstruct] using h
  · rfl

theorem plainText_of_opensNode (h : opensNode s = true) : plainText s = ([], s) := by
  cases s with
  | nil => rfl
  | cons c s => rw [plainText, if_pos h]

theorem plainText_cons {c : Char} (h : opensNode (c :: s) = false) :
    plainText (c :: s) = (c :: (plainText s).1, (plainText s).2) := by
  rw [plainText, if_neg (by simp [h])]

/-- A brace that is left bare begins no construct, whatever stands behind the protected text. -/
theorem not_opens_protect_append {c : Char} (h : ¬ (c = '\x7b' ∧ opensConstruct s = true))
    (rest : List Char) : ¬ (c = '\x7b' ∧ opensConstruct (protect s ++ rest) = true) := by
  rintro ⟨hc, hopens⟩
  have hs : opensConstruct s = false := by simpa [hc] using h
  rw [opensConstruct_protect_append rest hs] at hopens
  exact Bool.noConfusion hopens

/-- Protected text begins with a plain stretch, up to its end or up to an escaped brace. -/
theorem exists_plain_stretch (hrest : Borders rest) (s : List Char) :
    ∃ t u, s = t ++ u ∧ protect s = t ++ protect u ∧
      plainText (protect s ++ rest) = (t, protect u ++ rest) ∧
      (u = [] ∨ ∃ u', u = '\x7b' :: u' ∧ opensConstruct u' = true) := by
  induction s with
  | nil =>
    refine ⟨[], [], rfl, rfl, ?_, Or.inl rfl⟩
    rcases hrest with rfl | ⟨hopens, -⟩
    · rfl
    · exact plainText_of_opensNode hopens
  | cons c s ih =>
    by_cases hc : c = '\x7b' ∧ opensConstruct s = true
    · refine ⟨[], c :: s, rfl, rfl, plainText_of_opensNode ?_, Or.inr ⟨s, by rw [hc.1], hc.2⟩⟩
      rw [protect_of_opens hc]
      rfl
    · obtain ⟨t, u, hs, hprotect, hplain, hu⟩ := ih
      have hopens : opensNode (c :: (protect s ++ rest)) = false :=
        opensNode_cons (not_opens_protect_append hc rest)
      refine ⟨c :: t, u, by rw [hs]; rfl, ?_, ?_, hu⟩
      · rw [protect_of_not_opens hc, hprotect]
        rfl
      · rw [protect_of_not_opens hc, List.cons_append, plainText_cons hopens, hplain]

theorem items_of_brace (hplace : place ≠ .block)
    (h : items (depth + 1) body place false rest = some (nodes, left)) :
    items (depth + 1) body place false (braceMark ++ rest) =
      some (braceOutput :: nodes, left) := by
  have hexpression := expression_text (s := ['\x7b']) depth (by decide) (Ends.output rest)
  have houtput := output_of_expression (by rfl) hexpression
  refine items_of_node rfl rfl (node_of_output hplace houtput) ?_ h
  simp only [List.length_append, braceMark_eq, List.length_cons]
  omega

theorem items_of_text {t : List Char} (hne : t ≠ []) (hplain : plainText (t ++ rest) = (t, rest))
    (hdash : dashAhead rest = false)
    (h : items depth body place false rest = some (nodes, left)) :
    items depth body place false (t ++ rest) = some (.text t :: nodes, left) := by
  have hopens : opensNode (t ++ rest) = false := by
    refine Bool.eq_false_iff.mpr fun hopens => hne ?_
    rw [plainText_of_opensNode hopens] at hplain
    exact (Prod.mk.inj hplain).1.symm
  have hitem : item depth body place false (t ++ rest) = some (([.text t], false), rest) := by
    unfold item
    rw [if_neg (by simp [hopens]), hplain]
    cases t with
    | nil => exact absurd rfl hne
    | cons c t => simp [hdash, trimmed]
  have hlt : rest.length < (t ++ rest).length := by
    have hpos := List.length_pos_iff.mpr hne
    rw [List.length_append]
    omega
  rw [items, hitem]
  simp only [if_pos hlt, h]
  rfl

/-- Protected text is read as nodes that write the text, whatever construct stands behind. -/
theorem exists_items_protect (hplace : place ≠ .block) (hrest : Borders rest) (s : List Char)
    (h : items (depth + 1) body place false rest = some (nodes, left)) :
    ∃ ms, Literal ms s ∧
      items (depth + 1) body place false (protect s ++ rest) = some (ms ++ nodes, left) := by
  -- on the length of the text: a plain stretch, an escaped brace, and a shorter text
  induction hn : s.length using Nat.strongRecOn generalizing s with
  | ind n ih =>
    obtain ⟨t, u, hs, hprotect, hplain, hu⟩ := exists_plain_stretch hrest s
    obtain ⟨ms, hms, hitems, hdash⟩ : ∃ ms, Literal ms u ∧
        items (depth + 1) body place false (protect u ++ rest) = some (ms ++ nodes, left) ∧
        dashAhead (protect u ++ rest) = false := by
      rcases hu with rfl | ⟨u', rfl, hopens⟩
      · refine ⟨[], .nil, h, ?_⟩
        rcases hrest with rfl | ⟨-, hdash⟩
        · rfl
        · exact hdash
      · have hlt : u'.length < n := by
          rw [← hn, hs, List.length_append, List.length_cons]
          omega
        obtain ⟨ms, hms, hitems⟩ := ih u'.length hlt u' rfl
        rw [protect_of_opens ⟨rfl, hopens⟩, List.append_assoc]
        exact ⟨braceOutput :: ms, .brace hms, items_of_brace hplace hitems, rfl⟩
    rw [hprotect, List.append_assoc] at hplain ⊢
    rw [hs]
    by_cases hne : t = []
    · rw [hne]
      exact ⟨ms, hms, hitems⟩
    · exact ⟨.text t :: ms, .text t hms, items_of_text hne hplain hdash hitems⟩

/-- The nodes of the construct for unescaped output: the value goes through a name of its own. -/
def rawNodes (n : List Char) : List Node :=
  [.assign (String.ofList rawName) (.ofTerm (.name (String.ofList n))) false,
    .output (.mk (.name (String.ofList rawName)) false [.mk "safe" []])]

theorem plain_rawName : Plain rawName := by decide

/-- The construct for unescaped output with the text behind it: an assignment and an output. -/
theorem construct_raw_append (n rest : List Char) :
    construct .raw n ++ rest =
      "\x7b% set ".toList ++ (rawName ++ ' ' :: '=' :: ' ' :: (n ++ ' ' :: '%' :: '\x7d' ::
        '\x7b' :: '\x7b' :: ' ' :: (rawName ++ (["safe".toList].flatMap filterText ++
          ' ' :: '\x7d' :: '\x7d' :: rest)))) := by
  unfold construct
  simp only [List.append_assoc]
  rfl

theorem items_of_output (hplace : place ≠ .block) {n : List Char} (fs : List (List Char))
    (hn : Plain n) (hfs : ∀ f ∈ fs, Plain f)
    (h : items (depth + 1) body place false rest = some (nodes, left)) :
    items (depth + 1) body place false
        ('\x7b' :: '\x7b' :: ' ' ::
          (n ++ (fs.flatMap filterText ++ ' ' :: '\x7d' :: '\x7d' :: rest))) =
      some (.output
        (.mk (.name (String.ofList n)) false (fs.map fun f => .mk (String.ofList f) [])) :: nodes,
        left) := by
  have houtput := output_of_expression (blanks_name hn _)
    (expression_name depth fs hn hfs (.output rest))
  refine items_of_node rfl rfl (node_of_output hplace houtput) ?_ h
  simp only [List.length_cons, List.length_append]
  omega

theorem items_of_assign {n m : List Char} (hn : Plain n) (hm : Plain m)
    (h : items (depth + 1) body place false rest = some (nodes, left)) :
    items (depth + 1) body place false
        ("\x7b% set ".toList ++ (m ++ ' ' :: '=' :: ' ' :: (n ++ ' ' :: '%' :: '\x7d' :: rest))) =
      some (.assign (String.ofList m) (.ofTerm (.name (String.ofList n))) false :: nodes,
        left) := by
  have hassign := assign_of_expression hm (blanks_name hn _)
    (expression_name depth [] hn (by simp) (.tag rest))
  refine items_of_node rfl rfl (node_of_assign hassign) ?_ h
  simp only [List.length_cons, List.length_append]
  omega

theorem items_of_raw (hplace : place ≠ .block) {n : List Char} (hn : Plain n)
    (h : items (depth + 1) body place false rest = some (nodes, left)) :
    items (depth + 1) body place false (construct .raw n ++ rest) =
      some (rawNodes n ++ nodes, left) := by
  rw [construct_raw_append]
  exact items_of_assign hn plain_rawName
    (items_of_output hplace ["safe".toList] plain_rawName (by decide) h)

theorem exact_refuses_protect {m : String} {k : Char} (hm : m.toList = ['\x7b', k])
    (hk : k = '%' ∨ k = '#') (hs : s ≠ []) (rest : List Char) :
    exact m (protect s ++ rest) = none := by
  apply exact_of_not_prefix
  rw [hm]
  rintro ⟨r, hr⟩
  cases s with
  | nil => exact hs rfl
  | cons c s =>
    by_cases hc : c = '\x7b' ∧ opensConstruct s = true
    · rw [protect_of_opens hc, braceMark_eq] at hr
      rcases hk with rfl | rfl <;> simp at hr
    · rw [protect_of_not_opens hc] at hr
      simp only [List.cons_append, List.nil_append, List.cons.injEq] at hr
      refine not_opens_protect_append hc rest ⟨hr.1.symm, ?_⟩
      rw [← hr.2]
      rcases hk with rfl | rfl <;> rfl

theorem opening_refuses_protect {m : String} {k : Char} (hm : m.toList = ['\x7b', k])
    (hk : k = '%' ∨ k = '#') (hs : s ≠ []) : opening m (protect s ++ rest) = none := by
  have hexact := exact_refuses_protect hm hk hs rest
  unfold opening
  rw [either_of_none (bind_of_none hexact), bind_of_none hexact]

/-- Protected text has no head; it begins with that of what stands behind it. -/
theorem head_refuses_protect (hcomment : comment rest = none) (hparent : parentTag rest = none)
    (s : List Char) :
    comment (protect s ++ rest) = none ∧ parentTag (protect s ++ rest) = none := by
  by_cases hs : s = []
  · rw [hs]
    exact ⟨hcomment, hparent⟩
  · exact ⟨bind_of_none (opening_refuses_protect rfl (Or.inr rfl) hs),
      bind_of_none (bind_of_none (opening_refuses_protect rfl (Or.inl rfl) hs))⟩

end Reader

theorem readNodes_of_items {s : List Char} {nodes : List Node}
    (hhead : Reader.comment s = none ∧ Reader.parentTag s = none)
    (h : Reader.items (s.length + 1) (bodyAt (s.length + 1) s.length) .top false s =
      some (nodes, [])) :
    readNodes s = some nodes := by
  have hheadAt : headAt (s.length + 1) false s = ([], false, s) := by
    rw [headAt, hhead.1, hhead.2]
  have hbody : bodyAt (s.length + 1) (s.length + 1) .top false s = some (nodes, []) := h
  unfold readNodes
  simp only [hheadAt, hbody, List.nil_append]

def slotNodes (s : Slot) : List Node :=
  if s.escaped then [.output (.ofTerm (.name (String.ofList s.name)))] else Reader.rawNodes s.name

inductive Slotted : List Node → List Slot → List Char → Prop
  | last {nodes : List Node} {last : List Char} : Literal nodes last → Slotted nodes [] last
  | slot {s : Slot} {ns nodes : List Node} {slots : List Slot} {last : List Char} :
      Literal ns s.before → Slotted nodes slots last →
      Slotted (ns ++ (slotNodes s ++ nodes)) (s :: slots) last

namespace Reader

variable {depth : Nat} {body : BodyReader} {place : Place} {nodes : List Node}
  {rest left : List Char}

theorem items_of_slot (hplace : place ≠ .block) {s : Slot} (hs : Plain s.name)
    (h : items (depth + 1) body place false rest = some (nodes, left)) :
    items (depth + 1) body place false (construct s.mode s.name ++ rest) =
      some (slotNodes s ++ nodes, left) := by
  unfold slotNodes Slot.mode
  cases s.escaped with
  | true =>
    have hconstruct : construct .escaped s.name ++ rest =
        '\x7b' :: '\x7b' :: ' ' :: (s.name ++ (([] : List (List Char)).flatMap filterText ++
          ' ' :: '\x7d' :: '\x7d' :: rest)) := by
      unfold construct
      simp only [List.append_assoc]
      rfl
    rw [if_pos rfl, hconstruct]
    exact items_of_output hplace [] hs (by simp) h
  | false => exact items_of_raw hplace hs h

theorem slot_borders (s : Slot) (rest : List Char) :
    Borders (construct s.mode s.name ++ rest) := by
  unfold Slot.mode
  cases s.escaped <;> exact Or.inr ⟨rfl, rfl⟩

theorem exists_items_slots (hplace : place ≠ .block) {slots : List Slot} (last : List Char)
    (hslots : ∀ s ∈ slots, Plain s.name)
    (hend : items (depth + 1) body place false [] = some ([], [])) :
    ∃ nodes, Slotted nodes slots last ∧
      items (depth + 1) body place false (slotTemplate slots last) = some (nodes, []) := by
  induction slots with
  | nil =>
    obtain ⟨ms, hms, hitems⟩ := exists_items_protect hplace (Or.inl rfl) last hend
    rw [List.append_nil, List.append_nil] at hitems
    exact ⟨ms, .last hms, hitems⟩
  | cons s slots ih =>
    obtain ⟨hs, hrest⟩ := List.forall_mem_cons.mp hslots
    obtain ⟨nodes, hnodes, hitems⟩ := ih hrest
    obtain ⟨ns, hns, hall⟩ := exists_items_protect hplace (slot_borders s _) s.before
      (items_of_slot hplace hs hitems)
    exact ⟨_, .slot hns hnodes, hall⟩

/-- A page of slots has no head. -/
theorem head_refuses_slots (slots : List Slot) (last : List Char) :
    comment (slotTemplate slots last) = none ∧ parentTag (slotTemplate slots last) = none := by
  cases slots with
  | nil =>
    have hprotect : comment (protect last ++ []) = none ∧
        parentTag (protect last ++ []) = none := head_refuses_protect rfl rfl last
    rw [List.append_nil] at hprotect
    exact hprotect
  | cons s slots =>
    have hconstruct : comment (construct s.mode s.name ++ slotTemplate slots last) = none ∧
        parentTag (construct s.mode s.name ++ slotTemplate slots last) = none := by
      unfold Slot.mode
      cases s.escaped <;> exact ⟨rfl, rfl⟩
    exact head_refuses_protect hconstruct.1 hconstruct.2 s.before

end Reader

/-- A page of slots is read as nodes that write it. -/
theorem exists_readNodes_slots {slots : List Slot} (last : List Char)
    (hslots : ∀ s ∈ slots, Reader.Plain s.name) :
    ∃ nodes, Slotted nodes slots last ∧ readNodes (slotTemplate slots last) = some nodes := by
  have hhead := Reader.head_refuses_slots slots last
  have hend : Reader.items ((slotTemplate slots last).length + 1)
      (bodyAt ((slotTemplate slots last).length + 1) (slotTemplate slots last).length) .top false
      [] = some ([], []) := by
    rw [Reader.items]
    rfl
  obtain ⟨nodes, hnodes, hitems⟩ :=
    Reader.exists_items_slots (by decide) last hslots hend
  exact ⟨nodes, hnodes, readNodes_of_items hhead hitems⟩

end ViewRendering.Template
