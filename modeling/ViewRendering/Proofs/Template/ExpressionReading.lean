import ViewRendering.Proofs.Text.Reader
import ViewRendering.Template.ExpressionReader

/-!
How the simplest expressions are read: a quoted text, and a name with filters behind it. The
readers of richer expressions come first and have to refuse, each at the mark that it
expects behind the part it has read.
-/
namespace ViewRendering.Template.Reader

open ViewRendering.Reader

inductive Ends : List Char → Prop
  | output (r : List Char) : Ends (' ' :: '\x7d' :: '\x7d' :: r)
  | tag (r : List Char) : Ends (' ' :: '%' :: '\x7d' :: r)

inductive Continues : List Char → Prop
  | filter (r : List Char) : Continues (' ' :: '|' :: ' ' :: r)
  | ends {r : List Char} : Ends r → Continues r

/-- The words that are no names, and that no name may begin with. -/
def reserved : List String := ["not", "true", "false", "True", "False"]

structure Plain (n : List Char) : Prop where
  isName : ∃ c r, n = c :: r ∧ isNameStart c ∧ r.all isNamePart
  notReserved : ∀ w ∈ reserved, ¬ w.toList <+: n

instance (n : List Char) : Decidable (Plain n) :=
  decidable_of_iff
    (((match n with | c :: r => isNameStart c && r.all isNamePart | [] => false) = true) ∧
      ∀ w ∈ reserved, ¬ w.toList <+: n) (by
    constructor
    · rintro ⟨h, hreserved⟩
      cases n with
      | nil => cases h
      | cons c r => exact ⟨⟨c, r, rfl, by simpa using h⟩, hreserved⟩
    · rintro ⟨⟨c, r, rfl, hc, hr⟩, hreserved⟩
      exact ⟨by simp [hc, hr], hreserved⟩)

variable {g : Rules} {n s t : List Char}

theorem Continues.exists_eq_cons (ht : Continues t) : ∃ r, t = ' ' :: r := by
  rcases ht with r | ⟨r⟩ | ⟨r⟩ <;> exact ⟨_, rfl⟩

theorem isNamePart_of_isNameStart {c : Char} (h : isNameStart c) : isNamePart c := by
  simp only [isNameStart, isNamePart, Char.isAlphanum, Bool.or_eq_true] at h ⊢
  exact h.imp_left Or.inl

theorem Plain.not_mem (hn : Plain n) {k : Char} (hk : isNamePart k = false) : k ∉ n := by
  obtain ⟨⟨c, r, rfl, hc, hr⟩, -⟩ := hn
  intro hmem
  have hpart : isNamePart k = true := by
    rcases List.mem_cons.mp hmem with rfl | hmem
    · exact isNamePart_of_isNameStart hc
    · exact List.all_eq_true.mp hr k hmem
  rw [hk] at hpart
  exact Bool.noConfusion hpart

/-- A name ends at a blank. -/
theorem name_append (hn : Plain n) (r : List Char) :
    name (n ++ ' ' :: r) = some (String.ofList n, ' ' :: r) := by
  obtain ⟨⟨c, tail, rfl, hc, htail⟩, -⟩ := hn
  have hall : ∀ x ∈ tail, isNamePart x = true := List.all_eq_true.mp htail
  have htake : (tail ++ ' ' :: r).takeWhile isNamePart = tail := by
    rw [List.takeWhile_append_of_pos hall]
    simp [isNamePart]
  have hdrop : (tail ++ ' ' :: r).dropWhile isNamePart = ' ' :: r := by
    rw [List.dropWhile_append_of_pos hall]
    simp [isNamePart]
  unfold name
  simp only [List.cons_append, hc, if_true, htake, hdrop]

theorem pathBelow_append (hn : Plain n) (k : Nat) (r : List Char) :
    pathBelow (k + 1) (n ++ ' ' :: r) = some ((), ' ' :: r) := by
  unfold pathBelow
  dsimp only
  rw [bind_of_some (name_append hn r), bind_of_some (many_of_none rfl)]
  rfl

theorem path_append (hn : Plain n) (r : List Char) :
    path (n ++ ' ' :: r) = some (String.ofList n, ' ' :: r) := by
  have hlength : (n ++ ' ' :: r).length = (n.length + r.length) + 1 := by simp; omega
  have hbelow : (fun s => pathBelow s.length s : Reader Unit) (n ++ ' ' :: r) =
      some ((), ' ' :: r) := by
    dsimp only
    rw [hlength]
    exact pathBelow_append hn _ r
  unfold path
  rw [bind_of_some (sourceOf_append (p := fun s => pathBelow s.length s) hbelow)]
  rfl

theorem call_refuses (hn : Plain n) (ht : Continues t) : call g (n ++ t) = none := by
  obtain ⟨r, rfl⟩ := ht.exists_eq_cons
  unfold call
  rw [bind_of_some (name_append hn r), bind_of_none]
  rcases ht with r | ⟨r⟩ | ⟨r⟩ <;> rfl

/-- A word that no name begins with is not read from a name. -/
theorem exact_refuses (hn : Plain n) {w : String} (hw : w ∈ reserved) (r : List Char) :
    exact w (n ++ ' ' :: r) = none := by
  apply exact_of_not_prefix
  intro hprefix
  have hblank : ∀ w ∈ reserved, ' ' ∉ w.toList := by decide
  rcases Nat.le_total w.toList.length n.length with hle | hle
  · exact hn.notReserved w hw (List.prefix_of_prefix_length_le hprefix (List.prefix_append n _) hle)
  · -- a longer word would go on with the blank behind the name
    obtain ⟨x, hx⟩ := List.prefix_of_prefix_length_le (List.prefix_append n _) hprefix hle
    rw [← hx, List.prefix_append_right_inj] at hprefix
    cases x with
    | nil =>
      rw [List.append_nil] at hx
      exact hn.notReserved w hw (hx ▸ List.prefix_rfl)
    | cons c x =>
      obtain ⟨rfl, -⟩ := List.cons_prefix_cons.mp hprefix
      exact hblank w hw (hx ▸ List.mem_append_right n List.mem_cons_self)

theorem boolean_refuses (hn : Plain n) (r : List Char) : boolean (n ++ ' ' :: r) = none := by
  apply firstOf_eq_none
  simp only [List.mem_cons, List.not_mem_nil, or_false]
  rintro p (rfl | rfl | rfl | rfl) <;> exact bind_of_none (exact_refuses hn (by decide) r)

/-- What begins like a name does not begin like a number or a mark. -/
theorem not_mark_of_isNameStart {c : Char} (h : isNameStart c) :
    c ∉ ['-', '(', '"', '\'', Char.ofNat 96] ∧ c.isDigit = false := by
  constructor
  · intro hc
    simp only [List.mem_cons, List.not_mem_nil, or_false] at hc
    rcases hc with rfl | rfl | rfl | rfl | rfl <;> revert h <;> decide
  · refine Bool.eq_false_iff.mpr fun hdigit => ?_
    change (decide (48 ≤ c.val) && decide (c.val ≤ 57)) = true at hdigit
    change (decide (65 ≤ c.val ∧ c.val ≤ 90) || (decide (97 ≤ c.val) && decide (c.val ≤ 122)) ||
      c == '_') = true at h
    simp only [Bool.or_eq_true, Bool.and_eq_true, decide_eq_true_eq, beq_iff_eq,
      UInt32.le_iff_toNat_le, UInt32.reduceToNat] at h hdigit
    rcases h with h | rfl
    · omega
    · exact absurd hdigit (by decide)

theorem exact_singleton_of_ne {c m : Char} (h : c ≠ m) (s : List Char) :
    exact (String.singleton m) (c :: s) = none := by
  apply exact_of_not_prefix
  rw [String.toList_singleton]
  intro hprefix
  exact h (List.cons_prefix_cons.mp hprefix).1.symm

theorem sign_wholeDigits_refuse {c : Char} (hc : isNameStart c) (s : List Char) :
    sign (c :: s) = some (false, c :: s) ∧ wholeDigits (c :: s) = none := by
  obtain ⟨hmark, hdigit⟩ := not_mark_of_isNameStart hc
  constructor
  · have hdash : exact "-" (c :: s) = none :=
      exact_singleton_of_ne (m := '-') (fun h => hmark (by simp [h])) s
    unfold sign
    rw [bind_of_some (maybe_of_none hdash)]
    rfl
  · have hzero : c ≠ '0' := by
      rintro rfl
      exact absurd hdigit (by decide)
    unfold wholeDigits
    split
    · rename_i heq
      exact absurd (List.cons.inj heq).1 hzero
    · rename_i heq
      rw [← (List.cons.inj heq).1, hdigit]
      rfl
    · rfl

theorem real_refuses {c : Char} (hc : isNameStart c) (s : List Char) : real (c :: s) = none := by
  obtain ⟨hsign, hdigits⟩ := sign_wholeDigits_refuse hc s
  unfold real
  rw [bind_of_some hsign, bind_of_none hdigits]

theorem whole_refuses {c : Char} (hc : isNameStart c) (s : List Char) : whole (c :: s) = none := by
  obtain ⟨hsign, hdigits⟩ := sign_wholeDigits_refuse hc s
  unfold whole
  rw [bind_of_some hsign, bind_of_none hdigits]

theorem between_of_ne {c q : Char} (h : c ≠ q) (s : List Char) : between q (c :: s) = none := by
  unfold between
  exact if_neg h

theorem quotedText_refuses {c : Char} (hc : isNameStart c) (s : List Char) :
    quotedText (c :: s) = none := by
  have hmark := (not_mark_of_isNameStart hc).1
  apply bind_of_none
  apply firstOf_eq_none
  simp only [List.mem_cons, List.not_mem_nil, or_false]
  rintro p (rfl | rfl | rfl) <;>
    exact between_of_ne (fun heq => hmark (by simp [heq])) s

theorem blanks_name (hn : Plain n) (r : List Char) : blanks (n ++ r) = some ((), n ++ r) := by
  obtain ⟨c, tail, rfl, hc, -⟩ := hn.isName
  have hblank : isBlank c = false := by
    cases hb : isBlank c with
    | false => rfl
    | true =>
      simp only [isBlank, Bool.or_eq_true, beq_iff_eq] at hb
      rcases hb with ((rfl | rfl) | rfl) | rfl <;> exact absurd hc (by decide)
  unfold blanks
  rw [List.cons_append, List.dropWhile_cons_of_neg (by simp [hblank])]

def filterText (f : List Char) : List Char := " | ".toList ++ f

theorem continues_filters (fs : List (List Char)) (ht : Ends t) :
    Continues (fs.flatMap filterText ++ t) := by
  cases fs with
  | nil => exact .ends ht
  | cons f fs => exact .filter _

theorem callOrName_append (hn : Plain n) (ht : Continues t) :
    callOrName g (n ++ t) = some (.mk (String.ofList n) [], t) := by
  unfold callOrName
  rw [either_of_none (call_refuses hn ht)]
  obtain ⟨r, rfl⟩ := ht.exists_eq_cons
  rw [bind_of_some (name_append hn r)]
  rfl

theorem filters_of_ends (ht : Ends t) : filters g t = some ([], t) := by
  apply many_of_none
  cases ht <;> rfl

theorem filters_append {fs : List (List Char)} (hfs : ∀ f ∈ fs, Plain f) (ht : Ends t) :
    filters g (fs.flatMap filterText ++ t) =
      some (fs.map fun f => .mk (String.ofList f) [], t) := by
  induction fs with
  | nil => exact filters_of_ends ht
  | cons f fs ih =>
    have hf := hfs f List.mem_cons_self
    have hread : (do mark "|"; blanks; callOrName g : Reader Call)
        ((f :: fs).flatMap filterText ++ t) =
          some (.mk (String.ofList f) [], fs.flatMap filterText ++ t) := by
      rw [List.flatMap_cons, filterText, List.append_assoc, List.append_assoc]
      rw [bind_of_some (a := ()) (r := ' ' :: (f ++ (fs.flatMap filterText ++ t))) rfl]
      rw [bind_of_some (s := ' ' :: (f ++ _)) (blanks_name hf _)]
      exact callOrName_append hf (continues_filters fs ht)
    refine many_of_some hread ?_ (ih fun f' hf' => hfs f' (List.mem_cons_of_mem f hf'))
    simp only [List.flatMap_cons, List.length_append, filterText]
    have hlength : " | ".toList.length = 3 := rfl
    omega

theorem operand_name (hn : Plain n) (ht : Continues t) :
    operand g (n ++ t) = some (.name (String.ofList n), t) := by
  obtain ⟨r, rfl⟩ := ht.exists_eq_cons
  have hparen : exact "(" (n ++ ' ' :: r) = none := by
    obtain ⟨c, tail, rfl, hc, -⟩ := hn.isName
    have hmark := (not_mark_of_isNameStart hc).1
    exact exact_singleton_of_ne (m := '(') (fun heq => hmark (by simp [heq])) _
  have htest : test g (n ++ ' ' :: r) = none := by
    unfold test
    rw [bind_of_some (path_append hn r), bind_of_none]
    rcases ht with r | ⟨r⟩ | ⟨r⟩ <;> rfl
  have hmacro : macroCall g (n ++ ' ' :: r) = none := by
    unfold macroCall
    rw [bind_of_some (name_append hn r), bind_of_none]
    rcases ht with r | ⟨r⟩ | ⟨r⟩ <;> rfl
  unfold operand
  rw [firstOf_cons_of_none (bind_of_none hparen), firstOf_cons_of_none (boolean_refuses hn r),
    firstOf_cons_of_none htest, firstOf_cons_of_none hmacro,
    firstOf_cons_of_none (bind_of_none (call_refuses hn ht))]
  apply firstOf_cons_of_some
  rw [bind_of_some (path_append hn r)]
  rfl

/-- No operator with an operand behind it. -/
theorem arithmetic_refuses (ht : Continues t) :
    (do blanks; let op ← arithmeticOp; blanks; let t ← operand g; return (op, t) :
      Reader (Arithmetic × Term)) t = none := by
  -- the percent sign of a closing mark is an operator, but a brace is no operand
  rcases ht with r | ⟨r⟩ | ⟨r⟩ <;> rfl

theorem filteredSum_name {fs : List (List Char)} (hn : Plain n) (hfs : ∀ f ∈ fs, Plain f)
    (ht : Ends t) :
    filteredSum g (n ++ (fs.flatMap filterText ++ t)) =
      some (.mk (.name (String.ofList n)) false (fs.map fun f => .mk (String.ofList f) []), t) := by
  have hcontinues := continues_filters fs ht
  have hsum : sum g (n ++ (fs.flatMap filterText ++ t)) =
      some (.name (String.ofList n), fs.flatMap filterText ++ t) := by
    unfold sum
    rw [bind_of_some (operand_name hn hcontinues),
      bind_of_some (many_of_none (arithmetic_refuses hcontinues))]
    rfl
  unfold filteredSum
  rw [bind_of_some hsum, bind_of_some (filters_append hfs ht)]
  rfl

theorem filteredText_refuses (hn : Plain n) (ht : Continues t) :
    filteredText g (n ++ t) = none := by
  obtain ⟨r, rfl⟩ := ht.exists_eq_cons
  obtain ⟨c, tail, hcons, hc, -⟩ := hn.isName
  have hquoted : quotedText (n ++ ' ' :: r) = none := by
    rw [hcons, List.cons_append]
    exact quotedText_refuses hc _
  have hpart : joinedPart g (n ++ ' ' :: r) = some (.name (String.ofList n), ' ' :: r) := by
    unfold joinedPart
    rw [firstOf_cons_of_none (bind_of_none (call_refuses hn ht))]
    rw [firstOf_cons_of_none (by rw [hcons]; exact real_refuses hc _),
      firstOf_cons_of_none (by rw [hcons]; exact whole_refuses hc _),
      firstOf_cons_of_none (bind_of_none hquoted)]
    apply firstOf_cons_of_some
    rw [bind_of_some (path_append hn r)]
    rfl
  have hjoined : joined g (n ++ ' ' :: r) = none := by
    unfold joined
    rw [bind_of_some hpart, bind_of_none]
    rcases ht with r | ⟨r⟩ | ⟨r⟩ <;> rfl
  unfold filteredText
  apply bind_of_none
  rw [either_of_none hjoined, bind_of_none hquoted]

theorem comparedValue_of_item {e : Expression} (ht : Ends t)
    (hitem : either (filteredText g) (filteredSum g) s = some (e, t)) :
    comparedValue g s = some (e, t) := by
  unfold comparedValue
  cases htext : filteredText g s with
  | some p =>
    obtain ⟨e', t'⟩ := p
    rw [either_of_some htext] at hitem ⊢
    exact hitem
  | none =>
    rw [either_of_none htext] at hitem ⊢
    unfold comparedSum
    rw [bind_of_some hitem, bind_of_some (many_of_none (by cases ht <;> rfl))]
    rfl

/-- A text or a sum that nothing but an ending follows is the whole expression. -/
theorem expression_of_item {depth : Nat} {e : Expression} (ht : Ends t)
    (hitem : either (filteredText (rulesAt depth)) (filteredSum (rulesAt depth)) s = some (e, t))
    (hnot : exact "not" s = none) (hblanks : blanks s = some ((), s)) :
    expression (depth + 1) s = some (.mk e.term false e.filters, t) := by
  have hmember : membership (rulesAt depth) s = none := by
    -- the item is there, the word behind it is not
    unfold membership
    rw [bind_of_some hitem, bind_of_some (maybe_of_none (by cases ht <;> rfl)), bind_of_none]
    cases ht <;> rfl
  have hcomparison : comparison (rulesAt depth) s = some (e, t) := by
    unfold comparison
    rw [bind_of_some (comparedValue_of_item ht hitem),
      bind_of_some (maybe_of_none (by cases ht <;> rfl))]
    rfl
  have hpart : conditionPart (rulesAt depth) s = some (.mk e.term false e.filters, t) := by
    have hword : word "not" s = none := bind_of_none hnot
    apply either_of_some
    rw [bind_of_some (maybe_of_none hword), bind_of_some hblanks,
      bind_of_some ((either_of_none hmember).trans hcomparison)]
    rfl
  have hcondition : condition (rulesAt depth) s = some (.mk e.term false e.filters, t) := by
    unfold condition
    rw [bind_of_some hpart, bind_of_some (many_of_none (by cases ht <;> rfl))]
    rfl
  exact either_of_some hcondition

/-- A name, with filters that have no arguments. -/
theorem expression_name (depth : Nat) (fs : List (List Char)) (hn : Plain n)
    (hfs : ∀ f ∈ fs, Plain f) (ht : Ends t) :
    expression (depth + 1) (n ++ (fs.flatMap filterText ++ t)) =
      some (.mk (.name (String.ofList n)) false (fs.map fun f => .mk (String.ofList f) []), t) := by
  have hcontinues := continues_filters fs ht
  obtain ⟨r, hr⟩ := hcontinues.exists_eq_cons
  refine expression_of_item ht
    ((either_of_none (filteredText_refuses hn hcontinues)).trans (filteredSum_name hn hfs ht)) ?_ ?_
  · rw [hr]
    exact exact_refuses hn (by decide) r
  · exact blanks_name hn _

/-- A text in double quotes. -/
theorem expression_text (depth : Nat) (hs : '"' ∉ s) (ht : Ends t) :
    expression (depth + 1) ('"' :: (s ++ '"' :: t)) =
      some (.ofTerm (.text (String.ofList s)), t) := by
  have hquoted : quotedText ('"' :: (s ++ '"' :: t)) = some (String.ofList s, t) := by
    have hbetween : between '"' ('"' :: (s ++ '"' :: t)) = some (s, t) := by
      have hall : ∀ c ∈ s, decide (c ≠ '"') = true := fun c hc =>
        decide_eq_true fun h => hs (h ▸ hc)
      unfold between
      simp only [if_true]
      rw [List.dropWhile_append_of_pos hall, List.takeWhile_append_of_pos hall]
      simp
    unfold quotedText
    rw [bind_of_some (firstOf_cons_of_some hbetween)]
    rfl
  have hpart : joinedPart (rulesAt depth) ('"' :: (s ++ '"' :: t)) =
      some (.text (String.ofList s), t) := by
    unfold joinedPart
    rw [firstOf_cons_of_none (by rfl), firstOf_cons_of_none (by rfl),
      firstOf_cons_of_none (by rfl)]
    apply firstOf_cons_of_some
    rw [bind_of_some hquoted]
    rfl
  have hjoined : joined (rulesAt depth) ('"' :: (s ++ '"' :: t)) = none := by
    unfold joined
    rw [bind_of_some hpart, bind_of_none]
    cases ht <;> rfl
  have htext : filteredText (rulesAt depth) ('"' :: (s ++ '"' :: t)) =
      some (.mk (.text (String.ofList s)) false [], t) := by
    have hvalue : (either (joined (rulesAt depth)) (do let s ← quotedText; return .text s) :
        Reader Term) ('"' :: (s ++ '"' :: t)) = some (.text (String.ofList s), t) := by
      rw [either_of_none hjoined, bind_of_some hquoted]
      rfl
    unfold filteredText
    rw [bind_of_some hvalue, bind_of_some (filters_of_ends ht)]
    rfl
  exact expression_of_item ht (either_of_some htext) rfl rfl

end ViewRendering.Template.Reader
