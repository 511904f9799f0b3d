import ViewRendering.Partial.Expression
import ViewRendering.Proofs.Text.Occurrence
import ViewRendering.Proofs.Text.Parts

/-!
The grammar of the expressions that name a partial, stated without the reader. The reader cuts a
text at the plus signs outside quotes and then reads each piece for itself, so the two passes have
to agree on what belongs to a quoted text: a piece that is a term has its quotes closed and no plus
sign outside of them. The reader accepts exactly what the grammar spells, and returns what is
spelled; what is written out is read back.
-/
namespace ViewRendering.Partial

open Text (isBlank isSpace)

def Initial (c : Char) : Prop := ('A' ≤ c ∧ c ≤ 'Z') ∨ ('a' ≤ c ∧ c ≤ 'z') ∨ c = '_' ∨ c = '$'

inductive Identifier : List Char → Prop
  | mk {c : Char} {s : List Char} :
      Initial c → (∀ k ∈ s, Initial k ∨ ('0' ≤ k ∧ k ≤ '9')) → Identifier (c :: s)

inductive Term.Spells : Term → List Char → Prop
  | quoted {q : Char} {s : List Char} :
      q = '\'' ∨ q = '"' → q ∉ s → Term.Spells (.literal s) (q :: (s ++ [q]))
  | dotted {path : List (List Char)} :
      path ≠ [] → (∀ name ∈ path, Identifier name) →
      Term.Spells (.lookup path) (Text.join ['.'] path)

inductive Term.Padded : Term → List Char → Prop
  | mk {t : Term} {before s after : List Char} :
      isBlank before = true → t.Spells s → isBlank after = true →
      Term.Padded t (before ++ (s ++ after))

inductive SumSpells : List Term → List Char → Prop
  | last {t : Term} {s : List Char} : t.Padded s → SumSpells [t] s
  | plus {t : Term} {ts : List Term} {s rest : List Char} :
      t.Padded s → SumSpells ts rest → SumSpells (t :: ts) (s ++ '+' :: rest)

def Expression.Spells (e : Expression) (s : List Char) : Prop := SumSpells e.terms s

theorem isNameStart_iff {c : Char} : isNameStart c = true ↔ Initial c := by
  have hspelled : isNameStart c = (decide ('A' ≤ c ∧ c ≤ 'Z') ||
      (decide ('a' ≤ c) && decide (c ≤ 'z')) || c == '_' || c == '$') := rfl
  rw [hspelled]
  simp only [Initial, Bool.or_eq_true, Bool.and_eq_true, decide_eq_true_eq, beq_iff_eq, or_assoc]

theorem isNamePart_iff {c : Char} : isNamePart c = true ↔ Initial c ∨ ('0' ≤ c ∧ c ≤ '9') := by
  have hspelled : isNamePart c = (c.isAlpha || (decide ('0' ≤ c) && decide (c ≤ '9')) || c == '_' ||
      c == '$') := rfl
  have hstart : isNameStart c = (c.isAlpha || c == '_' || c == '$') := rfl
  rw [← isNameStart_iff, hspelled, hstart]
  simp only [Bool.or_eq_true, Bool.and_eq_true, decide_eq_true_eq]
  tauto

theorem isName_iff {s : List Char} : isName s = true ↔ Identifier s := by
  cases s with
  | nil =>
    constructor
    · intro h
      cases h
    · intro h
      cases h
  | cons c s =>
    rw [isName, Bool.and_eq_true, isNameStart_iff, List.all_eq_true]
    simp only [isNamePart_iff]
    constructor
    · rintro ⟨hfirst, hrest⟩
      exact .mk hfirst hrest
    · rintro (⟨hfirst, hrest⟩)
      exact ⟨hfirst, hrest⟩

/-- Neither a quote nor a plus sign, so that the cutting passes over it. -/
def Neutral (c : Char) : Prop := c ≠ '\'' ∧ c ≠ '"' ∧ c ≠ '+'

theorem neutral_of_class {p : Char → Bool} {c : Char} (hc : p c = true) (hsingle : p '\'' = false)
    (hdouble : p '"' = false) (hplus : p '+' = false) : Neutral c := by
  have hne {k : Char} (hk : p k = false) : c ≠ k := by
    rintro rfl
    rw [hc] at hk
    cases hk
  exact ⟨hne hsingle, hne hdouble, hne hplus⟩

theorem neutral_of_isSpace {c : Char} (h : isSpace c = true) : Neutral c :=
  neutral_of_class h (by decide) (by decide) (by decide)

theorem neutral_of_isNamePart {c : Char} (h : isNamePart c = true) : Neutral c :=
  neutral_of_class h (by decide) (by decide) (by decide)

theorem isSpace_of_isNamePart {c : Char} (h : isNamePart c = true) : isSpace c = false := by
  have hrange : 36 ≤ c.toNat ∧ c.toNat ≤ 122 := by
    rcases isNamePart_iff.mp h with (⟨hlow, hhigh⟩ | ⟨hlow, hhigh⟩ | rfl | rfl) | ⟨hlow, hhigh⟩
    · exact ⟨Nat.le_trans (by decide) hlow, Nat.le_trans hhigh (by decide)⟩
    · exact ⟨Nat.le_trans (by decide) hlow, Nat.le_trans hhigh (by decide)⟩
    · decide
    · decide
    · exact ⟨Nat.le_trans (by decide) hlow, Nat.le_trans hhigh (by decide)⟩
  obtain ⟨hlow, hhigh⟩ := hrange
  simp only [isSpace, Bool.or_eq_false_iff, Bool.and_eq_false_iff, decide_eq_false_iff_not,
    beq_eq_false_iff_ne]
  omega

theorem isNamePart_of_mem {name : List Char} (h : Identifier name) {c : Char} (hc : c ∈ name) :
    isNamePart c = true := by
  cases h with
  | mk hfirst hrest =>
    rw [isNamePart_iff]
    rcases List.mem_cons.mp hc with rfl | hc
    · exact Or.inl hfirst
    · exact hrest c hc

/-- A character of a path is part of a name or a dot. -/
theorem solid_of_mem_path {path : List (List Char)} (h : ∀ name ∈ path, Identifier name) {c : Char}
    (hc : c ∈ Text.join ['.'] path) : Neutral c ∧ isSpace c = false := by
  rcases Text.mem_join hc with hdot | ⟨name, hname, hc⟩
  · rw [List.mem_singleton.mp hdot]
    exact ⟨⟨by decide, by decide, by decide⟩, by decide⟩
  · have hpart := isNamePart_of_mem (h name hname) hc
    exact ⟨neutral_of_isNamePart hpart, isSpace_of_isNamePart hpart⟩

theorem foldr_pushFront_cons (x p : List Char) (ps : List (List Char)) :
    x.foldr pushFront (p :: ps) = (x ++ p) :: ps := by
  induction x with
  | nil => rfl
  | cons c x ih => rw [List.foldr_cons, ih, pushFront, List.cons_append]

/-- A character goes to the piece at hand, unless it is a plus sign that ends the piece. -/
theorem splitSum_cons_cases (q : Option Char) (c : Char) :
    (∃ q', ∀ s, splitSum q (c :: s) = (splitSum q' s).map (pushFront c)) ∨
    (c = '+' ∧ ∀ s, splitSum q (c :: s) = (splitSum none s).map ([] :: ·)) := by
  cases q with
  | some q => exact Or.inl ⟨_, fun _ => rfl⟩
  | none =>
    by_cases hquote : c = '\'' ∨ c = '"'
    · exact Or.inl ⟨some c, fun s => by rw [splitSum, if_pos hquote]⟩
    · by_cases hplus : c = '+'
      · exact Or.inr ⟨hplus, fun s => by rw [splitSum, if_neg hquote, if_pos hplus]⟩
      · exact Or.inl ⟨none, fun s => by rw [splitSum, if_neg hquote, if_neg hplus]⟩

theorem splitSum_ne_nil {q : Option Char} {s : List Char} {ps : List (List Char)}
    (h : splitSum q s = some ps) : ps ≠ [] := by
  cases s with
  | nil =>
    cases q with
    | none =>
      cases h
      exact List.cons_ne_nil [] []
    | some q => cases h
  | cons c s =>
    rcases splitSum_cons_cases q c with ⟨q', hstep⟩ | ⟨-, hstep⟩
    · rw [hstep] at h
      obtain ⟨ps', -, rfl⟩ := Option.map_eq_some_iff.mp h
      cases ps' <;> exact List.cons_ne_nil _ _
    · rw [hstep] at h
      obtain ⟨ps', -, rfl⟩ := Option.map_eq_some_iff.mp h
      exact List.cons_ne_nil _ _

/-- The pieces with plus signs between them are the text. -/
theorem join_of_splitSum {q : Option Char} {s : List Char} {ps : List (List Char)}
    (h : splitSum q s = some ps) : Text.join ['+'] ps = s := by
  induction s generalizing q ps with
  | nil =>
    cases q with
    | none =>
      cases h
      rfl
    | some q => cases h
  | cons c s ih =>
    rcases splitSum_cons_cases q c with ⟨q', hstep⟩ | ⟨rfl, hstep⟩
    · rw [hstep] at h
      obtain ⟨ps', hps', rfl⟩ := Option.map_eq_some_iff.mp h
      obtain ⟨p, rest, rfl⟩ := List.exists_cons_of_ne_nil (splitSum_ne_nil hps')
      rw [pushFront, Text.join_cons_cons, ih hps']
    · rw [hstep] at h
      obtain ⟨ps', hps', rfl⟩ := Option.map_eq_some_iff.mp h
      rw [Text.join_nil_cons ['+'] (splitSum_ne_nil hps'), ih hps']
      rfl

/-- A text that is one piece: its quotes are closed, and no plus sign stands outside of them. -/
def Whole (s : List Char) : Prop := splitSum none s = some [s]

theorem eq_of_pushFront {c : Char} {s : List Char} {ps : List (List Char)} (hne : ps ≠ [])
    (h : pushFront c ps = [c :: s]) : ps = [s] := by
  obtain ⟨p, rest, rfl⟩ := List.exists_cons_of_ne_nil hne
  rw [pushFront, List.cons.injEq, List.cons.injEq] at h
  obtain ⟨⟨-, rfl⟩, rfl⟩ := h
  rfl

/-- What stands behind a text whose quotes are closed is cut as it would be alone. -/
theorem splitSum_append {q : Option Char} {s : List Char} (h : splitSum q s = some [s])
    (rest : List Char) :
    splitSum q (s ++ rest) = (splitSum none rest).map fun ps => s.foldr pushFront ps := by
  induction s generalizing q with
  | nil =>
    cases q with
    | none => simp
    | some q => cases h
  | cons c s ih =>
    rcases splitSum_cons_cases q c with ⟨q', hstep⟩ | ⟨-, hstep⟩
    · rw [hstep] at h
      obtain ⟨ps, hps, heq⟩ := Option.map_eq_some_iff.mp h
      rw [eq_of_pushFront (splitSum_ne_nil hps) heq] at hps
      rw [List.cons_append, hstep, ih hps, Option.map_map]
      rfl
    · -- a plus sign that ends a piece would leave two of them
      rw [hstep] at h
      obtain ⟨ps, -, heq⟩ := Option.map_eq_some_iff.mp h
      cases heq

theorem Whole.append {s t : List Char} (hs : Whole s) (ht : Whole t) : Whole (s ++ t) := by
  rw [Whole, splitSum_append hs, ht, Option.map_some, foldr_pushFront_cons]

/-- A plus sign behind one piece begins the next. -/
theorem Whole.splitSum_plus {s : List Char} (hs : Whole s) (rest : List Char) :
    splitSum none (s ++ '+' :: rest) = (splitSum none rest).map (s :: ·) := by
  have hplus : splitSum none ('+' :: rest) = (splitSum none rest).map ([] :: ·) := rfl
  rw [splitSum_append hs, hplus, Option.map_map]
  congr 1
  funext ps
  change s.foldr pushFront ([] :: ps) = s :: ps
  rw [foldr_pushFront_cons, List.append_nil]

theorem whole_of_neutral {s : List Char} (h : ∀ c ∈ s, Neutral c) : Whole s := by
  induction s with
  | nil => rfl
  | cons c s ih =>
    obtain ⟨⟨hsingle, hdouble, hplus⟩, hrest⟩ := List.forall_mem_cons.mp h
    rw [Whole, splitSum, if_neg (not_or.mpr ⟨hsingle, hdouble⟩), if_neg hplus, ih hrest]
    rfl

theorem splitSum_quoted {q : Char} {s : List Char} (h : q ∉ s) :
    splitSum (some q) (s ++ [q]) = some [s ++ [q]] := by
  induction s with
  | nil => simp [splitSum, pushFront]
  | cons c s ih =>
    have hc : c ≠ q := fun heq => h (heq ▸ List.mem_cons_self)
    rw [List.cons_append, splitSum, if_neg hc, ih fun hmem => h (List.mem_cons_of_mem c hmem)]
    rfl

theorem whole_quoted {q : Char} {s : List Char} (hq : q = '\'' ∨ q = '"') (h : q ∉ s) :
    Whole (q :: (s ++ [q])) := by
  rw [Whole, splitSum, if_pos hq, splitSum_quoted h]
  rfl

/-- Quotes around a text are taken off if no such quote stands inside. -/
theorem unquote_eq_some_iff {q : Char} {r s : List Char} :
    unquote q r = some s ↔ r = s ++ [q] ∧ q ∉ s := by
  unfold unquote
  constructor
  · intro h
    split at h
    · cases h
    · rename_i c inner hreverse
      split at h
      · rename_i hinside
        obtain ⟨rfl, hnone⟩ := hinside
        cases h
        have hr := congrArg List.reverse hreverse
        rw [List.reverse_reverse, List.reverse_cons] at hr
        refine ⟨hr, fun hmem => ?_⟩
        rw [List.contains_iff_mem.mpr (List.mem_reverse.mp hmem)] at hnone
        cases hnone
      · cases h
  · rintro ⟨rfl, hnone⟩
    rw [List.reverse_append, List.reverse_singleton, List.singleton_append]
    have hinside : (!s.reverse.contains q) = true := by
      rw [Bool.not_eq_true', ← Bool.not_eq_true, List.contains_iff_mem, List.mem_reverse]
      exact hnone
    dsimp only
    rw [if_pos ⟨rfl, hinside⟩, List.reverse_reverse]

theorem dot_not_mem {name : List Char} (h : Identifier name) : '.' ∉ name := by
  intro hdot
  have hpart := isNamePart_of_mem h hdot
  revert hpart
  decide

theorem exists_cons_of_path {path : List (List Char)} (hne : path ≠ [])
    (h : ∀ name ∈ path, Identifier name) : ∃ c s, Text.join ['.'] path = c :: s := by
  obtain ⟨name, rest, rfl⟩ := List.exists_cons_of_ne_nil hne
  cases h name List.mem_cons_self with
  | mk hfirst hrest => exact ⟨_, _, Text.join_cons_cons ['.'] _ _ rest⟩

/-- The reader of terms accepts what the grammar spells. -/
theorem Term.parse_eq_some_iff {t : Term} {s : List Char} :
    Term.parse s = some t ↔ t.Spells s := by
  constructor
  · intro h
    cases s with
    | nil => cases h
    | cons c r =>
      rw [Term.parse] at h
      split at h
      · rename_i hquote
        obtain ⟨inside, hinside, rfl⟩ := Option.map_eq_some_iff.mp h
        obtain ⟨rfl, hnone⟩ := unquote_eq_some_iff.mp hinside
        exact .quoted hquote hnone
      · dsimp only at h
        split at h
        · rename_i hnames
          cases h
          have hpath : ∀ name ∈ Text.splitOn '.' (c :: r), Identifier name := fun name hname =>
            isName_iff.mp (List.all_eq_true.mp hnames name hname)
          have hspells := Term.Spells.dotted (Text.splitOn_ne_nil '.' (c :: r)) hpath
          rwa [Text.join_splitOn] at hspells
        · cases h
  · intro h
    cases h with
    | @quoted q inside hquote hnone =>
      rw [Term.parse, if_pos hquote, unquote_eq_some_iff.mpr ⟨rfl, hnone⟩]
      rfl
    | @dotted path hne hnames =>
      have hsplit := Text.splitOn_join hne fun name hname => dot_not_mem (hnames name hname)
      have hall : path.all isName = true :=
        List.all_eq_true.mpr fun name hname => isName_iff.mpr (hnames name hname)
      obtain ⟨c, r, hjoin⟩ := exists_cons_of_path hne hnames
      have hc : c ∈ Text.join ['.'] path := hjoin ▸ List.mem_cons_self
      obtain ⟨⟨hsingle, hdouble, -⟩, -⟩ := solid_of_mem_path hnames hc
      rw [hjoin] at hsplit ⊢
      rw [Term.parse, if_neg (not_or.mpr ⟨hsingle, hdouble⟩)]
      dsimp only
      rw [hsplit, if_pos hall]

theorem Term.Spells.whole {t : Term} {s : List Char} (h : t.Spells s) : Whole s := by
  cases h with
  | quoted hquote hnone => exact whole_quoted hquote hnone
  | dotted _ hnames => exact whole_of_neutral fun c hc => (solid_of_mem_path hnames hc).1

/-- A term neither begins nor ends with a blank. -/
theorem Term.Spells.trim {t : Term} {s before after : List Char} (h : t.Spells s)
    (hbefore : isBlank before = true) (hafter : isBlank after = true) :
    Text.trim (before ++ (s ++ after)) = s := by
  cases h with
  | @quoted q inside hquote _ =>
    have hq : isSpace q = false := by rcases hquote with rfl | rfl <;> decide
    apply Text.trim_padded hbefore hafter
    · intro c hc
      exact Option.some.inj hc ▸ hq
    · intro c hc
      rw [← List.cons_append, List.getLast?_concat] at hc
      exact Option.some.inj hc ▸ hq
  | dotted _ hnames =>
    apply Text.trim_padded hbefore hafter
    · exact fun c hc => (solid_of_mem_path hnames (List.mem_of_mem_head? hc)).2
    · exact fun c hc => (solid_of_mem_path hnames (List.mem_of_getLast? hc)).2

theorem Term.Padded.whole {t : Term} {s : List Char} (h : t.Padded s) : Whole s := by
  have hblank {b : List Char} (hb : isBlank b = true) : Whole b :=
    whole_of_neutral fun c hc => neutral_of_isSpace (List.all_eq_true.mp hb c hc)
  cases h with
  | mk hbefore hs hafter => exact (hblank hbefore).append (hs.whole.append (hblank hafter))

/-- A piece is read as a term exactly if it is one, with blanks around it. -/
theorem Term.parse_trim_eq_some_iff {t : Term} {s : List Char} :
    Term.parse (Text.trim s) = some t ↔ t.Padded s := by
  constructor
  · intro h
    obtain ⟨before, after, hs, hbefore, hafter⟩ := Text.exists_padding s
    rw [hs]
    exact .mk hbefore (Term.parse_eq_some_iff.mp h) hafter
  · intro h
    cases h with
    | mk hbefore hs hafter =>
      rw [hs.trim hbefore hafter]
      exact Term.parse_eq_some_iff.mpr hs

/-- Cutting a text and reading its pieces finds the terms that the grammar spells. -/
theorem sumSpells_iff {ts : List Term} {s : List Char} :
    SumSpells ts s ↔ ∃ ps, splitSum none s = some ps ∧
      ps.mapM (fun p => Term.parse (Text.trim p)) = some ts := by
  constructor
  · intro h
    induction h with
    | @last t s hs =>
      refine ⟨[s], hs.whole, ?_⟩
      rw [List.mapM_cons, Term.parse_trim_eq_some_iff.mpr hs]
      rfl
    | @plus t ts s rest hs _ ih =>
      obtain ⟨ps, hps, hts⟩ := ih
      refine ⟨s :: ps, by rw [hs.whole.splitSum_plus, hps, Option.map_some], ?_⟩
      rw [List.mapM_cons, Term.parse_trim_eq_some_iff.mpr hs, hts]
      rfl
  · rintro ⟨ps, hps, hts⟩
    rw [← join_of_splitSum hps]
    have hne := splitSum_ne_nil hps
    clear hps
    induction ps generalizing ts with
    | nil => exact absurd rfl hne
    | cons p ps ih =>
      rw [List.mapM_cons] at hts
      obtain ⟨t, ht, hrest⟩ := Option.bind_eq_some_iff.mp hts
      obtain ⟨ts', hts', heq⟩ := Option.bind_eq_some_iff.mp hrest
      cases heq
      have hp := Term.parse_trim_eq_some_iff.mp ht
      cases ps with
      | nil =>
        cases hts'
        exact .last hp
      | cons p' ps => exact .plus hp (ih hts' (List.cons_ne_nil p' ps))

namespace Expression

theorem ofTerms?_eq_some_iff {ts : List Term} {e : Expression} :
    ofTerms? ts = some e ↔ ts = e.terms := by
  refine ⟨fun h => (terms_of_ofTerms? h).symm, ?_⟩
  rintro rfl
  cases e <;> rfl

theorem parse_eq_ok_iff {s : List Char} {e : Expression} : parse s = .ok e ↔ e.Spells s := by
  rw [Spells, sumSpells_iff]
  unfold parse
  constructor
  · intro h
    split at h
    · rename_i e' hread
      cases h
      obtain ⟨ps, hps, hread⟩ := Option.bind_eq_some_iff.mp hread
      obtain ⟨ts, hts, hterms⟩ := Option.bind_eq_some_iff.mp hread
      rw [ofTerms?_eq_some_iff.mp hterms] at hts
      exact ⟨ps, hps, hts⟩
    · cases h
  · rintro ⟨ps, hps, hts⟩
    rw [hps, Option.bind_some, hts, Option.bind_some, ofTerms?_eq_some_iff.mpr rfl]

end Expression

/-- A term as it is written out, in single quotes where these can be used. -/
def Term.write : Term → List Char
  | .literal s => if '\'' ∈ s then '"' :: (s ++ ['"']) else '\'' :: (s ++ ['\''])
  | .lookup path => Text.join ['.'] path

def Term.Writable : Term → Prop
  | .literal s => ¬ ('\'' ∈ s ∧ '"' ∈ s)
  | .lookup path => path ≠ [] ∧ ∀ name ∈ path, Identifier name

theorem Term.Writable.padded {t : Term} (h : t.Writable) : t.Padded t.write := by
  have hspells : t.Spells t.write := by
    cases t with
    | literal s =>
      rw [Term.write]
      by_cases hsingle : '\'' ∈ s
      · rw [if_pos hsingle]
        exact .quoted (Or.inr rfl) fun hdouble => h ⟨hsingle, hdouble⟩
      · rw [if_neg hsingle]
        exact .quoted (Or.inl rfl) hsingle
    | lookup path => exact .dotted h.1 h.2
  have hblank : isBlank [] = true := rfl
  have hpadded := Term.Padded.mk hblank hspells hblank
  rwa [List.append_nil] at hpadded

namespace Expression

def write (e : Expression) : List Char := Text.join ['+'] (e.terms.map Term.write)

theorem spells_write {e : Expression} (h : ∀ t ∈ e.terms, t.Writable) : e.Spells e.write := by
  have hsum (ts : List Term) (hne : ts ≠ []) (hts : ∀ t ∈ ts, t.Writable) :
      SumSpells ts (Text.join ['+'] (ts.map Term.write)) := by
    induction ts with
    | nil => exact absurd rfl hne
    | cons t ts ih =>
      obtain ⟨ht, hrest⟩ := List.forall_mem_cons.mp hts
      cases ts with
      | nil => exact .last ht.padded
      | cons t' ts => exact .plus ht.padded (ih (List.cons_ne_nil t' ts) hrest)
  have hne : e.terms ≠ [] := by cases e <;> exact List.cons_ne_nil _ _
  exact hsum e.terms hne h

/-- The reader accepts exactly the texts that the grammar spells, and returns the expression that
is spelled. So an expression that can be written is read back from what is written. -/
theorem parse_follows_grammar :
    (∀ s e, parse s = .ok e ↔ e.Spells s) ∧
    ∀ e : Expression, (∀ t ∈ e.terms, t.Writable) → parse e.write = .ok e :=
  ⟨fun _ _ => parse_eq_ok_iff, fun _ h => parse_eq_ok_iff.mpr (spells_write h)⟩

/-- Quotes and plus signs inside of literals, and a path of two names. -/
theorem parse_follows_grammar_quotes :
    let e : Expression := .sum (.literal "it's".toList) (.lookup ["page".toList, "$side".toList])
      [.literal "a+\"b\".html".toList]
    (∀ t ∈ e.terms, t.Writable) ∧ parse e.write = .ok e ∧
      e.Spells " \"it's\"+page.$side\n + 'a+\"b\".html'".toList := by
  intro e
  have hpath : ∀ name ∈ ["page".toList, "$side".toList], Identifier name := by
    simp only [← isName_iff]
    decide
  have hwritable : ∀ t ∈ e.terms, t.Writable := by
    simp only [e, terms, List.forall_mem_cons]
    exact ⟨fun h => absurd h.2 (by decide), ⟨List.cons_ne_nil _ _, hpath⟩,
      fun h => absurd h.1 (by decide), nofun⟩
  exact ⟨hwritable, parse_follows_grammar.2 e hwritable,
    (parse_follows_grammar.1 _ e).mp (by decide)⟩

end Expression

end ViewRendering.Partial
