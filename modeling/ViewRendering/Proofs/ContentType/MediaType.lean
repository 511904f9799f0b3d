import ViewRendering.Http.Header
import ViewRendering.Proofs.ContentType.Rewriting

/-!
The grammar of media types: a type and a subtype, then parameters, each behind a semicolon that may
stand between blanks and tabs. The value of a parameter is a token or a quoted text, and in a quoted
text semicolons, equals signs and blanks stand for themselves. A text has at most one reading. Its
segments are what stands in front of the parameters and then, for each parameter in turn, the pieces
between the semicolons in its value.
-/
namespace ViewRendering.ContentType

open Text (isBlank isSpace trim)

def IsQuotable (c : Char) : Prop := c = '\t' ∨ (32 ≤ c.toNat ∧ c.toNat ≠ 127)

/-- What may stand between quotes: a quote or a backslash only behind a backslash. -/
inductive Quoted : List Char → Prop
  | nil : Quoted []
  | plain {c : Char} {s : List Char} (hc : IsQuotable c) (hquote : c ≠ '"') (hescape : c ≠ '\\')
      (hs : Quoted s) : Quoted (c :: s)
  | pair {c : Char} {s : List Char} (hc : IsQuotable c) (hs : Quoted s) : Quoted ('\\' :: c :: s)

inductive IsValue : List Char → Prop
  | token {v : List Char} (h : Http.isToken v = true) : IsValue v
  | quoted {q : List Char} (h : Quoted q) : IsValue ('"' :: (q ++ ['"']))

/-- A parameter, with its value as it is written. -/
@[ext]
structure Parameter where
  name : List Char
  value : List Char
  isToken_name : Http.isToken name = true
  isValue_value : IsValue value

structure MediaType where
  type : List Char
  subtype : List Char
  isToken_type : Http.isToken type = true
  isToken_subtype : Http.isToken subtype = true
  parameters : List Parameter

def Parameter.written (p : Parameter) : List Char := p.name ++ '=' :: p.value

def MediaType.essence (m : MediaType) : List Char := m.type ++ '/' :: m.subtype

def IsGap (s : List Char) : Prop := ∀ c ∈ s, c = ' ' ∨ c = '\t'

inductive ReadsParameters : List Char → List Parameter → Prop
  | nil : ReadsParameters [] []
  | cons {before after s : List Char} {ps : List Parameter} (p : Parameter) (hbefore : IsGap before)
      (hafter : IsGap after) (hs : ReadsParameters s ps) :
      ReadsParameters (before ++ ';' :: (after ++ (p.written ++ s))) (p :: ps)

def Reads (s : List Char) (m : MediaType) : Prop :=
  ∃ rest, s = m.essence ++ rest ∧ ReadsParameters rest m.parameters

namespace Parameter

/-- A quoted text with the characters behind backslashes for themselves. -/
def unescape : List Char → List Char
  | '\\' :: c :: s => c :: unescape s
  | c :: s => c :: unescape s
  | [] => []

def meaning (p : Parameter) : List Char :=
  match p.value with
  | '"' :: s => unescape s.dropLast
  | v => v

def IsCharset (p : Parameter) : Prop := p.name.map Char.toLower = "charset".toList

instance (p : Parameter) : Decidable p.IsCharset := inferInstanceAs (Decidable (_ = _))

def pieces (p : Parameter) : List (List Char) := segments p.written

end Parameter

namespace MediaType

def others (m : MediaType) : List Parameter := m.parameters.filter (¬ ·.IsCharset)

/-- The first parameter for the character set names UTF-8. -/
def SaysUtf8 (m : MediaType) : Prop :=
  ∃ p, m.parameters.find? (·.IsCharset) = some p ∧ NamesUtf8 p.meaning

def pieces (m : MediaType) : List (List Char) := m.essence :: m.parameters.flatMap Parameter.pieces

end MediaType

instance (c : Char) : Decidable (IsQuotable c) := inferInstanceAs (Decidable (_ ∨ _))

theorem quoted_of_all {s : List Char}
    (h : s.all (fun c => decide (IsQuotable c) && c != '"' && c != '\\') = true) : Quoted s := by
  induction s with
  | nil => exact .nil
  | cons c s ih =>
    simp only [List.all_cons, Bool.and_eq_true, decide_eq_true_eq, bne_iff_ne] at h
    obtain ⟨⟨⟨hc, hquote⟩, hescape⟩, hs⟩ := h
    exact .plain hc hquote hescape (ih hs)

theorem isSpace_of_isTokenChar {c : Char} (h : Http.isTokenChar c = true) : isSpace c = false := by
  rw [Http.isTokenChar, Bool.or_eq_true] at h
  rcases h with h | h
  · have hrange : (65 ≤ c.toNat ∧ c.toNat ≤ 90) ∨ (97 ≤ c.toNat ∧ c.toNat ≤ 122) ∨
        (48 ≤ c.toNat ∧ c.toNat ≤ 57) := by
      have hboth {p q : Prop} [Decidable p] [Decidable q] (hpq : (decide p && decide q) = true) :
          p ∧ q := by rwa [Bool.and_eq_true, decide_eq_true_eq, decide_eq_true_eq] at hpq
      rcases (Bool.or_eq_true _ _).mp h with h | h
      · exact ((Bool.or_eq_true _ _).mp h).imp of_decide_eq_true fun h => Or.inl (hboth h)
      · exact Or.inr (Or.inr (hboth h))
    by_contra hspace
    rw [Bool.not_eq_false] at hspace
    simp only [isSpace, Bool.or_eq_true, Bool.and_eq_true, decide_eq_true_eq, beq_iff_eq] at hspace
    omega
  · have hall : "!#$%&'*+-.^_`|~".toList.all (fun d => !isSpace d) = true := by decide
    exact (Bool.not_eq_true' _).mp (List.all_eq_true.mp hall c (List.contains_iff_mem.mp h))

theorem isTokenChar_of_mem {s : List Char} (h : Http.isToken s = true) :
    ∀ c ∈ s, Http.isTokenChar c = true := by
  rw [Http.isToken, Bool.and_eq_true] at h
  exact List.all_eq_true.mp h.2

theorem exists_cons_of_isToken {s : List Char} (h : Http.isToken s = true) :
    ∃ c t, s = c :: t ∧ Http.isTokenChar c = true := by
  cases s with
  | nil => cases h
  | cons c t => exact ⟨c, t, rfl, isTokenChar_of_mem h c List.mem_cons_self⟩

theorem not_mem_of_isToken {s : List Char} (h : Http.isToken s = true) {c : Char}
    (hc : Http.isTokenChar c = false) : c ∉ s := by
  intro hmem
  have htoken := isTokenChar_of_mem h c hmem
  rw [hc] at htoken
  cases htoken

theorem IsGap.isBlank {s : List Char} (h : IsGap s) : isBlank s = true := by
  refine List.all_eq_true.mpr fun c hc => ?_
  rcases h c hc with rfl | rfl <;> decide

theorem IsGap.isSpace {s : List Char} (h : IsGap s) : ∀ c ∈ s, Text.isSpace c = true :=
  List.all_eq_true.mp h.isBlank

theorem isGap_nil : IsGap [] := nofun

theorem isGap_blank : IsGap [' '] := fun _ hc => Or.inl (List.mem_singleton.mp hc)

theorem ReadsParameters.append {s t : List Char} {ps qs : List Parameter}
    (hs : ReadsParameters s ps) (ht : ReadsParameters t qs) :
    ReadsParameters (s ++ t) (ps ++ qs) := by
  induction hs with
  | nil => exact ht
  | cons p hbefore hafter _ ih =>
    simpa only [List.append_assoc, List.cons_append] using ReadsParameters.cons p hbefore hafter ih

/-- Parameters begin with a blank or a semicolon, so a token in front of them is over. -/
theorem ReadsParameters.head {s : List Char} {ps : List Parameter} (h : ReadsParameters s ps) :
    ∀ c, s.head? = some c → Http.isTokenChar c = false := by
  intro c hc
  cases h with
  | nil => cases hc
  | @cons before _ _ _ _ hbefore =>
    cases before with
    | nil =>
      cases hc
      decide
    | cons d before =>
      cases hc
      rcases hbefore c List.mem_cons_self with rfl | rfl <;> decide

/-! ### At most one reading -/

theorem append_unique {P : Char → Bool} {a b a' b' : List Char} (ha : ∀ c ∈ a, P c = true)
    (hb : ∀ c, b.head? = some c → P c = false) (ha' : ∀ c ∈ a', P c = true)
    (hb' : ∀ c, b'.head? = some c → P c = false) (h : a ++ b = a' ++ b') : a = a' ∧ b = b' := by
  have hdrop := congrArg (List.dropWhile P) h
  rw [Text.dropWhile_padded ha hb, Text.dropWhile_padded ha' hb'] at hdrop
  subst hdrop
  exact ⟨List.append_cancel_right h, rfl⟩

theorem token_unique {a b a' b' : List Char} {c : Char} (ha : Http.isToken a = true)
    (ha' : Http.isToken a' = true) (hc : Http.isTokenChar c = false)
    (h : a ++ c :: b = a' ++ c :: b') : a = a' ∧ b = b' := by
  have hhead (t : List Char) : ∀ d, (c :: t).head? = some d → Http.isTokenChar d = false := by
    rintro d ⟨⟩
    exact hc
  obtain ⟨rfl, hrest⟩ := append_unique (isTokenChar_of_mem ha) (hhead b) (isTokenChar_of_mem ha')
    (hhead b') h
  exact ⟨rfl, (List.cons.inj hrest).2⟩

theorem Quoted.unique {q r q' r' : List Char} (hq : Quoted q) (hq' : Quoted q')
    (h : q ++ '"' :: r = q' ++ '"' :: r') : q = q' ∧ r = r' := by
  induction hq generalizing q' with
  | nil =>
    cases hq' with
    | nil => exact ⟨rfl, (List.cons.inj h).2⟩
    | plain _ hquote => exact absurd (List.cons.inj h).1.symm hquote
    | pair => exact absurd (List.cons.inj h).1 (by decide)
  | plain _ hquote hescape _ ih =>
    cases hq' with
    | nil => exact absurd (List.cons.inj h).1 hquote
    | plain _ _ _ hs' =>
      obtain ⟨rfl, hrest⟩ := List.cons.inj h
      obtain ⟨rfl, rfl⟩ := ih hs' hrest
      exact ⟨rfl, rfl⟩
    | pair => exact absurd (List.cons.inj h).1 hescape
  | pair _ _ ih =>
    cases hq' with
    | nil => exact absurd (List.cons.inj h).1 (by decide)
    | plain _ _ hescape' => exact absurd (List.cons.inj h).1.symm hescape'
    | pair _ hs' =>
      obtain ⟨rfl, hrest⟩ := List.cons.inj (List.cons.inj h).2
      obtain ⟨rfl, rfl⟩ := ih hs' hrest
      exact ⟨rfl, rfl⟩

theorem IsValue.unique {v s v' s' : List Char} (hv : IsValue v) (hv' : IsValue v')
    (hs : ∀ c, s.head? = some c → Http.isTokenChar c = false)
    (hs' : ∀ c, s'.head? = some c → Http.isTokenChar c = false) (h : v ++ s = v' ++ s') :
    v = v' ∧ s = s' := by
  -- a token does not begin with a quote
  have hmixed {t q u w : List Char} (ht : Http.isToken t = true) : t ++ u ≠ '"' :: (q ++ w) := by
    obtain ⟨c, t, rfl, hc⟩ := exists_cons_of_isToken ht
    intro heq
    rw [(List.cons.inj heq).1] at hc
    exact absurd hc (by decide)
  cases hv with
  | token ht =>
    cases hv' with
    | token ht' => exact append_unique (isTokenChar_of_mem ht) hs (isTokenChar_of_mem ht') hs' h
    | quoted => exact absurd h (hmixed ht)
  | quoted hq =>
    cases hv' with
    | token ht' => exact absurd h.symm (hmixed ht')
    | quoted hq' =>
      simp only [List.cons_append, List.append_assoc, List.nil_append] at h
      obtain ⟨rfl, rfl⟩ := hq.unique hq' (List.cons.inj h).2
      exact ⟨rfl, rfl⟩

theorem Parameter.unique {p p' : Parameter} {s s' : List Char}
    (hs : ∀ c, s.head? = some c → Http.isTokenChar c = false)
    (hs' : ∀ c, s'.head? = some c → Http.isTokenChar c = false)
    (h : p.written ++ s = p'.written ++ s') : p = p' ∧ s = s' := by
  simp only [written, List.append_assoc, List.cons_append] at h
  obtain ⟨hname, hrest⟩ := token_unique p.isToken_name p'.isToken_name (by decide) h
  obtain ⟨hvalue, hrest⟩ := p.isValue_value.unique p'.isValue_value hs hs' hrest
  exact ⟨Parameter.ext hname hvalue, hrest⟩

theorem Parameter.head_written (p : Parameter) (s : List Char) :
    ∀ c, (p.written ++ s).head? = some c → isSpace c = false := by
  obtain ⟨c, t, hname, hc⟩ := exists_cons_of_isToken p.isToken_name
  rw [written, hname]
  rintro d ⟨⟩
  exact isSpace_of_isTokenChar hc

theorem ReadsParameters.unique {s t : List Char} {ps qs : List Parameter}
    (hp : ReadsParameters s ps) (hq : ReadsParameters t qs) (h : s = t) : ps = qs := by
  have hsemicolon (u : List Char) : ∀ c, (';' :: u).head? = some c → isSpace c = false := by
    rintro c ⟨⟩
    decide
  induction hp generalizing t qs with
  | nil =>
    cases hq with
    | nil => rfl
    | cons => exact absurd h.symm (List.append_ne_nil_of_right_ne_nil _ (List.cons_ne_nil _ _))
  | cons p hbefore hafter hs ih =>
    cases hq with
    | nil => exact absurd h (List.append_ne_nil_of_right_ne_nil _ (List.cons_ne_nil _ _))
    | cons p' hbefore' hafter' hs' =>
      obtain ⟨-, hrest⟩ := append_unique hbefore.isSpace (hsemicolon _) hbefore'.isSpace
        (hsemicolon _) h
      obtain ⟨-, hparameter⟩ := append_unique hafter.isSpace (p.head_written _) hafter'.isSpace
        (p'.head_written _) (List.cons.inj hrest).2
      obtain ⟨rfl, hbehind⟩ := Parameter.unique hs.head hs'.head hparameter
      rw [ih hs' hbehind]

theorem Reads.unique {s : List Char} {m m' : MediaType} (h : Reads s m) (h' : Reads s m') :
    m = m' := by
  obtain ⟨rest, rfl, hrest⟩ := h
  obtain ⟨rest', heq, hrest'⟩ := h'
  simp only [MediaType.essence, List.append_assoc, List.cons_append] at heq
  obtain ⟨htype, heq⟩ := token_unique m.isToken_type m'.isToken_type (by decide) heq
  obtain ⟨hsubtype, heq⟩ := append_unique (isTokenChar_of_mem m.isToken_subtype) hrest.head
    (isTokenChar_of_mem m'.isToken_subtype) hrest'.head heq
  have hparameters := hrest.unique hrest' heq
  cases m
  cases m'
  subst htype hsubtype hparameters
  rfl

/-! ### Segments -/

theorem ReadsParameters.segments {s : List Char} {ps : List Parameter} (h : ReadsParameters s ps)
    (front : List Char) :
    segments (front ++ s) = segments front ++ ps.flatMap Parameter.pieces := by
  induction h generalizing front with
  | nil => rw [List.append_nil, List.flatMap_nil, List.append_nil]
  | @cons before after s ps p hbefore hafter _ ih =>
    have hfront := segments_padded (rfl : isBlank [] = true) hbefore.isBlank front
    have hbehind := segments_padded hafter.isBlank (rfl : isBlank [] = true) (p.written ++ s)
    rw [List.nil_append] at hfront
    rw [List.append_nil] at hbehind
    rw [← List.append_assoc, segments_append_cons, hfront, hbehind, ih, List.flatMap_cons,
      Parameter.pieces]

theorem MediaType.head_essence (m : MediaType) (s : List Char) :
    ∀ c, (m.essence ++ s).head? = some c → isSpace c = false := by
  obtain ⟨c, t, htype, hc⟩ := exists_cons_of_isToken m.isToken_type
  rw [essence, htype]
  rintro d ⟨⟩
  exact isSpace_of_isTokenChar hc

theorem isSpace_of_getLast?_token {a b : List Char} (hb : Http.isToken b = true) :
    ∀ c, (a ++ b).getLast? = some c → isSpace c = false := by
  obtain ⟨d, t, rfl, -⟩ := exists_cons_of_isToken hb
  rw [List.getLast?_append_of_ne_nil _ (List.cons_ne_nil d t)]
  intro c hc
  exact isSpace_of_isTokenChar (isTokenChar_of_mem hb c (List.mem_of_getLast? hc))

theorem MediaType.getLast_essence (m : MediaType) :
    ∀ c, m.essence.getLast? = some c → isSpace c = false := by
  have hsplit : m.essence = (m.type ++ ['/']) ++ m.subtype := by
    rw [List.append_assoc]
    rfl
  rw [hsplit]
  exact isSpace_of_getLast?_token m.isToken_subtype

theorem MediaType.trim_essence (m : MediaType) : trim m.essence = m.essence :=
  Text.trim_eq_self (by simpa only [List.append_nil] using m.head_essence []) m.getLast_essence

theorem MediaType.semicolon_not_mem_essence (m : MediaType) : ';' ∉ m.essence := by
  rw [essence, List.mem_append, List.mem_cons]
  rintro (h | h | h)
  · exact not_mem_of_isToken m.isToken_type (by decide) h
  · exact absurd h (by decide)
  · exact not_mem_of_isToken m.isToken_subtype (by decide) h

theorem segments_of_not_mem {s : List Char} (h : ';' ∉ s) (htrim : trim s = s) :
    segments s = [s] := by
  rw [ContentType.segments, Text.splitOn_of_not_mem h, List.map_singleton, htrim]

/-- The segments of a media type are what is in front and the pieces of its parameters. -/
theorem Reads.segments {s : List Char} {m : MediaType} (h : Reads s m) : segments s = m.pieces := by
  obtain ⟨rest, rfl, hrest⟩ := h
  rw [hrest.segments, segments_of_not_mem m.semicolon_not_mem_essence m.trim_essence]
  rfl

theorem IsValue.getLast {v : List Char} (h : IsValue v) (front : List Char) :
    ∀ c, (front ++ v).getLast? = some c → isSpace c = false := by
  cases h with
  | token ht => exact isSpace_of_getLast?_token ht
  | @quoted q =>
    have hsplit : front ++ '"' :: (q ++ ['"']) = (front ++ '"' :: q) ++ ['"'] := by
      rw [List.append_assoc]
      rfl
    rw [hsplit, List.getLast?_append]
    rintro c ⟨⟩
    decide

theorem Parameter.getLast_written (p : Parameter) (front : List Char) :
    ∀ c, (front ++ p.written).getLast? = some c → isSpace c = false := by
  have hsplit : front ++ p.written = (front ++ p.name ++ ['=']) ++ p.value := by
    simp only [written, List.append_assoc, List.cons_append, List.nil_append]
  rw [hsplit]
  exact p.isValue_value.getLast _

theorem ReadsParameters.getLast {s : List Char} {ps : List Parameter} (h : ReadsParameters s ps)
    {front : List Char} (hfront : ∀ c, front.getLast? = some c → isSpace c = false) :
    ∀ c, (front ++ s).getLast? = some c → isSpace c = false := by
  induction h generalizing front with
  | nil => rwa [List.append_nil]
  | @cons before after s _ p _ _ _ ih =>
    have hrest := ih (p.getLast_written (front ++ (before ++ ';' :: after)))
    simpa only [List.append_assoc, List.cons_append] using hrest

/-- A media type has no blanks at its ends. -/
theorem Reads.trim_eq {s : List Char} {m : MediaType} (h : Reads s m) : trim s = s := by
  obtain ⟨rest, rfl, hrest⟩ := h
  exact Text.trim_eq_self (m.head_essence rest) (hrest.getLast m.getLast_essence)

theorem Reads.isBlank_eq_false {s : List Char} {m : MediaType} (h : Reads s m) :
    isBlank s = false := by
  obtain ⟨rest, rfl, -⟩ := h
  obtain ⟨c, t, htype, hc⟩ := exists_cons_of_isToken m.isToken_type
  rw [MediaType.essence, htype, isBlank, List.cons_append, List.cons_append, List.all_cons,
    isSpace_of_isTokenChar hc, Bool.false_and]

end ViewRendering.ContentType
