import ViewRendering.Proofs.ContentType.MediaType

/-!
The pieces of a parameter between the semicolons in its value. A quoted text falls into a front,
what stands between two semicolons, and an end with the closing quote; blanks at their ends get
lost. Put together again with a blank behind each semicolon they make a parameter of the same name,
though not always the same one. Each parameter has an even number of quotes that are not behind a
backslash.
-/
namespace ViewRendering.ContentType

open Text (isBlank isSpace join trim)

/-- The front of a quoted text. A backslash at its end belongs to the character behind it. -/
inductive Begins : List Char → Prop
  | nil : Begins []
  | escape : Begins ['\\']
  | plain {c : Char} {s : List Char} (hc : IsQuotable c) (hquote : c ≠ '"') (hescape : c ≠ '\\')
      (hs : Begins s) : Begins (c :: s)
  | pair {c : Char} {s : List Char} (hc : IsQuotable c) (hs : Begins s) : Begins ('\\' :: c :: s)

inductive Closes : List (List Char) → Prop
  | last {q : List Char} (hq : Quoted q) : Closes [q ++ ['"']]
  | more {x : List Char} {parts : List (List Char)} (hx : Begins x) (hparts : Closes parts) :
      Closes (x :: parts)

/-- Pieces of a parameter of this name: a single one, or a front with an opening quote and the
pieces up to the closing one. -/
inductive Group (name : List Char) : List (List Char) → Prop
  | whole {v : List Char} (hv : IsValue v) (hsemicolon : ';' ∉ v) : Group name [name ++ '=' :: v]
  | split {x : List Char} {parts : List (List Char)} (hx : Begins x) (hparts : Closes parts) :
      Group name ((name ++ '=' :: '"' :: x) :: parts)

theorem Quoted.begins {s : List Char} (h : Quoted s) : Begins s := by
  induction h with
  | nil => exact .nil
  | plain hc hquote hescape _ ih => exact .plain hc hquote hescape ih
  | pair hc _ ih => exact .pair hc ih

theorem Begins.of_append {x t : List Char} (h : Begins (x ++ t)) : Begins x := by
  generalize hs : x ++ t = s at h
  induction h generalizing x with
  | nil =>
    rw [(List.append_eq_nil_iff.mp hs).1]
    exact .nil
  | escape =>
    cases x with
    | nil => exact .nil
    | cons d x =>
      obtain ⟨rfl, hnil⟩ := List.cons.inj hs
      rw [(List.append_eq_nil_iff.mp hnil).1]
      exact .escape
  | plain hc hquote hescape _ ih =>
    cases x with
    | nil => exact .nil
    | cons d x =>
      obtain ⟨rfl, hrest⟩ := List.cons.inj hs
      exact .plain hc hquote hescape (ih hrest)
  | pair hc _ ih =>
    rcases x with _ | ⟨d, _ | ⟨e, x⟩⟩
    · exact .nil
    · rw [(List.cons.inj hs).1]
      exact .escape
    · obtain ⟨hbackslash, hbehind⟩ := List.cons.inj hs
      obtain ⟨rfl, hrest⟩ := List.cons.inj hbehind
      rw [hbackslash]
      exact .pair hc (ih hrest)

/-- Behind a semicolon a quoted text goes on as from its beginning, be the semicolon behind a
backslash or not. -/
theorem Quoted.behind_semicolon {x y : List Char} (h : Quoted (x ++ ';' :: y)) : Quoted y := by
  generalize hs : x ++ ';' :: y = s at h
  induction h generalizing x with
  | nil => exact absurd hs (List.append_ne_nil_of_right_ne_nil x (List.cons_ne_nil _ y))
  | plain _ _ _ hrest ih =>
    cases x with
    | nil =>
      rw [(List.cons.inj hs).2]
      exact hrest
    | cons d x => exact ih (List.cons.inj hs).2
  | pair _ hrest ih =>
    rcases x with _ | ⟨d, _ | ⟨e, x⟩⟩
    · exact absurd (List.cons.inj hs).1 (by decide)
    · rw [(List.cons.inj (List.cons.inj hs).2).2]
      exact hrest
    · exact ih (List.cons.inj (List.cons.inj hs).2).2

theorem Begins.append_semicolon {x y : List Char} (hx : Begins x) (hy : Quoted y) :
    Quoted (x ++ ';' :: y) := by
  have hsemicolon : IsQuotable ';' := by decide
  induction hx with
  | nil => exact .plain hsemicolon (by decide) (by decide) hy
  | escape => exact .pair hsemicolon hy
  | plain hc hquote hescape _ ih => exact .plain hc hquote hescape ih
  | pair hc _ ih => exact .pair hc ih

theorem Begins.behind_blank {c : Char} {x : List Char} (hc : isSpace c = true)
    (h : Begins (c :: x)) : Begins x := by
  cases h with
  | escape => exact .nil
  | plain _ _ _ hrest => exact hrest
  | pair => exact absurd hc (by decide)

theorem Quoted.behind_blank {c : Char} {q : List Char} (hc : isSpace c = true)
    (h : Quoted (c :: q)) : Quoted q := by
  cases h with
  | plain _ _ _ hrest => exact hrest
  | pair => exact absurd hc (by decide)

/-- What holds of a text and of what is behind a blank at its beginning holds of it without the
blanks there. -/
theorem behind_blanks {P : List Char → Prop}
    (hP : ∀ {c : Char} {s : List Char}, isSpace c = true → P (c :: s) → P s)
    {before s : List Char} (hbefore : isBlank before = true) (h : P (before ++ s)) : P s := by
  induction before with
  | nil => exact h
  | cons c before ih =>
    rw [isBlank, List.all_cons, Bool.and_eq_true] at hbefore
    exact ih hbefore.2 (hP hbefore.1 h)

theorem Begins.trim {x : List Char} (h : Begins x) : Begins (trim x) := by
  obtain ⟨before, after, hx, hbefore, -⟩ := Text.exists_padding x
  rw [hx] at h
  exact (behind_blanks Begins.behind_blank hbefore h).of_append

theorem Quoted.exists_trim {q : List Char} (h : Quoted q) :
    ∃ q', trim (q ++ ['"']) = q' ++ ['"'] ∧ Quoted q' := by
  have hsplit := List.takeWhile_append_dropWhile (p := isSpace) (l := q)
  have hblank : isBlank (q.takeWhile isSpace) = true := List.all_takeWhile
  refine ⟨q.dropWhile isSpace, ?_, behind_blanks Quoted.behind_blank hblank (hsplit.symm ▸ h)⟩
  have htrim := Text.trim_padded (s := q.dropWhile isSpace ++ ['"']) hblank
    (rfl : isBlank [] = true) ?_ ?_
  · rwa [List.append_nil, ← List.append_assoc, hsplit] at htrim
  · intro c hc
    have hfirst := List.head?_dropWhile_not isSpace q
    cases hrest : q.dropWhile isSpace with
    | nil =>
      rw [hrest] at hc
      cases hc
      decide
    | cons d rest =>
      rw [hrest] at hc hfirst
      cases hc
      exact hfirst
  · rw [List.getLast?_append]
    rintro c ⟨⟩
    decide

theorem Quoted.closes {q : List Char} (h : Quoted q) : Closes (segments (q ++ ['"'])) := by
  induction hn : q.length using Nat.strong_induction_on generalizing q with
  | _ n ih =>
    by_cases hmem : ';' ∈ q
    · obtain ⟨x, y, rfl, hx⟩ := List.eq_append_cons_of_mem hmem
      have hfront : segments x = [Text.trim x] := by
        rw [segments, Text.splitOn_of_not_mem hx, List.map_singleton]
      have hshorter : y.length < n := by
        simp only [List.length_append, List.length_cons] at hn
        omega
      rw [List.append_assoc, List.cons_append, segments_append_cons, hfront]
      exact .more h.begins.of_append.trim (ih y.length hshorter h.behind_semicolon rfl)
    · obtain ⟨q', htrim, hq'⟩ := h.exists_trim
      have hend : ';' ∉ q ++ ['"'] := by
        rw [List.mem_append, List.mem_singleton]
        exact not_or.mpr ⟨hmem, by decide⟩
      rw [segments, Text.splitOn_of_not_mem hend, List.map_singleton, htrim]
      exact .last hq'

/-- What is in front of the opening quote stays, and blanks at the end get lost. -/
theorem exists_trim_append {a : List Char} (x : List Char) (ha : a ≠ [])
    (hfirst : ∀ c, a.head? = some c → isSpace c = false)
    (hlast : ∀ c, a.getLast? = some c → isSpace c = false) :
    ∃ x' after, x = x' ++ after ∧ trim (a ++ x) = a ++ x' := by
  have hsplit := List.rdropWhile_append_rtakeWhile (p := isSpace) (l := x)
  have hblank : isBlank (x.rtakeWhile isSpace) = true :=
    List.all_eq_true.mpr fun c hc => List.mem_rtakeWhile_imp hc
  have htrim := Text.trim_padded (s := a ++ x.rdropWhile isSpace) (rfl : isBlank [] = true) hblank
    ?_ ?_
  · rw [List.nil_append, List.append_assoc, hsplit] at htrim
    exact ⟨_, _, hsplit.symm, htrim⟩
  · intro c hc
    rw [List.head?_append_of_ne_nil _ ha] at hc
    exact hfirst c hc
  · intro c hc
    by_cases hnil : x.rdropWhile isSpace = []
    · rw [hnil, List.append_nil] at hc
      exact hlast c hc
    · rw [List.getLast?_append_of_ne_nil _ hnil, List.getLast?_eq_getLast_of_ne_nil hnil] at hc
      cases hc
      exact Bool.eq_false_iff.mpr (List.rdropWhile_last_not isSpace x hnil)

namespace Parameter

theorem trim_written (p : Parameter) : Text.trim p.written = p.written :=
  Text.trim_eq_self (by simpa only [List.append_nil] using p.head_written [])
    (p.getLast_written [])

theorem semicolon_not_mem_name (p : Parameter) : ';' ∉ p.name ++ ['='] := by
  rw [List.mem_append, List.mem_singleton]
  exact not_or.mpr ⟨not_mem_of_isToken p.isToken_name (by decide), by decide⟩

theorem written_eq (p : Parameter) : p.written = (p.name ++ ['=']) ++ p.value := by
  rw [List.append_assoc]
  rfl

theorem pieces_of_not_mem {p : Parameter} (h : ';' ∉ p.value) : p.pieces = [p.written] := by
  refine segments_of_not_mem ?_ p.trim_written
  rw [written_eq, List.mem_append]
  exact not_or.mpr ⟨p.semicolon_not_mem_name, h⟩

/-- A value with a semicolon is quoted. -/
theorem exists_quoted {p : Parameter} (h : ';' ∈ p.value) :
    ∃ x y, p.value = '"' :: (x ++ ';' :: (y ++ ['"'])) ∧ ';' ∉ x ∧ Quoted (x ++ ';' :: y) := by
  have hvalue := p.isValue_value
  generalize p.value = v at h hvalue
  cases hvalue with
  | token ht => exact absurd h (not_mem_of_isToken ht (by decide))
  | @quoted q hq =>
    have hmem : ';' ∈ q := by
      simpa only [List.mem_cons, List.mem_append, List.not_mem_nil, or_false, reduceCtorEq,
        (by decide : ';' ≠ '"'), false_or] using h
    obtain ⟨x, y, rfl, hx⟩ := List.eq_append_cons_of_mem hmem
    refine ⟨x, y, ?_, hx, hq⟩
    rw [List.append_assoc, List.cons_append]

theorem group (p : Parameter) : Group p.name p.pieces := by
  by_cases hmem : ';' ∈ p.value
  · obtain ⟨x, y, hvalue, hx, hq⟩ := exists_quoted hmem
    have hwritten : p.written = (p.name ++ ['=', '"'] ++ x) ++ ';' :: (y ++ ['"']) := by
      rw [written, hvalue]
      simp only [List.append_assoc, List.cons_append, List.nil_append]
    have hfront : ';' ∉ p.name ++ ['=', '"'] ++ x := by
      simp only [List.mem_append, List.mem_cons, List.not_mem_nil, or_false]
      have hname := not_mem_of_isToken p.isToken_name (by decide : Http.isTokenChar ';' = false)
      simp only [hname, hx, false_or, or_false]
      decide
    obtain ⟨c, t, hname, hc⟩ := exists_cons_of_isToken p.isToken_name
    obtain ⟨x', after, hafter, htrim⟩ := exists_trim_append (a := p.name ++ ['=', '"']) x
      (List.append_ne_nil_of_right_ne_nil _ (List.cons_ne_nil _ _))
      (by rw [hname]; rintro d ⟨⟩; exact isSpace_of_isTokenChar hc)
      (by rw [List.getLast?_append]; rintro d ⟨⟩; decide)
    rw [pieces, hwritten, segments_append_cons, segments, Text.splitOn_of_not_mem hfront,
      List.map_singleton, htrim, List.append_assoc]
    refine .split ?_ hq.behind_semicolon.closes
    rw [hafter] at hq
    exact hq.begins.of_append.of_append
  · rw [pieces_of_not_mem hmem]
    exact .whole p.isValue_value hmem

end Parameter

theorem Closes.ne_nil {parts : List (List Char)} (h : Closes parts) : parts ≠ [] := by
  rintro rfl
  cases h

/-- Put together again, pieces up to the closing quote make a quoted text. -/
theorem Closes.exists_join {parts : List (List Char)} (h : Closes parts) :
    ∃ q, Text.join "; ".toList parts = q ++ ['"'] ∧ Quoted q := by
  induction h with
  | last hq => exact ⟨_, rfl, hq⟩
  | @more x parts hx hparts ih =>
    obtain ⟨q, hjoin, hq⟩ := ih
    refine ⟨x ++ ';' :: (' ' :: q), ?_, hx.append_semicolon ?_⟩
    · rw [Text.join_cons hparts.ne_nil, hjoin, List.append_assoc]
      rfl
    · exact .plain (by decide) (by decide) (by decide) hq

/-- Put together again, the pieces of a parameter make a parameter of the same name. -/
theorem Group.exists_value {name : List Char} {parts : List (List Char)} (h : Group name parts) :
    ∃ v, Text.join "; ".toList parts = name ++ '=' :: v ∧ IsValue v := by
  cases h with
  | whole hv => exact ⟨_, rfl, hv⟩
  | @split x parts hx hparts =>
    obtain ⟨q, hjoin, hq⟩ := hparts.exists_join
    refine ⟨'"' :: ((x ++ ';' :: (' ' :: q)) ++ ['"']), ?_, .quoted (hx.append_semicolon ?_)⟩
    · rw [Text.join_cons hparts.ne_nil, hjoin]
      simp only [List.append_assoc, List.cons_append]
      rfl
    · exact .plain (by decide) (by decide) (by decide) hq

theorem Group.exists_parameter {name : List Char} {parts : List (List Char)}
    (h : Group name parts) (hname : Http.isToken name = true)
    (hparts : ∀ part ∈ parts, ';' ∉ part ∧ Text.trim part = part) :
    ∃ p : Parameter, p.name = name ∧ p.pieces = parts := by
  obtain ⟨v, hjoin, hv⟩ := h.exists_value
  have hne : parts ≠ [] := by
    rintro rfl
    cases h
  refine ⟨⟨name, v, hname, hv⟩, rfl, ?_⟩
  rw [Parameter.pieces, Parameter.written, ← hjoin]
  exact segments_join hne hparts

namespace Parameter

theorem drop_join (p : Parameter) :
    ∃ v, Text.join "; ".toList p.pieces = p.name ++ '=' :: v ∧
      (Text.join "; ".toList p.pieces).drop (p.name.length + 1) = v ∧ IsValue v := by
  obtain ⟨v, hjoin, hv⟩ := p.group.exists_value
  refine ⟨v, hjoin, ?_, hv⟩
  rw [hjoin, ← List.drop_drop, List.drop_left, List.drop_one, List.tail_cons]

/-- The parameter with a single blank behind each semicolon in its value and none in front. -/
def spaced (p : Parameter) : Parameter where
  name := p.name
  value := (Text.join "; ".toList p.pieces).drop (p.name.length + 1)
  isToken_name := p.isToken_name
  isValue_value := by
    obtain ⟨v, -, hdrop, hv⟩ := p.drop_join
    rwa [hdrop]

theorem written_spaced (p : Parameter) : p.spaced.written = Text.join "; ".toList p.pieces := by
  obtain ⟨v, hjoin, hdrop, -⟩ := p.drop_join
  have hvalue : p.spaced.value = v := hdrop
  rw [written, hvalue, hjoin]
  rfl

theorem pieces_spaced (p : Parameter) : p.spaced.pieces = p.pieces := by
  rw [pieces, written_spaced]
  exact segments_join (segments_ne_nil _) fun _ => of_mem_segments

theorem spaced_eq_iff (p : Parameter) :
    p.spaced = p ↔ Text.join "; ".toList p.pieces = p.written := by
  rw [← written_spaced]
  constructor
  · exact congrArg written
  · intro h
    have hend : ∀ c, ([] : List Char).head? = some c → Http.isTokenChar c = false := nofun
    exact (unique hend hend (congrArg (· ++ []) h)).1

end Parameter

/-! ### Quotes -/

/-- How many quotes are not behind a backslash. -/
def quotes : List Char → Nat
  | '\\' :: _ :: s => quotes s
  | '"' :: s => quotes s + 1
  | _ :: s => quotes s
  | [] => 0

def quotesIn : List (List Char) → Nat
  | [] => 0
  | part :: parts => quotes part + quotesIn parts

theorem quotesIn_append (parts parts' : List (List Char)) :
    quotesIn (parts ++ parts') = quotesIn parts + quotesIn parts' := by
  induction parts with
  | nil => exact (Nat.zero_add _).symm
  | cons part parts ih => rw [List.cons_append, quotesIn, quotesIn, ih, Nat.add_assoc]

theorem quotes_cons {c : Char} (hquote : c ≠ '"') (hescape : c ≠ '\\') (s : List Char) :
    quotes (c :: s) = quotes s := by
  rw [quotes]
  · exact fun _ _ hc _ => hescape hc
  · exact hquote

theorem quotes_token_append {a : List Char} (ha : Http.isToken a = true) (s : List Char) :
    quotes (a ++ s) = quotes s := by
  have hall := isTokenChar_of_mem ha
  clear ha
  induction a with
  | nil => rfl
  | cons c a ih =>
    obtain ⟨hc, ha⟩ := List.forall_mem_cons.mp hall
    rw [List.cons_append, quotes_cons ?_ ?_, ih ha]
    · rintro rfl
      exact absurd hc (by decide)
    · rintro rfl
      exact absurd hc (by decide)

theorem Quoted.quotes_append {q : List Char} (h : Quoted q) (s : List Char) :
    quotes (q ++ s) = quotes s := by
  induction h with
  | nil => rfl
  | plain _ hquote hescape _ ih => rw [List.cons_append, quotes_cons hquote hescape, ih]
  | pair _ _ ih => rw [List.cons_append, List.cons_append, quotes, ih]

theorem Begins.quotes_eq_zero {x : List Char} (h : Begins x) : quotes x = 0 := by
  induction h with
  | nil => rfl
  | escape => rfl
  | plain _ hquote hescape _ ih => rw [quotes_cons hquote hescape, ih]
  | pair _ _ ih => rw [quotes, ih]

theorem Closes.quotesIn_eq {parts : List (List Char)} (h : Closes parts) : quotesIn parts = 1 := by
  induction h with
  | last hq =>
    rw [quotesIn, hq.quotes_append]
    rfl
  | more hx _ ih => rw [quotesIn, hx.quotes_eq_zero, ih]

section

variable {name : List Char} (hname : Http.isToken name = true)
include hname

theorem quotes_front {x : List Char} (hx : Begins x) : quotes (name ++ '=' :: '"' :: x) = 1 := by
  rw [quotes_token_append hname, quotes_cons (by decide) (by decide), quotes, hx.quotes_eq_zero]

theorem Group.even {parts : List (List Char)} (h : Group name parts) : 2 ∣ quotesIn parts := by
  cases h with
  | @whole v hv =>
    have hpiece : quotes (name ++ '=' :: v) = quotes v := by
      rw [quotes_token_append hname, quotes_cons (by decide) (by decide)]
    rw [quotesIn, quotesIn, Nat.add_zero, hpiece]
    cases hv with
    | token ht =>
      have hzero := quotes_token_append ht []
      rw [List.append_nil] at hzero
      rw [hzero]
      exact Nat.dvd_zero 2
    | quoted hq =>
      have htwo : quotes ('"' :: (_ ++ ['"'])) = 2 := congrArg (· + 1) (hq.quotes_append ['"'])
      omega
  | split hx hparts =>
    have hfront := quotes_front hname hx
    have hrest := hparts.quotesIn_eq
    rw [quotesIn]
    omega

end

/-- Any piece with an even number of quotes is in front of the closing one, and the front of any
quoted text may stand there instead. -/
theorem Closes.exchange {front behind : List (List Char)} {d y : List Char}
    (h : Closes (front ++ d :: behind)) (heven : 2 ∣ quotes d) (hy : Begins y) :
    Closes (front ++ y :: behind) := by
  generalize hparts : front ++ d :: behind = parts at h
  induction h generalizing front with
  | last hq =>
    cases front with
    | nil =>
      rw [(List.cons.inj hparts).1, hq.quotes_append] at heven
      exact absurd heven (by decide)
    | cons e front => cases front <;> cases (List.cons.inj hparts).2
  | more hx hrest ih =>
    cases front with
    | nil =>
      obtain ⟨-, rfl⟩ := List.cons.inj hparts
      exact .more hy hrest
    | cons e front =>
      obtain ⟨rfl, hbehind⟩ := List.cons.inj hparts
      exact .more hx (ih hbehind)

/-- A piece with an even number of quotes is a parameter on its own, or it stands between quotes. -/
theorem Group.exchange {name : List Char} (hname : Http.isToken name = true)
    {front behind : List (List Char)} {d : List Char} (h : Group name (front ++ d :: behind))
    (heven : 2 ∣ quotes d) :
    (front = [] ∧ behind = []) ∨
      (front ≠ [] ∧ ∀ y, Begins y → Group name (front ++ y :: behind)) := by
  generalize hparts : front ++ d :: behind = parts at h
  cases h with
  | whole =>
    cases front with
    | nil => exact Or.inl ⟨rfl, (List.cons.inj hparts).2⟩
    | cons e front => cases front <;> cases (List.cons.inj hparts).2
  | split hx hrest =>
    cases front with
    | nil =>
      rw [(List.cons.inj hparts).1, quotes_front hname hx] at heven
      exact absurd heven (by decide)
    | cons e front =>
      obtain ⟨rfl, rfl⟩ := List.cons.inj hparts
      exact Or.inr ⟨List.cons_ne_nil _ front, fun y hy => .split hx (hrest.exchange heven hy)⟩

theorem MediaType.quotes_essence (m : MediaType) : quotes m.essence = 0 := by
  have hsubtype := quotes_token_append m.isToken_subtype []
  rw [List.append_nil] at hsubtype
  rw [essence, quotes_token_append m.isToken_type, quotes_cons (by decide) (by decide), hsubtype]
  rfl

/-- A media type has an even number of quotes. -/
theorem Reads.even {s : List Char} {m : MediaType} (h : Reads s m) :
    2 ∣ quotesIn (ContentType.segments s) := by
  rw [h.segments, MediaType.pieces, quotesIn, m.quotes_essence, Nat.zero_add]
  induction m.parameters with
  | nil => exact Nat.dvd_zero 2
  | cons p ps ih =>
    rw [List.flatMap_cons, quotesIn_append]
    exact Nat.dvd_add (p.group.even p.isToken_name) ih

end ViewRendering.ContentType
