import ViewRendering.ContentType
import ViewRendering.Proofs.Text.Occurrence
import ViewRendering.Proofs.Text.Parts

/-!
What becomes of the segments of a media type. Only the first parameter for the character set is
looked at, and only it is exchanged, if it says anything but UTF-8; where there is none, one is put
behind the last segment. So the first one of the outcome says UTF-8, whatever was declared.
-/
namespace ViewRendering.ContentType

open Text (isBlank splitOn trim)

/-- The segment is a parameter for the character set and has this value: what stands behind the
first equals sign, without the blanks and then without the quotes around it. -/
def Declares (segment value : List Char) : Prop :=
  ∃ name rest, segment = name ++ '=' :: rest ∧ '=' ∉ name ∧
    (trim name).map Char.toLower = "charset".toList ∧
    value = Text.trimBy (· == '"') (trim rest)

def NamesUtf8 (value : List Char) : Prop :=
  value.map Char.toLower = "utf-8".toList ∨ value.map Char.toLower = "utf8".toList

/-- Behind the first segment, this parameter is the first one for the character set; it has this
value and stands between these segments. -/
structure FirstCharset (segments front : List (List Char)) (parameter value : List Char)
    (behind : List (List Char)) : Prop where
  split : segments = front ++ parameter :: behind
  notFirst : front ≠ []
  first : ∀ p ∈ front.tail, ∀ v, ¬ Declares p v
  declares : Declares parameter value

def SaysUtf8 (segments : List (List Char)) : Prop :=
  ∃ front p v behind, FirstCharset segments front p v behind ∧ NamesUtf8 v

theorem sameLetters_iff (s t : List Char) :
    Text.sameLetters s t = true ↔ s.map Char.toLower = t.map Char.toLower := beq_iff_eq

theorem isUtf8_iff (value : List Char) : isUtf8 value = true ↔ NamesUtf8 value := by
  rw [isUtf8, Bool.or_eq_true, sameLetters_iff, sameLetters_iff]
  exact Iff.rfl

theorem charsetValue?_eq_some_iff {p v : List Char} : charsetValue? p = some v ↔ Declares p v := by
  unfold charsetValue? Declares Text.splitOnce?
  constructor
  · intro h
    split at h
    · rename_i name rest hcut
      obtain ⟨rfl, hname⟩ := Text.firstAt_singleton_iff.mp ((Text.cut?_eq_some_iff ..).mp hcut)
      split at h
      · rename_i hsame
        cases h
        exact ⟨name, rest, rfl, hname, (sameLetters_iff ..).mp hsame, rfl⟩
      · cases h
    · cases h
  · rintro ⟨name, rest, hp, hname, hsame, rfl⟩
    rw [(Text.cut?_eq_some_iff ..).mpr (Text.firstAt_singleton_iff.mpr ⟨hp, hname⟩)]
    exact if_pos ((sameLetters_iff ..).mpr hsame)

theorem charsetValue?_eq_none_iff {p : List Char} :
    charsetValue? p = none ↔ ∀ v, ¬ Declares p v := by
  rw [Option.eq_none_iff_forall_ne_some]
  exact forall_congr' fun v => not_congr charsetValue?_eq_some_iff

theorem cutCharset?_eq_none {parts : List (List Char)} (h : cutCharset? parts = none) :
    ∀ p ∈ parts, ∀ v, ¬ Declares p v := by
  induction parts with
  | nil => exact fun p hp => absurd hp List.not_mem_nil
  | cons p parts ih =>
    unfold cutCharset? at h
    split at h
    · cases h
    · rename_i hnone
      exact List.forall_mem_cons.mpr
        ⟨charsetValue?_eq_none_iff.mp hnone, ih (Option.map_eq_none_iff.mp h)⟩

theorem cutCharset?_eq_some {parts before after : List (List Char)} {v : List Char}
    (h : cutCharset? parts = some (before, v, after)) :
    ∃ p, parts = before ++ p :: after ∧ Declares p v ∧ ∀ q ∈ before, ∀ w, ¬ Declares q w := by
  induction parts generalizing before with
  | nil => cases h
  | cons p parts ih =>
    unfold cutCharset? at h
    split at h
    · rename_i value hvalue
      cases h
      exact ⟨p, rfl, charsetValue?_eq_some_iff.mp hvalue, fun q hq => absurd hq List.not_mem_nil⟩
    · rename_i hnone
      obtain ⟨⟨before', v', after'⟩, hcut, heq⟩ := Option.map_eq_some_iff.mp h
      cases heq
      obtain ⟨q, rfl, hdeclares, hfirst⟩ := ih hcut
      exact ⟨q, rfl, hdeclares,
        List.forall_mem_cons.mpr ⟨charsetValue?_eq_none_iff.mp hnone, hfirst⟩⟩

theorem cutCharset?_append {before : List (List Char)} {p v : List Char} (after : List (List Char))
    (hbefore : ∀ q ∈ before, ∀ w, ¬ Declares q w) (hp : Declares p v) :
    cutCharset? (before ++ p :: after) = some (before, v, after) := by
  induction before with
  | nil =>
    rw [List.nil_append, cutCharset?, charsetValue?_eq_some_iff.mpr hp]
  | cons q before ih =>
    obtain ⟨hq, hrest⟩ := List.forall_mem_cons.mp hbefore
    rw [List.cons_append, cutCharset?, charsetValue?_eq_none_iff.mpr hq, ih hrest]
    rfl

theorem cutCharset?_of_none {parts : List (List Char)} (h : ∀ p ∈ parts, ∀ v, ¬ Declares p v) :
    cutCharset? parts = none := by
  cases hcut : cutCharset? parts with
  | none => rfl
  | some found =>
    obtain ⟨p, rfl, hdeclares, -⟩ := cutCharset?_eq_some hcut
    exact absurd hdeclares (h p (List.mem_append_right _ List.mem_cons_self) found.2.1)

theorem splitOn_of_isBlank {s : List Char} (h : isBlank s = true) : splitOn ';' s = [s] :=
  Text.splitOn_of_not_mem fun hmem => absurd (List.all_eq_true.mp h ';' hmem) (by decide)

theorem segments_ne_nil (s : List Char) : segments s ≠ [] :=
  mt List.map_eq_nil_iff.mp (Text.splitOn_ne_nil ';' s)

theorem segments_append_cons (s t : List Char) :
    segments (s ++ ';' :: t) = segments s ++ segments t := by
  rw [segments, Text.splitOn_append_cons, List.map_append]
  rfl

/-- Blanks at the two ends of a media type make no difference to its segments. -/
theorem segments_padded {before after : List Char} (hbefore : isBlank before = true)
    (hafter : isBlank after = true) (s : List Char) :
    segments (before ++ (s ++ after)) = segments s := by
  have hfront (t : List Char) : segments (before ++ t) = segments t := by
    obtain ⟨first, behind, ht⟩ := List.exists_cons_of_ne_nil (Text.splitOn_ne_nil ';' t)
    have hfirst : trim (before ++ first) = trim first := by
      have htrim := Text.trim_append hbefore (rfl : isBlank [] = true) first
      rwa [List.append_nil] at htrim
    have hbefore' : splitOn ';' before = [] ++ [before] := splitOn_of_isBlank hbefore
    rw [segments, Text.splitOn_append hbefore' ht, segments, ht, List.nil_append, List.map_cons,
      hfirst, List.map_cons]
  have hback (t : List Char) : segments (t ++ after) = segments t := by
    obtain ⟨front, last, ht⟩ :=
      (List.eq_nil_or_concat' (splitOn ';' t)).resolve_left (Text.splitOn_ne_nil ';' t)
    have hlast : trim (last ++ after) = trim last :=
      Text.trim_append (rfl : isBlank [] = true) hafter last
    rw [segments, Text.splitOn_append ht (splitOn_of_isBlank hafter), segments, ht,
      List.map_append, List.map_append, List.map_singleton, List.map_singleton, hlast]
  rw [hfront, hback]

theorem segments_trim (s : List Char) : segments (trim s) = segments s := by
  obtain ⟨before, after, hs, hbefore, hafter⟩ := Text.exists_padding s
  have hpadded := segments_padded hbefore hafter (trim s)
  rw [← hs] at hpadded
  exact hpadded.symm

/-- A segment has no semicolon and no blanks at its ends. -/
theorem of_mem_segments {s part : List Char} (h : part ∈ segments s) :
    ';' ∉ part ∧ trim part = part := by
  obtain ⟨whole, hwhole, rfl⟩ := List.mem_map.mp h
  exact ⟨fun hmem => Text.not_mem_of_mem_splitOn hwhole (Text.mem_of_mem_trimBy hmem),
    Text.trim_trim whole⟩

/-- Segments that are put together come back. -/
theorem segments_join {parts : List (List Char)} (hne : parts ≠ [])
    (h : ∀ part ∈ parts, ';' ∉ part ∧ trim part = part) :
    segments (Text.join "; ".toList parts) = parts := by
  induction parts with
  | nil => exact absurd rfl hne
  | cons part parts ih =>
    obtain ⟨⟨hpart, htrim⟩, hparts⟩ := List.forall_mem_cons.mp h
    have hsingle : segments part = [part] := by
      rw [segments, Text.splitOn_of_not_mem hpart, List.map_singleton, htrim]
    cases parts with
    | nil => exact hsingle
    | cons other parts =>
      have hrest := ih (List.cons_ne_nil other parts) hparts
      have hblank := segments_padded (rfl : isBlank [' '] = true) (rfl : isBlank [] = true)
        (Text.join "; ".toList (other :: parts))
      rw [List.append_nil, hrest] at hblank
      -- the blank behind the semicolon belongs to the next segment and is trimmed
      change segments (part ++ ';' :: ([' '] ++ Text.join "; ".toList (other :: parts))) = _
      rw [segments_append_cons, hsingle, hblank, List.singleton_append]

section

variable {s : List Char} (hs : isBlank s = false)
include hs

theorem filter_trim_of_written : ((some s).map trim).filter (!·.isEmpty) = some (trim s) := by
  have htrim : (trim s).isEmpty = false := by
    rw [List.isEmpty_eq_false_iff, ne_eq, Text.trim_eq_nil_iff, hs]
    exact Bool.false_ne_true
  rw [Option.map_some, Option.filter_some, htrim]
  rfl

theorem withCharset_appended (h : cutCharset? (segments s).tail = none) :
    withCharset (some s) = (trim s ++ "; ".toList ++ corrected, []) := by
  rw [withCharset, filter_trim_of_written hs]
  dsimp only
  rw [segments_trim, h]

theorem withCharset_kept {before name after} (hutf8 : isUtf8 name = true)
    (h : cutCharset? (segments s).tail = some (before, name, after)) :
    withCharset (some s) = (trim s, []) := by
  rw [withCharset, filter_trim_of_written hs]
  dsimp only
  rw [segments_trim, h]
  exact if_pos hutf8

theorem withCharset_replaced {before name after} (hutf8 : isUtf8 name = false)
    (h : cutCharset? (segments s).tail = some (before, name, after)) :
    ∃ text, withCharset (some s) =
      (Text.join "; ".toList ((segments s).take 1 ++ before ++ corrected :: after),
        [Journal.warn .response text]) := by
  rw [withCharset, filter_trim_of_written hs]
  dsimp only
  rw [segments_trim, h]
  exact ⟨_, if_neg (Bool.eq_false_iff.mp hutf8)⟩

end

theorem withCharset_of_blank {declared : Option (List Char)}
    (h : ∀ s ∈ declared, isBlank s = true) : withCharset declared = (usual, []) := by
  have hfilter : (declared.map trim).filter (!·.isEmpty) = none := by
    cases declared with
    | none => rfl
    | some s =>
      rw [Option.map_some, (Text.trim_eq_nil_iff s).mpr (h s rfl)]
      rfl
  rw [withCharset, hfilter]

theorem FirstCharset.cut {parts front behind : List (List Char)} {p v : List Char}
    (h : FirstCharset parts front p v behind) :
    cutCharset? parts.tail = some (front.tail, v, behind) ∧ parts.take 1 ++ front.tail = front := by
  obtain ⟨rfl, hne, hfirst, hp⟩ := h
  obtain ⟨part, front, rfl⟩ := List.exists_cons_of_ne_nil hne
  exact ⟨cutCharset?_append behind hfirst hp, rfl⟩

/-- With the parameter exchanged there are still no semicolons and no blanks at the ends. -/
theorem FirstCharset.of_mem_corrected {s : List Char} {front behind : List (List Char)}
    {p v : List Char} (h : FirstCharset (segments s) front p v behind) {part : List Char}
    (hpart : part ∈ front ++ corrected :: behind) : ';' ∉ part ∧ trim part = part := by
  have hold : part ∈ front ∨ part ∈ behind → part ∈ segments s := by
    rw [h.split, List.mem_append, List.mem_cons]
    exact Or.imp_right Or.inr
  rw [List.mem_append, List.mem_cons] at hpart
  rcases hpart with hpart | rfl | hpart
  · exact of_mem_segments (hold (Or.inl hpart))
  · decide
  · exact of_mem_segments (hold (Or.inr hpart))

/-- A media type has a first parameter for the character set, or none at all. -/
theorem exists_firstCharset_or {parts : List (List Char)} (hne : parts ≠ []) :
    (∀ p ∈ parts.tail, ∀ v, ¬ Declares p v) ∨
      ∃ front p v behind, FirstCharset parts front p v behind := by
  obtain ⟨part, parts, rfl⟩ := List.exists_cons_of_ne_nil hne
  cases hcut : cutCharset? parts with
  | none => exact Or.inl (cutCharset?_eq_none hcut)
  | some found =>
    obtain ⟨p, rfl, hp, hfirst⟩ := cutCharset?_eq_some hcut
    exact Or.inr ⟨part :: found.1, p, found.2.1, found.2.2,
      ⟨rfl, List.cons_ne_nil part found.1, hfirst, hp⟩⟩

section

variable {s : List Char} {front behind : List (List Char)} {p v : List Char}

/-- Where no segment is a parameter for the character set, one is put at the end. -/
theorem segments_appended (hs : isBlank s = false)
    (hnone : ∀ p ∈ (segments s).tail, ∀ v, ¬ Declares p v) :
    segments (withCharset (some s)).1 = segments s ++ ["charset=utf-8".toList] ∧
      (withCharset (some s)).2 = [] := by
  rw [withCharset_appended hs (cutCharset?_of_none hnone)]
  refine ⟨?_, rfl⟩
  change segments (trim s ++ "; ".toList ++ corrected) = _
  rw [List.append_assoc]
  change segments (trim s ++ ';' :: (' ' :: corrected)) = _
  rw [segments_append_cons, segments_trim]
  rfl

/-- A parameter that names UTF-8 stays. -/
theorem segments_kept (hs : isBlank s = false) (h : FirstCharset (segments s) front p v behind)
    (hv : NamesUtf8 v) :
    segments (withCharset (some s)).1 = segments s ∧ (withCharset (some s)).2 = [] := by
  rw [withCharset_kept hs ((isUtf8_iff v).mpr hv) h.cut.1]
  exact ⟨segments_trim s, rfl⟩

/-- A parameter that names anything else is exchanged. -/
theorem segments_replaced (hs : isBlank s = false) (h : FirstCharset (segments s) front p v behind)
    (hv : ¬ NamesUtf8 v) :
    segments (withCharset (some s)).1 = front ++ "charset=utf-8".toList :: behind ∧
      ∃ text, (withCharset (some s)).2 = [Journal.warn .response text] := by
  have hother : isUtf8 v = false := Bool.eq_false_iff.mpr (mt (isUtf8_iff v).mp hv)
  obtain ⟨hcut, hfront⟩ := h.cut
  obtain ⟨text, htext⟩ := withCharset_replaced hs hother hcut
  rw [htext, hfront]
  exact ⟨segments_join (List.append_ne_nil_of_right_ne_nil _ (List.cons_ne_nil _ _))
    fun _ => h.of_mem_corrected, text, rfl⟩

end

theorem saysUtf8_append {front : List (List Char)} (behind : List (List Char)) (hne : front ≠ [])
    (hfirst : ∀ p ∈ front.tail, ∀ v, ¬ Declares p v) :
    SaysUtf8 (front ++ "charset=utf-8".toList :: behind) := by
  have hdeclares : Declares "charset=utf-8".toList "utf-8".toList :=
    charsetValue?_eq_some_iff.mp (by decide)
  exact ⟨front, _, _, behind, ⟨rfl, hne, hfirst, hdeclares⟩, Or.inl (by decide)⟩

theorem saysUtf8_usual : SaysUtf8 (segments usual) := by
  have husual : segments usual = ["text/html".toList] ++ "charset=utf-8".toList :: [] := by decide
  rw [husual]
  exact saysUtf8_append [] (List.cons_ne_nil _ _) fun p hp => absurd hp List.not_mem_nil

/-- Whatever is declared, the outcome says UTF-8. -/
theorem saysUtf8_withCharset (declared : Option (List Char)) :
    SaysUtf8 (segments (withCharset declared).1) := by
  by_cases hblank : ∀ s ∈ declared, isBlank s = true
  · rw [withCharset_of_blank hblank]
    exact saysUtf8_usual
  · push Not at hblank
    obtain ⟨s, rfl, hs⟩ := hblank
    rw [ne_eq, Bool.not_eq_true] at hs
    rcases exists_firstCharset_or (segments_ne_nil s) with hnone | ⟨front, p, v, behind, h⟩
    · rw [(segments_appended hs hnone).1]
      exact saysUtf8_append [] (segments_ne_nil s) hnone
    · by_cases hv : NamesUtf8 v
      · rw [(segments_kept hs h hv).1]
        exact ⟨front, p, v, behind, h, hv⟩
      · rw [(segments_replaced hs h hv).1]
        exact saysUtf8_append behind h.notFirst h.first

/-- What is done to the segments of a media type: without a parameter for the character set behind
the first segment one is put at the end; the first such parameter stays if it names UTF-8, and else
it is exchanged, with a warning. There is no warning for a blank media type or none. The first one
of the outcome names UTF-8 in any case. -/
theorem withCharset_segments (declared : Option (List Char)) :
    (∀ s, declared = some s → isBlank s = false →
      ((∀ p ∈ (segments s).tail, ∀ v, ¬ Declares p v) →
        segments (withCharset declared).1 = segments s ++ ["charset=utf-8".toList] ∧
          (withCharset declared).2 = []) ∧
      ∀ front p v behind, FirstCharset (segments s) front p v behind →
        (NamesUtf8 v →
          segments (withCharset declared).1 = segments s ∧ (withCharset declared).2 = []) ∧
        (¬ NamesUtf8 v →
          segments (withCharset declared).1 = front ++ "charset=utf-8".toList :: behind ∧
            ∃ text, (withCharset declared).2 = [Journal.warn .response text])) ∧
    ((∀ s ∈ declared, isBlank s = true) → (withCharset declared).2 = []) ∧
    SaysUtf8 (segments (withCharset declared).1) := by
  refine ⟨?_, fun hblank => by rw [withCharset_of_blank hblank], saysUtf8_withCharset declared⟩
  rintro s rfl hs
  exact ⟨segments_appended hs, fun front p v behind h =>
    ⟨segments_kept hs h, segments_replaced hs h⟩⟩

/-- A first segment that looks like a parameter does not count, nor does a second parameter. -/
theorem withCharset_segments_repeated :
    let declared := "charset=x ;; Charset = \" latin1\";charset=utf-8".toList
    let front := ["charset=x".toList, []]
    isBlank declared = false ∧
      FirstCharset (segments declared) front "Charset = \" latin1\"".toList " latin1".toList
        ["charset=utf-8".toList] ∧
      ¬ NamesUtf8 " latin1".toList ∧
      segments (withCharset (some declared)).1 =
        front ++ ["charset=utf-8".toList, "charset=utf-8".toList] := by
  intro declared front
  have hwritten : isBlank declared = false := by decide
  have hfirst : FirstCharset (segments declared) front "Charset = \" latin1\"".toList
      " latin1".toList ["charset=utf-8".toList] := by
    refine ⟨by decide, List.cons_ne_nil _ _, ?_, charsetValue?_eq_some_iff.mp (by decide)⟩
    intro p hp
    rw [List.mem_singleton.mp hp]
    exact charsetValue?_eq_none_iff.mp (by decide)
  have hother : ¬ NamesUtf8 " latin1".toList := by
    rw [← isUtf8_iff]
    decide
  obtain ⟨hrewritten, -, -⟩ := withCharset_segments (some declared)
  obtain ⟨-, hparameter⟩ := hrewritten declared rfl hwritten
  obtain ⟨hsegments, -⟩ := (hparameter _ _ _ _ hfirst).2 hother
  exact ⟨hwritten, hfirst, hother, hsegments⟩

end ViewRendering.ContentType
