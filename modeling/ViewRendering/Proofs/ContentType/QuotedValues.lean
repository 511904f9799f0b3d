import ViewRendering.Proofs.ContentType.Meaning

/-!
What becomes of a media type with quoted values. The segments are cut at every semicolon, also at
those between quotes, so a quoted value can show a parameter for the character set where there is
none, and it is put together again with a blank behind each of its semicolons. The outcome is the
media type with its character set, and with nothing else changed, exactly if neither of the two
happens to it. Without a semicolon between quotes neither can.
-/
namespace ViewRendering.ContentType

open Text (isBlank join trim)

/-- The text is a media type with this type and subtype and with these parameters, except for those
for the character set, of which there is one and the first one names UTF-8. -/
def Keeps (m : MediaType) (t : List Char) : Prop :=
  ∃ m', Reads t m' ∧ m'.type = m.type ∧ m'.subtype = m.subtype ∧ m'.others = m.others ∧
    m'.SaysUtf8

/-- The pieces do not mislead: none of them looks like a parameter for the character set; or the
first one that does names UTF-8, as the media type does; or it is a parameter, and the others come
back when their pieces are put together. -/
inductive Respected (m : MediaType) : Prop
  | silent (h : ∀ d ∈ m.parameters.flatMap Parameter.pieces, ∀ v, ¬ Declares d v)
  | kept {front behind : List (List Char)} {d v : List Char}
      (h : FirstCharset m.pieces front d v behind) (hv : NamesUtf8 v) (hm : m.SaysUtf8)
  | exchanged {before after : List Parameter} {p : Parameter} {v : List Char}
      (hm : m.parameters = before ++ p :: after)
      (hbefore : ∀ d ∈ before.flatMap Parameter.pieces, ∀ w, ¬ Declares d w)
      (hp : ';' ∉ p.value) (hdeclares : Declares p.written v) (hv : ¬ NamesUtf8 v)
      (hothers : ∀ q ∈ m.others, join "; ".toList q.pieces = q.written)

theorem MediaType.saysUtf8_of_first {m : MediaType} {before after : List Parameter} {p : Parameter}
    (hm : m.parameters = before ++ p :: after) (hbefore : ∀ q ∈ before, ¬ q.IsCharset)
    (hp : p.IsCharset) (hmeaning : NamesUtf8 p.meaning) : m.SaysUtf8 := by
  refine ⟨p, ?_, hmeaning⟩
  have hnone : before.find? (fun q => decide q.IsCharset) = none :=
    List.find?_eq_none.mpr fun q hq => by rw [decide_eq_true_eq]; exact hbefore q hq
  rw [hm, List.find?_append, hnone, Option.none_or]
  exact List.find?_cons_of_pos (decide_eq_true hp)

/-- A parameter for the character set declares it in its first piece. -/
theorem Parameter.not_isCharset {p : Parameter} {front behind : List (List Char)}
    (hp : p.pieces = front ++ behind) (hne : front ≠ [])
    (h : ∀ d ∈ front, ∀ v, ¬ Declares d v) : ¬ p.IsCharset := by
  intro hcharset
  obtain ⟨u, parts, hpieces⟩ := p.exists_first_piece
  obtain ⟨d, front, rfl⟩ := List.exists_cons_of_ne_nil hne
  have hd : d = p.name ++ '=' :: u := (List.cons.inj (hp.symm.trans hpieces)).1
  exact h d List.mem_cons_self _ (hd ▸ (p.declares_name_iff u _).mpr ⟨hcharset, rfl⟩)

theorem not_isCharset_of_mem {ps : List Parameter}
    (h : ∀ d ∈ ps.flatMap Parameter.pieces, ∀ v, ¬ Declares d v) : ∀ q ∈ ps, ¬ q.IsCharset :=
  fun q hq => Parameter.not_isCharset (List.append_nil q.pieces).symm (segments_ne_nil q.written)
    fun d hd => h d (List.mem_flatMap.mpr ⟨q, hq, hd⟩)

/-! ### Pieces put together -/

def MediaType.spaced (m : MediaType) : MediaType :=
  { m with parameters := m.parameters.map Parameter.spaced }

theorem exists_join_pieces {front : List (List Char)} (hne : front ≠ []) (ps : List Parameter) :
    ∃ rest, join "; ".toList (front ++ ps.flatMap Parameter.pieces) =
        join "; ".toList front ++ rest ∧
      ReadsParameters rest (ps.map Parameter.spaced) := by
  induction ps generalizing front with
  | nil => exact ⟨[], by rw [List.flatMap_nil, List.append_nil, List.append_nil], .nil⟩
  | cons p ps ih =>
    obtain ⟨rest, hjoin, hrest⟩ := ih (List.append_ne_nil_of_left_ne_nil hne p.pieces)
    refine ⟨_, ?_, .cons p.spaced isGap_nil isGap_blank hrest⟩
    have hpieces : p.pieces ≠ [] := segments_ne_nil p.written
    rw [List.flatMap_cons, ← List.append_assoc, hjoin, Text.join_append hne hpieces,
      p.written_spaced, List.append_assoc, List.append_assoc]
    rfl

/-- Put together, the pieces of a media type make one with spaced parameters. -/
theorem MediaType.reads_join (m : MediaType) :
    Reads (join "; ".toList m.pieces) m.spaced :=
  exists_join_pieces (List.cons_ne_nil m.essence []) m.parameters

theorem MediaType.others_spaced (m : MediaType) :
    m.spaced.others = m.others.map Parameter.spaced := by
  rw [others, spaced, List.filter_map]
  rfl

theorem append_eq_append_cons {a b front behind : List (List Char)} {d : List Char}
    (h : a ++ b = front ++ d :: behind) :
    (∃ rest, front = a ++ rest ∧ b = rest ++ d :: behind) ∨
      ∃ rest, a = front ++ d :: rest ∧ behind = rest ++ b := by
  rcases List.append_eq_append_iff.mp h with hlater | ⟨rest, ha, hrest⟩
  · exact Or.inl hlater
  · cases rest with
    | nil => exact Or.inl ⟨[], by rw [ha, List.append_nil, List.append_nil], hrest.symm⟩
    | cons e rest =>
      obtain ⟨rfl, hbehind⟩ := List.cons.inj hrest
      exact Or.inr ⟨rest, ha, hbehind⟩

/-- A piece belongs to one of the parameters. -/
theorem exists_position {ps : List Parameter} {front behind : List (List Char)} {d : List Char}
    (h : ps.flatMap Parameter.pieces = front ++ d :: behind) :
    ∃ before p after f b, ps = before ++ p :: after ∧ p.pieces = f ++ d :: b ∧
      front = before.flatMap Parameter.pieces ++ f ∧
      behind = b ++ after.flatMap Parameter.pieces := by
  induction ps generalizing front with
  | nil =>
    exact absurd h.symm (List.append_ne_nil_of_right_ne_nil front (List.cons_ne_nil d behind))
  | cons p ps ih =>
    rw [List.flatMap_cons] at h
    rcases append_eq_append_cons h with ⟨front, rfl, hrest⟩ | ⟨b, hp, rfl⟩
    · obtain ⟨before, q, after, f, b, rfl, hq, rfl, hbehind⟩ := ih hrest
      exact ⟨p :: before, q, after, f, b, rfl, hq,
        by rw [List.flatMap_cons, List.append_assoc], hbehind⟩
    · exact ⟨[], p, ps, front, b, rfl, hp, rfl, rfl⟩

theorem FirstCharset.exists_parameter {m : MediaType} {front behind : List (List Char)}
    {d v : List Char} (h : FirstCharset m.pieces front d v behind) :
    ∃ before p after f b, m.parameters = before ++ p :: after ∧ p.pieces = f ++ d :: b ∧
      front = m.essence :: (before.flatMap Parameter.pieces ++ f) ∧
      behind = b ++ after.flatMap Parameter.pieces := by
  obtain ⟨e, front, rfl⟩ := List.exists_cons_of_ne_nil h.notFirst
  obtain ⟨rfl, hpieces⟩ := List.cons.inj h.split
  obtain ⟨before, p, after, f, b, hm, hp, rfl, hbehind⟩ := exists_position hpieces
  exact ⟨before, p, after, f, b, hm, hp, rfl, hbehind⟩

theorem Parameter.eq_written_of_pieces {p : Parameter} {d : List Char} (h : p.pieces = [d]) :
    ';' ∉ p.value ∧ d = p.written := by
  have hmem : ';' ∉ p.value := by
    intro hmem
    obtain ⟨x, y, hvalue, -, -⟩ := exists_quoted hmem
    have hwritten : p.written = (p.name ++ '=' :: '"' :: x) ++ ';' :: (y ++ ['"']) := by
      rw [written, hvalue, List.append_assoc]
      rfl
    have hlength := congrArg List.length h
    rw [pieces, hwritten, segments_append_cons, List.length_append, List.length_singleton]
      at hlength
    have hfront := List.length_pos_iff.mpr (segments_ne_nil (p.name ++ '=' :: '"' :: x))
    have hbehind := List.length_pos_iff.mpr (segments_ne_nil (y ++ ['"']))
    omega
  rw [pieces_of_not_mem hmem] at h
  exact ⟨hmem, (List.cons.inj h).1.symm⟩

/-! ### A parameter exchanged -/

theorem begins_corrected : Begins corrected := (quoted_of_all (by decide)).begins

theorem FirstCharset.withCharset_eq {s : List Char} {front behind : List (List Char)}
    {d v : List Char} (h : FirstCharset (segments s) front d v behind) (hs : isBlank s = false)
    (hv : ¬ NamesUtf8 v) :
    (withCharset (some s)).1 = join "; ".toList (front ++ corrected :: behind) := by
  have hother : isUtf8 v = false := Bool.eq_false_iff.mpr (mt (isUtf8_iff v).mp hv)
  obtain ⟨text, htext⟩ := withCharset_replaced hs hother h.cut.1
  rw [htext, h.cut.2]

/-- A parameter of which a piece is exchanged, at its place among the parameters. -/
theorem MediaType.reads_exchanged (m : MediaType) (before after : List Parameter) {q : Parameter}
    {f b : List (List Char)} (hq : q.pieces = f ++ corrected :: b) :
    Reads (join "; ".toList (m.essence :: (before.flatMap Parameter.pieces ++ f) ++
        corrected :: (b ++ after.flatMap Parameter.pieces)))
      { m with parameters := before ++ q :: after }.spaced := by
  have hreads := { m with parameters := before ++ q :: after : MediaType }.reads_join
  have hpieces : { m with parameters := before ++ q :: after : MediaType }.pieces =
      m.essence :: (before.flatMap Parameter.pieces ++ f) ++
        corrected :: (b ++ after.flatMap Parameter.pieces) := by
    rw [pieces, List.flatMap_append, List.flatMap_cons, hq]
    simp only [List.append_assoc, List.cons_append]
    rfl
  rwa [hpieces] at hreads

theorem MediaType.others_exchanged {m : MediaType} {before after : List Parameter} {p q : Parameter}
    (hm : m.parameters = before ++ p :: after) (hp : p.IsCharset) (hq : q.IsCharset) :
    { m with parameters := before ++ q :: after : MediaType }.others = m.others := by
  simp [others, hm, hp, hq]

/-- Where a parameter for something else stands, another one of the same name takes its place. -/
theorem MediaType.eq_of_others_exchanged {m : MediaType} {before after : List Parameter}
    {p q : Parameter} (hm : m.parameters = before ++ p :: after) (hp : ¬ p.IsCharset)
    (hq : ¬ q.IsCharset)
    (h : { m with parameters := before ++ q :: after : MediaType }.others.map Parameter.spaced =
      m.others) : q.spaced = p := by
  simp only [others, hm, List.filter_append, List.filter_cons, hp, hq, not_false_eq_true,
    decide_true, if_true, List.map_append, List.map_cons] at h
  exact (List.cons.inj (List.append_inj h (List.length_map _)).2).1

/-- Where a whole parameter is exchanged, the others must come back from their pieces. -/
theorem join_pieces_of_others {m m' : MediaType} {before after : List Parameter} {p : Parameter}
    (hm : m.parameters = before ++ p :: after) (hp : p.IsCharset)
    (hreads : Reads (join "; ".toList (m.essence :: (before.flatMap Parameter.pieces ++ []) ++
      corrected :: ([] ++ after.flatMap Parameter.pieces))) m')
    (hothers : m'.others = m.others) : ∀ q ∈ m.others, join "; ".toList q.pieces = q.written := by
  have hexchanged := m.reads_exchanged before after (f := []) (b := []) Parameter.pieces_utf8
  rw [hreads.unique hexchanged, MediaType.others_spaced,
    MediaType.others_exchanged hm hp Parameter.isCharset_utf8] at hothers
  exact fun q hq =>
    q.spaced_eq_iff.mp (List.map_inj_left.mp (hothers.trans (List.map_id _).symm) q hq)

/-- No piece between quotes can be exchanged without changing the parameter, unless it is what is
put in. -/
theorem eq_corrected_of_others {m m' : MediaType} {before after : List Parameter} {p : Parameter}
    {f b : List (List Char)} {d : List Char} (hm : m.parameters = before ++ p :: after)
    (hp : p.pieces = f ++ d :: b) (hcharset : ¬ p.IsCharset)
    (hgroup : Group p.name (f ++ corrected :: b))
    (hparts : ∀ part ∈ f ++ corrected :: b, ';' ∉ part ∧ trim part = part)
    (hreads : Reads (join "; ".toList (m.essence :: (before.flatMap Parameter.pieces ++ f) ++
      corrected :: (b ++ after.flatMap Parameter.pieces))) m')
    (hothers : m'.others = m.others) : d = corrected := by
  obtain ⟨q, hname, hq⟩ := hgroup.exists_parameter p.isToken_name hparts
  have hexchanged := m.reads_exchanged before after hq
  rw [hreads.unique hexchanged, MediaType.others_spaced] at hothers
  have hother : ¬ q.IsCharset := by rwa [Parameter.IsCharset, hname]
  have hsame : q.spaced = p := MediaType.eq_of_others_exchanged hm hcharset hother hothers
  have hpieces : f ++ d :: b = f ++ corrected :: b := by rw [← hp, ← hsame, q.pieces_spaced, hq]
  exact (List.cons.inj (List.append_cancel_left hpieces)).1

theorem Reads.appended {s : List Char} {m : MediaType} (h : Reads s m) :
    Reads (s ++ "; ".toList ++ corrected)
      { m with parameters := m.parameters ++ [Parameter.utf8] } := by
  obtain ⟨rest, rfl, hrest⟩ := h
  refine ⟨_, ?_, hrest.append (.cons Parameter.utf8 isGap_nil isGap_blank .nil)⟩
  rw [Parameter.written_utf8, List.append_nil, List.append_assoc, List.append_assoc]
  rfl

section

variable {s : List Char} {m : MediaType} (h : Reads s m)
include h

theorem keeps_of_silent
    (hsilent : ∀ d ∈ m.parameters.flatMap Parameter.pieces, ∀ v, ¬ Declares d v) :
    Keeps m (withCharset (some s)).1 := by
  have hnone : cutCharset? (segments s).tail = none := by
    rw [h.segments]
    exact cutCharset?_of_none hsilent
  rw [withCharset_appended h.isBlank_eq_false hnone, h.trim_eq]
  refine ⟨_, h.appended, rfl, rfl, ?_, MediaType.saysUtf8_of_first rfl
    (not_isCharset_of_mem hsilent) Parameter.isCharset_utf8 Parameter.namesUtf8_utf8⟩
  rw [MediaType.others, List.filter_append, List.filter_cons_of_neg (by decide), List.filter_nil,
    List.append_nil]
  rfl

theorem withCharset_eq_self {front behind : List (List Char)} {d v : List Char}
    (hfirst : FirstCharset m.pieces front d v behind) (hv : NamesUtf8 v) :
    (withCharset (some s)).1 = s := by
  rw [← h.segments] at hfirst
  rw [withCharset_kept h.isBlank_eq_false ((isUtf8_iff v).mpr hv) hfirst.cut.1, h.trim_eq]

theorem keeps_of_exchanged {before after : List Parameter} {p : Parameter} {v : List Char}
    (hm : m.parameters = before ++ p :: after)
    (hbefore : ∀ d ∈ before.flatMap Parameter.pieces, ∀ w, ¬ Declares d w)
    (hp : ';' ∉ p.value) (hdeclares : Declares p.written v) (hv : ¬ NamesUtf8 v)
    (hothers : ∀ q ∈ m.others, join "; ".toList q.pieces = q.written) :
    Keeps m (withCharset (some s)).1 := by
  have hcharset : p.IsCharset := ((p.declares_name_iff p.value v).mp hdeclares).1
  have hsplit : segments s = m.essence :: (before.flatMap Parameter.pieces ++ []) ++
      p.written :: ([] ++ after.flatMap Parameter.pieces) := by
    rw [h.segments, MediaType.pieces, hm, List.flatMap_append, List.flatMap_cons,
      Parameter.pieces_of_not_mem hp, List.append_nil]
    rfl
  have hfirst : FirstCharset (segments s) _ p.written v _ :=
    ⟨hsplit, List.cons_ne_nil _ _, by rwa [List.append_nil], hdeclares⟩
  have hreads := m.reads_exchanged before after (f := []) (b := []) Parameter.pieces_utf8
  rw [hfirst.withCharset_eq h.isBlank_eq_false hv]
  refine ⟨_, hreads, rfl, rfl, ?_, ?_⟩
  · rw [MediaType.others_spaced, MediaType.others_exchanged hm hcharset Parameter.isCharset_utf8]
    exact (List.map_congr_left fun q hq => q.spaced_eq_iff.mpr (hothers q hq)).trans (List.map_id _)
  · have hnone : ∀ r ∈ before.map Parameter.spaced, ¬ r.IsCharset := by
      intro r hr
      obtain ⟨q, hq, rfl⟩ := List.mem_map.mp hr
      exact not_isCharset_of_mem hbefore q hq
    refine MediaType.saysUtf8_of_first List.map_append hnone Parameter.isCharset_utf8 ?_
    rw [Parameter.spaced_utf8]
    exact Parameter.namesUtf8_utf8

theorem even_quotes_of_reads {front behind : List (List Char)} {d v : List Char} {m' : MediaType}
    (hfirst : FirstCharset (segments s) front d v behind)
    (hreads : Reads (join "; ".toList (front ++ corrected :: behind)) m') : 2 ∣ quotes d := by
  have hold := h.even
  have hnew := hreads.even
  have hparts : segments (join "; ".toList (front ++ corrected :: behind)) =
      front ++ corrected :: behind :=
    segments_join (List.append_ne_nil_of_right_ne_nil _ (List.cons_ne_nil _ _))
      fun _ => hfirst.of_mem_corrected
  have hcorrected : quotes corrected = 0 := begins_corrected.quotes_eq_zero
  rw [hfirst.split, quotesIn_append, quotesIn] at hold
  rw [hparts, quotesIn_append, quotesIn, hcorrected] at hnew
  omega

theorem respected_of_keeps {front behind : List (List Char)} {d v : List Char}
    (hfirst : FirstCharset m.pieces front d v behind) (hv : ¬ NamesUtf8 v)
    (hkeeps : Keeps m (withCharset (some s)).1) : Respected m := by
  have hsegments := hfirst
  rw [← h.segments] at hsegments
  obtain ⟨m', hreads, -, -, hothers, -⟩ := hkeeps
  rw [hsegments.withCharset_eq h.isBlank_eq_false hv] at hreads
  have heven := even_quotes_of_reads h hsegments hreads
  obtain ⟨before, p, after, f, b, hm, hp, rfl, rfl⟩ := hfirst.exists_parameter
  have hgroup := p.group
  rw [hp] at hgroup
  rcases hgroup.exchange p.isToken_name heven with ⟨rfl, rfl⟩ | ⟨hf, hexchange⟩
  · obtain ⟨hvalue, rfl⟩ := Parameter.eq_written_of_pieces hp
    have hcharset : p.IsCharset := ((p.declares_name_iff p.value v).mp hfirst.declares).1
    have hbefore := hfirst.first
    rw [List.tail_cons, List.append_nil] at hbefore
    exact .exchanged hm hbefore hvalue hfirst.declares hv
      (join_pieces_of_others hm hcharset hreads hothers)
  · have hcharset : ¬ p.IsCharset := Parameter.not_isCharset hp hf fun x hx =>
      hfirst.first x (List.mem_append_right _ hx)
    have hparts : ∀ part ∈ f ++ corrected :: b, ';' ∉ part ∧ trim part = part := by
      intro part hpart
      refine hsegments.of_mem_corrected ?_
      simp only [List.mem_append, List.mem_cons] at hpart ⊢
      tauto
    -- what is put in names UTF-8, and the piece that is exchanged does not
    have hd := eq_corrected_of_others hm hp hcharset (hexchange corrected begins_corrected) hparts
      hreads hothers
    have hvalue := charsetValue?_eq_some_iff.mpr hfirst.declares
    have hutf8 : charsetValue? corrected = some charset := by decide
    rw [hd, hutf8] at hvalue
    cases hvalue
    exact absurd (Or.inl (by decide)) hv

end

/-- Without semicolons between quotes the pieces are the parameters. -/
theorem respected_of_no_semicolon {m : MediaType} (h : ∀ p ∈ m.parameters, ';' ∉ p.value) :
    Respected m := by
  rcases exists_firstCharset_or (List.cons_ne_nil m.essence (m.parameters.flatMap Parameter.pieces))
    with hnone | ⟨front, d, v, behind, hfirst⟩
  · exact .silent hnone
  · obtain ⟨before, p, after, f, b, hm, hp, rfl, rfl⟩ := hfirst.exists_parameter
    have hvalue := h p (hm ▸ List.mem_append_right before List.mem_cons_self)
    rw [Parameter.pieces_of_not_mem hvalue] at hp
    rcases List.singleton_eq_append_iff.mp hp with ⟨rfl, hd⟩ | ⟨-, hd⟩
    swap
    · cases hd
    obtain ⟨rfl, rfl⟩ := List.cons.inj hd
    have hbefore := hfirst.first
    rw [List.append_nil] at hbefore
    obtain ⟨hcharset, hdeclared⟩ := (p.declares_name_iff p.value v).mp hfirst.declares
    by_cases hv : NamesUtf8 v
    · rw [hdeclared] at hv
      exact .kept hfirst (hdeclared ▸ hv) (MediaType.saysUtf8_of_first hm
        (not_isCharset_of_mem hbefore) hcharset (Parameter.namesUtf8_meaning hv))
    · refine .exchanged hm hbefore hvalue hfirst.declares hv fun q hq => ?_
      rw [Parameter.pieces_of_not_mem (h q (List.mem_of_mem_filter hq))]
      rfl

/-- The outcome is a well-formed media type with its type and subtype and its other parameters, and
its first parameter for the character set names UTF-8, exactly if the pieces between the semicolons
do not mislead. They do not if no quoted value has a semicolon, whatever else is in it. -/
theorem withCharset_keeps_iff {s : List Char} {m : MediaType} (h : Reads s m) :
    (Keeps m (withCharset (some s)).1 ↔ Respected m) ∧
      ((∀ p ∈ m.parameters, ';' ∉ p.value) → Keeps m (withCharset (some s)).1) := by
  have hiff : Keeps m (withCharset (some s)).1 ↔ Respected m := by
    constructor
    · intro hkeeps
      rcases exists_firstCharset_or
          (List.cons_ne_nil m.essence (m.parameters.flatMap Parameter.pieces))
        with hnone | ⟨front, d, v, behind, hfirst⟩
      · exact .silent hnone
      · by_cases hv : NamesUtf8 v
        · rw [withCharset_eq_self h hfirst hv] at hkeeps
          obtain ⟨m', hreads, -, -, -, hutf8⟩ := hkeeps
          exact .kept hfirst hv (h.unique hreads ▸ hutf8)
        · exact respected_of_keeps h hfirst hv hkeeps
    · rintro (hsilent | ⟨hfirst, hv, hutf8⟩ | ⟨hm, hbefore, hp, hdeclares, hv, hothers⟩)
      · exact keeps_of_silent h hsilent
      · rw [withCharset_eq_self h hfirst hv]
        exact ⟨m, h, rfl, rfl, rfl, hutf8⟩
      · exact keeps_of_exchanged h hm hbefore hp hdeclares hv hothers
  exact ⟨hiff, fun hnone => hiff.mpr (respected_of_no_semicolon hnone)⟩

namespace Parameter

def title (q : List Char) (hq : Quoted q) : Parameter where
  name := "title".toList
  value := '"' :: (q ++ ['"'])
  isToken_name := by decide
  isValue_value := .quoted hq

def latin1 : Parameter :=
  { utf8 with value := "latin1".toList, isValue_value := .token (by decide) }

end Parameter

def MediaType.page (ps : List Parameter) : MediaType where
  type := "text".toList
  subtype := "html".toList
  isToken_type := by decide
  isToken_subtype := by decide
  parameters := ps

theorem withCharset_keeps_iff_titled :
    let s := "text/html; title=\"a; b=c\"; charset=latin1".toList
    let t := "text/html; title=\"a = b\"; charset=latin1".toList
    (∃ m, Reads s m ∧ Respected m ∧ Keeps m (withCharset (some s)).1) ∧
      ∃ m, Reads t m ∧ (∀ p ∈ m.parameters, ';' ∉ p.value) ∧ Keeps m (withCharset (some t)).1 := by
  intro s t
  have hreads : Reads s (.page [.title "a; b=c".toList (quoted_of_all (by decide)), .latin1]) :=
    ⟨_, by decide, .cons _ isGap_nil isGap_blank (.cons _ isGap_nil isGap_blank .nil)⟩
  have hreads' : Reads t (.page [.title "a = b".toList (quoted_of_all (by decide)), .latin1]) :=
    ⟨_, by decide, .cons _ isGap_nil isGap_blank (.cons _ isGap_nil isGap_blank .nil)⟩
  have hvalues : ∀ p ∈ [Parameter.title "a = b".toList (quoted_of_all (by decide)), .latin1],
      ';' ∉ p.value :=
    List.forall_mem_cons.mpr ⟨by decide, List.forall_mem_singleton.mpr (by decide)⟩
  have hrespected :
      Respected (.page [.title "a; b=c".toList (quoted_of_all (by decide)), .latin1]) := by
    have htitle : (Parameter.title "a; b=c".toList (quoted_of_all (by decide))).pieces.all
        (fun d => (charsetValue? d).isNone) = true := by decide
    have hlatin1 : charsetValue? Parameter.latin1.written = some "latin1".toList := by decide
    have hother : ¬ NamesUtf8 "latin1".toList := by
      rw [← isUtf8_iff]
      decide
    refine .exchanged (List.singleton_append (l := [Parameter.latin1])).symm ?_ (by decide)
      (charsetValue?_eq_some_iff.mp hlatin1) hother (by decide)
    rw [List.flatMap_singleton]
    exact fun d hd => charsetValue?_eq_none_iff.mp
      (Option.isNone_iff_eq_none.mp (List.all_eq_true.mp htitle d hd))
  exact ⟨⟨_, hreads, hrespected, (withCharset_keeps_iff hreads).1.mpr hrespected⟩,
    _, hreads', hvalues, (withCharset_keeps_iff hreads').2 hvalues⟩

/-- A quoted value that mentions a character set behind a semicolon loses its closing quote. -/
theorem not_forall_withCharset_keeps :
    ¬ ∀ s m, Reads s m → Keeps m (withCharset (some s)).1 := by
  intro h
  have hreads : Reads "text/html; title=\"a; charset=latin1\"".toList
      (.page [.title "a; charset=latin1".toList (quoted_of_all (by decide))]) :=
    ⟨_, by decide, .cons _ isGap_nil isGap_blank .nil⟩
  obtain ⟨m, hbroken, -⟩ := h _ _ hreads
  exact absurd hbroken.even (by decide)

end ViewRendering.ContentType
