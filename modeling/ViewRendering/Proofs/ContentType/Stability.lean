import ViewRendering.Proofs.ContentType.Rewriting
import ViewRendering.Proofs.Service.Emission

/-!
Making a media type say UTF-8 a second time. The first outcome says so already, so the second time
there is no warning and nothing but the blanks at its ends can go. There are none, unless a
parameter was exchanged in a media type that ends with an empty segment: putting the segments
together again then leaves a blank behind the last semicolon, and only from the second time on does
nothing change.
-/
namespace ViewRendering

namespace ContentType

open Text (isBlank isSpace join trim)

/-- A parameter other than UTF-8 is to be exchanged, and behind it stands, at the end, an empty
segment. -/
def LeavesBlank (declared : Option (List Char)) : Prop :=
  ∃ s front p v behind, declared = some s ∧
    FirstCharset (segments s) front p v behind ∧ ¬ NamesUtf8 v ∧ behind.getLast? = some []

theorem FirstCharset.isBlank_eq_false {s : List Char} {front behind : List (List Char)}
    {p v : List Char} (h : FirstCharset (segments s) front p v behind) : isBlank s = false := by
  by_contra hblank
  rw [Bool.not_eq_false] at hblank
  have hsingle : segments s = [trim s] := by
    rw [segments, splitOn_of_isBlank hblank, List.map_singleton]
  have hlength := congrArg List.length (hsingle.symm.trans h.split)
  have hfront := List.length_pos_iff.mpr h.notFirst
  simp only [List.length_append, List.length_cons, List.length_nil] at hlength
  omega

/-- A media type has at most one first parameter for the character set. -/
theorem FirstCharset.unique {parts front behind front' behind' : List (List Char)}
    {p v p' v' : List Char} (h : FirstCharset parts front p v behind)
    (h' : FirstCharset parts front' p' v' behind') : v = v' ∧ behind = behind' := by
  have hcut := h.cut.1.symm.trans h'.cut.1
  simp only [Option.some.injEq, Prod.mk.injEq] at hcut
  exact hcut.2

/-- A media type that says UTF-8 only loses the blanks at its ends. -/
theorem withCharset_of_saysUtf8 {s : List Char} (h : SaysUtf8 (segments s)) :
    withCharset (some s) = (trim s, []) := by
  obtain ⟨front, p, v, behind, hfirst, hv⟩ := h
  exact withCharset_kept hfirst.isBlank_eq_false ((isUtf8_iff v).mpr hv) hfirst.cut.1

/-- Segments that are put together begin without a blank, and end with one exactly if the last one
is empty. -/
theorem trim_join_iff {parts : List (List Char)} {last : List Char} (hne : parts ≠ [])
    (h : ∀ part ∈ parts ++ [last], trim part = part) :
    trim (join "; ".toList (parts ++ [last])) = join "; ".toList (parts ++ [last]) ↔
      last ≠ [] := by
  constructor
  · rintro heq rfl
    have hblank : (join "; ".toList (parts ++ [[]])).getLast? = some ' ' := by
      rw [Text.join_concat hne, List.append_nil, List.getLast?_append]
      rfl
    rw [← heq] at hblank
    exact absurd (Text.isSpace_of_getLast?_trim hblank) (by decide)
  · intro hlast
    refine Text.trim_eq_self ?_ ?_
    · obtain ⟨part, rest, rfl⟩ := List.exists_cons_of_ne_nil hne
      have hpart := h part (List.mem_append_left [last] List.mem_cons_self)
      obtain ⟨other, others, hothers⟩ := List.exists_cons_of_ne_nil
        (List.append_ne_nil_of_right_ne_nil rest (List.cons_ne_nil last []))
      have hjoin : join "; ".toList (part :: rest ++ [last]) =
          part ++ ("; ".toList ++ join "; ".toList (other :: others)) := by
        rw [List.cons_append, hothers]
        rfl
      rw [hjoin]
      intro c hc
      cases part with
      | nil =>
        cases hc
        decide
      | cons d part =>
        cases hc
        exact Text.isSpace_of_head?_trim (s := c :: part) (by rw [hpart]; rfl)
    · have hown := h last (List.mem_append_right parts List.mem_cons_self)
      obtain ⟨c, hc⟩ := Option.ne_none_iff_exists'.mp (mt List.getLast?_eq_none_iff.mp hlast)
      rw [Text.join_concat hne, List.getLast?_append, List.getLast?_append, hc]
      rintro d ⟨⟩
      exact Text.isSpace_of_getLast?_trim (by rw [hown, hc])

section

variable {s : List Char} {front behind : List (List Char)} {p v : List Char}

theorem not_leavesBlank_of_none (h : ∀ p ∈ (segments s).tail, ∀ v, ¬ Declares p v) :
    ¬ LeavesBlank (some s) := by
  rintro ⟨_, front, p, v, behind, ⟨⟩, hfirst, -, -⟩
  obtain ⟨part, front, rfl⟩ := List.exists_cons_of_ne_nil hfirst.notFirst
  refine h p ?_ v hfirst.declares
  rw [hfirst.split, List.cons_append, List.tail_cons]
  exact List.mem_append_right front List.mem_cons_self

theorem leavesBlank_iff (h : FirstCharset (segments s) front p v behind) :
    LeavesBlank (some s) ↔ ¬ NamesUtf8 v ∧ behind.getLast? = some [] := by
  constructor
  · rintro ⟨_, front', p', v', behind', ⟨⟩, h', hv, hlast⟩
    obtain ⟨rfl, rfl⟩ := h.unique h'
    exact ⟨hv, hlast⟩
  · rintro ⟨hv, hlast⟩
    exact ⟨s, front, p, v, behind, rfl, h, hv, hlast⟩

theorem trim_appended (hs : isBlank s = false) :
    trim (trim s ++ "; ".toList ++ corrected) = trim s ++ "; ".toList ++ corrected := by
  have hne : trim s ≠ [] := by
    rw [ne_eq, Text.trim_eq_nil_iff, hs]
    exact Bool.false_ne_true
  obtain ⟨d, hd⟩ := Option.ne_none_iff_exists'.mp (mt List.head?_eq_none_iff.mp hne)
  refine Text.trim_eq_self (fun c hc => ?_) (fun c hc => ?_)
  · rw [List.append_assoc, List.head?_append, hd] at hc
    cases hc
    exact Text.isSpace_of_head?_trim hd
  · rw [List.getLast?_append] at hc
    cases hc
    decide

/-- Putting the segments together leaves a blank at the end exactly if the last one is empty. -/
theorem trim_replaced_iff (h : FirstCharset (segments s) front p v behind) :
    trim (join "; ".toList (front ++ corrected :: behind)) =
      join "; ".toList (front ++ corrected :: behind) ↔ behind.getLast? ≠ some [] := by
  have hown : ∀ part ∈ front ++ corrected :: behind, trim part = part :=
    fun _ hpart => (h.of_mem_corrected hpart).2
  rcases List.eq_nil_or_concat' behind with rfl | ⟨others, last, rfl⟩
  · rw [trim_join_iff h.notFirst hown]
    exact iff_of_true (by decide) nofun
  · have hparts : front ++ corrected :: (others ++ [last]) =
        (front ++ corrected :: others) ++ [last] := by
      rw [List.append_assoc, List.cons_append]
    rw [hparts] at hown ⊢
    rw [trim_join_iff (List.append_ne_nil_of_right_ne_nil front (List.cons_ne_nil _ others)) hown,
      List.getLast?_append]
    exact not_congr (Option.some_inj.symm)

end

/-- The outcome has a blank at its end exactly if the exchange of a parameter leaves it there. -/
theorem trim_withCharset_iff (declared : Option (List Char)) :
    trim (withCharset declared).1 = (withCharset declared).1 ↔ ¬ LeavesBlank declared := by
  by_cases hblank : ∀ s ∈ declared, isBlank s = true
  · rw [withCharset_of_blank hblank]
    refine iff_of_true (by decide) ?_
    rintro ⟨s, front, p, v, behind, hs, hfirst, -, -⟩
    exact absurd (hblank s hs) (Bool.eq_false_iff.mp hfirst.isBlank_eq_false)
  · push Not at hblank
    obtain ⟨s, rfl, hs⟩ := hblank
    rw [ne_eq, Bool.not_eq_true] at hs
    rcases exists_firstCharset_or (segments_ne_nil s) with hnone | ⟨front, p, v, behind, h⟩
    · rw [withCharset_appended hs (cutCharset?_of_none hnone)]
      exact iff_of_true (trim_appended hs) (not_leavesBlank_of_none hnone)
    · by_cases hv : NamesUtf8 v
      · rw [withCharset_kept hs ((isUtf8_iff v).mpr hv) h.cut.1, leavesBlank_iff h]
        exact iff_of_true (Text.trim_trim s) fun hother => hother.1 hv
      · obtain ⟨text, htext⟩ := withCharset_replaced hs
          (Bool.eq_false_iff.mpr (mt (isUtf8_iff v).mp hv)) h.cut.1
        rw [htext, h.cut.2, trim_replaced_iff h, leavesBlank_iff h, not_and]
        exact ⟨fun hlast _ => hlast, fun hlast => hlast hv⟩

/-- The second time there is no warning, and only blanks at the ends go. -/
theorem withCharset_again (declared : Option (List Char)) :
    withCharset (some (withCharset declared).1) = (trim (withCharset declared).1, []) :=
  withCharset_of_saysUtf8 (saysUtf8_withCharset declared)

end ContentType

namespace Http

theorem isVisibleOctet_of_visible {c : Char} (h : IsVisible c) :
    isVisibleOctet c.toUInt8 = true := by
  simp only [isVisibleOctet, Bool.or_eq_true, beq_iff_eq, Bool.and_eq_true, decide_eq_true_eq,
    UInt8.le_iff_toNat_le, UInt8.lt_iff_toNat_lt, ← UInt8.toNat_inj, UInt8.reduceToNat,
    toNat_toUInt8_of_visible h]
  exact h

/-- Visible text that a header field holds is read back. -/
theorem visibleText?_encode (name : String) {s : List Char} (h : ∀ c ∈ s, IsVisible c) :
    Header.visibleText? ⟨name, Text.Utf8.encode s⟩ = some s := by
  have hoctets : (Text.Utf8.encode s).all isVisibleOctet = true ∧
      (Text.Utf8.encode s).map (fun b => Char.ofNat b.toNat) = s := by
    induction s with
    | nil => exact ⟨rfl, rfl⟩
    | cons c s ih =>
      obtain ⟨hc, hs⟩ := List.forall_mem_cons.mp h
      have hascii : c.toNat < 0x80 := by
        rw [IsVisible] at hc
        omega
      rw [Text.Utf8.encode_cons_of_ascii hascii, List.all_cons, isVisibleOctet_of_visible hc,
        List.map_cons, toNat_toUInt8_of_visible hc, Char.ofNat_toNat, (ih hs).2]
      exact ⟨(ih hs).1, rfl⟩
  rw [Header.visibleText?, if_pos hoctets.1, hoctets.2]

end Http

namespace Emission

open ContentType (LeavesBlank withCharset)

variable {head : Http.Head} {page : List Char} {r : Http.Response}

/-- The media type of a response is read back from it. -/
theorem Carries.firstType_eq (h : Carries head page r) :
    firstType r.head = some (withCharset (firstType head)).1 := by
  have hvisible := withCharset_visible (.ok head)
  rw [declaredType_ok] at hvisible
  have htype : r.head.headers.valuesOf typeName = _ := h.type
  rw [firstType, htype]
  exact Http.visibleText?_encode typeName hvisible

theorem warnings_emit (page : List Char) (h : (withCharset (firstType head)).2 = []) :
    (emit (.ok head) page).2.warnings = [] := by
  have hfield := typeField_withCharset (.ok head)
  rw [declaredType_ok] at hfield
  simp only [emit, declaredType_ok, hfield, h]
  rfl

/-- A response made of the head of a response has its media type without the blanks at the ends,
and there is nothing to warn of. -/
theorem Carries.emit_again (h : Carries head page r) (page' : List Char) :
    ∃ r', (emit (.ok r.head) page').1 = .ok r' ∧ (emit (.ok r.head) page').2.warnings = [] ∧
      (r'.head.headers.valuesOf "content-type" = r.head.headers.valuesOf "content-type" ↔
        ¬ LeavesBlank (firstType head)) := by
  obtain ⟨r', hr', hcarries⟩ := emit_ok r.head page'
  have hagain := ContentType.withCharset_again (firstType head)
  have hvisible := withCharset_visible (.ok head)
  rw [declaredType_ok] at hvisible
  refine ⟨r', hr', warnings_emit page' (by rw [h.firstType_eq, hagain]), ?_⟩
  rw [hcarries.type, h.type, h.firstType_eq, hagain, ← ContentType.trim_withCharset_iff,
    List.cons.injEq, and_iff_left rfl]
  refine ⟨fun hoctets => ?_, fun htrim => by rw [htrim]⟩
  -- equal octets are the octets of equal texts, since both can be read back
  have hread : Http.Header.visibleText? _ = some (Text.trim (withCharset (firstType head)).1) :=
    Http.visibleText?_encode typeName fun c hc => hvisible c (Text.mem_of_mem_trimBy hc)
  rw [hoctets, Http.visibleText?_encode typeName hvisible] at hread
  exact (Option.some.inj hread).symm

end Emission

namespace ContentType

/-- The second time a media type is made to say UTF-8 there is no warning, and only the blanks at
its ends go; so it stays as it is unless exchanging a parameter has left a blank there, and the
third time nothing changes in any case. The same holds of the media type of a response whose head
is used again. -/
theorem withCharset_settles (declared : Option (List Char)) (head : Http.Head)
    (page page' : List Char) :
    let once := (withCharset declared).1
    withCharset (some once) = (Text.trim once, []) ∧
      ((withCharset (some once)).1 = once ↔ ¬ LeavesBlank declared) ∧
      withCharset (some (Text.trim once)) = (Text.trim once, []) ∧
      ∃ r r', (Emission.emit (.ok head) page).1 = .ok r ∧
        (Emission.emit (.ok r.head) page').1 = .ok r' ∧
        (Emission.emit (.ok r.head) page').2.warnings = [] ∧
        (r'.head.headers.valuesOf "content-type" = r.head.headers.valuesOf "content-type" ↔
          ¬ LeavesBlank (Emission.firstType head)) := by
  intro once
  have hagain := withCharset_again declared
  have hthird := withCharset_again (some once)
  rw [hagain, Text.trim_trim] at hthird
  obtain ⟨r, hr, hcarries⟩ := Emission.emit_ok head page
  obtain ⟨r', hr', hwarnings, htype⟩ := hcarries.emit_again page'
  refine ⟨hagain, ?_, hthird, r, r', hr, hr', hwarnings, htype⟩
  rw [hagain]
  exact trim_withCharset_iff declared

/-- A media type that ends with a semicolon is not left alone the second time. -/
theorem not_forall_withCharset_idempotent :
    ¬ ∀ declared : Option (List Char),
      withCharset (some (withCharset declared).1) = ((withCharset declared).1, []) := by
  intro h
  have hsame := h (some "text/html; charset=latin1;".toList)
  exact absurd hsame (by decide)

end ContentType

end ViewRendering
