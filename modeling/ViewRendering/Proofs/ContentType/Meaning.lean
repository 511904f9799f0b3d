import ViewRendering.Proofs.ContentType.Pieces

/-!
What the parameters of a media type declare. The first piece of a parameter for the character set is
one of those in which a character set is looked for, and where it is the whole parameter the value
found there names UTF-8 only if the parameter means UTF-8.
-/
namespace ViewRendering.ContentType

open Text (trim trimBy)

namespace Parameter

def utf8 : Parameter where
  name := "charset".toList
  value := charset
  isToken_name := by decide
  isValue_value := .token (by decide)

theorem written_utf8 : utf8.written = corrected := by decide

theorem pieces_utf8 : utf8.pieces = [corrected] := by
  rw [pieces_of_not_mem (by decide), written_utf8]

theorem isCharset_utf8 : utf8.IsCharset := by decide

theorem namesUtf8_utf8 : NamesUtf8 utf8.meaning := Or.inl (by decide)

theorem spaced_utf8 : utf8.spaced = utf8 := by
  rw [spaced_eq_iff, pieces_utf8, written_utf8]
  rfl

theorem exists_first_piece (p : Parameter) :
    ∃ u parts, p.pieces = (p.name ++ '=' :: u) :: parts := by
  have hgroup := p.group
  generalize p.pieces = parts at hgroup
  cases hgroup with
  | whole => exact ⟨_, _, rfl⟩
  | split => exact ⟨_, _, rfl⟩

/-- The first piece of a parameter declares the character set exactly if the parameter does. -/
theorem declares_name_iff (p : Parameter) (u v : List Char) :
    Declares (p.name ++ '=' :: u) v ↔ p.IsCharset ∧ v = trimBy (· == '"') (trim u) := by
  have htrim : Text.trim p.name = p.name :=
    Text.trim_eq_self (fun c hc => isSpace_of_isTokenChar
        (isTokenChar_of_mem p.isToken_name c (List.mem_of_mem_head? hc)))
      fun c hc => isSpace_of_isTokenChar
        (isTokenChar_of_mem p.isToken_name c (List.mem_of_getLast? hc))
  have hname : '=' ∉ p.name := not_mem_of_isToken p.isToken_name (by decide)
  constructor
  · rintro ⟨name, rest, hsplit, hnot, hsame, rfl⟩
    have hcut := (Text.firstAt_singleton_iff.mpr ⟨hsplit, hnot⟩).unique
      (Text.firstAt_singleton_iff.mpr ⟨rfl, hname⟩)
    obtain ⟨rfl, rfl⟩ := hcut
    rw [htrim] at hsame
    exact ⟨hsame, rfl⟩
  · rintro ⟨hsame, rfl⟩
    exact ⟨p.name, u, rfl, hname, by rw [htrim]; exact hsame, rfl⟩

end Parameter

/-! ### What a value means -/

theorem NamesUtf8.plain {v : List Char} (h : NamesUtf8 v) : ∀ c ∈ v, c ≠ '"' ∧ c ≠ '\\' := by
  intro c hc
  have hlower : c.toLower ∈ "utf-8".toList := by
    rcases h with h | h
    · exact h ▸ List.mem_map_of_mem hc
    · have hsubset : "utf8".toList ⊆ "utf-8".toList := by decide
      exact hsubset (h ▸ List.mem_map_of_mem hc)
  constructor
  · rintro rfl
    exact absurd hlower (by decide)
  · rintro rfl
    exact absurd hlower (by decide)

theorem NamesUtf8.ne_nil {v : List Char} (h : NamesUtf8 v) : v ≠ [] := by
  rintro rfl
  exact absurd h (by unfold NamesUtf8; decide)

namespace Parameter

theorem unescape_of_not_mem {v : List Char} (h : ∀ c ∈ v, c ≠ '\\') : unescape v = v := by
  induction v with
  | nil => rfl
  | cons c v ih =>
    obtain ⟨hc, hv⟩ := List.forall_mem_cons.mp h
    rw [unescape, ih hv]
    exact fun _ _ heq _ => hc heq

theorem trim_value (p : Parameter) : Text.trim p.value = p.value := by
  refine Text.trim_eq_self ?_ (by simpa only [List.nil_append] using p.isValue_value.getLast [])
  have hvalue := p.isValue_value
  generalize p.value = v at hvalue
  cases hvalue with
  | token ht =>
    exact fun c hc => isSpace_of_isTokenChar (isTokenChar_of_mem ht c (List.mem_of_mem_head? hc))
  | quoted =>
    rintro c ⟨⟩
    decide

end Parameter

theorem quotes_plain_append {v : List Char} (h : ∀ c ∈ v, c ≠ '"' ∧ c ≠ '\\') (s : List Char) :
    quotes (v ++ s) = quotes s := by
  induction v with
  | nil => rfl
  | cons c v ih =>
    obtain ⟨⟨hquote, hescape⟩, hv⟩ := List.forall_mem_cons.mp h
    rw [List.cons_append, quotes_cons hquote hescape, ih hv]

theorem quotes_of_all {s : List Char} (h : s.all (· == '"') = true) (t : List Char) :
    quotes (s ++ t) = s.length + quotes t := by
  induction s with
  | nil => exact (Nat.zero_add _).symm
  | cons c s ih =>
    rw [List.all_cons, Bool.and_eq_true, beq_iff_eq] at h
    obtain ⟨rfl, hs⟩ := h
    rw [List.cons_append, quotes, ih hs, List.length_cons]
    omega

/-- Between the quotes of a quoted text stands what is left without the quotes at its ends, if that
is a text without quotes and backslashes. -/
theorem Quoted.eq_trimBy {q v : List Char} (hq : Quoted q) (hv : ∀ c ∈ v, c ≠ '"' ∧ c ≠ '\\')
    (hne : v ≠ []) (h : v = trimBy (· == '"') ('"' :: (q ++ ['"']))) : q = v := by
  obtain ⟨before, after, hsplit, hbefore, hafter⟩ :=
    Text.exists_padding_trimBy (· == '"') ('"' :: (q ++ ['"']))
  rw [← h] at hsplit
  -- there are two quotes in all, and one stands at either end
  have htwo : before.length + after.length = 2 := by
    have hquotes := congrArg quotes hsplit
    have hback := quotes_of_all hafter []
    rw [List.append_nil, quotes, Nat.add_zero] at hback
    rw [quotes_of_all hbefore, quotes_plain_append hv, hback, quotes, hq.quotes_append] at hquotes
    exact hquotes.symm
  have hfirst : before ≠ [] := by
    rintro rfl
    obtain ⟨c, v, rfl⟩ := List.exists_cons_of_ne_nil hne
    exact (hv c List.mem_cons_self).1 (List.cons.inj hsplit).1.symm
  have hlast : after ≠ [] := by
    rintro rfl
    have hend := congrArg List.getLast? hsplit
    rw [List.append_nil, List.getLast?_append_of_ne_nil _ hne, ← List.cons_append,
      List.getLast?_append] at hend
    exact (hv '"' (List.mem_of_getLast? hend.symm)).1 rfl
  have hone := List.length_pos_iff.mpr hfirst
  have hone' := List.length_pos_iff.mpr hlast
  obtain ⟨b, rfl⟩ := List.length_eq_one_iff.mp (by omega : before.length = 1)
  obtain ⟨a, rfl⟩ := List.length_eq_one_iff.mp (by omega : after.length = 1)
  rw [List.all_cons, Bool.and_eq_true, beq_iff_eq] at hafter
  rw [hafter.1] at hsplit
  exact List.append_cancel_right (List.cons.inj hsplit).2

/-- A parameter whose value names UTF-8 without the quotes at its ends means UTF-8. -/
theorem Parameter.namesUtf8_meaning {p : Parameter}
    (h : NamesUtf8 (trimBy (· == '"') (Text.trim p.value))) : NamesUtf8 p.meaning := by
  have hvalue := p.isValue_value
  rw [p.trim_value] at h
  unfold meaning
  generalize p.value = v at h hvalue
  cases hvalue with
  | token ht =>
    have hquote : ∀ c ∈ v, (c == '"') = false := by
      intro c hc
      rw [beq_eq_false_iff_ne]
      rintro rfl
      exact not_mem_of_isToken ht (by decide) hc
    obtain ⟨c, t, rfl, hc⟩ := exists_cons_of_isToken ht
    rw [Text.trimBy_of_forall hquote] at h
    split
    · rename_i heq
      rw [(List.cons.inj heq).1] at hc
      exact absurd hc (by decide)
    · exact h
  | @quoted q hq =>
    have hv := hq.eq_trimBy h.plain h.ne_nil rfl
    rw [← hv] at h
    change NamesUtf8 (unescape (q ++ ['"']).dropLast)
    rw [List.dropLast_concat, Parameter.unescape_of_not_mem fun c hc => (h.plain c hc).2]
    exact h

end ViewRendering.ContentType
