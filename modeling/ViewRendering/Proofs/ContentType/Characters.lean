import ViewRendering.Emission
import ViewRendering.Proofs.Text.Parts

/-!
The characters of media types. Making a media type say UTF-8 takes it apart and puts it
together again; the characters come from the declared media type or from the usual one. So
the outcome is visible if what is declared is, and a header field can hold it.
-/
namespace ViewRendering

namespace ContentType

theorem mem_of_mem_segments {value part : List Char} (h : part ∈ segments value) {c : Char}
    (hc : c ∈ part) : c ∈ value := by
  obtain ⟨whole, hwhole, rfl⟩ := List.mem_map.mp h
  exact Text.mem_of_mem_splitOn hwhole (Text.mem_of_mem_trimBy hc)

/-- What stands around the parameter for the character set are parameters. -/
theorem mem_of_cutCharset? {parts before after : List (List Char)} {name : List Char}
    (h : cutCharset? parts = some (before, name, after)) {part : List Char}
    (hpart : part ∈ before ∨ part ∈ after) : part ∈ parts := by
  induction parts generalizing before with
  | nil => cases h
  | cons p parts ih =>
    unfold cutCharset? at h
    split at h
    · cases h
      rcases hpart with hpart | hpart
      · cases hpart
      · exact List.mem_cons_of_mem p hpart
    · obtain ⟨⟨others, name', rest⟩, hcut, heq⟩ := Option.map_eq_some_iff.mp h
      cases heq
      rcases hpart with hpart | hpart
      · rcases List.mem_cons.mp hpart with rfl | hpart
        · exact List.mem_cons_self
        · exact List.mem_cons_of_mem p (ih hcut (Or.inl hpart))
      · exact List.mem_cons_of_mem p (ih hcut (Or.inr hpart))

theorem corrected_subset_usual : corrected ⊆ usual := by decide

theorem separator_subset_usual : "; ".toList ⊆ usual := by decide

/-- Every character is declared or one of the usual media type. -/
theorem mem_withCharset {declared : Option (List Char)} {c : Char}
    (h : c ∈ (withCharset declared).1) : (∃ value ∈ declared, c ∈ value) ∨ c ∈ usual := by
  unfold withCharset at h
  split at h
  · exact Or.inr h
  · rename_i value hvalue
    obtain ⟨hmap, -⟩ := Option.filter_eq_some_iff.mp hvalue
    obtain ⟨written, hwritten, rfl⟩ := Option.map_eq_some_iff.mp hmap
    have hown {a : Char} (ha : a ∈ Text.trim written) :
        (∃ value ∈ declared, a ∈ value) ∨ a ∈ usual :=
      Or.inl ⟨written, hwritten, Text.mem_of_mem_trimBy ha⟩
    have hparameter {part : List Char} (hpart : part ∈ segments (Text.trim written)) {a : Char}
        (ha : a ∈ part) := hown (mem_of_mem_segments hpart ha)
    dsimp only at h
    split at h
    · rw [List.mem_append, List.mem_append] at h
      rcases h with (h | h) | h
      · exact hown h
      · exact Or.inr (separator_subset_usual h)
      · exact Or.inr (corrected_subset_usual h)
    · rename_i before name after hcut
      split at h
      · exact hown h
      · rcases Text.mem_join h with h | ⟨part, hpart, h⟩
        · exact Or.inr (separator_subset_usual h)
        · have hcuts {p : List Char} (hp : p ∈ before ∨ p ∈ after) :
              p ∈ segments (Text.trim written) :=
            List.mem_of_mem_tail (mem_of_cutCharset? hcut hp)
          rw [List.mem_append, List.mem_append, List.mem_cons] at hpart
          rcases hpart with (hpart | hpart) | rfl | hpart
          · exact hparameter (List.mem_of_mem_take hpart) h
          · exact hparameter (hcuts (Or.inl hpart)) h
          · exact Or.inr (corrected_subset_usual h)
          · exact hparameter (hcuts (Or.inr hpart)) h

end ContentType

namespace Http

def IsVisible (c : Char) : Prop := c.toNat = 9 ∨ (32 ≤ c.toNat ∧ c.toNat < 127)

instance (c : Char) : Decidable (IsVisible c) := inferInstanceAs (Decidable (_ ∨ _))

theorem isVisible_ofNat {b : UInt8} (h : isVisibleOctet b = true) :
    IsVisible (Char.ofNat b.toNat) := by
  simp only [isVisibleOctet, Bool.or_eq_true, beq_iff_eq, Bool.and_eq_true, decide_eq_true_eq,
    UInt8.le_iff_toNat_le, UInt8.lt_iff_toNat_lt, UInt8.reduceToNat] at h
  have hlt : b.toNat < 256 := b.toNat_lt
  have hchar : b.toNat.isValidChar := Or.inl (by omega)
  have hnat : (Char.ofNat b.toNat).toNat = b.toNat := by
    rw [Char.ofNat, dif_pos hchar]
    rfl
  rw [IsVisible, hnat]
  exact h.imp (fun h9 => by rw [h9]; rfl) id

theorem toNat_toUInt8_of_visible {c : Char} (h : IsVisible c) : c.toUInt8.toNat = c.toNat := by
  rw [Char.toUInt8, UInt32.toNat_toUInt8]
  exact Nat.mod_eq_of_lt (by have hval : c.val.toNat = c.toNat := rfl; rw [IsVisible] at h; omega)

theorem isValueOctet_of_visible {c : Char} (h : IsVisible c) :
    isValueOctet c.toUInt8 = true := by
  simp only [isValueOctet, Bool.or_eq_true, beq_iff_eq, Bool.and_eq_true, decide_eq_true_eq,
    bne_iff_ne, ne_eq, UInt8.le_iff_toNat_le, ← UInt8.toNat_inj, UInt8.reduceToNat,
    toNat_toUInt8_of_visible h]
  rw [IsVisible] at h
  omega

theorem isVisible_of_visibleText? {h : Header} {text : List Char}
    (htext : h.visibleText? = some text) {c : Char} (hc : c ∈ text) : IsVisible c := by
  unfold Header.visibleText? at htext
  split at htext
  · rename_i hall
    cases htext
    obtain ⟨b, hb, rfl⟩ := List.mem_map.mp hc
    exact isVisible_ofNat (List.all_eq_true.mp hall b hb)
  · cases htext

/-- Visible text is fit for the value of a header field. -/
theorem all_isValueOctet_encode {s : List Char} (h : ∀ c ∈ s, IsVisible c) :
    (Text.Utf8.encode s).all isValueOctet = true := by
  induction s with
  | nil => rfl
  | cons c s ih =>
    obtain ⟨hc, hs⟩ := List.forall_mem_cons.mp h
    have hascii : c.toNat < 0x80 := by
      rw [IsVisible] at hc
      omega
    rw [Text.Utf8.encode_cons_of_ascii hascii, List.all_cons, isValueOctet_of_visible hc, ih hs]
    rfl

end Http

namespace Emission

theorem usual_visible : ∀ c ∈ ContentType.usual, Http.IsVisible c := by
  have hall : ContentType.usual.all (fun c => decide (Http.IsVisible c)) = true := by decide
  exact fun c hc => of_decide_eq_true (List.all_eq_true.mp hall c hc)

/-- What a head declares can be read only if it is visible. -/
theorem declaredType_visible {draft : Http.Draft} {type : List Char}
    (h : declaredType draft = some type) : ∀ c ∈ type, Http.IsVisible c := by
  unfold declaredType at h
  split at h
  · cases h
  · obtain ⟨field, -, hfield⟩ := Option.bind_eq_some_iff.mp h
    exact fun c hc => Http.isVisible_of_visibleText? hfield hc

theorem withCharset_visible (draft : Http.Draft) :
    ∀ c ∈ (ContentType.withCharset (declaredType draft)).1, Http.IsVisible c := by
  intro c hc
  rcases ContentType.mem_withCharset hc with ⟨type, htype, hc⟩ | hc
  · exact declaredType_visible htype c hc
  · exact usual_visible c hc

/-- The media type of a page always makes a header field. -/
theorem typeField_withCharset (draft : Http.Draft) :
    typeField (ContentType.withCharset (declaredType draft)).1 =
      .ok ⟨typeName, octets (ContentType.withCharset (declaredType draft)).1⟩ := by
  have hvalue := Http.all_isValueOctet_encode (withCharset_visible draft)
  have hname : (!Http.isToken typeName.toList || decide (65535 < typeName.length)) = false := by
    decide
  rw [typeField, Http.Header.make, hname, octets, hvalue]
  rfl

end Emission

end ViewRendering
