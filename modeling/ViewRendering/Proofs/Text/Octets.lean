import ViewRendering.Proofs.Text.Parts

/-!
Offsets in the octets of a text. An offset is a border if no character of the text is cut in two
there, and a slice can be taken between two borders only.
-/
namespace ViewRendering.Text

/-- An offset from the start of the text to its end at which the octets of a character begin or the
text ends. -/
abbrev IsBorder (s : List Char) (n : Nat) : Prop := String.Pos.Raw.IsValid (String.ofList s) ⟨n⟩

/-- The text between two borders that stand in this order. There is none between other offsets. -/
def slice? (s : List Char) (i j : Nat) : Option (List Char) :=
  if h : i ≤ j ∧ IsBorder s i ∧ IsBorder s j then
    some (String.extract
      ((String.ofList s).pos ⟨i⟩ h.2.1) ((String.ofList s).pos ⟨j⟩ h.2.2)).toList
  else none

variable {s front middle behind : List Char} {i j n : Nat}

theorem utf8ByteSize_ofList (s : List Char) : (String.ofList s).utf8ByteSize = utf8Size s := by
  induction s with
  | nil => rfl
  | cons c s ih =>
    rw [← List.singleton_append, String.ofList_append, String.utf8ByteSize_append, ih,
      ← String.singleton_eq_ofList, String.utf8ByteSize_singleton, List.singleton_append,
      utf8Size_cons]

theorem size_utf8Encode (s : List Char) : s.utf8Encode.size = utf8Size s := by
  rw [← utf8ByteSize_ofList, ← String.size_toByteArray, String.toByteArray_ofList]

theorem IsBorder.le (h : IsBorder s n) : n ≤ utf8Size s := by
  rw [← utf8ByteSize_ofList]
  exact h.le_utf8ByteSize

theorem isBorder_iff :
    IsBorder s n ↔ ∃ front behind, s = front ++ behind ∧ utf8Size front = n := by
  rw [IsBorder, String.Pos.Raw.isValid_ofList]
  constructor
  · rintro ⟨k, hk⟩
    refine ⟨s.take k, s.drop k, (List.take_append_drop k s).symm, ?_⟩
    rw [← utf8ByteSize_ofList, ← hk]
  · rintro ⟨front, behind, rfl, rfl⟩
    refine ⟨front.length, ?_⟩
    rw [List.take_left' rfl, utf8ByteSize_ofList]

theorem isBorder_append (front behind : List Char) :
    IsBorder (front ++ behind) (utf8Size front) :=
  isBorder_iff.mpr ⟨front, behind, rfl, rfl⟩

theorem extract_eq {a b : (String.ofList (front ++ (middle ++ behind))).Pos}
    (ha : a.offset.byteIdx = utf8Size front)
    (hb : b.offset.byteIdx = utf8Size front + utf8Size middle) :
    String.extract a b = String.ofList middle := by
  rw [← String.toByteArray_inj, String.toByteArray_extract, ha, hb]
  simp only [String.toByteArray_ofList, List.utf8Encode_append, ← size_utf8Encode]
  rw [← Nat.add_zero front.utf8Encode.size, Nat.add_assoc, ByteArray.extract_append_size_add,
    Nat.zero_add]
  exact ByteArray.extract_append_eq_left rfl

theorem slice?_append (front middle behind : List Char) :
    slice? (front ++ (middle ++ behind)) (utf8Size front) (utf8Size front + utf8Size middle) =
      some middle := by
  have hend : IsBorder (front ++ (middle ++ behind)) (utf8Size front + utf8Size middle) := by
    rw [← utf8Size_append, ← List.append_assoc]
    exact isBorder_append (front ++ middle) behind
  have h := And.intro (Nat.le_add_right (utf8Size front) (utf8Size middle))
    (And.intro (isBorder_append front (middle ++ behind)) hend)
  rw [slice?, dif_pos h, extract_eq rfl rfl, String.toList_ofList]

theorem slice?_to_end (front rest : List Char) :
    slice? (front ++ rest) (utf8Size front) (utf8Size (front ++ rest)) = some rest := by
  have h := slice?_append front rest []
  rwa [List.append_nil, ← utf8Size_append] at h

theorem slice?_from_start (front rest : List Char) :
    slice? (front ++ rest) 0 (utf8Size front) = some front := by
  have h := slice?_append [] front rest
  rwa [List.nil_append, show utf8Size [] = 0 from rfl, Nat.zero_add] at h

end ViewRendering.Text
