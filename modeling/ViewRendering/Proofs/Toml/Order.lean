import ViewRendering.Proofs.Dict.Order
import ViewRendering.Toml.Document

/-!
The fields of a document stand in the order of their names, whatever the order of its lines. Each
pair and each header extends a table by one insertion, and what is inserted plays no part.
-/
namespace ViewRendering.Toml

variable {t u : Table} {path : List String}

theorem Table.sorted_map_insert {β : Type} (ht : t.Sorted) {inner? : Option β} {key : String}
    {entry : β → Entry} (h : (inner?.map fun inner => t.insert key (entry inner)) = some u) :
    u.Sorted := by
  obtain ⟨inner, -, rfl⟩ := Option.map_eq_some_iff.mp h
  exact ht.insert key (entry inner)

theorem Table.sorted_put {v : Value} (ht : t.Sorted) (h : Table.put v path t = some u) :
    u.Sorted := by
  unfold Table.put at h
  split at h
  · cases h
  · split at h
    · cases h
    · rw [← Option.some.inj h]
      exact ht.insert _ _
  · split at h
    · exact sorted_map_insert ht h
    · exact sorted_map_insert ht h
    · cases h

theorem Table.sorted_fill {repeats : Bool} {content : Table → Option Table} (ht : t.Sorted)
    (h : Table.fill repeats content path t = some u) : u.Sorted := by
  unfold Table.fill at h
  split at h
  · cases h
  · split at h
    · exact sorted_map_insert ht h
    · exact sorted_map_insert ht h
    · exact sorted_map_insert ht h
    · exact sorted_map_insert ht h
    · cases h
  · split at h
    · exact sorted_map_insert ht h
    · exact sorted_map_insert ht h
    · exact sorted_map_insert ht h
    · cases h

/-- Steps that keep the order of a table keep it all together. -/
theorem Table.sorted_foldlM {β : Type} {step : Table → β → Option Table}
    (hstep : ∀ {t u : Table} {b : β}, t.Sorted → step t b = some u → u.Sorted) {bs : List β}
    (ht : t.Sorted) (h : bs.foldlM step t = some u) : u.Sorted := by
  induction bs generalizing t with
  | nil =>
    rw [← Option.some.inj h]
    exact ht
  | cons b bs ih =>
    rw [List.foldlM_cons] at h
    obtain ⟨next, hnext, hrest⟩ := Option.bind_eq_some_iff.mp h
    exact ih (hstep ht hnext) hrest

theorem sorted_withPairs {pairs : List (List String × Value)} (ht : t.Sorted)
    (h : withPairs pairs t = some u) : u.Sorted :=
  Table.sorted_foldlM Table.sorted_put ht h

theorem keys_fieldValues (t : Table) : Dict.keys (fieldValues t) = t.keys := by
  induction t with
  | nil => rfl
  | cons e t ih => exact congrArg (e.1 :: ·) ih

theorem sorted_fieldValues (ht : t.Sorted) : Dict.Sorted (fieldValues t) := by
  have hkeys : (Dict.keys t).Pairwise (· < ·) := List.pairwise_map.mpr ht
  rw [← keys_fieldValues] at hkeys
  exact List.pairwise_map.mp hkeys

/-- No field of a document occurs twice, and they stand in the order of their names. -/
theorem sorted_parse {s : List Char} {fields : Dict Value} (h : parse s = some fields) :
    fields.Sorted := by
  obtain ⟨ls, -, hls⟩ := Option.bind_eq_some_iff.mp h
  obtain ⟨t, ht, rfl⟩ := Option.map_eq_some_iff.mp hls
  obtain ⟨front, hpairs, hsections⟩ := Option.bind_eq_some_iff.mp ht
  have hfront := sorted_withPairs Dict.sorted_nil hpairs
  exact sorted_fieldValues (Table.sorted_foldlM Table.sorted_fill hfront hsections)

end ViewRendering.Toml
