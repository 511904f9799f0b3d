import ViewRendering.Dict
import Mathlib.Data.String.Basic

/-!
Dictionaries whose names stand in increasing order, as insertion keeps them. Such a
dictionary is determined by its look-ups, an insertion makes it longer by one exactly when
the name is new, and the order of insertions under different names does not matter.
-/
namespace ViewRendering.Dict

variable {α : Type}

/-- The names increase, so that none occurs twice. -/
def Sorted (d : Dict α) : Prop := d.Pairwise fun a b => a.1 < b.1

instance (d : Dict α) : Decidable d.Sorted :=
  inferInstanceAs (Decidable (d.Pairwise fun a b => a.1 < b.1))

theorem sorted_nil : Sorted ([] : Dict α) := List.Pairwise.nil

theorem mem_of_lookup {d : Dict α} {key : String} {v : α} (h : d.lookup key = some v) :
    (key, v) ∈ d := by
  induction d with
  | nil => cases h
  | cons e d ih =>
    rw [lookup_cons] at h
    by_cases hkey : e.1 = key
    · rw [if_pos hkey, Option.some.injEq] at h
      rw [← hkey, ← h]
      exact List.mem_cons_self
    · rw [if_neg hkey] at h
      exact List.mem_cons_of_mem e (ih h)

theorem lookup_of_mem {d : Dict α} (hd : d.Sorted) {e : String × α} (he : e ∈ d) :
    d.lookup e.1 = some e.2 := by
  induction d with
  | nil => cases he
  | cons x d ih =>
    obtain ⟨hx, hrest⟩ := List.pairwise_cons.mp hd
    rw [lookup_cons]
    rcases List.mem_cons.mp he with rfl | hmem
    · exact if_pos rfl
    · have hne : x.1 ≠ e.1 := ne_of_lt (hx e hmem)
      rw [if_neg hne]
      exact ih hrest hmem

theorem has_iff_mem_keys {d : Dict α} {key : String} : d.has key = true ↔ key ∈ d.keys :=
  lookup_isSome_iff d key

theorem lookup_filter (p : String → Bool) (d : Dict α) (key : String) :
    Dict.lookup (d.filter fun e => p e.1) key = if p key then d.lookup key else none := by
  induction d with
  | nil => rw [List.filter_nil, lookup_nil, ite_self]
  | cons e d ih =>
    rw [List.filter_cons]
    by_cases hkey : e.1 = key
    · subst hkey
      by_cases hp : p e.1 = true
      · rw [if_pos hp, if_pos hp, lookup_cons, lookup_cons, if_pos rfl, if_pos rfl]
      · rw [if_neg hp, ih, if_neg hp, if_neg hp]
    · rw [lookup_cons, if_neg hkey, ← ih]
      by_cases hp : p e.1 = true
      · rw [if_pos hp, lookup_cons, if_neg hkey]
      · rw [if_neg hp]

theorem Sorted.insert {d : Dict α} (hd : d.Sorted) (key : String) (v : α) :
    (d.insert key v).Sorted := by
  induction d with
  | nil => exact List.pairwise_singleton _ _
  | cons x d ih =>
    obtain ⟨hx, hrest⟩ := List.pairwise_cons.mp hd
    unfold Dict.insert
    split
    · rename_i hkey
      exact List.pairwise_cons.mpr ⟨fun e he => hkey ▸ hx e he, hrest⟩
    · rename_i hne
      split
      · rename_i hlt
        refine List.pairwise_cons.mpr ⟨fun e he => ?_, hd⟩
        rcases List.mem_cons.mp he with rfl | he
        · exact hlt
        · exact lt_trans hlt (hx e he)
      · rename_i hnlt
        have hlt : x.1 < key := lt_of_le_of_ne (not_lt.mp hnlt) hne
        refine List.pairwise_cons.mpr ⟨fun e he => ?_, ih hrest⟩
        rcases mem_insert he with rfl | he
        · exact hlt
        · exact hx e he

theorem Sorted.filter {d : Dict α} (hd : d.Sorted) (p : String × α → Bool) :
    Sorted (d.filter p) :=
  List.Pairwise.filter p hd

theorem Sorted.erase {d : Dict α} (hd : d.Sorted) (key : String) : (d.erase key).Sorted :=
  hd.filter _

/-- A dictionary in order is determined by its look-ups. -/
theorem Sorted.ext {d e : Dict α} (hd : d.Sorted) (he : e.Sorted)
    (h : ∀ key, d.lookup key = e.lookup key) : d = e := by
  have hle {d e : Dict α} (hd : d.Sorted) (h : ∀ key, d.lookup key = e.lookup key) : d ⊆ e := by
    intro x hx
    exact mem_of_lookup ((h x.1).symm.trans (lookup_of_mem hd hx))
  have hnodup {d : Dict α} (hd : d.Sorted) : d.Nodup :=
    hd.imp fun hlt heq => absurd (congrArg Prod.fst heq) (ne_of_lt hlt)
  have hperm : d.Perm e := by
    rw [List.perm_ext_iff_of_nodup (hnodup hd) (hnodup he)]
    exact fun x => ⟨fun hx => hle hd h hx, fun hx => hle he (fun key => (h key).symm) hx⟩
  exact hperm.eq_of_pairwise (fun _ _ _ _ hab hba => (lt_asymm hab hba).elim) hd he

/-- A new name is inserted somewhere. -/
theorem insert_perm_cons {d : Dict α} {key : String} (h : d.lookup key = none) (v : α) :
    (d.insert key v).Perm ((key, v) :: d) := by
  induction d with
  | nil => exact List.Perm.refl _
  | cons x d ih =>
    rw [lookup_cons] at h
    have hne : x.1 ≠ key := by
      intro heq
      rw [if_pos heq] at h
      cases h
    rw [if_neg hne] at h
    unfold Dict.insert
    rw [if_neg hne]
    split
    · exact List.Perm.refl _
    · exact ((ih h).cons x).trans (List.Perm.swap (key, v) x d)

theorem length_insert_of_lookup_eq_none {d : Dict α} {key : String}
    (h : d.lookup key = none) (v : α) : (d.insert key v).length = d.length + 1 :=
  (insert_perm_cons h v).length_eq

/-- Insertions under different names can change places. -/
theorem Sorted.insert_comm {d : Dict α} (hd : d.Sorted) {key other : String} (hne : key ≠ other)
    (v w : α) : (d.insert key v).insert other w = (d.insert other w).insert key v := by
  apply Sorted.ext ((hd.insert key v).insert other w) ((hd.insert other w).insert key v)
  intro name
  simp only [lookup_insert]
  by_cases hother : other = name
  · rw [if_pos hother, if_neg (fun hkey => hne (hkey.trans hother.symm)), if_pos hother]
  · rw [if_neg hother, if_neg hother]

/-- An entry whose name the others do not have can be inserted before or after them. -/
theorem foldl_insert_insert {entries : List (String × α)} {key : String}
    (h : ∀ e ∈ entries, e.1 ≠ key) (v : α) {d : Dict α} (hd : d.Sorted) :
    entries.foldl (fun d e => d.insert e.1 e.2) (d.insert key v) =
      (entries.foldl (fun d e => d.insert e.1 e.2) d).insert key v := by
  induction entries generalizing d with
  | nil => rfl
  | cons e entries ih =>
    obtain ⟨hfirst, hrest⟩ := List.forall_mem_cons.mp h
    rw [List.foldl_cons, List.foldl_cons, hd.insert_comm hfirst.symm]
    exact ih hrest (hd.insert e.1 e.2)

theorem ofList_cons_of_fresh {entries : List (String × α)} {key : String}
    (h : ∀ e ∈ entries, e.1 ≠ key) (v : α) :
    ofList ((key, v) :: entries) = (ofList entries).insert key v :=
  foldl_insert_insert h v sorted_nil

theorem lookup_foldl_insert {entries : List (String × α)} {key : String}
    (h : ∀ e ∈ entries, e.1 ≠ key) (d : Dict α) :
    (entries.foldl (fun d e => d.insert e.1 e.2) d).lookup key = d.lookup key := by
  induction entries generalizing d with
  | nil => rfl
  | cons e entries ih =>
    obtain ⟨hfirst, hrest⟩ := List.forall_mem_cons.mp h
    rw [List.foldl_cons, ih hrest, lookup_insert_of_ne d e.2 hfirst]

theorem lookup_ofList_of_fresh {entries : List (String × α)} {key : String}
    (h : ∀ e ∈ entries, e.1 ≠ key) : (ofList entries).lookup key = none :=
  lookup_foldl_insert h []

/-- Of entries under different names, each is found after all of them are inserted. -/
theorem lookup_foldl_insert_of_mem {entries : List (String × α)} {e : String × α}
    (hnames : (entries.map Prod.fst).Nodup) (he : e ∈ entries) (d : Dict α) :
    (entries.foldl (fun d e => d.insert e.1 e.2) d).lookup e.1 = some e.2 := by
  induction entries generalizing d with
  | nil => cases he
  | cons x entries ih =>
    obtain ⟨hx, hrest⟩ := List.nodup_cons.mp hnames
    rw [List.foldl_cons]
    rcases List.mem_cons.mp he with rfl | hmem
    · have hfresh : ∀ y ∈ entries, y.1 ≠ e.1 := fun y hy heq =>
        hx (heq ▸ List.mem_map_of_mem hy)
      rw [lookup_foldl_insert hfresh, lookup_insert_self]
    · exact ih hrest hmem (d.insert x.1 x.2)

/-- An insertion cannot be seen among the names that leave its own name out. -/
theorem filter_insert {p : String → Bool} {key : String} (hkey : p key = false) (v : α)
    (d : Dict α) :
    ((d.insert key v).filter fun e => p e.1) = d.filter fun e => p e.1 := by
  have hdrop (e : String × α) (he : e.1 = key) (rest : Dict α) :
      ((e :: rest).filter fun e => p e.1) = rest.filter fun e => p e.1 := by
    rw [List.filter_cons_of_neg]
    rw [he, hkey]
    exact Bool.false_ne_true
  induction d with
  | nil => exact hdrop (key, v) rfl []
  | cons x d ih =>
    unfold insert
    split
    · rename_i hx
      rw [hdrop (key, v) rfl, hdrop x hx]
    · split
      · exact hdrop (key, v) rfl (x :: d)
      · rw [List.filter_cons, List.filter_cons, ih]

theorem filter_foldl_insert {p : String → Bool} {entries : List (String × α)}
    (h : ∀ e ∈ entries, p e.1 = false) (d : Dict α) :
    ((entries.foldl (fun d e => d.insert e.1 e.2) d).filter fun e => p e.1) =
      d.filter fun e => p e.1 := by
  induction entries generalizing d with
  | nil => rfl
  | cons e entries ih =>
    obtain ⟨hfirst, hrest⟩ := List.forall_mem_cons.mp h
    rw [List.foldl_cons, ih hrest, filter_insert hfirst]

theorem Sorted.foldl_insert {d : Dict α} (hd : d.Sorted) (entries : List (String × α)) :
    (entries.foldl (fun d e => d.insert e.1 e.2) d).Sorted := by
  induction entries generalizing d with
  | nil => exact hd
  | cons e entries ih => exact ih (hd.insert e.1 e.2)

theorem sorted_ofList (entries : List (String × α)) : (ofList entries).Sorted :=
  sorted_nil.foldl_insert entries

theorem Sorted.nodup_keys {d : Dict α} (hd : d.Sorted) : (d.map Prod.fst).Nodup := by
  rw [List.Nodup, List.pairwise_map]
  exact hd.imp ne_of_lt

end ViewRendering.Dict
