/-!
Named values in the order of their names. Insertion keeps the order and replaces an
entry of the same name in one pass; `lookup` sees exactly the last value written
under a name, and removing a name changes nothing under the others.
-/
namespace ViewRendering

abbrev Dict (α : Type) := List (String × α)

namespace Dict

variable {α β : Type}

def lookup (d : Dict α) (key : String) : Option α :=
  match d with
  | [] => none
  | (k, v) :: rest => if k = key then some v else lookup rest key

def has (d : Dict α) (key : String) : Bool := (d.lookup key).isSome

/-- Names are kept in increasing order; a name already present gets the new value. -/
def insert (d : Dict α) (key : String) (value : α) : Dict α :=
  match d with
  | [] => [(key, value)]
  | (k, v) :: rest =>
    if k = key then (key, value) :: rest
    else if key < k then (key, value) :: (k, v) :: rest
    else (k, v) :: insert rest key value

def erase (d : Dict α) (key : String) : Dict α := d.filter (·.1 ≠ key)

def ofList (entries : List (String × α)) : Dict α :=
  entries.foldl (fun d e => d.insert e.1 e.2) []

def keys (d : Dict α) : List String := d.map (·.1)

def mapValues (f : α → β) (d : Dict α) : Dict β := d.map fun e => (e.1, f e.2)

@[simp] theorem lookup_nil (key : String) : lookup ([] : Dict α) key = none := rfl

theorem lookup_cons (e : String × α) (d : Dict α) (key : String) :
    lookup (e :: d) key = if e.1 = key then some e.2 else lookup d key := rfl

@[simp] theorem lookup_insert_self (d : Dict α) (key : String) (value : α) :
    (d.insert key value).lookup key = some value := by
  induction d with
  | nil => simp [insert, lookup]
  | cons e d ih =>
    unfold insert
    split
    · simp [lookup]
    · split <;> simp_all [lookup]

theorem lookup_insert_of_ne (d : Dict α) {key other : String} (value : α) (h : key ≠ other) :
    (d.insert key value).lookup other = d.lookup other := by
  induction d with
  | nil => simp [insert, lookup, h]
  | cons e d ih =>
    unfold insert
    split
    · rename_i hk
      simp_all [lookup]
    · split <;> simp_all [lookup]

theorem lookup_insert (d : Dict α) (key other : String) (value : α) :
    (d.insert key value).lookup other = if key = other then some value else d.lookup other := by
  split
  · rename_i h
    subst h
    exact lookup_insert_self d key value
  · exact lookup_insert_of_ne d value (by assumption)

theorem lookup_erase (d : Dict α) (key other : String) :
    (d.erase key).lookup other = if key = other then none else d.lookup other := by
  induction d with
  | nil => simp [erase, lookup]
  | cons e d ih =>
    unfold erase at ih ⊢
    by_cases h : e.1 = key
    · rw [List.filter_cons_of_neg (by simpa using h), ih]
      by_cases ho : key = other <;> simp_all [lookup]
    · rw [List.filter_cons_of_pos (by simpa using h)]
      by_cases ho : key = other <;> simp_all [lookup]

theorem lookup_isSome_iff (d : Dict α) (key : String) :
    (d.lookup key).isSome = true ↔ key ∈ d.keys := by
  induction d with
  | nil => simp [keys]
  | cons e d ih =>
    by_cases h : e.1 = key
    · simp [lookup, keys, h]
    · simpa [lookup, keys, h, Ne.symm h] using ih

theorem mem_insert {d : Dict α} {key : String} {value : α} {e : String × α}
    (h : e ∈ d.insert key value) : e = (key, value) ∨ e ∈ d := by
  induction d with
  | nil => simpa [insert] using h
  | cons x d ih =>
    unfold insert at h
    split at h
    · rcases List.mem_cons.mp h with h | h
      · exact Or.inl h
      · exact Or.inr (List.mem_cons_of_mem _ h)
    · split at h
      · exact (List.mem_cons.mp h)
      · rcases List.mem_cons.mp h with rfl | h
        · exact Or.inr List.mem_cons_self
        · exact (ih h).imp_right (List.mem_cons_of_mem _)

end Dict

end ViewRendering
