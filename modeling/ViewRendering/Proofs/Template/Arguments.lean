import ViewRendering.Proofs.Dict.Order
import ViewRendering.Template.Evaluation

/-!
The arguments of a call. In which order the engine looks at them makes no difference to what is
given, only to which fault is reported where several arguments have none. One more argument that
has a value is one more that is given.
-/
namespace ViewRendering.Template

namespace Engine

variable {results results' : List (String × Result Value)} {a : String × Result Value}
  {given : Dict Value} {fault : Fault}

theorem allValues_cons_eq_ok_iff :
    allValues (a :: results) = .ok given ↔
      ∃ v more, a.2 = .ok v ∧ allValues results = .ok more ∧ given = more.insert a.1 v := by
  obtain ⟨k, r⟩ := a
  rw [allValues]
  constructor
  · intro h
    cases r with
    | error _ => cases h
    | ok v =>
      cases hmore : allValues results with
      | error _ =>
        rw [hmore] at h
        cases h
      | ok more =>
        rw [hmore] at h
        cases h
        exact ⟨v, more, rfl, rfl, rfl⟩
  · rintro ⟨v, more, rfl, hmore, rfl⟩
    rw [hmore]
    rfl

theorem sorted_allValues (h : allValues results = .ok given) : given.Sorted := by
  induction results generalizing given with
  | nil =>
    cases h
    exact Dict.sorted_nil
  | cons a results ih =>
    obtain ⟨v, more, -, hmore, rfl⟩ := allValues_cons_eq_ok_iff.mp h
    exact (ih hmore).insert a.1 v

theorem lookup_allValues (h : allValues results = .ok given) {key : String}
    (hkey : ∀ a ∈ results, a.1 ≠ key) : given.lookup key = none := by
  induction results generalizing given with
  | nil =>
    cases h
    rfl
  | cons a results ih =>
    obtain ⟨hfirst, hrest⟩ := List.forall_mem_cons.mp hkey
    obtain ⟨v, more, -, hmore, rfl⟩ := allValues_cons_eq_ok_iff.mp h
    rw [Dict.lookup_insert_of_ne more v hfirst, ih hmore hrest]

/-- A fault is that of one of the arguments. -/
theorem exists_of_allValues_error (h : allValues results = .error fault) :
    ∃ a ∈ results, a.2 = .error fault := by
  induction results with
  | nil => cases h
  | cons a results ih =>
    obtain ⟨k, r⟩ := a
    rw [allValues] at h
    cases r with
    | error e =>
      cases h
      exact ⟨_, List.mem_cons_self, rfl⟩
    | ok v =>
      cases hmore : allValues results with
      | error e =>
        rw [hmore] at h
        cases h
        obtain ⟨b, hb, hfault⟩ := ih hmore
        exact ⟨b, List.mem_cons_of_mem _ hb, hfault⟩
      | ok more =>
        rw [hmore] at h
        cases h

theorem allValues_of_perm (h : results.Perm results') (hnames : (results.map Prod.fst).Nodup)
    (hgiven : allValues results = .ok given) : allValues results' = .ok given := by
  induction h generalizing given with
  | nil => exact hgiven
  | cons a _ ih =>
    obtain ⟨v, more, ha, hmore, rfl⟩ := allValues_cons_eq_ok_iff.mp hgiven
    exact allValues_cons_eq_ok_iff.mpr ⟨v, more, ha, ih (List.nodup_cons.mp hnames).2 hmore, rfl⟩
  | swap a b results =>
    obtain ⟨w, _, hb, hrest, rfl⟩ := allValues_cons_eq_ok_iff.mp hgiven
    obtain ⟨v, more, ha, hmore, rfl⟩ := allValues_cons_eq_ok_iff.mp hrest
    have hne : a.1 ≠ b.1 := by
      intro heq
      exact (List.nodup_cons.mp hnames).1 (heq ▸ List.mem_cons_self)
    rw [(sorted_allValues hmore).insert_comm hne]
    exact allValues_cons_eq_ok_iff.mpr
      ⟨v, _, ha, allValues_cons_eq_ok_iff.mpr ⟨w, more, hb, hmore, rfl⟩, rfl⟩
  | trans h _ ih ih' => exact ih' ((h.map Prod.fst).nodup_iff.mp hnames) (ih hnames hgiven)

/-- Arguments under different names are given in any order. -/
theorem gather_eq_ok_iff (g : Engine) (hnames : (results.map Prod.fst).Nodup) :
    g.gather results = .ok given ↔ allValues results = .ok given := by
  have hperm := g.order_perm results
  have horder : ((g.order results).map Prod.fst).Nodup :=
    (hperm.map Prod.fst).nodup_iff.mpr hnames
  exact ⟨allValues_of_perm hperm horder, allValues_of_perm hperm.symm hnames⟩

theorem gather_singleton (g : Engine) (a : String × Result Value) :
    g.gather [a] = a.2.map fun v => [(a.1, v)] := by
  obtain ⟨k, r⟩ := a
  rw [gather, List.perm_singleton.mp (g.order_perm [(k, r)]), allValues]
  cases r <;> rfl

end Engine

section

variable {nested : Nested} {c : Context}

theorem argumentResults_eq (args : List (String × Expression)) :
    argumentResults nested c args = args.map fun a => (a.1, a.2.value nested c) := by
  induction args with
  | nil => rfl
  | cons a args ih =>
    rw [argumentResults, ih]
    rfl

variable {args : Dict Expression} {given : Dict Value} {fault : Fault}

theorem nodup_argumentResults (nested : Nested) (c : Context) (hargs : args.Sorted) :
    ((argumentResults nested c args).map Prod.fst).Nodup := by
  rw [argumentResults_eq, List.map_map]
  exact hargs.nodup_keys

/-- What is given has the names of the arguments and no others. -/
theorem lookup_argumentValues {key : String} (h : args.lookup key = none)
    (hgiven : argumentValues nested c args = .ok given) : given.lookup key = none := by
  refine Engine.lookup_allValues hgiven fun a ha hkey => ?_
  have hmem := (c.engine.order_perm (argumentResults nested c args)).mem_iff.mp ha
  rw [argumentResults_eq] at hmem
  obtain ⟨b, hb, rfl⟩ := List.mem_map.mp hmem
  have hsome := (Dict.lookup_isSome_iff args key).mpr (hkey ▸ List.mem_map_of_mem hb)
  rw [h] at hsome
  cases hsome

theorem exists_of_argumentValues_error (h : argumentValues nested c args = .error fault) :
    ∃ a ∈ args, a.2.value nested c = .error fault := by
  obtain ⟨a, ha, hfault⟩ := Engine.exists_of_allValues_error h
  have hmem := (c.engine.order_perm (argumentResults nested c args)).mem_iff.mp ha
  rw [argumentResults_eq] at hmem
  obtain ⟨b, hb, rfl⟩ := List.mem_map.mp hmem
  exact ⟨b, hb, hfault⟩

/-- With a further argument that has a value, its value is given as well. -/
theorem argumentValues_insert_eq_ok_iff {key : String} {e : Expression} {v : Value}
    (hargs : args.Sorted) (hkey : args.lookup key = none) (he : e.value nested c = .ok v) :
    argumentValues nested c (args.insert key e) = .ok given ↔
      ∃ others, argumentValues nested c args = .ok others ∧ given = others.insert key v := by
  have hperm : (argumentResults nested c (args.insert key e)).Perm
      ((key, .ok v) :: argumentResults nested c args) := by
    rw [argumentResults_eq, argumentResults_eq, ← he]
    exact (Dict.insert_perm_cons hkey e).map fun a => (a.1, a.2.value nested c)
  have hnames := nodup_argumentResults nested c hargs
  have hmore := nodup_argumentResults nested c (hargs.insert key e)
  have hcons := (hperm.map Prod.fst).nodup_iff.mp hmore
  rw [argumentValues, c.engine.gather_eq_ok_iff hmore]
  constructor
  · intro h
    obtain ⟨w, others, hw, hothers, rfl⟩ :=
      Engine.allValues_cons_eq_ok_iff.mp (Engine.allValues_of_perm hperm hmore h)
    cases hw
    exact ⟨others, (c.engine.gather_eq_ok_iff hnames).mpr hothers, rfl⟩
  · rintro ⟨others, hothers, rfl⟩
    have hvalues := (c.engine.gather_eq_ok_iff hnames).mp hothers
    exact Engine.allValues_of_perm hperm.symm hcons
      (Engine.allValues_cons_eq_ok_iff.mpr ⟨v, others, rfl, hvalues, rfl⟩)

end

end ViewRendering.Template
