import ViewRendering.Proofs.Locals.Agreement

/-!
What stands under each name once the locals of a render are put together. The sources are merged
one after another, yet each name can be looked at on its own: a filter leaves nothing under its
name, and otherwise the first source that has the name gives the value. A helper that the caller
hides is not made at all; of the others the first one that breaks down, in the order of the names,
is the failure.
-/
namespace ViewRendering.Locals

variable {view : String} {request : Http.Request} {given d d' : Dict Value}
  {filters : FilterTable} {helpers : Dict Helper} {x : String × Helper}
  {name : String} {text : Option String}

/-- A helper that the caller does not hide is made from the request and breaks down, leaving a
text or none. -/
def BreaksDown (given : Dict Value) (helpers : Dict Helper) (request : Http.Request)
    (name : String) (text : Option String) : Prop :=
  given.lookup name = none ∧
    ∃ make, helpers.lookup name = some (.factory make) ∧ make request = .error text

def standing (given : Dict Value) (filters : FilterTable) (helpers : Dict Helper)
    (request : Http.Request) (key : String) : Option Value :=
  if key ∈ filters.keys then none
  else
    match given.lookup key with
    | some v => some v
    | none =>
      match helpers.lookup key with
      | some h => (h.compute request).toOption
      | none => if key = requestKey then some request.snapshot else none

theorem compute_eq_error_iff {h : Helper} :
    h.compute request = .error text ↔ ∃ make, h = .factory make ∧ make request = .error text := by
  cases h with
  | value v => simp [Helper.compute]
  | factory make => simp [Helper.compute]

/-- What a step of the merge does with a helper. -/
theorem withHelpers_cons_cases (view : String) (request : Http.Request) (x : String × Helper)
    (helpers : Dict Helper) (d : Dict Value) :
    (d.lookup x.1 ≠ none ∧
      withHelpers view request (x :: helpers) d = withHelpers view request helpers d) ∨
    (∃ text, BreaksDown d (x :: helpers) request x.1 text ∧
      withHelpers view request (x :: helpers) d = .error (helperFailure view x.1 text)) ∨
    (d.lookup x.1 = none ∧ ∃ v, x.2.compute request = .ok v ∧
      withHelpers view request (x :: helpers) d =
        withHelpers view request helpers (d.insert x.1 v)) := by
  obtain ⟨key, h⟩ := x
  rw [withHelpers]
  by_cases hhas : d.has key = true
  · rw [if_pos hhas]
    exact Or.inl ⟨Option.isSome_iff_ne_none.mp hhas, rfl⟩
  · rw [if_neg hhas]
    have hnone : d.lookup key = none := by
      rwa [Dict.has, Option.not_isSome_iff_eq_none] at hhas
    cases hh : h.compute request with
    | error text =>
      obtain ⟨make, rfl, herror⟩ := compute_eq_error_iff.mp hh
      exact Or.inr (Or.inl ⟨text, ⟨hnone, make, if_pos rfl, herror⟩, rfl⟩)
    | ok v => exact Or.inr (Or.inr ⟨hnone, v, rfl, rfl⟩)

/-- A helper that is hidden, or that has given its value, plays no part in the rest of the
merge. -/
theorem breaksDown_cons (hvalue : d.lookup x.1 = none → ∃ v, x.2.compute request = .ok v)
    (hd' : d'.lookup x.1 ≠ none) (hsame : ∀ key, x.1 ≠ key → d'.lookup key = d.lookup key) :
    BreaksDown d (x :: helpers) request name text ↔ BreaksDown d' helpers request name text := by
  unfold BreaksDown
  by_cases hname : x.1 = name
  · subst hname
    constructor
    · rintro ⟨hnone, make, hmake, herror⟩
      obtain ⟨v, hv⟩ := hvalue hnone
      rw [Dict.lookup_cons, if_pos rfl, Option.some.injEq] at hmake
      rw [hmake, Helper.compute, herror] at hv
      cases hv
    · rintro ⟨hnone, -⟩
      exact absurd hnone hd'
  · rw [hsame name hname, Dict.lookup_cons, if_neg hname]

theorem breaksDown_cons_of_hidden (h : d.lookup x.1 ≠ none) :
    BreaksDown d (x :: helpers) request name text ↔ BreaksDown d helpers request name text :=
  breaksDown_cons (fun hnone => absurd hnone h) h fun _ _ => rfl

theorem breaksDown_cons_of_value {v : Value} (h : x.2.compute request = .ok v) :
    BreaksDown d (x :: helpers) request name text ↔
      BreaksDown (d.insert x.1 v) helpers request name text := by
  refine breaksDown_cons (fun _ => ⟨v, h⟩) ?_ fun key hkey => Dict.lookup_insert_of_ne d v hkey
  rw [Dict.lookup_insert_self]
  exact Option.some_ne_none v

/-- The merge ends with a failure exactly if one of the helpers to be made breaks down. -/
theorem withHelpers_fails_iff (view : String) (request : Http.Request) (helpers : Dict Helper)
    (d : Dict Value) :
    (∃ f, withHelpers view request helpers d = .error f) ↔
      ∃ name text, BreaksDown d helpers request name text := by
  induction helpers generalizing d with
  | nil => simp [withHelpers, BreaksDown]
  | cons x helpers ih =>
    rcases withHelpers_cons_cases view request x helpers d with
      ⟨hhidden, hstep⟩ | ⟨text, hbroken, hstep⟩ | ⟨-, v, hv, hstep⟩
    · rw [hstep, ih]
      simp only [breaksDown_cons_of_hidden hhidden]
    · exact ⟨fun _ => ⟨x.1, text, hbroken⟩, fun _ => ⟨_, hstep⟩⟩
    · rw [hstep, ih]
      simp only [breaksDown_cons_of_value hv]

/-- The failure is that of the first helper that breaks down, in the order of the names. -/
theorem withHelpers_fails_with_first (hsorted : helpers.Sorted) {f : Failure}
    (h : withHelpers view request helpers d = .error f) :
    ∃ name text, BreaksDown d helpers request name text ∧ f = helperFailure view name text ∧
      ∀ other text', BreaksDown d helpers request other text' → name ≤ other := by
  induction helpers generalizing d with
  | nil => cases h
  | cons x helpers ih =>
    obtain ⟨hfirst, hrest⟩ := List.pairwise_cons.mp hsorted
    rcases withHelpers_cons_cases view request x helpers d with
      ⟨hhidden, hstep⟩ | ⟨text, hbroken, hstep⟩ | ⟨-, v, hv, hstep⟩
    · rw [hstep] at h
      simp only [breaksDown_cons_of_hidden hhidden]
      exact ih hrest h
    · rw [hstep] at h
      refine ⟨x.1, text, hbroken, (Except.error.inj h).symm, ?_⟩
      rintro other text' ⟨-, make, hmake, -⟩
      -- whatever else there is stands behind the first helper
      rcases List.mem_cons.mp (Dict.mem_of_lookup hmake) with heq | hmem
      · exact le_of_eq (congrArg Prod.fst heq).symm
      · exact le_of_lt (hfirst _ hmem)
    · rw [hstep] at h
      simp only [breaksDown_cons_of_value hv]
      exact ih hrest h

/-- What is merged stands under each name by precedence. -/
theorem lookup_of_withHelpers (h : withHelpers view request helpers d = .ok d') (key : String) :
    d'.lookup key =
      (d.lookup key).or ((helpers.lookup key).bind fun h => (h.compute request).toOption) := by
  induction helpers generalizing d with
  | nil =>
    cases h
    simp
  | cons x helpers ih =>
    rcases withHelpers_cons_cases view request x helpers d with
      ⟨hhidden, hstep⟩ | ⟨text, -, hstep⟩ | ⟨hnone, v, hv, hstep⟩
    · rw [hstep] at h
      rw [ih h, Dict.lookup_cons]
      by_cases hkey : x.1 = key
      · subst hkey
        obtain ⟨w, hw⟩ := Option.ne_none_iff_exists'.mp hhidden
        rw [hw, Option.some_or, Option.some_or]
      · rw [if_neg hkey]
    · rw [hstep] at h
      cases h
    · rw [hstep] at h
      rw [ih h, Dict.lookup_insert, Dict.lookup_cons]
      by_cases hkey : x.1 = key
      · subst hkey
        rw [if_pos rfl, if_pos rfl, hnone, Option.some_or, Option.none_or, Option.bind_some, hv]
        rfl
      · rw [if_neg hkey, if_neg hkey]

theorem lookup_withRequest (request : Http.Request) (d : Dict Value) (key : String) :
    (withRequest request d).lookup key =
      (d.lookup key).or (if key = requestKey then some request.snapshot else none) := by
  unfold withRequest
  by_cases hkey : key = requestKey
  · subst hkey
    cases hd : d.lookup requestKey with
    | none => simp [Dict.has, hd]
    | some v => simp [Dict.has, hd]
  · rw [if_neg hkey, Option.or_none]
    split
    · rfl
    · exact Dict.lookup_insert_of_ne d _ (Ne.symm hkey)

/-- The helpers that the caller hides can be left out. -/
theorem withHelpers_filter (hgiven : ∀ key, given.has key = true → d.has key = true) :
    withHelpers view request helpers d =
      withHelpers view request (helpers.filter fun h => !given.has h.1) d := by
  induction helpers generalizing d with
  | nil => rfl
  | cons x helpers ih =>
    by_cases hhidden : given.has x.1 = true
    · rw [List.filter_cons_of_neg (by rw [hhidden]; exact Bool.false_ne_true), ← ih hgiven]
      obtain ⟨key, h⟩ := x
      rw [withHelpers, if_pos (hgiven key hhidden)]
    · rw [List.filter_cons_of_pos (by simpa using hhidden)]
      obtain ⟨key, h⟩ := x
      rw [withHelpers, withHelpers, ih hgiven]
      cases h.compute request with
      | error text => rfl
      | ok v =>
        have hinsert : ∀ other, given.has other = true → (d.insert key v).has other = true := by
          intro other hother
          rw [Dict.has, Dict.lookup_insert]
          split
          · rfl
          · exact hgiven other hother
        dsimp only
        rw [ih hinsert]

/-- Helpers that differ only under names the caller gives are merged alike. -/
theorem withHelpers_of_agreeOff_given {helpers' : Dict Helper} (hsorted : helpers.Sorted)
    (hsorted' : helpers'.Sorted) (h : Dict.AgreeOff given.keys helpers helpers') :
    withHelpers view request helpers given = withHelpers view request helpers' given := by
  have hgiven : ∀ key, given.has key = true → given.has key = true := fun _ hkey => hkey
  rw [withHelpers_filter hgiven, h.filter_eq hsorted hsorted', ← withHelpers_filter hgiven]

theorem assemble_fails_iff {f : Failure} :
    (assemble view given filters helpers request).1 = .error f ↔
      withHelpers view request helpers given = .error f := by
  unfold assemble
  cases withHelpers view request helpers given <;> simp

theorem lookup_of_assemble
    (h : (assemble view given filters helpers request).1 = .ok d) (key : String) :
    d.lookup key = standing given filters helpers request key := by
  unfold assemble at h
  cases hmerged : withHelpers view request helpers given with
  | error f =>
    rw [hmerged] at h
    cases h
  | ok merged =>
    rw [hmerged] at h
    have hd : withoutReserved filters.keys (withRequest request merged) = d := Except.ok.inj h
    have hmade (helper : Helper) (hgiven : given.lookup key = none)
        (hhelper : helpers.lookup key = some helper) :
        ∃ v, helper.compute request = .ok v := by
      cases hcompute : helper.compute request with
      | ok v => exact ⟨v, rfl⟩
      | error text =>
        obtain ⟨make, rfl, herror⟩ := compute_eq_error_iff.mp hcompute
        obtain ⟨f, hf⟩ := (withHelpers_fails_iff view request helpers given).mpr
          ⟨key, text, hgiven, make, hhelper, herror⟩
        rw [hmerged] at hf
        cases hf
    rw [← hd, lookup_withoutReserved, lookup_withRequest, lookup_of_withHelpers hmerged, standing]
    by_cases hfilter : key ∈ filters.keys
    · rw [if_pos hfilter, if_pos hfilter]
    · rw [if_neg hfilter, if_neg hfilter]
      cases hgiven : given.lookup key with
      | some v => rfl
      | none =>
        cases hhelper : helpers.lookup key with
        | none => rfl
        | some helper =>
          obtain ⟨v, hv⟩ := hmade helper hgiven hhelper
          simp only [Option.none_or, Option.bind_some, hv]
          rfl

/-- The locals of a render by precedence. Putting them together fails exactly if some helper that
the caller does not hide breaks down, and the failure names the first of these. Otherwise each name
has the value that its sources give it. The helpers that the caller hides make no difference,
whether they break down or not. -/
theorem assemble_by_precedence (view : String) (given : Dict Value) (filters : FilterTable)
    (helpers : Dict Helper) (hsorted : helpers.Sorted) (request : Http.Request) :
    ((∃ f, (assemble view given filters helpers request).1 = .error f) ↔
      ∃ name text, BreaksDown given helpers request name text) ∧
    (∀ f, (assemble view given filters helpers request).1 = .error f →
      ∃ name text, BreaksDown given helpers request name text ∧
        f = .execution view
          (s!"helper '{name}' panicked: " ++ text.getD "unknown panic payload") [] ∧
        ∀ other text', BreaksDown given helpers request other text' → name ≤ other) ∧
    (∀ locals, (assemble view given filters helpers request).1 = .ok locals →
      ∀ key, locals.lookup key = standing given filters helpers request key) ∧
    ∀ helpers' : Dict Helper, helpers'.Sorted → Dict.AgreeOff given.keys helpers helpers' →
      assemble view given filters helpers' request =
        assemble view given filters helpers request := by
  refine ⟨?_, ?_, ?_, ?_⟩
  · simp only [assemble_fails_iff]
    exact withHelpers_fails_iff view request helpers given
  · intro f hf
    exact withHelpers_fails_with_first hsorted (assemble_fails_iff.mp hf)
  · intro locals hlocals key
    exact lookup_of_assemble hlocals key
  · intro helpers' hsorted' hagree
    unfold assemble
    rw [withHelpers_of_agreeOff_given hsorted hsorted' hagree]

/-- The caller hides a helper that would break down. Of the two others that do, the first is named;
where none does, each name has its value, and what stands under the hidden name among the helpers
makes no difference. -/
theorem assemble_by_precedence_hidden :
    let broken : Option String → Helper := fun text => .factory fun _ => .error text
    let given : Dict Value := [("a", .text "mine"), ("request", .null)]
    let filters : FilterTable := [("a", fun v _ => .ok v)]
    let request : Http.Request := ⟨"GET", ⟨none, ['/'], ['/'], none⟩, []⟩
    let failing : Dict Helper :=
      [("a", broken none), ("b", broken (some "lost")), ("c", broken none)]
    let helpers : Dict Helper := [("a", broken none), ("b", .value (.text "helped"))]
    failing.Sorted ∧ helpers.Sorted ∧
      (∃ f, (assemble "page" given filters failing request).1 = .error f) ∧
      (assemble "page" given filters failing request).1 =
        .error (.execution "page" "helper 'b' panicked: lost" []) ∧
      (∃ locals, (assemble "page" given filters helpers request).1 = .ok locals ∧
        locals.lookup "a" = none ∧ locals.lookup "b" = some (.text "helped") ∧
        locals.lookup "request" = some .null) ∧
      assemble "page" given filters [("b", .value (.text "helped"))] request =
        assemble "page" given filters helpers request := by
  intro broken given filters request failing helpers
  have hfailing : failing.Sorted := by decide
  have hhelpers : helpers.Sorted := by decide
  have hbroken : BreaksDown given failing request "b" (some "lost") := ⟨rfl, _, rfl, rfl⟩
  have hfails := (assemble_by_precedence "page" given filters failing hfailing request).1.mpr
    ⟨"b", some "lost", hbroken⟩
  obtain ⟨-, -, hvalues, hhidden⟩ :=
    assemble_by_precedence "page" given filters helpers hhelpers request
  have hagree : Dict.AgreeOff given.keys helpers [("b", .value (.text "helped"))] := by
    intro key hkey
    have hne : "a" ≠ key := fun heq => hkey (by simp [given, Dict.keys, heq])
    rw [Dict.lookup_cons, if_neg hne]
  exact ⟨hfailing, hhelpers, hfails, rfl,
    ⟨_, rfl, hvalues _ rfl "a", hvalues _ rfl "b", hvalues _ rfl "request"⟩,
    hhidden _ (by decide) hagree⟩

end ViewRendering.Locals
