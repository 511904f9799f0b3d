import ViewRendering.Proofs.Template.Arguments
import ViewRendering.Proofs.Template.PageRendering

/-!
The two ways to call a configured filter: behind a bar, `x | f(args)`, and as a function
whose value is the argument of that name, `f(value=x, args)`. Both hand the filter the same
value. The arguments differ by one entry: the function call leaves the value among them. So
the two forms agree for a filter that takes no notice of that entry, unless it has the name of
a marker, which is not called behind a bar.
-/
namespace ViewRendering.Template

def barCall (name x : String) (written : List (String × Expression)) (rest : List Call) :
    Expression :=
  .mk (.name x) false (.mk name (Dict.ofList written) :: rest)

def withValue (x : String) (written : List (String × Expression)) : Dict Expression :=
  Dict.ofList (("value", .ofTerm (.name x)) :: written)

def functionCall (name x : String) (written : List (String × Expression)) (rest : List Call) :
    Expression :=
  .mk (.function (.mk name (withValue x written))) false rest

def finished (nested : Nested) (c : Context) (rest : List Call) (w : Value) : Result Value :=
  (filtered nested c rest (w, true)).map (completed c false rest)

@[simp] theorem toOption_wrapped {α : Type} (message : String) (r : Result α) :
    (wrapped message r).toOption = r.toOption := by
  cases r <;> rfl

theorem wrapped_bind {α β : Type} (message : String) (r : Result α) (g : α → Result β) :
    wrapped message (r >>= g) = wrapped message r >>= fun a => wrapped message (g a) := by
  cases r <;> rfl

theorem toOption_bind {ε ε' α β : Type} {r : Except ε α} {r' : Except ε' α}
    {g : α → Except ε β} {g' : α → Except ε' β} (h : r.toOption = r'.toOption)
    (hg : ∀ a, (g a).toOption = (g' a).toOption) :
    (r >>= g).toOption = (r' >>= g').toOption := by
  cases r <;> cases r' <;> cases h
  · rfl
  · exact hg _

theorem completed_unescaped (c : Context) (filters : List Call) (w : Flowing) :
    completed c.unescaped false filters w = w.1 := by
  obtain ⟨v, escaped⟩ := w
  cases v <;> rfl

/-- A filter in front of others does not settle whether a text is escaped, and neither does the
only one, unless it is a marker. -/
theorem completed_cons {c : Context} {name : String} (hname : isMarker name = false)
    (args : List (String × Expression)) (rest : List Call) :
    completed c false (.mk name args :: rest) = completed c false rest := by
  have hsafe : endsSafe (.mk name args :: rest) = endsSafe rest := by
    cases rest with
    | nil => exact (Bool.or_eq_false_iff.mp hname).1
    | cons call rest => simp only [endsSafe, List.getLast?_cons_cons]
  funext w
  simp only [completed, hsafe]

section

variable (nested : Nested) {c : Context}

variable {name x : String} {f : Filter} {v : Value}

/-- A name with a value is worth that value as an argument. -/
theorem value_nameArgument (hx : c.lookup x = .ok v) :
    (Expression.ofTerm (.name x)).value nested c.unescaped = .ok v := by
  have hlookup : c.unescaped.lookup x = .ok v := hx
  rw [Expression.ofTerm, value_name_filtered hlookup (Or.inr rfl)]
  simp only [filtered]
  exact congrArg Except.ok (completed_unescaped c [] _)

section

variable {written : List (String × Expression)} (hx : c.lookup x = .ok v)
  (hwritten : ∀ a ∈ written, a.1 ≠ "value")
include hx hwritten

theorem argumentValues_withValue {given : Dict Value} :
    argumentValues nested c.unescaped (withValue x written) = .ok given ↔
      ∃ others, argumentValues nested c.unescaped (Dict.ofList written) = .ok others ∧
        given = others.insert "value" v := by
  rw [withValue, Dict.ofList_cons_of_fresh hwritten]
  exact argumentValues_insert_eq_ok_iff (Dict.sorted_ofList written)
    (Dict.lookup_ofList_of_fresh hwritten) (value_nameArgument nested hx)

theorem exists_of_withValue_error {fault : Fault}
    (h : argumentValues nested c.unescaped (withValue x written) = .error fault) :
    ∃ a ∈ Dict.ofList written, a.2.value nested c.unescaped = .error fault := by
  obtain ⟨a, ha, hfault⟩ := exists_of_argumentValues_error h
  rw [withValue, Dict.ofList_cons_of_fresh hwritten] at ha
  rcases Dict.mem_insert ha with rfl | ha
  · rw [value_nameArgument nested hx] at hfault
    cases hfault
  · exact ⟨a, ha, hfault⟩

end

variable (written : List (String × Expression)) (rest : List Call)

/-- Behind a bar the filter gets the value and the arguments as they are written. -/
theorem value_barCall (hf : c.filters.lookup name = some f) (hname : isMarker name = false)
    (hx : c.lookup x = .ok v) :
    (barCall name x written rest).value nested c =
      wrapped s!"Filter call '{name}' failed"
        (argumentValues nested c.unescaped (Dict.ofList written) >>= fun given => f v given) >>=
          finished nested c rest := by
  have hdefault : hasDefault (.mk name (Dict.ofList written) :: rest) = false :=
    (Bool.or_eq_false_iff.mp hname).2
  have hcall : (Call.mk name (Dict.ofList written)).filterResult nested c v =
      wrapped s!"Filter call '{name}' failed"
        (argumentValues nested c.unescaped (Dict.ofList written) >>= fun given => f v given) := by
    rw [wrapped_bind]
    simp only [Call.filterResult, Context.filter, hf]
    rfl
  rw [barCall, value_name_filtered hx (Or.inr hdefault), completed_cons hname, filtered, Call.name,
    hname]
  simp only [Bool.false_eq_true, if_false]
  rw [hcall]
  cases wrapped s!"Filter call '{name}' failed"
    (argumentValues nested c.unescaped (Dict.ofList written) >>= fun given => f v given) <;> rfl

/-- A filter with the name of a marker is not called behind a bar: the value passes it by. -/
theorem value_barCall_of_marker (hname : isMarker name = true) (hx : c.lookup x = .ok v)
    (hv : v ≠ .null) :
    (barCall name x written rest).value nested c =
      (filtered nested c rest (v, x ≠ Scope.dumpName)).map
        (completed c false (.mk name (Dict.ofList written) :: rest)) := by
  rw [barCall, value_name_filtered hx (Or.inl hv), filtered, Call.name, hname, if_pos rfl]

/-- As a function the filter gets the same value, and the value once more among the arguments. -/
theorem value_functionCall (hf : c.filters.lookup name = some f) (hx : c.lookup x = .ok v)
    (hwritten : ∀ a ∈ written, a.1 ≠ "value") :
    (functionCall name x written rest).value nested c =
      wrapped s!"Function call '{name}' failed"
        (argumentValues nested c.unescaped (withValue x written) >>= fun given => f v given) >>=
          finished nested c rest := by
  have hcall : (Call.mk name (withValue x written)).result nested c =
      wrapped s!"Function call '{name}' failed"
        (argumentValues nested c.unescaped (withValue x written) >>= fun given => f v given) := by
    rw [wrapped_bind]
    simp only [Call.result, Context.function, hf]
    change (wrapped _ (argumentValues nested c.unescaped (withValue x written)) >>= fun given =>
      wrapped _ (Functions.ofFilter f given)) = _
    cases hgiven : argumentValues nested c.unescaped (withValue x written) with
    | error _ => rfl
    | ok given =>
      obtain ⟨others, -, rfl⟩ := (argumentValues_withValue nested hx hwritten).mp hgiven
      change wrapped _ (f (((others.insert "value" v).lookup "value").getD .null) _) = _
      rw [Dict.lookup_insert_self]
      rfl
  simp only [functionCall, Expression.value, Term.path?, Term.value]
  rw [hcall]
  cases wrapped s!"Function call '{name}' failed"
    (argumentValues nested c.unescaped (withValue x written) >>= fun given => f v given) <;> rfl

end

/-- Both forms call the filter on the same value. Its arguments are those that are written, none
of which is named `value`; the function call adds one of that name, and what fails is one of those
that are written. Where the filter makes no difference between the two, both forms have the same
value and print the same text, or both fail. -/
theorem callForms_differ_by_value (nested : Nested) (c : Context) (name x : String) (f : Filter)
    (v : Value) (written : List (String × Expression)) (rest : List Call)
    (hf : c.filters.lookup name = some f) (hname : isMarker name = false)
    (hx : c.lookup x = .ok v) (hwritten : ∀ a ∈ written, a.1 ≠ "value") :
    let given := argumentValues nested c.unescaped (Dict.ofList written)
    let more := argumentValues nested c.unescaped (withValue x written)
    let bar := barCall name x written rest
    let function := functionCall name x written rest
    bar.value nested c =
        wrapped s!"Filter call '{name}' failed" (given >>= fun d => f v d) >>=
          finished nested c rest ∧
      function.value nested c =
        wrapped s!"Function call '{name}' failed" (more >>= fun d => f v d) >>=
          finished nested c rest ∧
      (∀ d, more = .ok d ↔ ∃ d', given = .ok d' ∧ d = d'.insert "value" v) ∧
      (∀ d, given = .ok d → d.lookup "value" = none) ∧
      (∀ fault, given = .error fault ∨ more = .error fault →
        ∃ a ∈ Dict.ofList written, a.2.value nested c.unescaped = .error fault) ∧
      ((∀ d, given = .ok d → (f v (d.insert "value" v)).toOption = (f v d).toOption) →
        (bar.value nested c).toOption = (function.value nested c).toOption ∧
          ((Node.output bar).render nested c).toOption =
            ((Node.output function).render nested c).toOption) := by
  intro given more bar function
  have hbar := value_barCall nested written rest hf hname hx
  have hfunction := value_functionCall nested written rest hf hx hwritten
  have hmore (d : Dict Value) : more = .ok d ↔ ∃ d', given = .ok d' ∧ d = d'.insert "value" v :=
    argumentValues_withValue nested hx hwritten
  refine ⟨hbar, hfunction, hmore, fun d hd => ?_, fun fault hfault => ?_, fun hsame => ?_⟩
  · exact lookup_argumentValues (Dict.lookup_ofList_of_fresh hwritten) hd
  · rcases hfault with hgiven | hmore
    · exact exists_of_argumentValues_error hgiven
    · exact exists_of_withValue_error nested hx hwritten hmore
  have hcalls : (given >>= fun d => f v d).toOption = (more >>= fun d => f v d).toOption := by
    cases hgiven : given with
    | ok d =>
      rw [(hmore _).mpr ⟨d, hgiven, rfl⟩]
      exact (hsame d hgiven).symm
    | error _ =>
      cases hm : more with
      | ok d =>
        obtain ⟨d', hd', -⟩ := (hmore d).mp hm
        rw [hgiven] at hd'
        cases hd'
      | error _ => rfl
  have hvalues : (bar.value nested c).toOption = (function.value nested c).toOption := by
    rw [hbar, hfunction]
    exact toOption_bind (by rw [toOption_wrapped, toOption_wrapped, hcalls]) fun _ => rfl
  refine ⟨hvalues, ?_⟩
  simp only [Node.render]
  exact toOption_bind hvalues fun _ => rfl

def filterContext (name : String) (f : Filter) (x : String) (v : Value) : Context where
  page := ⟨"index.html", [], [], [], [], none⟩
  filters := [(name, f)]
  engine := .plain
  scope := ⟨[⟨.page, []⟩], [(x, v)]⟩
  escaping := true

def pairing : Filter := fun v args => .ok (.list [v, (args.lookup "with").getD .null])

theorem callForms_differ_by_value_pairing :
    let nested := nestedText 0
    let c := filterContext "pair" pairing "x" (.text "a")
    let written : List (String × Expression) := [("with", .ofTerm (.text "b"))]
    (barCall "pair" "x" written []).value nested c = .ok (.list [.text "a", .text "b"]) ∧
      (functionCall "pair" "x" written []).value nested c = .ok (.list [.text "a", .text "b"]) ∧
      ((Node.output (barCall "pair" "x" written [])).render nested c).toOption =
        ((Node.output (functionCall "pair" "x" written [])).render nested c).toOption := by
  intro nested c written
  obtain ⟨hbar, hfunction, -, -, -, hsame⟩ := callForms_differ_by_value nested c "pair" "x" pairing
    (.text "a") written [] rfl rfl rfl (by decide)
  obtain ⟨-, htexts⟩ := hsame fun d _ => by
    simp only [pairing, Dict.lookup_insert_of_ne d _ (by decide : "value" ≠ "with")]
  exact ⟨hbar.trans rfl, hfunction.trans rfl, htexts⟩

def naming : Filter := fun _ args => .ok (.list (args.keys.map .text))

/-- A filter that looks at its arguments tells the two forms apart. -/
theorem not_forall_callForms_agree :
    ¬ ∀ (nested : Nested) (c : Context) (name x : String) (f : Filter) (v : Value)
      (written : List (String × Expression)),
      c.filters.lookup name = some f → c.lookup x = .ok v → (∀ a ∈ written, a.1 ≠ "value") →
      ((Node.output (barCall name x written [])).render nested c).toOption =
        ((Node.output (functionCall name x written [])).render nested c).toOption := by
  intro h
  have hsame := h (nestedText 0) (filterContext "names" naming "x" .null) "names" "x" naming .null
    [] rfl rfl (fun _ ha => nomatch ha)
  simp only [Node.render] at hsame
  rw [value_barCall (nestedText 0) [] [] (f := naming) (v := .null) rfl rfl rfl,
    value_functionCall (nestedText 0) [] [] (f := naming) (v := .null) rfl rfl
      (fun _ ha => nomatch ha)] at hsame
  exact absurd (congrArg (Option.map Progress.text) hsame) (by decide)

end ViewRendering.Template
