import ViewRendering.Proofs.Template.CallForms
import ViewRendering.Proofs.Template.Suggestion

/-!
How far a suggestion may be from the name that was not found. The tolerance is half the octets of
that name, while distances count characters: so suggestions are within half the octets, and within
half the characters exactly if the two halves are the same.
-/
namespace ViewRendering.Template

open Text (editDistance)

/-- What a page that fails suggests is nothing, or what its message suggests. -/
theorem names_of_execute {t : Compiled} {engine : Engine} {locals : Dict Value}
    {view message : String} {names : List String}
    (h : t.execute locals engine = .error (.execution view message names)) :
    names = [] ∨ names = suggestions message locals := by
  unfold Compiled.execute at h
  split at h
  · cases h
  · rename_i fault _
    cases fault with
    | chain ms =>
      cases h
      exact Or.inr rfl
    | breakdown text =>
      cases h
      exact Or.inl rfl
    | endless =>
      cases h
      exact Or.inl rfl

theorem eligible_of_mem_suggestions {message : String} {locals : Dict Value} {missing : List Char}
    (hmissing : NamesMissing message.toList missing) {name : String}
    (hname : name ∈ suggestions message locals) : Eligible missing name := by
  obtain ⟨listed, hlisted, heq⟩ := (suggestions_nearest message locals).1 missing hmissing
  rw [heq] at hname
  obtain ⟨p, hp, rfl⟩ := List.mem_map.mp hname
  exact hlisted.eligible p hp

def throwing (message : String) : Expression :=
  .ofTerm (.function (.mk "throw" [("message", .ofTerm (.text message))]))

theorem value_throwing {nested : Nested} {c : Context} (h : c.filters.lookup "throw" = none)
    (message : String) :
    (throwing message).value nested c =
      .error (.chain ["Function call 'throw' failed", message]) := by
  have htext : (Expression.ofTerm (.text message)).value nested c.unescaped =
      .ok (.text message) := by
    unfold Expression.ofTerm
    simp only [Expression.value, Term.path?, Term.value, filtered]
    exact congrArg Except.ok (completed_unescaped c [] (.text message, true))
  have hargs : c.engine.gather
      (argumentResults nested c.unescaped [("message", .ofTerm (.text message))]) =
        .ok [("message", .text message)] := by
    rw [argumentResults_eq, List.map_singleton, Engine.gather_singleton, htext]
    rfl
  have hcall : (Call.mk "throw" [("message", .ofTerm (.text message))]).result nested c =
      .error (.chain ["Function call 'throw' failed", message]) := by
    simp only [Call.result, Context.function, h, hargs]
    rfl
  unfold throwing Expression.ofTerm
  simp only [Expression.value, Term.path?, Term.value]
  rw [Expression.ofTerm] at hcall
  rw [hcall]
  rfl

def missingText (missing : List Char) : List Char := missingStart ++ (missing ++ missingEnd)

theorem trim_missingText (missing : List Char) :
    Text.trim (missingText missing) = missingText missing := by
  refine Text.trim_eq_self ?_ ?_
  · rintro c ⟨⟩
    decide
  · intro c hc
    rw [missingText, List.getLast?_append, List.getLast?_append] at hc
    cases hc
    decide

theorem missingName?_append {front : List Char} (h : 'V' ∉ front) (s : List Char) :
    missingName? (front ++ s) = missingName? s := by
  induction front with
  | nil => rfl
  | cons c front ih =>
    obtain ⟨hc, hfront⟩ := not_or.mp (mt List.mem_cons.mpr h)
    have hat : missingAt? (c :: (front ++ s)) = none := by
      have hstart : Text.after? missingStart (c :: (front ++ s)) = none := if_neg hc
      rw [missingAt?, hstart]
      rfl
    rw [List.cons_append, missingName?, hat]
    exact ih hfront

theorem namesMissing_missingText {missing front : List Char} (hne : missing ≠ [])
    (htick : Char.ofNat 96 ∉ missing) (hfront : 'V' ∉ front) :
    NamesMissing (front ++ missingText missing) missing := by
  rw [← missingName?_eq_some_iff, missingName?_append hfront, missingName?_eq_some_iff]
  refine ⟨[], ⟨[], ?_, hne, htick⟩, fun front' _ _ => Nat.zero_le front'.length⟩
  rw [List.append_nil]
  rfl

def complaint (missing : List Char) : Compiled :=
  ⟨Page.ofNodes "index.html" [.output (throwing (String.ofList (missingText missing)))], []⟩

def complaintFront : List Char := "Function call 'throw' failed".toList ++ [':', ' ']

def complaintText (missing : List Char) : String :=
  String.ofList (complaintFront ++ missingText missing)

theorem chainText_complaint (missing : List Char) :
    chainText ["Failed to render 'index.html'", "Function call 'throw' failed",
      String.ofList (missingText missing)] = complaintText missing := by
  have htelling : tellingMessages ["Failed to render 'index.html'",
      "Function call 'throw' failed", String.ofList (missingText missing)] =
        ["Function call 'throw' failed".toList, missingText missing] := by
    have hwrapper : Text.trim "Failed to render 'index.html'".toList =
        "Failed to render 'index.html'".toList := by decide +kernel
    have hcall : Text.trim "Function call 'throw' failed".toList =
        "Function call 'throw' failed".toList := by decide +kernel
    have htext : Text.trim (String.ofList (missingText missing)).toList = missingText missing := by
      rw [String.toList_ofList, trim_missingText]
    simp only [tellingMessages, List.map_cons, List.map_nil, hwrapper, hcall, htext]
    rfl
  unfold chainText
  rw [htelling]
  exact congrArg String.ofList (List.append_assoc _ [':', ' '] (missingText missing)).symm

theorem execute_complaint (missing : List Char) (engine : Engine) (locals : Dict Value) :
    (complaint missing).execute locals engine =
      .error (.execution "index.html" (complaintText missing)
        (suggestions (complaintText missing) locals)) := by
  have hrender : (complaint missing).page.render (complaint missing).filters engine locals =
      .error (.chain ["Function call 'throw' failed", String.ofList (missingText missing)]) :=
    render_output_error rfl (value_throwing rfl _)
  rw [Compiled.execute, hrender, ← chainText_complaint]
  rfl

theorem namesMissing_complaintText {missing : List Char} (hne : missing ≠ [])
    (htick : Char.ofNat 96 ∉ missing) :
    NamesMissing (complaintText missing).toList missing := by
  rw [complaintText, String.toList_ofList]
  exact namesMissing_missingText hne htick (by decide)

/-- The only local is suggested if it is within the tolerance. -/
theorem mem_suggestions_of_le {message : String} {missing : List Char} {name : String}
    (hmissing : NamesMissing message.toList missing)
    (h : editDistance missing name.toList ≤ tolerance missing) :
    name ∈ suggestions message [(name, .null)] := by
  have hclose : Text.distance missing name.toList ≤ tolerance missing := by
    rw [Text.distance_eq]
    exact h
  rw [suggestions, missingName?_eq_some_iff.mpr hmissing]
  simp [knownNames, similarNames, hclose]

/-- Where the octets of the missing name make the tolerance larger than half its characters, a
name may be suggested that is further away. -/
theorem exists_far_suggestion {missing : List Char} (htick : Char.ofNat 96 ∉ missing)
    (h : missing.length / 2 < Text.utf8Size missing / 2) :
    NamesMissing (complaintText missing).toList missing ∧
      ∃ locals, ∃ name ∈ suggestions (complaintText missing) locals,
        missing.length < 2 * editDistance missing name.toList := by
  have hne : missing ≠ [] := by
    rintro rfl
    exact absurd h (by decide)
  have hpos := List.length_pos_iff.mpr hne
  have hnames := namesMissing_complaintText hne htick
  -- a name is as far from its end as the part in front is long
  let far := String.ofList (missing.drop (missing.length / 2 + 1))
  have hfar : editDistance missing far.toList = missing.length / 2 + 1 := by
    rw [String.toList_ofList]
    exact Text.editDistance_drop missing (by omega)
  have hclose : editDistance missing far.toList ≤ tolerance missing := by
    rw [hfar, tolerance]
    omega
  exact ⟨hnames, _, far, mem_suggestions_of_le hnames hclose, by omega⟩

/-- A suggested name can be made of the missing one by edits of half its octets, so of half its
characters if the two halves are the same, as they are where each character takes one octet. Where
they are not the same, some page suggests a name that is further away than half the characters. -/
theorem suggestions_similar_iff (missing : List Char) (htick : Char.ofNat 96 ∉ missing) :
    (∀ t engine locals view message names,
      Compiled.execute t locals engine = .error (.execution view message names) →
      NamesMissing message.toList missing →
      ∀ name ∈ names, 2 * editDistance missing name.toList ≤ Text.utf8Size missing) ∧
      ((∀ t engine locals view message names,
        Compiled.execute t locals engine = .error (.execution view message names) →
        NamesMissing message.toList missing →
        ∀ name ∈ names, 2 * editDistance missing name.toList ≤ missing.length) ↔
        Text.utf8Size missing / 2 = missing.length / 2) ∧
      ((∀ c ∈ missing, c.toNat < 0x80) → Text.utf8Size missing = missing.length) := by
  have hoctets (t : Compiled) (engine : Engine) (locals : Dict Value) (view message : String)
      (names : List String)
      (hexecute : t.execute locals engine = .error (.execution view message names))
      (hmissing : NamesMissing message.toList missing) (name : String) (hname : name ∈ names) :
      2 * editDistance missing name.toList ≤ Text.utf8Size missing := by
    rcases names_of_execute hexecute with rfl | rfl
    · cases hname
    · have heligible := eligible_of_mem_suggestions hmissing hname
      rw [Eligible, tolerance] at heligible
      omega
  refine ⟨hoctets, ⟨fun hcharacters => ?_, fun hsame => ?_⟩, Text.utf8Size_eq_length⟩
  · by_contra hne
    have hle := Text.length_le_utf8Size missing
    obtain ⟨hnames, locals, name, hname, hfar⟩ := exists_far_suggestion htick (by omega)
    have hnear :=
      hcharacters _ .plain locals _ _ _ (execute_complaint missing .plain locals) hnames name hname
    omega
  · intro t engine locals view message names hexecute hmissing name hname
    have hnear := hoctets t engine locals view message names hexecute hmissing name hname
    omega

/-- Two characters of three octets each have a name of another script suggested. -/
theorem suggestions_similar_iff_scripts :
    Char.ofNat 96 ∉ "日本".toList ∧
      ¬ (∀ t engine locals view message names,
        Compiled.execute t locals engine = .error (.execution view message names) →
        NamesMissing message.toList "日本".toList →
        ∀ name ∈ names, 2 * editDistance "日本".toList name.toList ≤ "日本".toList.length) := by
  have htick : Char.ofNat 96 ∉ "日本".toList := by decide
  obtain ⟨-, hcharacters, -⟩ := suggestions_similar_iff "日本".toList htick
  refine ⟨htick, ?_⟩
  rw [hcharacters]
  decide

/-- A suggested name need not be within half the characters of the missing one: of two characters
both may be others. -/
theorem not_forall_suggestion_within_half :
    ¬ ∀ (t : Compiled) (locals : Dict Value) (view message : String) (names : List String)
      (missing : List Char), t.execute locals = .error (.execution view message names) →
      NamesMissing message.toList missing →
      ∀ name ∈ names, 2 * editDistance missing name.toList ≤ missing.length := by
  intro h
  have hnames : NamesMissing (complaintText "日本".toList).toList "日本".toList :=
    namesMissing_complaintText (by decide) (by decide)
  have hfar : editDistance "日本".toList "ab".toList = 2 := by
    rw [← Text.distance_eq]
    decide
  have hname : "ab" ∈ suggestions (complaintText "日本".toList) [("ab", .null)] :=
    mem_suggestions_of_le hnames (by rw [hfar]; decide)
  have hnear := h _ _ _ _ _ _ (execute_complaint "日本".toList .plain _) hnames "ab" hname
  rw [hfar] at hnear
  exact absurd hnear (by decide)

end ViewRendering.Template
