import ViewRendering.Proofs.Path.Containment

/-!
Which view names are accepted. The parts of a name between its slashes are gone through from the
left; empty parts and single dots count for nothing, and at no place may there have been more
double dots than normal parts. Every other name is refused, and all refusals are of one form.
-/
namespace ViewRendering.Path

def IsNormal (part : List Char) : Prop := part ≠ [] ∧ part ≠ ['.'] ∧ part ≠ ['.', '.']

instance (part : List Char) : Decidable (IsNormal part) := inferInstanceAs (Decidable (_ ∧ _))

structure Acceptable (name : String) : Prop where
  written : ∃ c ∈ name.toList, Text.isSpace c = false
  relative : name.toList.head? ≠ some '/'
  staysUnder : ∀ front, front <+: Text.splitOn '/' name.toList →
    front.count ['.', '.'] ≤ front.countP (IsNormal ·)

/-- A part that names a step leads up if it is a double dot. -/
theorem stepsUp_filter (parts : List (List Char)) :
    stepsUp (parts.filter fun p => !p.isEmpty && p != ['.']) = parts.count ['.', '.'] := by
  rw [stepsUp, List.countP_filter, List.count]
  apply List.countP_congr
  intro part _
  constructor
  · intro h
    rw [Bool.and_eq_true] at h
    exact h.1
  · intro h
    rw [eq_of_beq h]
    rfl

/-- A part that names a step leads down if it is a normal one. -/
theorem stepsDown_filter (parts : List (List Char)) :
    stepsDown (parts.filter fun p => !p.isEmpty && p != ['.']) = parts.countP (IsNormal ·) := by
  rw [stepsDown, List.countP_filter]
  apply List.countP_congr
  intro part _
  rw [decide_eq_true_iff, IsNormal, ← and_assoc, and_comm]
  simp only [isUp, Bool.and_eq_true, Bool.not_eq_true', beq_eq_false_iff_ne,
    List.isEmpty_eq_false_iff, bne_iff_ne]

/-- Counting among all parts comes to the same as counting among the steps. -/
theorem neverAbove_iff (name : String) :
    NeverAbove name ↔ ∀ front, front <+: Text.splitOn '/' name.toList →
      front.count ['.', '.'] ≤ front.countP (IsNormal ·) := by
  constructor
  · intro h front hfront
    have hle := h _ (hfront.filter fun p => !p.isEmpty && p != ['.'])
    rwa [stepsUp_filter, stepsDown_filter] at hle
  · intro h ps hps
    obtain ⟨front, hfront, rfl⟩ := List.prefix_filter_iff.mp hps
    rw [stepsUp_filter, stepsDown_filter]
    exact h front hfront

theorem isAbsolute_iff (path : String) : isAbsolute path = true ↔ path.toList.head? = some '/' :=
  beq_iff_eq

theorem written_iff (name : String) :
    Text.isBlank name.toList = false ↔ ∃ c ∈ name.toList, Text.isSpace c = false := by
  rw [Text.isBlank, List.all_eq_false]
  simp only [Bool.not_eq_true]

theorem acceptable_iff (name : String) :
    Acceptable name ↔ Text.isBlank name.toList = false ∧ isAbsolute name = false ∧
      staysInside name = true := by
  rw [written_iff, ← Bool.not_eq_true, isAbsolute_iff, staysInside_iff, neverAbove_iff]
  exact ⟨fun h => ⟨h.written, h.relative, h.staysUnder⟩, fun h => ⟨h.1, h.2.1, h.2.2⟩⟩

/-- A name leads to a path exactly if it is acceptable. The path is then the root with the name
joined to it as it is, and every refusal is an invalid input found in validation, with the root as
the only other path that matters. -/
theorem viewPath_accepts_iff (c : Settings) (name : String) :
    ((∃ path, c.viewPath name = .ok path) ↔ Acceptable name) ∧
      (∀ path, c.viewPath name = .ok path → path = join c.root name) ∧
      ∀ f, c.viewPath name = .error f →
        f.operation = .validate ∧ f.fault.kind = .invalidInput ∧ f.related = [c.root] := by
  rw [acceptable_iff]
  rcases viewPath_cases c name with ⟨haccept, hpath⟩ | ⟨hrefuse, reason, hfailure⟩
  · rw [hpath]
    refine ⟨iff_of_true ⟨_, rfl⟩ haccept, ?_, nofun⟩
    rintro path ⟨⟩
    rfl
  · rw [hfailure]
    refine ⟨iff_of_false nofun hrefuse, nofun, ?_⟩
    rintro f ⟨⟩
    exact ⟨rfl, rfl, rfl⟩

/-- The steps of the second name come back to the root only after they have left it. -/
theorem viewPath_accepts_iff_balanced :
    (∃ f, ({} : Settings).viewPath "a/./..//../b/c" = .error f ∧ f.operation = .validate ∧
      f.fault.kind = .invalidInput ∧ f.related = ["views"]) ∧
    ¬ Acceptable "a/./..//../b/c" ∧ Acceptable "a//b/../.././c/" ∧
    ({} : Settings).viewPath "a//b/../.././c/" = .ok "views/a//b/../.././c/" := by
  have hrefused : ({} : Settings).viewPath "a/./..//../b/c" =
      .error (({} : Settings).refused "a/./..//../b/c"
        "view path 'a/./..//../b/c' escapes the view root") := by
    decide +kernel
  have hplaced : ({} : Settings).viewPath "a//b/../.././c/" = .ok "views/a//b/../.././c/" := by
    decide +kernel
  obtain ⟨hiff, -, hform⟩ := viewPath_accepts_iff {} "a/./..//../b/c"
  refine ⟨⟨_, hrefused, hform _ hrefused⟩, fun haccept => ?_, ?_, hplaced⟩
  · obtain ⟨path, hpath⟩ := hiff.mpr haccept
    rw [hrefused] at hpath
    cases hpath
  · exact (viewPath_accepts_iff {} "a//b/../.././c/").1.mp ⟨_, hplaced⟩

end ViewRendering.Path
