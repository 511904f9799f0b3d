import ViewRendering.Proofs.Partial.Recursion

/-!
The warnings of an expansion. Every directive that is come to has its own entries in the journal,
and the journal is made of these entries. A directive that adds nothing for any reason but a cycle
has one warning among them; one that is included or stands on the chain already has none.
-/
namespace ViewRendering

theorem Journal.warnings_append (j k : Journal) : (j ++ k).warnings = j.warnings ++ k.warnings := by
  simp only [Journal.warnings, Journal.events, List.filterMap_append, List.filter_append]

namespace Partial

def warns : Except Dropped Inclusion → Bool
  | .ok _ => false
  | .error (.onChain _) => false
  | .error _ => true

namespace Surroundings

/-- The reasons for which a directive below a chain adds nothing to the page, cycles apart: there is
no name, or the name is too deep, leads to no path, or to a path that cannot be read. -/
inductive Skips (e : Surroundings) (chain : List String) (expression : List Char) : Prop
  | unparsable {fault : ExpressionFault} :
      Expression.parse expression = .error fault → Skips e chain expression
  | unevaluable {parsed : Expression} {fault : ExpressionFault} :
      Expression.parse expression = .ok parsed → parsed.evaluate e.locals = .error fault →
      Skips e chain expression
  | tooDeep {name : String} :
      e.nameOf expression = .ok name → name ∉ chain → 32 ≤ chain.length → Skips e chain expression
  | refused {name : String} {failure : FileFailure} :
      e.nameOf expression = .ok name → name ∉ chain → chain.length < 32 →
      e.settings.viewPath name = .error failure → Skips e chain expression
  | unreadable {name path : String} {fault : FileFault} :
      e.nameOf expression = .ok name → name ∉ chain → chain.length < 32 →
      e.settings.viewPath name = .ok path → e.files.read path = .error fault →
      Skips e chain expression

/-- What a directive itself adds to the journal, without what the text it includes adds. -/
def logged (e : Surroundings) (m : Encounter) : Journal :=
  match m.outcome with
  | .error x => x.reads ++ [x.event e.view]
  | .ok i => [.read i.path, e.includedEvent m.chain i.name]

variable {e : Surroundings} {chain : List String} {expression : List Char}

theorem nameOf_eq_error_iff {fault : ExpressionFault} :
    e.nameOf expression = .error fault ↔
      Expression.parse expression = .error fault ∨
        ∃ parsed, Expression.parse expression = .ok parsed ∧
          parsed.evaluate e.locals = .error fault := by
  unfold nameOf
  cases Expression.parse expression with
  | error fault' => simp
  | ok parsed =>
    cases hvalue : parsed.evaluate e.locals with
    | error fault' => simp [hvalue]
    | ok name => simp [hvalue]

/-- A directive that is dropped is skipped for a reason, or its name is on the chain. -/
theorem decide_eq_error_cases {x : Dropped} (h : e.decide chain expression = .error x) :
    e.Skips chain expression ∨
      ∃ name ∈ chain, e.nameOf expression = .ok name ∧ x = .onChain name := by
  unfold decide at h
  split at h
  · rename_i fault hname
    cases h
    rcases nameOf_eq_error_iff.mp hname with hparse | ⟨parsed, hparse, hvalue⟩
    · exact Or.inl (.unparsable hparse)
    · exact Or.inl (.unevaluable hparse hvalue)
  · rename_i name hname
    split at h
    · rename_i hmem
      cases h
      exact Or.inr ⟨name, hmem, hname, rfl⟩
    · rename_i hfresh
      split at h
      · rename_i hdeep
        cases h
        exact Or.inl (.tooDeep hname hfresh hdeep)
      · rename_i hdeep
        have hshallow := Nat.lt_of_not_le hdeep
        split at h
        · rename_i failure hpath
          cases h
          exact Or.inl (.refused hname hfresh hshallow hpath)
        · rename_i path hpath
          split at h
          · rename_i failure hread
            cases h
            obtain ⟨fault, hfault, -⟩ := (readFor_eq_error_iff ..).mp hread
            exact Or.inl (.unreadable hname hfresh hshallow hpath hfault)
          · cases h

/-- A directive that is skipped is dropped with a warning. -/
theorem Skips.warns_decide (h : e.Skips chain expression) :
    warns (e.decide chain expression) = true := by
  cases h with
  | unparsable hparse =>
    have hname : e.nameOf expression = .error _ := nameOf_eq_error_iff.mpr (Or.inl hparse)
    simp only [decide, hname, warns]
  | unevaluable hparse hvalue =>
    have hname : e.nameOf expression = .error _ :=
      nameOf_eq_error_iff.mpr (Or.inr ⟨_, hparse, hvalue⟩)
    simp only [decide, hname, warns]
  | tooDeep hname hfresh hdeep =>
    have hlimit : depthLimit ≤ chain.length := hdeep
    simp only [decide, hname, if_neg hfresh, if_pos hlimit, warns]
  | refused hname hfresh hshallow hpath =>
    have hlimit : ¬ depthLimit ≤ chain.length := Nat.not_le_of_lt hshallow
    simp only [decide, hname, if_neg hfresh, if_neg hlimit, hpath, warns]
  | unreadable hname hfresh hshallow hpath hfault =>
    have hlimit : ¬ depthLimit ≤ chain.length := Nat.not_le_of_lt hshallow
    have hread := (readFor_eq_error_iff _ _ e.settings.root "partial include" "partials" _).mpr
      ⟨_, hfault, rfl⟩
    simp only [decide, hname, if_neg hfresh, if_neg hlimit, hpath, hread, warns]

theorem warns_decide_iff (e : Surroundings) (chain : List String) (expression : List Char) :
    warns (e.decide chain expression) = true ↔ e.Skips chain expression := by
  refine ⟨fun hwarns => ?_, Skips.warns_decide⟩
  cases hdecide : e.decide chain expression with
  | ok i =>
    rw [hdecide] at hwarns
    cases hwarns
  | error x =>
    rw [hdecide] at hwarns
    rcases decide_eq_error_cases hdecide with hskips | ⟨name, -, -, rfl⟩
    · exact hskips
    · cases hwarns

instance (e : Surroundings) (chain : List String) (expression : List Char) :
    Decidable (e.Skips chain expression) :=
  decidable_of_iff _ (e.warns_decide_iff chain expression)

/-- The journal of an expansion is made of what the directives on the way add to it. -/
theorem Expands.journal_eq {ps : List Piece} {r : List Char × Journal} {es : List Encounter}
    (h : e.Expands chain ps r es) : r.2 = es.flatMap e.logged := by
  induction h with
  | nil => rfl
  | plain c _ ih => exact ih
  | dropped _ _ ih =>
    rw [List.flatMap_cons, ← ih, logged, List.append_assoc, List.singleton_append]
  | included _ _ _ ihinner ih =>
    simp only [List.cons_append, List.flatMap_cons, List.flatMap_append, ← ihinner, ← ih]
    rfl

/-- A directive adds one warning or none. -/
theorem length_warnings_logged (e : Surroundings) (m : Encounter) :
    (e.logged m).warnings.length = if warns m.outcome then 1 else 0 := by
  unfold logged
  cases m.outcome with
  | ok i => rfl
  | error x => cases x <;> rfl

theorem length_warnings_flatMap (e : Surroundings) (es : List Encounter) :
    (Journal.warnings (es.flatMap e.logged)).length = es.countP fun m => warns m.outcome := by
  induction es with
  | nil => rfl
  | cons m es ih =>
    rw [List.flatMap_cons, Journal.warnings_append, List.length_append, ih,
      length_warnings_logged, List.countP_cons, Nat.add_comm]

/-- A directive that is dropped adds nothing to the page. -/
theorem Expands.added_eq_nil {ps : List Piece} {r : List Char × Journal} {es : List Encounter}
    (h : e.Expands chain ps r es) {m : Encounter} (hm : m ∈ es) {x : Dropped}
    (hx : m.outcome = .error x) : m.added = [] := by
  induction h with
  | nil => cases hm
  | plain c _ ih => exact ih hm
  | dropped _ _ ih =>
    rcases List.mem_cons.mp hm with rfl | hm
    · rfl
    · exact ih hm
  | included _ _ _ ihinner ih =>
    rcases List.mem_append.mp hm with hm | hm
    · rcases List.mem_cons.mp hm with rfl | hm
      · cases hx
      · exact ihinner hm
    · exact ih hm

/-- What becomes of a directive that an expansion comes to, and the warnings that it adds to the
journal by itself. -/
structure Accounted (e : Surroundings) (m : Encounter) : Prop where
  skipped : e.Skips m.chain m.directive.expression →
    m.added = [] ∧ (e.logged m).warnings.length = 1
  repeated : ∀ name ∈ m.chain, e.nameOf m.directive.expression = .ok name →
    m.added = [] ∧ (e.logged m).warnings = []
  included : ∀ i, e.Included m.chain m.directive.expression i →
    m.outcome = .ok i ∧ (e.logged m).warnings = []
  complete : e.Skips m.chain m.directive.expression ∨
    (∃ name ∈ m.chain, e.nameOf m.directive.expression = .ok name) ∨
    ∃ i, e.Included m.chain m.directive.expression i

theorem Expands.accounted {ps : List Piece} {r : List Char × Journal} {es : List Encounter}
    (h : e.Expands chain ps r es) (hchain : e.IsChain chain) {m : Encounter} (hm : m ∈ es) :
    e.Accounted m := by
  have hguarded := h.guarded hchain m hm
  have hlength := e.length_warnings_logged m
  constructor
  · intro hskips
    have hwarns := (e.warns_decide_iff _ _).mpr hskips
    rw [← hguarded.decided] at hwarns
    rw [if_pos hwarns] at hlength
    refine ⟨?_, hlength⟩
    cases houtcome : m.outcome with
    | ok i =>
      rw [houtcome] at hwarns
      cases hwarns
    | error x => exact h.added_eq_nil hm houtcome
  · intro name hmem hname
    obtain ⟨houtcome, hadded⟩ := hguarded.repeated name hmem hname
    rw [houtcome] at hlength
    exact ⟨hadded, List.length_eq_zero_iff.mp hlength⟩
  · intro i hi
    have houtcome := hguarded.decided.trans ((decide_eq_ok_iff e _ _ i).mpr hi)
    rw [houtcome] at hlength
    exact ⟨houtcome, List.length_eq_zero_iff.mp hlength⟩
  · cases hdecide : e.decide m.chain m.directive.expression with
    | ok i => exact Or.inr (Or.inr ⟨i, (decide_eq_ok_iff e _ _ i).mp hdecide⟩)
    | error x =>
      rcases decide_eq_error_cases hdecide with hskips | ⟨name, hmem, hname, -⟩
      · exact Or.inl hskips
      · exact Or.inr (Or.inl ⟨name, hmem, hname⟩)

/-- There are as many warnings in the journal of an expansion as it comes to directives that are
skipped, and the journal has nothing but what the directives add to it: one warning for each that is
skipped, and none for a name on the chain or for a text that is included. -/
theorem length_warnings_expand (e : Surroundings) (source : List Char) :
    ∃ es, (∀ r es', e.Expands [] (pieces e.settings.delimiters source) r es' ↔
        r = e.expand source ∧ es' = es) ∧
      (e.expand source).2 = es.flatMap e.logged ∧
      (Journal.warnings (e.expand source).2).length =
        es.countP (fun m => e.Skips m.chain m.directive.expression) ∧
      ∀ m ∈ es, e.Accounted m := by
  obtain ⟨es, hes⟩ := exists_expands_expandBelow (e := e) depthLimit [] (Nat.zero_add _) source
  have hjournal : (e.expand source).2 = es.flatMap e.logged := hes.journal_eq
  refine ⟨es, fun r es' => ⟨fun h => h.unique hes, ?_⟩, hjournal, ?_,
    fun m hm => hes.accounted e.isChain_nil hm⟩
  · rintro ⟨rfl, rfl⟩
    exact hes
  · rw [hjournal, length_warnings_flatMap]
    apply List.countP_congr
    intro m hm
    rw [(hes.guarded e.isChain_nil m hm).decided, warns_decide_iff, decide_eq_true_iff]

/-- Of the directives of a text and of the partial in it four are skipped; the one that is included
includes itself in vain. -/
theorem length_warnings_expand_skipping :
    let e : Surroundings :=
      ⟨{}, .ofKnown [("views/a", .ok (Text.Utf8.encode "a<%-partial('a')%>".toList))], "index", []⟩
    let source := ("<%-partial(+)%><%-partial(zz)%><%-partial('../a')%>" ++
      "<%-partial('m')%><%-partial('a')%>").toList
    ∃ es, e.Expands [] (pieces e.settings.delimiters source) (e.expand source) es ∧
      (e.expand source).1 = ['a'] ∧
      es.countP (fun m => e.Skips m.chain m.directive.expression) = 4 ∧
      ∀ m ∈ es, e.Accounted m := by
  intro e source
  obtain ⟨es, hes, -, hlength, haccounted⟩ := length_warnings_expand e source
  have hfour : (Journal.warnings (e.expand source).2).length = 4 := by decide +kernel
  exact ⟨es, (hes _ _).mpr ⟨rfl, rfl⟩, by decide +kernel, hlength.symm.trans hfour, haccounted⟩

end Surroundings

end Partial

end ViewRendering
