import ViewRendering.Proofs.Locals.Precedence
import ViewRendering.Proofs.Template.MissingName
import ViewRendering.Proofs.Text.Distance
import ViewRendering.Template.Compiled

/-!
The names suggested for a variable that was not found. Of the names of the locals and of their
fields those within the tolerance are ranked by their distance, and by their place where the
distance is the same; the suggestions are the first three in this order.
-/
namespace ViewRendering

/-- A helper that breaks down suggests nothing. -/
theorem Locals.execution_of_withHelpers {view : String} {request : Http.Request}
    {helpers : Dict Helper} {d : Dict Value} {f : Failure}
    (h : withHelpers view request helpers d = .error f) : ∃ text, f = .execution view text [] := by
  induction helpers generalizing d with
  | nil => cases h
  | cons x helpers ih =>
    rcases withHelpers_cons_cases view request x helpers d with
      ⟨-, hstep⟩ | ⟨text, -, hstep⟩ | ⟨-, v, -, hstep⟩ <;> rw [hstep] at h
    · exact ih h
    · cases h
      exact ⟨_, rfl⟩
    · exact ih h

namespace Template

open Text (editDistance)

def Eligible (missing : List Char) (name : String) : Prop :=
  editDistance missing name.toList ≤ tolerance missing

instance (missing : List Char) (name : String) : Decidable (Eligible missing name) :=
  decidable_of_iff (Text.distance missing name.toList ≤ tolerance missing)
    (by rw [Text.distance_eq, Eligible])

/-- Of two names with their places the first is nearer to the missing one, or as near and in front
of the second. -/
def Before (missing : List Char) (p q : String × Nat) : Prop :=
  editDistance missing p.1.toList < editDistance missing q.1.toList ∨
    editDistance missing p.1.toList = editDistance missing q.1.toList ∧ p.2 < q.2

/-- The nearest of the known names, listed with their places: three of the eligible ones, or all if
there are fewer, in order, and none that is left out comes before one that is listed. -/
structure Nearest (missing : List Char) (known : List String) (listed : List (String × Nat)) :
    Prop where
  among : ∀ p ∈ listed, p ∈ known.zipIdx
  eligible : ∀ p ∈ listed, Eligible missing p.1
  ordered : listed.Pairwise (Before missing)
  number : listed.length = min 3 (known.countP (Eligible missing ·))
  nearest : ∀ q ∈ known.zipIdx, Eligible missing q.1 → q ∉ listed →
    ∀ p ∈ listed, Before missing p q

def isNearer (missing : List Char) (a b : String) : Bool :=
  Text.distance missing a.toList ≤ Text.distance missing b.toList

def ranked (missing : List Char) (known : List String) : List (String × Nat) :=
  known.zipIdx.mergeSort (List.zipIdxLE (isNearer missing))

section

variable (missing : List Char) (known : List String)

theorem isNearer_trans (a b c : String) (hab : isNearer missing a b = true)
    (hbc : isNearer missing b c = true) : isNearer missing a c = true :=
  decide_eq_true (Nat.le_trans (of_decide_eq_true hab) (of_decide_eq_true hbc))

theorem isNearer_total (a b : String) : (isNearer missing a b || isNearer missing b a) = true := by
  simp only [isNearer, Bool.or_eq_true, decide_eq_true_eq]
  exact Nat.le_total _ _

theorem before_of_zipIdxLE {p q : String × Nat}
    (h : List.zipIdxLE (isNearer missing) p q = true) (hne : p.2 ≠ q.2) :
    Before missing p q := by
  unfold List.zipIdxLE isNearer at h
  rw [Before, ← Text.distance_eq, ← Text.distance_eq]
  simp only [decide_eq_true_eq] at h
  split at h
  · split at h
    · have hplace := of_decide_eq_true h
      omega
    · omega
  · cases h

theorem ranked_perm : (ranked missing known).Perm known.zipIdx := List.mergeSort_perm _ _

theorem ranked_pairwise : (ranked missing known).Pairwise (Before missing) := by
  have hsorted : (ranked missing known).Pairwise
      fun p q => List.zipIdxLE (isNearer missing) p q = true :=
    List.pairwise_mergeSort (List.zipIdxLE_trans (isNearer_trans missing))
      (List.zipIdxLE_total (isNearer_total missing)) known.zipIdx
  have hplaces : ((ranked missing known).map Prod.snd).Nodup := by
    rw [((ranked_perm missing known).map Prod.snd).nodup_iff, List.zipIdx_map_snd]
    exact List.nodup_range'
  exact hsorted.imp₂ (fun _ _ h hne => before_of_zipIdxLE missing h hne)
    (List.pairwise_map.mp hplaces)

/-- The names suggested are the first three eligible ones in the order of their rank. -/
theorem similarNames_eq :
    similarNames missing known =
      (((ranked missing known).filter fun p => Eligible missing p.1).take 3).map Prod.fst := by
  have hsort : (known.map fun k => (k, Text.distance missing k.toList)).mergeSort
      (fun p q => p.2 ≤ q.2) =
        ((ranked missing known).map Prod.fst).map
          fun k => (k, Text.distance missing k.toList) := by
    rw [ranked, List.mergeSort_zipIdx]
    exact (List.map_mergeSort (f := fun k : String => (k, Text.distance missing k.toList))
      fun _ _ _ _ => rfl).symm
  have heligible (name : String) : decide (Text.distance missing name.toList ≤ tolerance missing) =
      decide (Eligible missing name) := by
    rw [decide_eq_decide, Text.distance_eq]
    exact Iff.rfl
  unfold similarNames
  dsimp only
  rw [hsort, List.map_map, List.filter_map, ← List.map_take, List.map_map]
  simp only [Function.comp_def, heligible]

/-- The names suggested are the nearest ones. -/
theorem exists_nearest :
    ∃ listed, Nearest missing known listed ∧ similarNames missing known = listed.map Prod.fst := by
  have hordered : ((ranked missing known).filter fun p => Eligible missing p.1).Pairwise
      (Before missing) := (ranked_pairwise missing known).sublist List.filter_sublist
  have hmem (p : String × Nat) :
      p ∈ (ranked missing known).filter (fun p => Eligible missing p.1) ↔
        p ∈ known.zipIdx ∧ Eligible missing p.1 := by
    rw [List.mem_filter, (ranked_perm missing known).mem_iff, decide_eq_true_eq]
  have hcount : ((ranked missing known).filter fun p => Eligible missing p.1).length =
      known.countP (Eligible missing ·) := by
    rw [← List.countP_eq_length_filter, (ranked_perm missing known).countP_eq]
    conv_rhs => rw [← List.zipIdx_map_fst 0 known, List.countP_map]
    rfl
  refine ⟨_, ?_, similarNames_eq missing known⟩
  generalize (ranked missing known).filter (fun p => Eligible missing p.1) = close
    at hordered hmem hcount
  rw [← List.take_append_drop 3 close, List.pairwise_append] at hordered
  exact {
    among := fun p hp => ((hmem p).mp (List.mem_of_mem_take hp)).1
    eligible := fun p hp => ((hmem p).mp (List.mem_of_mem_take hp)).2
    ordered := hordered.1
    number := by rw [List.length_take, hcount]
    nearest := by
      intro q hq heligible hout p hp
      have hclose := (hmem q).mpr ⟨hq, heligible⟩
      rw [← List.take_append_drop 3 close, List.mem_append] at hclose
      exact hordered.2.2 p hp q (hclose.resolve_left hout) }

end

/-- The known names are the locals, and the fields of those that are records. -/
theorem mem_knownNames_iff {locals : Dict Value} {name : String} :
    name ∈ knownNames locals ↔ ∃ key v, (key, v) ∈ locals ∧
      (name = key ∨ ∃ fields, v = .record fields ∧ ∃ f ∈ fields, name = key ++ "." ++ f.1) := by
  unfold knownNames
  simp only [List.mem_flatMap, Prod.exists]
  refine exists_congr fun key => exists_congr fun v => and_congr_right fun _ => ?_
  cases v with
  | record fields =>
    simp only [List.mem_cons, List.mem_map, Prod.exists, Value.record.injEq, exists_eq_left',
      eq_comm]
  | _ => simp only [List.mem_singleton, reduceCtorEq, false_and, exists_false, or_false]

theorem render_output_error {page : Page} {filters : Dict Filter} {engine : Engine}
    {locals : Dict Value} {e : Expression} {fault : Fault} (hnodes : page.nodes = [.output e])
    (h : e.value (nestedText nestingLimit) ⟨page, filters, engine, ⟨[⟨.page, []⟩], locals⟩, true⟩ =
      .error fault) : page.render filters engine locals = .error fault := by
  unfold Page.render
  rw [nestedText, hnodes, renderAll, Node.render, h]
  rfl

theorem value_missing {nested : Nested} {c : Context} {n : String} {fault : Fault}
    (h : c.lookup n = .error fault) :
    (Expression.ofTerm (.name n)).value nested c = .error fault := by
  unfold Expression.ofTerm
  simp only [Expression.value, Term.path?, namedValue, h]
  rfl

/-- What is suggested in a message: the nearest names for the variable that it names first, and none
if it names no variable. -/
theorem suggestions_nearest (message : String) (locals : Dict Value) :
    (∀ missing, NamesMissing message.toList missing →
      ∃ listed, Nearest missing (knownNames locals) listed ∧
        suggestions message locals = listed.map Prod.fst) ∧
      ((∀ front missing, ¬ SaysMissing message.toList front missing) →
        suggestions message locals = []) := by
  constructor
  · intro missing hmissing
    rw [suggestions, missingName?_eq_some_iff.mpr hmissing]
    exact exists_nearest missing (knownNames locals)
  · intro hnone
    rw [suggestions, missingName?_eq_none hnone]

/-- A page that fails suggests, for the variable that the message of its failure names first, the
nearest of the locals and their fields. It suggests nothing if the message names no variable or if
code broke down, and neither does a helper that breaks down. -/
theorem execute_suggests_nearest (t : Compiled) (engine : Engine) (locals : Dict Value)
    (fault : Fault) (h : t.page.render t.filters engine locals = .error fault) :
    ∃ message names, t.execute locals engine = .error (.execution t.name message names) ∧
      (∀ chain missing, fault = .chain chain → NamesMissing message.toList missing →
        ∃ listed, Nearest missing (knownNames locals) listed ∧ names = listed.map Prod.fst) ∧
      ((∀ front missing, ¬ SaysMissing message.toList front missing) → names = []) ∧
      (∀ text, fault = .breakdown text → names = []) ∧
      (∀ name, name ∈ knownNames locals ↔ ∃ key v, (key, v) ∈ locals ∧
        (name = key ∨ ∃ fields, v = .record fields ∧ ∃ f ∈ fields, name = key ++ "." ++ f.1)) ∧
      ∀ view given filters helpers request f,
        (Locals.assemble view given filters helpers request).1 = .error f →
          ∃ text, f = .execution view text [] := by
  have hexecute : t.execute locals engine = .error (fault.failure t.name locals) := by
    rw [Compiled.execute, h]
  have hhelpers (view : String) (given : Dict Value) (filters : FilterTable)
      (helpers : Dict Helper) (request : Http.Request) (f : Failure)
      (hf : (Locals.assemble view given filters helpers request).1 = .error f) :
      ∃ text, f = .execution view text [] :=
    Locals.execution_of_withHelpers (Locals.assemble_fails_iff.mp hf)
  cases fault with
  | chain ms =>
    obtain ⟨hnearest, hnone⟩ :=
      suggestions_nearest (chainText (s!"Failed to render '{t.name}'" :: ms)) locals
    exact ⟨_, _, hexecute, fun _ missing _ => hnearest missing, hnone, fun _ => nofun,
      fun _ => mem_knownNames_iff, hhelpers⟩
  | breakdown text =>
    exact ⟨_, _, hexecute, fun _ _ => nofun, fun _ => rfl, fun _ _ => rfl,
      fun _ => mem_knownNames_iff, hhelpers⟩
  | endless =>
    exact ⟨_, _, hexecute, fun _ _ => nofun, fun _ => rfl, fun _ _ => rfl,
      fun _ => mem_knownNames_iff, hhelpers⟩

def misspelled : Compiled := ⟨Page.ofNodes "index.html" [.output (.ofTerm (.name "nmae"))], []⟩

def misspelledLocals : Dict Value :=
  [("mane", .null), ("name", .text "Ann"), ("title", .null),
    ("user", .record [("nam", .null), ("name", .null)])]

def misspelledDistances : List (String × Nat) :=
  [("mane", 2), ("name", 2), ("title", 4), ("user", 4), ("user.nam", 7), ("user.name", 7)]

theorem render_misspelled : misspelled.page.render misspelled.filters .plain misspelledLocals =
    .error (.chain ["Variable `nmae` not found in context while rendering 'index.html'"]) :=
  render_output_error rfl (value_missing (by rfl))

theorem suggestions_misspelled :
    suggestions "Variable `nmae` not found in context while rendering 'index.html'"
      misspelledLocals = ["mane", "name"] := by
  have hname : missingName?
      "Variable `nmae` not found in context while rendering 'index.html'".toList =
        some "nmae".toList := by decide +kernel
  have hdistances : (knownNames misspelledLocals).map
      (fun k => (k, Text.distance "nmae".toList k.toList)) = misspelledDistances := by
    decide +kernel
  have hsorted : misspelledDistances.Pairwise fun p q => decide (p.2 ≤ q.2) = true := by decide
  rw [suggestions, hname]
  dsimp only [similarNames]
  rw [hdistances, List.mergeSort_of_pairwise hsorted]
  decide +kernel

theorem execute_suggests_nearest_misspelled :
    ∃ message names, misspelled.execute misspelledLocals =
        .error (.execution "index.html" message names) ∧
      NamesMissing message.toList "nmae".toList ∧
      ∃ listed, Nearest "nmae".toList (knownNames misspelledLocals) listed ∧
        names = listed.map Prod.fst ∧ names = ["mane", "name"] := by
  obtain ⟨message, names, hexecute, hnearest, -⟩ :=
    execute_suggests_nearest misspelled .plain misspelledLocals _ render_misspelled
  have hfailure : misspelled.execute misspelledLocals = .error (.execution "index.html"
      "Variable `nmae` not found in context while rendering 'index.html'" ["mane", "name"]) := by
    have hmessage : chainText [s!"Failed to render 'index.html'",
        "Variable `nmae` not found in context while rendering 'index.html'"] =
          "Variable `nmae` not found in context while rendering 'index.html'" := by
      decide +kernel
    rw [Compiled.execute, render_misspelled, ← suggestions_misspelled]
    exact congrArg (fun m => Except.error (Failure.execution "index.html" m
      (suggestions m misspelledLocals))) hmessage
  rw [hfailure] at hexecute
  cases hexecute
  have hnames : NamesMissing
      "Variable `nmae` not found in context while rendering 'index.html'".toList "nmae".toList :=
    missingName?_eq_some_iff.mp (by decide +kernel)
  obtain ⟨listed, hlisted, hlist⟩ := hnearest _ _ rfl hnames
  exact ⟨_, _, hfailure, hnames, listed, hlisted, hlist, rfl⟩

end Template

end ViewRendering
