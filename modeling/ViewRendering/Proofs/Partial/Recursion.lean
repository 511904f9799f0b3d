import ViewRendering.Proofs.Partial.Decision
import Mathlib.Data.List.Nodup

/-!
The recursion of an expansion, stated without a count of levels: a directive is dropped,
or the text it includes is expanded below a chain that has grown by its name. A chain has
no name twice and never more than 32, so on all files the recursion ends, and it ends
with what `expand` returns.
-/
namespace ViewRendering.Partial

/-- A directive that an expansion comes to: the chain it stands below, what is decided about it,
and the text it adds to the page. -/
structure Encounter where
  chain : List String
  directive : Directive
  outcome : Except Dropped Inclusion
  added : List Char

namespace Surroundings

/-- The expansion of the pieces of a text below a chain ends, with a text and a journal; the
encounters on the way are listed in their order. -/
inductive Expands (e : Surroundings) :
    List String → List Piece → List Char × Journal → List Encounter → Prop
  | nil (chain : List String) : Expands e chain [] ([], []) []
  | plain {chain : List String} {ps : List Piece} {r : List Char × Journal}
      {es : List Encounter} (c : Char) :
      Expands e chain ps r es → Expands e chain (.plain c :: ps) (c :: r.1, r.2) es
  | dropped {chain : List String} {ps : List Piece} {r : List Char × Journal}
      {es : List Encounter} {d : Directive} {x : Dropped} :
      e.decide chain d.expression = .error x → Expands e chain ps r es →
      Expands e chain (.directive d :: ps) (r.1, x.reads ++ x.event e.view :: r.2)
        (⟨chain, d, .error x, []⟩ :: es)
  | included {chain : List String} {ps : List Piece} {r inner : List Char × Journal}
      {es nested : List Encounter} {d : Directive} {i : Inclusion} :
      e.decide chain d.expression = .ok i →
      Expands e (chain ++ [i.name]) (pieces e.settings.delimiters i.text) inner nested →
      Expands e chain ps r es →
      Expands e chain (.directive d :: ps)
        (inner.1 ++ r.1, .read i.path :: e.includedEvent chain i.name :: inner.2 ++ r.2)
        (⟨chain, d, .ok i, inner.1⟩ :: nested ++ es)

/-- Names that are being expanded at the same time: each is normal, none stands there twice, and
there are at most 32 of them. -/
structure IsChain (e : Surroundings) (chain : List String) : Prop where
  normal : ∀ name ∈ chain, e.settings.viewName name = name
  distinct : chain.Nodup
  short : chain.length ≤ 32

/-- What the guard of an expansion lets happen at a directive. The chain of the recursive call is
the last one that is mentioned, and its length is the level at which the text is included. -/
structure Guarded (e : Surroundings) (m : Encounter) : Prop where
  chain : e.IsChain m.chain
  decided : m.outcome = e.decide m.chain m.directive.expression
  repeated : ∀ name ∈ m.chain, e.nameOf m.directive.expression = .ok name →
    m.outcome = .error (.onChain name) ∧ m.added = []
  included : ∀ i, m.outcome = .ok i → e.nameOf m.directive.expression = .ok i.name ∧
    i.name ∉ m.chain ∧ e.IsChain (m.chain ++ [i.name])

variable {e : Surroundings}

theorem gather_cons (p : List Char × Journal) (ps : List (List Char × Journal)) :
    gather (p :: ps) = (p.1 ++ (gather ps).1, p.2 ++ (gather ps).2) := rfl

theorem viewName_of_nameOf {expression : List Char} {name : String}
    (h : e.nameOf expression = .ok name) : e.settings.viewName name = name := by
  unfold nameOf at h
  split at h
  · cases h
  · split at h
    · cases h
    · cases h
      exact e.settings.viewName_viewName _

/-- A name on the chain is dropped before anything else is looked at. -/
theorem decide_of_mem {chain : List String} {expression : List Char} {name : String}
    (hname : e.nameOf expression = .ok name) (hmem : name ∈ chain) :
    e.decide chain expression = .error (.onChain name) := by
  unfold decide
  simp only [hname, if_pos hmem]

theorem isChain_nil (e : Surroundings) : e.IsChain [] where
  normal _ h := absurd h List.not_mem_nil
  distinct := List.nodup_nil
  short := Nat.zero_le 32

/-- The chain of a recursive call is a chain again. -/
theorem IsChain.append {chain : List String} (h : e.IsChain chain) {expression : List Char}
    {i : Inclusion} (hi : e.Included chain expression i) : e.IsChain (chain ++ [i.name]) where
  normal name hname := by
    rcases List.mem_append.mp hname with hold | hnew
    · exact h.normal name hold
    · rw [List.mem_singleton.mp hnew]
      exact viewName_of_nameOf hi.named
  distinct := by
    rw [List.nodup_append]
    refine ⟨h.distinct, List.nodup_singleton i.name, ?_⟩
    intro name hold other hnew heq
    rw [List.mem_singleton.mp hnew] at heq
    exact hi.fresh (heq ▸ hold)
  short := by
    have hshallow : chain.length < 32 := hi.shallow
    rw [List.length_append, List.length_singleton]
    omega

/-- Every encounter of an expansion below a chain is guarded, also those in the included texts. -/
theorem Expands.guarded {chain : List String} {ps : List Piece} {r : List Char × Journal}
    {es : List Encounter} (h : e.Expands chain ps r es) (hchain : e.IsChain chain) :
    ∀ m ∈ es, e.Guarded m := by
  induction h with
  | nil chain =>
    intro m hm
    exact absurd hm List.not_mem_nil
  | plain c _ ih => exact ih hchain
  | @dropped chain ps r es d x hdecide _ ih =>
    intro m hm
    rcases List.mem_cons.mp hm with rfl | hm
    · refine ⟨hchain, hdecide.symm, ?_, nofun⟩
      intro name hmem hname
      rw [decide_of_mem hname hmem] at hdecide
      exact ⟨hdecide.symm, rfl⟩
    · exact ih hchain m hm
  | @included chain ps r inner es nested d i hdecide _ _ ihinner ih =>
    have hincluded := (decide_eq_ok_iff e chain d.expression i).mp hdecide
    have hnext := hchain.append hincluded
    intro m hm
    rcases List.mem_cons.mp hm with rfl | hm
    · refine ⟨hchain, hdecide.symm, ?_, ?_⟩
      · intro name hmem hname
        rw [decide_of_mem hname hmem] at hdecide
        cases hdecide
      · intro j hj
        cases hj
        exact ⟨hincluded.named, hincluded.fresh, hnext⟩
    · rcases List.mem_append.mp hm with hm | hm
      · exact ihinner hnext m hm
      · exact ih hchain m hm

theorem Expands.unique {chain : List String} {ps : List Piece} {r r' : List Char × Journal}
    {es es' : List Encounter} (h : e.Expands chain ps r es) (h' : e.Expands chain ps r' es') :
    r = r' ∧ es = es' := by
  induction h generalizing r' es' with
  | nil chain =>
    cases h'
    exact ⟨rfl, rfl⟩
  | plain c _ ih =>
    cases h' with
    | plain _ hrest =>
      obtain ⟨rfl, rfl⟩ := ih hrest
      exact ⟨rfl, rfl⟩
  | dropped hdecide _ ih =>
    cases h' with
    | dropped hdecide' hrest =>
      rw [hdecide] at hdecide'
      cases hdecide'
      obtain ⟨rfl, rfl⟩ := ih hrest
      exact ⟨rfl, rfl⟩
    | included hdecide' _ _ =>
      rw [hdecide] at hdecide'
      cases hdecide'
  | included hdecide _ _ ihinner ih =>
    cases h' with
    | dropped hdecide' _ =>
      rw [hdecide] at hdecide'
      cases hdecide'
    | included hdecide' hinner hrest =>
      rw [hdecide] at hdecide'
      cases hdecide'
      obtain ⟨rfl, rfl⟩ := ihinner hinner
      obtain ⟨rfl, rfl⟩ := ih hrest
      exact ⟨rfl, rfl⟩

/-- The pieces of one text, given that the included texts are expanded by `nested`. -/
theorem exists_expands_gather {nested : List String → List Char → List Char × Journal}
    {chain : List String}
    (hnested : ∀ expression i, e.Included chain expression i →
      ∃ es, e.Expands (chain ++ [i.name]) (pieces e.settings.delimiters i.text)
        (nested (chain ++ [i.name]) i.text) es)
    (ps : List Piece) :
    ∃ es, e.Expands chain ps (gather (ps.map (e.expandPiece nested chain))) es := by
  induction ps with
  | nil => exact ⟨[], .nil chain⟩
  | cons p ps ih =>
    obtain ⟨es, hes⟩ := ih
    rw [List.map_cons, gather_cons]
    cases p with
    | plain c => exact ⟨es, .plain c hes⟩
    | directive d =>
      cases hdecide : e.decide chain d.expression with
      | error x =>
        simp only [expandPiece, hdecide, List.nil_append, List.append_assoc, List.singleton_append]
        exact ⟨_, .dropped hdecide hes⟩
      | ok i =>
        obtain ⟨inner, hinner⟩ :=
          hnested d.expression i ((decide_eq_ok_iff e chain d.expression i).mp hdecide)
        simp only [expandPiece, hdecide]
        exact ⟨_, .included hdecide hinner hes⟩

/-- The levels that are left are enough: at the last one no directive is included any more. -/
theorem exists_expands_expandBelow (levels : Nat) (chain : List String)
    (h : chain.length + levels = depthLimit) (text : List Char) :
    ∃ es, e.Expands chain (pieces e.settings.delimiters text)
      (e.expandBelow levels chain text) es := by
  induction levels generalizing chain text with
  | zero =>
    apply exists_expands_gather
    intro expression i hi
    have hshallow := hi.shallow
    omega
  | succ levels ih =>
    apply exists_expands_gather
    intro expression i _
    apply ih
    rw [List.length_append, List.length_singleton]
    omega

/-- On all files the recursion ends, with what `expand` returns and with nothing else; every
directive on the way is guarded. -/
theorem expand_terminates (e : Surroundings) (source : List Char) :
    ∃ es, (∀ r es', e.Expands [] (pieces e.settings.delimiters source) r es' ↔
        r = e.expand source ∧ es' = es) ∧
      ∀ m ∈ es, e.Guarded m := by
  obtain ⟨es, hes⟩ := exists_expands_expandBelow (e := e) depthLimit [] (Nat.zero_add _) source
  refine ⟨es, fun r es' => ⟨fun h => h.unique hes, ?_⟩, hes.guarded e.isChain_nil⟩
  rintro ⟨rfl, rfl⟩
  exact hes

end Surroundings

end ViewRendering.Partial
