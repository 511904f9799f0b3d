import ViewRendering.Proofs.Partial.Pieces
import ViewRendering.Proofs.Partial.Recursion
import Mathlib.Data.List.Chain
import Mathlib.Logic.Relation

/-!
Substitution of partials without any guard: every directive is replaced by the substituted
text of the file it names. Where all names lead to texts, inclusion never comes back to a
name, and no path of inclusions is longer than the limit, the guard of an expansion never
acts, and the expansion is the substitution.
-/
namespace ViewRendering.Partial.Surroundings

def TextOf (e : Surroundings) (name : String) (text : List Char) : Prop :=
  ∃ path, e.settings.viewPath name = .ok path ∧ e.files.read path = .ok text

def Names (e : Surroundings) (text : List Char) (name : String) : Prop :=
  ∃ d, .directive d ∈ pieces e.settings.delimiters text ∧ e.nameOf d.expression = .ok name

def Includes (e : Surroundings) (name other : String) : Prop :=
  ∃ text, e.TextOf name text ∧ e.Names text other

/-- The names on a path of inclusions from the source, outermost first, and the text at its end. -/
inductive Reaches (e : Surroundings) (source : List Char) : List String → List Char → Prop
  | source : Reaches e source [] source
  | inclusion {path : List String} {text included : List Char} {name : String} :
      Reaches e source path text → e.Names text name → e.TextOf name included →
      Reaches e source (path ++ [name]) included

def Resolved (e : Surroundings) (source : List Char) : Prop :=
  ∀ path text, e.Reaches source path text →
    ∀ d, .directive d ∈ pieces e.settings.delimiters text →
      ∃ name included, e.nameOf d.expression = .ok name ∧ e.TextOf name included

def Acyclic (e : Surroundings) (source : List Char) : Prop :=
  ∀ path text, e.Reaches source path text →
    ∀ name ∈ path, ¬ Relation.TransGen e.Includes name name

/-- The pieces of a text with every directive replaced, whatever is being replaced around it. -/
inductive Substitutes (e : Surroundings) : List Piece → List Char → Prop
  | nil : Substitutes e [] []
  | plain {ps : List Piece} {out : List Char} (c : Char) :
      Substitutes e ps out → Substitutes e (.plain c :: ps) (c :: out)
  | directive {ps : List Piece} {d : Directive} {name : String} {text inner out : List Char} :
      e.nameOf d.expression = .ok name → e.TextOf name text →
      Substitutes e (pieces e.settings.delimiters text) inner → Substitutes e ps out →
      Substitutes e (.directive d :: ps) (inner ++ out)

variable {e : Surroundings} {source : List Char}

theorem TextOf.unique {name : String} {text text' : List Char} (h : e.TextOf name text)
    (h' : e.TextOf name text') : text = text' := by
  obtain ⟨path, hpath, hread⟩ := h
  obtain ⟨path', hpath', hread'⟩ := h'
  rw [hpath] at hpath'
  cases hpath'
  rw [hread] at hread'
  cases hread'
  rfl

theorem Substitutes.unique {ps : List Piece} {out out' : List Char} (h : e.Substitutes ps out)
    (h' : e.Substitutes ps out') : out = out' := by
  induction h generalizing out' with
  | nil =>
    cases h'
    rfl
  | plain c _ ih =>
    cases h' with
    | plain _ hrest => rw [ih hrest]
  | directive hname htext _ _ ihinner ih =>
    cases h' with
    | directive hname' htext' hinner hrest =>
      rw [hname] at hname'
      cases hname'
      cases htext.unique htext'
      rw [ihinner hinner, ih hrest]

/-- Neighbours on a path include each other, and the text belongs to the last name. -/
theorem Reaches.isChain {path : List String} {text : List Char} (h : e.Reaches source path text) :
    path.IsChain e.Includes ∧ ∀ name ∈ path.getLast?, e.TextOf name text := by
  induction h with
  | source => exact ⟨.nil, nofun⟩
  | @inclusion path text included name _ hname htext ih =>
    constructor
    · rw [List.isChain_append]
      refine ⟨ih.1, .singleton name, ?_⟩
      intro last hlast other hother
      rw [List.head?_cons, Option.mem_some_iff] at hother
      subst hother
      exact ⟨text, ih.2 last hlast, hname⟩
    · intro last hlast
      rw [List.getLast?_concat, Option.mem_some_iff] at hlast
      subst hlast
      exact htext

/-- Without cycles no path comes back to a name. -/
theorem Reaches.nodup {path : List String} {text : List Char} (h : e.Reaches source path text)
    (hacyclic : e.Acyclic source) : path.Nodup := by
  have hchain : path.IsChain (Relation.TransGen e.Includes) :=
    h.isChain.1.imp fun _ _ => Relation.TransGen.single
  refine hchain.pairwise.imp_of_mem ?_
  rintro name other hname - hincludes rfl
  exact hacyclic path text h name hname hincludes

/-- On a path of inclusions the guard lets every directive pass. -/
theorem Resolved.decide_eq_ok (hresolved : e.Resolved source) (hacyclic : e.Acyclic source)
    (hshort : ∀ path text, e.Reaches source path text → path.length ≤ 32)
    {path : List String} {text : List Char} (hpath : e.Reaches source path text) {d : Directive}
    (hd : .directive d ∈ pieces e.settings.delimiters text) :
    ∃ i, e.decide path d.expression = .ok i := by
  obtain ⟨name, included, hname, file, hplaced, hread⟩ := hresolved path text hpath d hd
  have hnext : e.Reaches source (path ++ [name]) included :=
    .inclusion hpath ⟨d, hd, hname⟩ ⟨file, hplaced, hread⟩
  have hfresh : name ∉ path := by
    have hnodup := hnext.nodup hacyclic
    rw [List.nodup_append] at hnodup
    intro hmem
    exact hnodup.2.2 name hmem name (List.mem_singleton_self name) rfl
  have hshallow : path.length < depthLimit := by
    have hlength := hshort _ _ hnext
    rw [List.length_append, List.length_singleton] at hlength
    exact hlength
  exact ⟨⟨name, file, included⟩, (decide_eq_ok_iff e path d.expression _).mpr
    ⟨hname, hfresh, hshallow, hplaced, hread⟩⟩

/-- Where the guard lets everything pass, the recursion of an expansion is that of substitution. -/
theorem Expands.substitutes (hresolved : e.Resolved source) (hacyclic : e.Acyclic source)
    (hshort : ∀ path text, e.Reaches source path text → path.length ≤ 32)
    {chain : List String} {ps : List Piece} {r : List Char × Journal} {es : List Encounter}
    (h : e.Expands chain ps r es) {text : List Char} (hpath : e.Reaches source chain text)
    (hps : ∀ p ∈ ps, p ∈ pieces e.settings.delimiters text) :
    e.Substitutes ps r.1 ∧ ∀ m ∈ es, ∃ i, m.outcome = .ok i := by
  induction h generalizing text with
  | nil chain => exact ⟨.nil, fun _ hm => absurd hm List.not_mem_nil⟩
  | plain c _ ih =>
    obtain ⟨hout, hall⟩ := ih hpath fun p hp => hps p (List.mem_cons_of_mem _ hp)
    exact ⟨.plain c hout, hall⟩
  | dropped hdecide _ _ =>
    obtain ⟨i, hi⟩ := hresolved.decide_eq_ok hacyclic hshort hpath (hps _ List.mem_cons_self)
    rw [hdecide] at hi
    cases hi
  | @included chain ps r inner es nested d i hdecide _ _ ihinner ih =>
    have hi := (decide_eq_ok_iff e chain d.expression i).mp hdecide
    have htext : e.TextOf i.name i.text := ⟨i.path, hi.placed, hi.read⟩
    have hnext : e.Reaches source (chain ++ [i.name]) i.text :=
      .inclusion hpath ⟨d, hps _ List.mem_cons_self, hi.named⟩ htext
    obtain ⟨hinner, hbelow⟩ := ihinner hnext fun _ hp => hp
    obtain ⟨hout, hbeside⟩ := ih hpath fun p hp => hps p (List.mem_cons_of_mem _ hp)
    refine ⟨.directive hi.named htext hinner hout, ?_⟩
    intro m hm
    rcases List.mem_append.mp hm with hm | hm
    · rcases List.mem_cons.mp hm with rfl | hm
      · exact ⟨i, rfl⟩
      · exact hbelow m hm
    · exact hbeside m hm

/-- If everything that is named leads to a text, nothing includes itself, and no path of inclusions
has more than 32 names, then an expansion is the substitution, and it drops no directive. -/
theorem expand_eq_substitution (e : Surroundings) (source : List Char)
    (hresolved : e.Resolved source) (hacyclic : e.Acyclic source)
    (hshort : ∀ path text, e.Reaches source path text → path.length ≤ 32) :
    (∀ out, e.Substitutes (pieces e.settings.delimiters source) out ↔ out = (e.expand source).1) ∧
      ∃ es, e.Expands [] (pieces e.settings.delimiters source) (e.expand source) es ∧
        ∀ m ∈ es, ∃ i, m.outcome = .ok i := by
  obtain ⟨es, hes⟩ := exists_expands_expandBelow (e := e) depthLimit [] (Nat.zero_add _) source
  obtain ⟨hout, hall⟩ := hes.substitutes hresolved hacyclic hshort .source fun _ hp => hp
  refine ⟨fun out => ⟨fun h => h.unique hout, ?_⟩, es, hes, hall⟩
  rintro rfl
  exact hout

def directiveTo (name : Char) : List Char :=
  ['<', '%', '-', 'p', 'a', 'r', 't', 'i', 'a', 'l', '(', '\'', name, '\'', ')', '%', '>']

def diamond : Surroundings where
  settings := {}
  files := .ofKnown [("views/a", .ok (Text.Utf8.encode (directiveTo 'c'))),
    ("views/b", .ok (Text.Utf8.encode (directiveTo 'c'))), ("views/c", .ok [0x78])]
  view := "index"
  locals := []

def diamondSource : List Char := directiveTo 'a' ++ directiveTo 'b'

theorem textOf_diamond :
    diamond.TextOf "a" (directiveTo 'c') ∧ diamond.TextOf "b" (directiveTo 'c') ∧
      diamond.TextOf "c" ['x'] :=
  ⟨⟨"views/a", by decide +kernel, by decide +kernel⟩,
    ⟨"views/b", by decide +kernel, by decide +kernel⟩,
    ⟨"views/c", by decide +kernel, by decide +kernel⟩⟩

theorem nameOf_diamond :
    diamond.nameOf ['\'', 'a', '\''] = .ok "a" ∧ diamond.nameOf ['\'', 'b', '\''] = .ok "b" ∧
      diamond.nameOf ['\'', 'c', '\''] = .ok "c" := by
  decide +kernel

theorem pieces_diamond :
    pieces diamond.settings.delimiters diamondSource =
        [.directive ⟨directiveTo 'a', ['\'', 'a', '\'']⟩,
          .directive ⟨directiveTo 'b', ['\'', 'b', '\'']⟩] ∧
      pieces diamond.settings.delimiters (directiveTo 'c') =
        [.directive ⟨directiveTo 'c', ['\'', 'c', '\'']⟩] ∧
      pieces diamond.settings.delimiters ['x'] = [.plain 'x'] := by
  decide +kernel

theorem names_diamond (name : String) :
    (diamond.Names diamondSource name → name = "a" ∨ name = "b") ∧
      (diamond.Names (directiveTo 'c') name → name = "c") ∧ ¬ diamond.Names ['x'] name := by
  obtain ⟨hsource, hmiddle, hend⟩ := pieces_diamond
  obtain ⟨ha, hb, hc⟩ := nameOf_diamond
  refine ⟨?_, ?_, ?_⟩
  · rintro ⟨d, hd, hname⟩
    rw [hsource] at hd
    simp only [List.mem_cons, Piece.directive.injEq, List.not_mem_nil, or_false] at hd
    rcases hd with rfl | rfl
    · exact Or.inl (Except.ok.inj (hname.symm.trans ha))
    · exact Or.inr (Except.ok.inj (hname.symm.trans hb))
  · rintro ⟨d, hd, hname⟩
    rw [hmiddle, List.mem_singleton, Piece.directive.injEq] at hd
    subst hd
    exact Except.ok.inj (hname.symm.trans hc)
  · rintro ⟨d, hd, -⟩
    rw [hend, List.mem_singleton] at hd
    cases hd

theorem reaches_diamond {path : List String} {text : List Char}
    (h : diamond.Reaches diamondSource path text) :
    (path = [] ∧ text = diamondSource) ∨
      ((path = ["a"] ∨ path = ["b"]) ∧ text = directiveTo 'c') ∨
      ((path = ["a", "c"] ∨ path = ["b", "c"]) ∧ text = ['x']) := by
  obtain ⟨ha, hb, hc⟩ := textOf_diamond
  induction h with
  | source => exact Or.inl ⟨rfl, rfl⟩
  | inclusion _ hname htext ih =>
    rcases ih with ⟨rfl, rfl⟩ | ⟨hpath, rfl⟩ | ⟨-, rfl⟩
    · rcases (names_diamond _).1 hname with rfl | rfl
      · exact Or.inr (Or.inl ⟨Or.inl rfl, htext.unique ha⟩)
      · exact Or.inr (Or.inl ⟨Or.inr rfl, htext.unique hb⟩)
    · obtain rfl := (names_diamond _).2.1 hname
      refine Or.inr (Or.inr ⟨?_, htext.unique hc⟩)
      exact hpath.imp (congrArg (· ++ ["c"])) (congrArg (· ++ ["c"]))
    · exact absurd hname (names_diamond _).2.2

theorem resolved_diamond : diamond.Resolved diamondSource := by
  obtain ⟨hsource, hmiddle, hend⟩ := pieces_diamond
  obtain ⟨ha, hb, hc⟩ := textOf_diamond
  intro path text h d hd
  rcases reaches_diamond h with ⟨-, rfl⟩ | ⟨-, rfl⟩ | ⟨-, rfl⟩
  · rw [hsource] at hd
    simp only [List.mem_cons, Piece.directive.injEq, List.not_mem_nil, or_false] at hd
    rcases hd with rfl | rfl
    · exact ⟨"a", _, nameOf_diamond.1, ha⟩
    · exact ⟨"b", _, nameOf_diamond.2.1, hb⟩
  · rw [hmiddle, List.mem_singleton, Piece.directive.injEq] at hd
    subst hd
    exact ⟨"c", _, nameOf_diamond.2.2, hc⟩
  · rw [hend, List.mem_singleton] at hd
    cases hd

theorem acyclic_diamond : diamond.Acyclic diamondSource := by
  obtain ⟨ha, hb, hc⟩ := textOf_diamond
  have hbelow : ∀ name, ¬ diamond.Includes "c" name := by
    rintro name ⟨text, htext, hname⟩
    rw [htext.unique hc] at hname
    exact (names_diamond name).2.2 hname
  have hover : ∀ first, diamond.TextOf first (directiveTo 'c') → first ≠ "c" →
      ¬ Relation.TransGen diamond.Includes first first := by
    intro first hfirst hne h
    obtain ⟨other, ⟨text, htext, hname⟩, hrest⟩ := Relation.TransGen.head'_iff.mp h
    rw [htext.unique hfirst] at hname
    obtain rfl := (names_diamond other).2.1 hname
    rcases hrest.cases_head with heq | ⟨next, hnext, -⟩
    · exact hne heq.symm
    · exact hbelow next hnext
  have hlast : ¬ Relation.TransGen diamond.Includes "c" "c" := by
    intro h
    obtain ⟨other, hother, -⟩ := Relation.TransGen.head'_iff.mp h
    exact hbelow other hother
  have hfirst := hover "a" ha (by decide)
  have hsecond := hover "b" hb (by decide)
  intro path text h name hname
  rcases reaches_diamond h with ⟨rfl, -⟩ | ⟨rfl | rfl, -⟩ | ⟨rfl | rfl, -⟩
  · exact absurd hname List.not_mem_nil
  · rw [List.mem_singleton.mp hname]
    exact hfirst
  · rw [List.mem_singleton.mp hname]
    exact hsecond
  · rcases List.mem_pair.mp hname with rfl | rfl
    · exact hfirst
    · exact hlast
  · rcases List.mem_pair.mp hname with rfl | rfl
    · exact hsecond
    · exact hlast

/-- The common partial of a diamond is in the page twice. -/
theorem expand_eq_substitution_diamond :
    diamond.Resolved diamondSource ∧ diamond.Acyclic diamondSource ∧
      (∀ path text, diamond.Reaches diamondSource path text → path.length ≤ 32) ∧
      diamond.Substitutes (pieces diamond.settings.delimiters diamondSource) ['x', 'x'] := by
  have hshort : ∀ path text, diamond.Reaches diamondSource path text → path.length ≤ 32 := by
    intro path text h
    rcases reaches_diamond h with ⟨rfl, -⟩ | ⟨rfl | rfl, -⟩ | ⟨rfl | rfl, -⟩ <;> decide
  have hexpand : (diamond.expand diamondSource).1 = ['x', 'x'] := by decide +kernel
  refine ⟨resolved_diamond, acyclic_diamond, hshort, ?_⟩
  exact ((expand_eq_substitution diamond diamondSource resolved_diamond acyclic_diamond
    hshort).1 _).mpr hexpand.symm

end ViewRendering.Partial.Surroundings
