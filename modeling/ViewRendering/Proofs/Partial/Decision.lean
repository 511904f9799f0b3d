import ViewRendering.Partial.Expansion
import Mathlib.Tactic.Common

/-!
What decides an expansion. Everything that an expansion does with a directive is its
decision, so surroundings with the same decisions expand alike, and a path that is
read belongs to a name that the settings accept.
-/
namespace ViewRendering.Partial.Surroundings

structure Included (e : Surroundings) (chain : List String) (expression : List Char)
    (i : Inclusion) : Prop where
  named : e.nameOf expression = .ok i.name
  fresh : i.name ∉ chain
  shallow : chain.length < depthLimit
  placed : e.settings.viewPath i.name = .ok i.path
  read : e.files.read i.path = .ok i.text

theorem readFor_eq_ok_iff (files : Files) (path root purpose caller : String) (s : List Char) :
    files.readFor path root purpose caller = .ok s ↔ files.read path = .ok s := by
  unfold Files.readFor
  cases files.read path <;> simp

theorem readFor_eq_error_iff (files : Files) (path root purpose caller : String)
    (failure : FileFailure) : files.readFor path root purpose caller = .error failure ↔
      ∃ fault, files.read path = .error fault ∧
        failure = ⟨.read, path, purpose, caller, fault, [root]⟩ := by
  unfold Files.readFor
  cases files.read path with
  | ok s => exact iff_of_false nofun nofun
  | error fault => simp [eq_comm]

/-- A directive is expanded exactly if it passes every check. -/
theorem decide_eq_ok_iff (e : Surroundings) (chain : List String) (expression : List Char)
    (i : Inclusion) : e.decide chain expression = .ok i ↔ e.Included chain expression i := by
  constructor
  · intro h
    unfold decide at h
    split at h
    · cases h
    · rename_i name hname
      split at h
      · cases h
      · rename_i hfresh
        split at h
        · cases h
        · rename_i hdepth
          split at h
          · cases h
          · rename_i path hpath
            split at h
            · cases h
            · rename_i text htext
              cases h
              exact ⟨hname, hfresh, Nat.lt_of_not_le hdepth, hpath,
                (readFor_eq_ok_iff _ _ _ _ _ _).mp htext⟩
  · rintro ⟨hname, hfresh, hdepth, hpath, htext⟩
    have hread := (readFor_eq_ok_iff e.files i.path e.settings.root "partial include" "partials"
      i.text).mpr htext
    unfold decide
    simp only [hname, if_neg hfresh, if_neg (Nat.not_le_of_lt hdepth), hpath, hread]

/-- A dropped directive reads a file only at the path of an accepted name. -/
theorem viewPath_of_mem_reads {e : Surroundings} {chain : List String} {expression : List Char}
    {dropped : Dropped} (h : e.decide chain expression = .error dropped) {path : String}
    (hpath : .read path ∈ dropped.reads) : ∃ name, e.settings.viewPath name = .ok path := by
  unfold decide at h
  split at h
  · cases h
    simp [Dropped.reads] at hpath
  · rename_i name hname
    split at h
    · cases h
      simp [Dropped.reads] at hpath
    · split at h
      · cases h
        simp [Dropped.reads] at hpath
      · split at h
        · cases h
          simp [Dropped.reads] at hpath
        · rename_i path' hpath'
          split at h
          · cases h
            simp only [Dropped.reads, List.mem_singleton, Occurrence.read.injEq] at hpath
            exact ⟨name, hpath ▸ hpath'⟩
          · cases h

/-- Two surroundings that decide alike about the directives of all texts in a class that
inclusion does not leave. -/
structure Agree (e e' : Surroundings) (P : List Char → Prop) : Prop where
  delimiters : e.settings.delimiters = e'.settings.delimiters
  view : e.view = e'.view
  decision : ∀ text d, P text → .directive d ∈ pieces e.settings.delimiters text →
    ∀ chain, e.decide chain d.expression = e'.decide chain d.expression
  included : ∀ chain expression i, e.decide chain expression = .ok i → P i.text

theorem Agree.expandWith {e e' : Surroundings} {P : List Char → Prop} (h : Agree e e' P)
    {nested nested' : List String → List Char → List Char × Journal}
    (hnested : ∀ chain text, P text → nested chain text = nested' chain text)
    (chain : List String) (text : List Char) (htext : P text) :
    e.expandWith nested chain text = e'.expandWith nested' chain text := by
  unfold Surroundings.expandWith
  rw [← h.delimiters]
  apply congrArg gather
  apply List.map_congr_left
  intro piece hpiece
  cases piece with
  | plain c => rfl
  | directive d =>
    have hdecision := h.decision text d htext hpiece chain
    cases hd : e.decide chain d.expression with
    | error dropped =>
      rw [hd] at hdecision
      simp only [expandPiece, hd, ← hdecision, h.view]
    | ok i =>
      rw [hd] at hdecision
      simp only [expandPiece, hd, ← hdecision, includedEvent, h.view,
        hnested _ _ (h.included chain d.expression i hd)]

/-- Surroundings that agree expand alike, text and journal. -/
theorem Agree.expandBelow {e e' : Surroundings} {P : List Char → Prop} (h : Agree e e' P)
    (levels : Nat) (chain : List String) (text : List Char) (htext : P text) :
    e.expandBelow levels chain text = e'.expandBelow levels chain text := by
  induction levels generalizing chain text with
  | zero => exact h.expandWith (fun _ _ _ => rfl) chain text htext
  | succ levels ih => exact h.expandWith ih chain text htext

theorem Agree.expand {e e' : Surroundings} {P : List Char → Prop} (h : Agree e e' P)
    (text : List Char) (htext : P text) : e.expand text = e'.expand text :=
  h.expandBelow depthLimit [] text htext

theorem viewPath_of_expandWith {e : Surroundings}
    {nested : List String → List Char → List Char × Journal}
    (hnested : ∀ chain text path, .read path ∈ (nested chain text).2 →
      ∃ name, e.settings.viewPath name = .ok path)
    (chain : List String) (text : List Char) {path : String}
    (hpath : .read path ∈ (e.expandWith nested chain text).2) :
    ∃ name, e.settings.viewPath name = .ok path := by
  simp only [Surroundings.expandWith, gather, List.mem_flatMap, List.mem_map] at hpath
  obtain ⟨-, ⟨piece, -, rfl⟩, hpath⟩ := hpath
  cases piece with
  | plain c => simp [expandPiece] at hpath
  | directive d =>
    cases hd : e.decide chain d.expression with
    | error dropped =>
      simp only [expandPiece, hd, List.mem_append, List.mem_singleton] at hpath
      rcases hpath with hpath | hevent
      · exact viewPath_of_mem_reads hd hpath
      · cases dropped <;> simp [Dropped.event, Journal.warn, Journal.debug] at hevent
    | ok i =>
      simp only [expandPiece, hd, List.mem_cons, Occurrence.read.injEq] at hpath
      rcases hpath with rfl | hevent | hpath
      · exact ⟨i.name, ((decide_eq_ok_iff e chain d.expression i).mp hd).placed⟩
      · simp [includedEvent, Journal.debug] at hevent
      · exact hnested _ _ path hpath

/-- Every path that an expansion reads belongs to a name that the settings accept. -/
theorem viewPath_of_expandBelow (e : Surroundings) (levels : Nat) (chain : List String)
    (text : List Char) {path : String} (hpath : .read path ∈ (e.expandBelow levels chain text).2) :
    ∃ name, e.settings.viewPath name = .ok path := by
  induction levels generalizing chain text path with
  | zero =>
    exact viewPath_of_expandWith (fun _ _ _ h => absurd h List.not_mem_nil) chain text hpath
  | succ levels ih =>
    exact viewPath_of_expandWith (fun chain text path h => ih chain text h) chain text hpath

end ViewRendering.Partial.Surroundings
