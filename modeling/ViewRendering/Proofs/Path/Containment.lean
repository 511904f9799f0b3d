import ViewRendering.Proofs.Text.Parts
import ViewRendering.Settings
import Mathlib.Tactic.Common

/-!
Paths below a root. A relative path whose beginnings never have more steps up than steps
down stays below the directory it is joined to: the normal form of the joined path
begins with the normal form of the root. Every accepted view name leads to such a path.
-/
namespace ViewRendering.Path

def stepsUp (ps : List (List Char)) : Nat := ps.countP isUp

def stepsDown (ps : List (List Char)) : Nat := ps.countP fun p => !isUp p

def NeverAbove (path : String) : Prop := ∀ ps, ps <+: steps path → stepsUp ps ≤ stepsDown ps

/-- The path is `root` with a relative path joined to it that never climbs above it. -/
def Below (root path : String) : Prop :=
  ∃ p, path = join root p ∧ isAbsolute p = false ∧ NeverAbove p

/-- One step from where a path has led. A step up takes back the last step down; where there is
none it stays in a relative path and is void in an absolute one. -/
def walk (absolute : Bool) (reached : List (List Char)) (p : List Char) : List (List Char) :=
  if isUp p then
    match reached.getLast? with
    | some q => if isUp q then reached ++ [p] else reached.dropLast
    | none => if absolute then reached else reached ++ [p]
  else reached ++ [p]

def normalSteps (path : String) : List (List Char) :=
  (steps path).foldl (walk (isAbsolute path)) []

theorem walk_down (absolute : Bool) (reached : List (List Char)) {p : List Char}
    (h : isUp p = false) : walk absolute reached p = reached ++ [p] := by
  simp [walk, h]

theorem walk_up (absolute : Bool) (reached : List (List Char)) {p q : List Char}
    (hp : isUp p = true) (hq : isUp q = false) :
    walk absolute (reached ++ [q]) p = reached := by
  simp [walk, hp, hq]

private theorem forall_prefix_cons {p : List Char} {ps : List (List Char)}
    {P : List (List Char) → Prop} :
    (∀ qs, qs <+: p :: ps → P qs) ↔ P [] ∧ ∀ qs, qs <+: ps → P (p :: qs) := by
  constructor
  · intro h
    exact ⟨h [] List.nil_prefix, fun qs hqs => h (p :: qs) (List.cons_prefix_cons.mpr ⟨rfl, hqs⟩)⟩
  · rintro ⟨hnil, hcons⟩ qs hqs
    rcases List.prefix_cons_iff.mp hqs with rfl | ⟨rs, rfl, hrs⟩
    · exact hnil
    · exact hcons rs hrs

/-- The depth is known exactly when no beginning of the steps climbs above the start. -/
theorem depthAfter_isSome_iff (n : Nat) (ps : List (List Char)) :
    (depthAfter n ps).isSome ↔ ∀ qs, qs <+: ps → stepsUp qs ≤ n + stepsDown qs := by
  induction ps generalizing n with
  | nil =>
    simp only [depthAfter, Option.isSome_some, true_iff]
    intro qs hqs
    rw [List.prefix_nil.mp hqs]
    simp [stepsUp]
  | cons p ps ih =>
    rw [forall_prefix_cons]
    cases hp : isUp p with
    | true =>
      have hup (qs : List (List Char)) : stepsUp (p :: qs) = stepsUp qs + 1 := by
        simp [stepsUp, hp]
      have hdown (qs : List (List Char)) : stepsDown (p :: qs) = stepsDown qs := by
        simp [stepsDown, hp]
      cases n with
      | zero =>
        simp only [depthAfter, hp, if_true, Option.isSome_none, Bool.false_eq_true, false_iff]
        rintro ⟨-, h⟩
        have hfirst := h [] List.nil_prefix
        rw [hup, hdown] at hfirst
        simp [stepsUp, stepsDown] at hfirst
      | succ n =>
        simp only [depthAfter, hp, if_true, ih, hup, hdown]
        constructor
        · intro h
          refine ⟨by simp [stepsUp], fun qs hqs => ?_⟩
          have hle := h qs hqs
          omega
        · rintro ⟨-, h⟩ qs hqs
          have hle := h qs hqs
          omega
    | false =>
      have hup (qs : List (List Char)) : stepsUp (p :: qs) = stepsUp qs := by
        simp [stepsUp, hp]
      have hdown (qs : List (List Char)) : stepsDown (p :: qs) = stepsDown qs + 1 := by
        simp [stepsDown, hp]
      simp only [depthAfter, hp, Bool.false_eq_true, if_false, ih, hup, hdown]
      constructor
      · intro h
        refine ⟨by simp [stepsUp], fun qs hqs => ?_⟩
        have hle := h qs hqs
        omega
      · rintro ⟨-, h⟩ qs hqs
        have hle := h qs hqs
        omega

theorem staysInside_iff (path : String) : staysInside path = true ↔ NeverAbove path := by
  unfold staysInside NeverAbove
  rw [depthAfter_isSome_iff]
  simp only [Nat.zero_add]

/-- Steps that never climb above where they start leave what was reached before them alone. -/
theorem foldl_walk (absolute : Bool) (reached own ps : List (List Char)) (m : Nat)
    (hown : ∀ p ∈ own, isUp p = false) (h : depthAfter own.length ps = some m) :
    ∃ rest, ps.foldl (walk absolute) (reached ++ own) = reached ++ rest := by
  induction ps generalizing own with
  | nil => exact ⟨own, rfl⟩
  | cons p ps ih =>
    rw [List.foldl_cons]
    cases hp : isUp p with
    | true =>
      rcases List.eq_nil_or_concat own with rfl | ⟨before, q, rfl⟩
      · simp [depthAfter, hp] at h
      · rw [List.concat_eq_append] at h hown ⊢
        have hq : isUp q = false := hown q (by simp)
        rw [← List.append_assoc, walk_up absolute (reached ++ before) hp hq]
        apply ih before (fun p hp => hown p (List.mem_append_left [q] hp))
        simpa [depthAfter, hp] using h
    | false =>
      rw [walk_down absolute (reached ++ own) hp, List.append_assoc]
      apply ih (own ++ [p])
      · intro q hq
        rcases List.mem_append.mp hq with hq | hq
        · exact hown q hq
        · rw [List.mem_singleton.mp hq]
          exact hp
      · simpa [depthAfter, hp] using h

/-- The steps of a joined path are those of its two parts. -/
theorem steps_join (root p : String) (hp : isAbsolute p = false) :
    steps (join root p) = steps root ++ steps p := by
  unfold join
  rw [hp, Bool.false_or]
  split
  · rename_i hempty
    rw [String.isEmpty_iff.mp hempty]
    rfl
  · split
    · rename_i hlast
      obtain ⟨before, hroot⟩ := List.getLast?_eq_some_iff.mp (eq_of_beq hlast)
      unfold steps
      rw [String.toList_append, hroot, List.append_assoc]
      simp only [List.singleton_append, Text.splitOn_append_cons, List.filter_append]
      simp [Text.splitOn]
    · unfold steps
      have htext : (root ++ "/" ++ p).toList = root.toList ++ '/' :: p.toList := by simp
      rw [htext, Text.splitOn_append_cons, List.filter_append]

theorem isAbsolute_join (root p : String) (hp : isAbsolute p = false) :
    isAbsolute (join root p) = isAbsolute root := by
  unfold join
  rw [hp, Bool.false_or]
  split
  · rename_i hempty
    rw [String.isEmpty_iff.mp hempty, hp]
    rfl
  · rename_i hempty
    obtain ⟨c, s, hroot⟩ : ∃ c s, root.toList = c :: s := by
      apply List.exists_cons_of_ne_nil
      simpa [String.isEmpty_iff] using hempty
    unfold isAbsolute
    split <;> simp [hroot]

/-- A path below the root is absolute if the root is, and its normal form goes on from that of the
root. -/
theorem Below.normalSteps_prefix {root path : String} (h : Below root path) :
    isAbsolute path = isAbsolute root ∧ normalSteps root <+: normalSteps path := by
  obtain ⟨p, rfl, hp, hbelow⟩ := h
  have habsolute := isAbsolute_join root p hp
  obtain ⟨m, hm⟩ := Option.isSome_iff_exists.mp ((staysInside_iff p).mpr hbelow)
  refine ⟨habsolute, ?_⟩
  obtain ⟨rest, hrest⟩ := foldl_walk (isAbsolute root) (normalSteps root) [] (steps p) m
    (by simp) hm
  refine ⟨rest, ?_⟩
  rw [← hrest, List.append_nil]
  unfold normalSteps
  rw [habsolute, steps_join root p hp, List.foldl_append]

/-- A name leads to a path below the root, or it is refused for some reason. -/
theorem viewPath_cases (c : Settings) (name : String) :
    ((Text.isBlank name.toList = false ∧ isAbsolute name = false ∧ staysInside name = true) ∧
      c.viewPath name = .ok (join c.root name)) ∨
    (¬ (Text.isBlank name.toList = false ∧ isAbsolute name = false ∧ staysInside name = true) ∧
      ∃ reason, c.viewPath name = .error (c.refused name reason)) := by
  unfold Settings.viewPath
  by_cases hblank : Text.isBlank name.toList = true
  · rw [if_pos hblank]
    exact Or.inr ⟨fun h => Bool.noConfusion (h.1.symm.trans hblank), _, rfl⟩
  · rw [if_neg hblank]
    by_cases habsolute : isAbsolute name = true
    · rw [if_pos habsolute]
      exact Or.inr ⟨fun h => Bool.noConfusion (h.2.1.symm.trans habsolute), _, rfl⟩
    · rw [if_neg habsolute]
      by_cases hinside : staysInside name = true
      · rw [if_pos hinside]
        exact Or.inl ⟨⟨Bool.eq_false_iff.mpr hblank, Bool.eq_false_iff.mpr habsolute, hinside⟩, rfl⟩
      · rw [if_neg hinside]
        exact Or.inr ⟨fun h => hinside h.2.2, _, rfl⟩

theorem below_of_viewPath {c : Settings} {name path : String} (h : c.viewPath name = .ok path) :
    Below c.root path := by
  rcases viewPath_cases c name with ⟨⟨-, habsolute, hinside⟩, hpath⟩ | ⟨-, reason, hrefused⟩
  · rw [hpath] at h
    cases h
    exact ⟨name, rfl, habsolute, (staysInside_iff name).mp hinside⟩
  · rw [hrefused] at h
    cases h

end ViewRendering.Path
