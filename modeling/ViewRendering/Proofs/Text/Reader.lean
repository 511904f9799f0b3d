import ViewRendering.Text.Reader

/-!
What the combinators of readers do with a text, once it is known what the readers they are
made of do with it.
-/
namespace ViewRendering.Reader

variable {α β : Type} {p q : Reader α} {f : α → Reader β} {a : α} {s r : List Char}

theorem bind_of_some (h : p s = some (a, r)) : (p >>= f) s = f a r := by
  change (p s).bind _ = _
  rw [h]
  rfl

theorem bind_of_none (h : p s = none) : (p >>= f) s = none := by
  change (p s).bind _ = _
  rw [h]
  rfl

theorem either_of_some (h : p s = some (a, r)) : either p q s = some (a, r) := by
  unfold either
  rw [h]

theorem either_of_none (h : p s = none) : either p q s = q s := by
  unfold either
  rw [h]

theorem firstOf_cons_of_some {ps : List (Reader α)} (h : p s = some (a, r)) :
    firstOf (p :: ps) s = some (a, r) :=
  either_of_some h

theorem firstOf_cons_of_none {ps : List (Reader α)} (h : p s = none) :
    firstOf (p :: ps) s = firstOf ps s :=
  either_of_none h

theorem firstOf_eq_none {ps : List (Reader α)} (h : ∀ p ∈ ps, p s = none) :
    firstOf ps s = none := by
  induction ps with
  | nil => rfl
  | cons p ps ih =>
    rw [firstOf_cons_of_none (h p List.mem_cons_self)]
    exact ih fun q hq => h q (List.mem_cons_of_mem p hq)

theorem maybe_of_none (h : p s = none) : maybe p s = some (none, s) := by
  unfold maybe
  rw [h]

theorem many_of_none (h : p s = none) : many p s = some ([], s) := by
  unfold many
  rw [manyFrom, h]

theorem many_of_some {as : List α} {t : List Char} (h : p s = some (a, r))
    (hlt : r.length < s.length) (hrest : many p r = some (as, t)) :
    many p s = some (a :: as, t) := by
  unfold many at hrest ⊢
  rw [manyFrom, h]
  simp only [if_pos hlt, hrest, Option.map_some]

theorem exact_of_not_prefix {mark : String} (h : ¬ mark.toList <+: s) : exact mark s = none := by
  cases hafter : Text.after? mark.toList s with
  | none =>
    unfold exact
    rw [hafter]
    rfl
  | some r => exact absurd ⟨r, (Text.eq_append_of_after? hafter).symm⟩ h

theorem sourceOf_append {n : List Char} (h : p (n ++ r) = some (a, r)) :
    sourceOf p (n ++ r) = some (n, r) := by
  unfold sourceOf
  rw [h]
  simp

end ViewRendering.Reader
