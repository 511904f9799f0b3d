import ViewRendering.Text.Distance
import Mathlib.Order.Bounds.Basic
import Mathlib.Order.Lattice.Nat
import Mathlib.Tactic.Common

/-!
The distance of two texts is the least number of single edits that make the one of the other. An
edit may happen anywhere in a text; edits that are put side by side, character by character, cost
no more than the edits one after the other, and the table of distances finds the cheapest way to
put them side by side.
-/
namespace ViewRendering.Text

inductive Edit : List Char → List Char → Prop
  | insert (a b : List Char) (c : Char) : Edit (a ++ b) (a ++ c :: b)
  | remove (a b : List Char) (c : Char) : Edit (a ++ c :: b) (a ++ b)
  | replace (a b : List Char) (c d : Char) : Edit (a ++ c :: b) (a ++ d :: b)

inductive Edits : Nat → List Char → List Char → Prop
  | none (s : List Char) : Edits 0 s s
  | more {n : Nat} {s t u : List Char} : Edits n s t → Edit t u → Edits (n + 1) s u

noncomputable def editDistance (s t : List Char) : Nat := sInf {n | Edits n s t}

theorem Edit.cons {s t : List Char} (h : Edit s t) (x : Char) : Edit (x :: s) (x :: t) := by
  cases h with
  | insert a b c => exact .insert (x :: a) b c
  | remove a b c => exact .remove (x :: a) b c
  | replace a b c d => exact .replace (x :: a) b c d

theorem Edit.reverse {s t : List Char} (h : Edit s t) : Edit s.reverse t.reverse := by
  cases h with
  | insert a b c =>
    simpa only [List.reverse_append, List.reverse_cons, List.append_assoc, List.singleton_append]
      using Edit.insert b.reverse a.reverse c
  | remove a b c =>
    simpa only [List.reverse_append, List.reverse_cons, List.append_assoc, List.singleton_append]
      using Edit.remove b.reverse a.reverse c
  | replace a b c d =>
    simpa only [List.reverse_append, List.reverse_cons, List.append_assoc, List.singleton_append]
      using Edit.replace b.reverse a.reverse c d

theorem Edits.cons {n : Nat} {s t : List Char} (h : Edits n s t) (x : Char) :
    Edits n (x :: s) (x :: t) := by
  induction h with
  | none s => exact .none (x :: s)
  | more _ hedit ih => exact ih.more (hedit.cons x)

theorem Edits.reverse {n : Nat} {s t : List Char} (h : Edits n s t) :
    Edits n s.reverse t.reverse := by
  induction h with
  | none s => exact .none s.reverse
  | more _ hedit ih => exact ih.more hedit.reverse

/-- An edit changes the length by one at most. -/
theorem Edits.length_le {n : Nat} {s t : List Char} (h : Edits n s t) :
    s.length ≤ t.length + n := by
  induction h with
  | none s => exact Nat.le_refl _
  | more _ hedit ih =>
    cases hedit <;> simp only [List.length_append, List.length_cons] at ih ⊢ <;> omega

/-- The two texts side by side; so many places differ, counting a character on one side only as a
difference. -/
inductive Aligned : Nat → List Char → List Char → Prop
  | nil : Aligned 0 [] []
  | keep {n : Nat} {s t : List Char} (c : Char) : Aligned n s t → Aligned n (c :: s) (c :: t)
  | replace {n : Nat} {s t : List Char} (c d : Char) :
      Aligned n s t → Aligned (n + 1) (c :: s) (d :: t)
  | insert {n : Nat} {s t : List Char} (d : Char) : Aligned n s t → Aligned (n + 1) s (d :: t)
  | remove {n : Nat} {s t : List Char} (c : Char) : Aligned n s t → Aligned (n + 1) (c :: s) t

theorem Aligned.self (s : List Char) : Aligned 0 s s := by
  induction s with
  | nil => exact .nil
  | cons c s ih => exact ih.keep c

/-- Texts side by side are so many edits apart. -/
theorem Aligned.edits {n : Nat} {s t : List Char} (h : Aligned n s t) : Edits n s t := by
  induction h with
  | nil => exact .none []
  | keep c _ ih => exact ih.cons c
  | @replace n s t c d _ ih => exact (ih.cons c).more (.replace [] t c d)
  | @insert n s t d _ ih => exact ih.more (.insert [] t d)
  | @remove n s t c _ ih => exact (ih.cons c).more (.remove [] t c)

/-- What an edit makes of a text that is not empty. -/
theorem Edit.cons_cases {c : Char} {t u : List Char} (h : Edit (c :: t) u) :
    (∃ d, u = d :: c :: t) ∨ u = t ∨ (∃ d, u = d :: t) ∨ ∃ t', u = c :: t' ∧ Edit t t' := by
  generalize hs : c :: t = s at h
  cases h with
  | insert a b d =>
    cases a with
    | nil =>
      obtain rfl : c :: t = b := hs
      exact Or.inl ⟨d, rfl⟩
    | cons x a =>
      obtain ⟨rfl, rfl⟩ := List.cons.inj hs
      exact Or.inr (Or.inr (Or.inr ⟨_, rfl, .insert a b d⟩))
  | remove a b d =>
    cases a with
    | nil =>
      obtain ⟨rfl, rfl⟩ := List.cons.inj hs
      exact Or.inr (Or.inl rfl)
    | cons x a =>
      obtain ⟨rfl, rfl⟩ := List.cons.inj hs
      exact Or.inr (Or.inr (Or.inr ⟨_, rfl, .remove a b d⟩))
  | replace a b d e =>
    cases a with
    | nil =>
      obtain ⟨rfl, rfl⟩ := List.cons.inj hs
      exact Or.inr (Or.inr (Or.inl ⟨e, rfl⟩))
    | cons x a =>
      obtain ⟨rfl, rfl⟩ := List.cons.inj hs
      exact Or.inr (Or.inr (Or.inr ⟨_, rfl, .replace a b d e⟩))

/-- What an edit makes of the empty text. -/
theorem Edit.eq_singleton {u : List Char} (h : Edit [] u) : ∃ d, u = [d] := by
  generalize hs : ([] : List Char) = s at h
  cases h with
  | insert a b d =>
    obtain ⟨rfl, rfl⟩ := List.append_eq_nil_iff.mp hs.symm
    exact ⟨d, rfl⟩
  | remove a b d =>
    exact absurd hs.symm (List.append_ne_nil_of_right_ne_nil a (List.cons_ne_nil d b))
  | replace a b d e =>
    exact absurd hs.symm (List.append_ne_nil_of_right_ne_nil a (List.cons_ne_nil d b))

/-- One more edit makes one more difference at most. -/
theorem Aligned.exists_of_edit {n : Nat} {s t u : List Char} (h : Aligned n s t)
    (hedit : Edit t u) : ∃ m ≤ n + 1, Aligned m s u := by
  induction h generalizing u with
  | nil =>
    obtain ⟨d, rfl⟩ := hedit.eq_singleton
    exact ⟨1, Nat.le_refl 1, Aligned.nil.insert d⟩
  | @keep n s t c hst ih =>
    rcases hedit.cons_cases with ⟨d, rfl⟩ | rfl | ⟨d, rfl⟩ | ⟨t', rfl, hedit'⟩
    · exact ⟨n + 1, Nat.le_refl _, (hst.keep c).insert d⟩
    · exact ⟨n + 1, Nat.le_refl _, hst.remove c⟩
    · exact ⟨n + 1, Nat.le_refl _, hst.replace c d⟩
    · obtain ⟨m, hm, h'⟩ := ih hedit'
      exact ⟨m, hm, h'.keep c⟩
  | @replace n s t c d hst ih =>
    rcases hedit.cons_cases with ⟨e, rfl⟩ | rfl | ⟨e, rfl⟩ | ⟨t', rfl, hedit'⟩
    · exact ⟨n + 2, Nat.le_refl _, (hst.replace c d).insert e⟩
    · exact ⟨n + 1, by omega, hst.remove c⟩
    · exact ⟨n + 1, by omega, hst.replace c e⟩
    · obtain ⟨m, hm, h'⟩ := ih hedit'
      exact ⟨m + 1, by omega, h'.replace c d⟩
  | @insert n s t d hst ih =>
    rcases hedit.cons_cases with ⟨e, rfl⟩ | rfl | ⟨e, rfl⟩ | ⟨t', rfl, hedit'⟩
    · exact ⟨n + 2, Nat.le_refl _, (hst.insert d).insert e⟩
    · exact ⟨n, by omega, hst⟩
    · exact ⟨n + 1, by omega, hst.insert e⟩
    · obtain ⟨m, hm, h'⟩ := ih hedit'
      exact ⟨m + 1, by omega, h'.insert d⟩
  | @remove n s t c hst ih =>
    obtain ⟨m, hm, h'⟩ := ih hedit
    exact ⟨m + 1, by omega, h'.remove c⟩

/-- Edits one after the other can be put side by side. -/
theorem Edits.exists_aligned {n : Nat} {s t : List Char} (h : Edits n s t) :
    ∃ m ≤ n, Aligned m s t := by
  induction h with
  | none s => exact ⟨0, Nat.le_refl 0, Aligned.self s⟩
  | more _ hedit ih =>
    obtain ⟨m, hm, halign⟩ := ih
    obtain ⟨k, hk, halign'⟩ := halign.exists_of_edit hedit
    exact ⟨k, by omega, halign'⟩

def differences : List Char → List Char → Nat
  | [], t => t.length
  | c :: s, [] => (c :: s).length
  | c :: s, d :: t =>
    min (min (differences (c :: s) t + 1) (differences s (d :: t) + 1))
      (differences s t + if c = d then 0 else 1)

theorem differences_nil (s : List Char) : differences s [] = s.length := by
  cases s <;> rw [differences]

theorem differences_cons_cons (c d : Char) (s t : List Char) :
    differences (c :: s) (d :: t) =
      min (min (differences (c :: s) t + 1) (differences s (d :: t) + 1))
        (differences s t + if c = d then 0 else 1) := by
  rw [differences]

/-- No way to put two texts side by side has fewer differences. -/
theorem Aligned.differences_le {n : Nat} {s t : List Char} (h : Aligned n s t) :
    differences s t ≤ n := by
  induction h with
  | nil => exact (differences_nil []).le
  | keep c _ ih =>
    rw [differences_cons_cons, if_pos rfl]
    omega
  | replace c d _ ih =>
    rw [differences_cons_cons]
    split <;> omega
  | @insert n s t d _ ih =>
    cases s with
    | nil =>
      rw [differences] at ih ⊢
      exact Nat.succ_le_succ ih
    | cons c s =>
      rw [differences_cons_cons]
      omega
  | @remove n s t c _ ih =>
    cases t with
    | nil =>
      rw [differences_nil] at ih ⊢
      exact Nat.succ_le_succ ih
    | cons d t =>
      rw [differences_cons_cons]
      omega

theorem aligned_nil_left (t : List Char) : Aligned t.length [] t := by
  induction t with
  | nil => exact .nil
  | cons d t ih => exact ih.insert d

theorem aligned_nil_right (s : List Char) : Aligned s.length s [] := by
  induction s with
  | nil => exact .nil
  | cons c s ih => exact ih.remove c

/-- Two texts can be put side by side with so many differences. -/
theorem aligned_differences (s t : List Char) : Aligned (differences s t) s t := by
  induction s, t using differences.induct with
  | case1 t =>
    rw [differences]
    exact aligned_nil_left t
  | case2 c s =>
    rw [differences_nil]
    exact aligned_nil_right (c :: s)
  | case3 c s d t hleft habove hdiagonal =>
    have hsame : Aligned (differences s t + if c = d then 0 else 1) (c :: s) (d :: t) := by
      by_cases hcd : c = d
      · subst hcd
        rw [if_pos rfl]
        exact hdiagonal.keep c
      · rw [if_neg hcd]
        exact hdiagonal.replace c d
    rw [differences_cons_cons]
    rcases min_choice (min (differences (c :: s) t + 1) (differences s (d :: t) + 1))
      (differences s t + if c = d then 0 else 1) with hmin | hmin <;> rw [hmin]
    · rcases min_choice (differences (c :: s) t + 1) (differences s (d :: t) + 1) with
        hmin | hmin <;> rw [hmin]
      · exact hleft.insert d
      · exact habove.remove c
    · exact hsame

/-- The entries of a row of the table for the beginning `done` of the first text, turned around,
behind the entry for the beginning `front` of the second. -/
def entries (done front : List Char) : List Char → List Nat
  | [] => []
  | d :: t => differences done (d :: front) :: entries done (d :: front) t

theorem entriesBehind_entries (c : Char) (done front t : List Char) :
    entriesBehind c (differences (c :: done) front) (differences done front) t
      (entries done front t) = entries (c :: done) front t := by
  induction t generalizing front with
  | nil => rfl
  | cons d t ih =>
    simp only [entries, entriesBehind]
    rw [← differences_cons_cons, ih]

def row (done t : List Char) : List Nat := differences done [] :: entries done [] t

theorem rowBelow_row (t done : List Char) (c : Char) :
    rowBelow t (row done t) c = row (c :: done) t := by
  have htop : differences done [] + 1 = differences (c :: done) [] := by
    rw [differences_nil, differences_nil]
    rfl
  simp only [row, rowBelow]
  rw [htop, entriesBehind_entries]

theorem foldl_rowBelow (s t done : List Char) :
    s.foldl (rowBelow t) (row done t) = row (s.reverse ++ done) t := by
  induction s generalizing done with
  | nil => rfl
  | cons c s ih =>
    rw [List.foldl_cons, rowBelow_row, ih, List.reverse_cons, List.append_assoc,
      List.singleton_append]

theorem row_nil (t : List Char) : row [] t = List.range (t.length + 1) := by
  have hentries (front : List Char) : entries [] front t =
      List.range' (front.length + 1) t.length := by
    induction t generalizing front with
    | nil => rfl
    | cons d t ih =>
      rw [entries, ih, differences, List.length_cons, List.length_cons, List.range'_succ]
  rw [row, hentries, differences_nil, List.range_eq_range', List.range'_succ]
  rfl

theorem getLastD_row (done front t : List Char) :
    (differences done front :: entries done front t).getLastD 0 =
      differences done (t.reverse ++ front) := by
  induction t generalizing front with
  | nil => rfl
  | cons d t ih =>
    rw [entries, List.reverse_cons, List.append_assoc, List.singleton_append, ← ih]
    rfl

/-- The table ends with the least number of differences of the texts, both read from behind. -/
theorem distance_eq_differences (s t : List Char) :
    distance s t = differences s.reverse t.reverse := by
  rw [distance, ← row_nil, foldl_rowBelow, row, getLastD_row, List.append_nil, List.append_nil]

/-- The distance of two texts is the least number of edits between them. -/
theorem isLeast_distance (s t : List Char) : IsLeast {n | Edits n s t} (distance s t) := by
  rw [distance_eq_differences]
  refine ⟨?_, fun n hn => ?_⟩
  · have hedits := (aligned_differences s.reverse t.reverse).edits.reverse
    rwa [List.reverse_reverse, List.reverse_reverse] at hedits
  · obtain ⟨m, hm, halign⟩ := hn.reverse.exists_aligned
    exact Nat.le_trans halign.differences_le hm

theorem distance_eq (s t : List Char) : distance s t = editDistance s t :=
  (isLeast_distance s t).csInf_eq.symm

theorem edits_drop (s : List Char) {n : Nat} (h : n ≤ s.length) : Edits n s (s.drop n) := by
  induction n with
  | zero => exact .none s
  | succ n ih =>
    have hdrop := List.drop_eq_getElem_cons (l := s) h
    refine (ih (Nat.le_of_succ_le h)).more ?_
    rw [hdrop]
    exact .remove [] (s.drop (n + 1)) s[n]

/-- A text is as far from its end as the part in front is long. -/
theorem editDistance_drop (s : List Char) {n : Nat} (h : n ≤ s.length) :
    editDistance s (s.drop n) = n := by
  have hleast : IsLeast {m | Edits m s (s.drop n)} n := by
    refine ⟨edits_drop s h, fun m hm => ?_⟩
    have hlength := hm.length_le
    rw [List.length_drop] at hlength
    omega
  exact hleast.csInf_eq

end ViewRendering.Text
