import ViewRendering.Markup.Segment

/-!
Finding the directives that include a partial. A directive is an opening delimiter
with `-` or `=`, the word `partial` with an expression in parentheses, and a closing
delimiter, possibly with a trim marker and the line end it drops. The first place
wins, and at that place the shortest expression that can be closed.
-/
namespace ViewRendering.Partial

open Markup (Delimiters)

structure Directive where
  source : List Char
  expression : List Char
deriving DecidableEq, Repr

/-- The text after the closing delimiter of a directive; with a trim marker one line end belongs
to it. -/
def afterClosing? (d : Delimiters) (s : List Char) : Option (List Char) :=
  match Text.after? ('-' :: d.closing) s with
  | some r => some (Markup.cutNewline r).2
  | none => Text.after? d.closing s

/-- The text after blanks and a closing delimiter. As many blanks as possible are read; the last
of them may belong to the delimiter. -/
def afterEnding? (d : Delimiters) : List Char → Option (List Char)
  | [] => afterClosing? d []
  | c :: s =>
    if Text.isSpace c then
      match afterEnding? d s with
      | some r => some r
      | none => afterClosing? d (c :: s)
    else afterClosing? d (c :: s)

def afterArgument? (d : Delimiters) : List Char → Option (List Char)
  | ')' :: s => afterEnding? d s
  | _ => none

/-- The shortest expression on one line that an ending follows, and the text after the ending. -/
def argument? (d : Delimiters) : List Char → Option (List Char × List Char)
  | [] => none
  | c :: s =>
    if c = '\n' then none
    else
      match afterArgument? d s with
      | some r => some ([c], r)
      | none => (argument? d s).map fun p => (c :: p.1, p.2)

def directiveAt? (d : Delimiters) (s : List Char) : Option (List Char × List Char) :=
  match Text.after? d.opening s with
  | some (c :: r) =>
    if c = '-' ∨ c = '=' then
      (Text.after? "partial(".toList (r.dropWhile Text.isSpace)).bind (argument? d)
    else none
  | _ => none

theorem length_after?_le {mark s r : List Char} (h : Text.after? mark s = some r) :
    r.length ≤ s.length := by
  rw [Text.eq_append_of_after? h]
  simp

theorem length_cutNewline_le (s : List Char) : (Markup.cutNewline s).2.length ≤ s.length := by
  have h := congrArg List.length (Markup.eq_append_cutNewline s)
  simp only [List.length_append] at h
  omega

theorem length_afterClosing?_le {d : Delimiters} {s r : List Char}
    (h : afterClosing? d s = some r) : r.length ≤ s.length := by
  unfold afterClosing? at h
  split at h
  · rename_i t ht
    have h1 := length_after?_le ht
    have h2 := length_cutNewline_le t
    simp only [Option.some.injEq] at h
    subst h
    omega
  · exact length_after?_le h

theorem length_afterEnding?_le {d : Delimiters} {s r : List Char}
    (h : afterEnding? d s = some r) : r.length ≤ s.length := by
  induction s with
  | nil => exact length_afterClosing?_le h
  | cons c s ih =>
    unfold afterEnding? at h
    split at h
    · split at h
      · rename_i t ht
        rw [h] at ht
        have := ih ht
        simp only [List.length_cons]
        omega
      · exact length_afterClosing?_le h
    · exact length_afterClosing?_le h

theorem length_argument?_lt {d : Delimiters} {s e r : List Char}
    (h : argument? d s = some (e, r)) : r.length < s.length := by
  induction s generalizing e with
  | nil => simp [argument?] at h
  | cons c s ih =>
    unfold argument? at h
    split at h
    · simp at h
    · split at h
      · rename_i t ht
        simp only [Option.some.injEq, Prod.mk.injEq] at h
        obtain ⟨-, rfl⟩ := h
        unfold afterArgument? at ht
        split at ht
        · have := length_afterEnding?_le ht
          simp only [List.length_cons]
          omega
        · simp at ht
      · simp only [Option.map_eq_some_iff, Prod.mk.injEq, Prod.exists] at h
        obtain ⟨e', r', h', -, rfl⟩ := h
        have := ih h'
        simp only [List.length_cons]
        omega

theorem length_directiveAt?_lt {d : Delimiters} {s e r : List Char}
    (h : directiveAt? d s = some (e, r)) : r.length < s.length := by
  unfold directiveAt? at h
  split at h
  · rename_i c t ht
    split at h
    · obtain ⟨u, hu, h'⟩ := Option.bind_eq_some_iff.1 h
      have h1 := length_argument?_lt h'
      have h2 := length_after?_le hu
      have h3 := (List.dropWhile_suffix (l := t) Text.isSpace).length_le
      have h4 := length_after?_le ht
      simp only [List.length_cons] at h4
      omega
    · simp at h
  · simp at h

inductive Piece where
  | plain (c : Char)
  | directive (d : Directive)
deriving DecidableEq, Repr

def Piece.source : Piece → List Char
  | .plain c => [c]
  | .directive d => d.source

def pieces (d : Delimiters) (s : List Char) : List Piece :=
  match s with
  | [] => []
  | c :: t =>
    match _h : directiveAt? d (c :: t) with
    | some (e, r) => .directive ⟨(c :: t).take ((c :: t).length - r.length), e⟩ :: pieces d r
    | none => .plain c :: pieces d t
termination_by s.length
decreasing_by
  · exact length_directiveAt?_lt _h
  · simp

def placed : Nat → List Piece → List (Nat × Directive)
  | _, [] => []
  | n, .plain c :: rest => placed (n + c.utf8Size) rest
  | n, .directive d :: rest => (n, d) :: placed (n + Text.utf8Size d.source) rest

def directives (d : Delimiters) (s : List Char) : List (Nat × Directive) := placed 0 (pieces d s)

end ViewRendering.Partial
