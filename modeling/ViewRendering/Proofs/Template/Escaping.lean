import ViewRendering.Proofs.Template.PageRendering

/-!
Escaped and unescaped output of one local. Around the two tags stands literal text in
which the marks of the template language mean nothing, and the name of the view decides
nothing: what comes out is that text, the value with its HTML marks spelled by entities,
and the value as it is.
-/
namespace ViewRendering.Template

open Markup (Slot slotPage)

def entity? : Char → Option (List Char)
  | '&' => some "&amp;".toList
  | '<' => some "&lt;".toList
  | '>' => some "&gt;".toList
  | '"' => some "&quot;".toList
  | '\'' => some "&#x27;".toList
  | '/' => some "&#x2F;".toList
  | _ => none

def withEntities : List Char → List Char
  | [] => []
  | c :: s => (entity? c).getD [c] ++ withEntities s

theorem escapeChar_eq (c : Char) : escapeChar c = (entity? c).getD [c] := by
  unfold entity?
  split
  · rfl
  · rfl
  · rfl
  · rfl
  · rfl
  · rfl
  · rename_i hamp hless hgreater hquote hapostrophe hslash
    unfold escapeChar
    rw [if_neg hamp, if_neg hless, if_neg hgreater, if_neg hquote, if_neg hapostrophe,
      if_neg hslash]
    rfl

theorem escapeHtml_eq (s : List Char) : escapeHtml s = withEntities s := by
  induction s with
  | nil => rfl
  | cons c s ih =>
    rw [withEntities, ← ih, ← escapeChar_eq]
    rfl

/-- Literal text around the escaped and the unescaped output of `x`: the page compiles under any
name, and writes the text as it is, the value of `x` in entities, and that value as it is. -/
theorem compile_escaped_and_raw (filters : Dict Filter) (view : String) (pre mid post : List Char)
    (hpre : ¬ "<%".toList <:+: pre) (hmid : ¬ "<%".toList <:+: mid)
    (hpost : ¬ "<%".toList <:+: post) :
    ∃ t, compile ({} : Settings).delimiters filters view
        (pre ++ "<%= x %>".toList ++ mid ++ "<%- x %>".toList ++ post) = .ok t ∧
      ∀ (engine : Engine) (locals : Dict Value) (v : String),
        Dict.lookup locals "x" = some (.text v) →
        t.execute locals engine =
          .ok (pre ++ withEntities v.toList ++ mid ++ v.toList ++ post) := by
  have hsource : pre ++ "<%= x %>".toList ++ mid ++ "<%- x %>".toList ++ post =
      slotPage [⟨pre, true, ['x']⟩, ⟨mid, false, ['x']⟩] post := by
    simp only [List.append_assoc]
    rfl
  have hsolid : ∀ c ∈ ['x'], Text.isSpace c = false ∧ c ≠ '%' := by simp [Text.isSpace]
  have hname : OwnName ['x'] := by decide
  have hslots : ∀ s ∈ ([⟨pre, true, ['x']⟩, ⟨mid, false, ['x']⟩] : List Slot),
      s.Proper ∧ OwnName s.name := by
    simp only [List.forall_mem_cons]
    exact ⟨⟨⟨hpre, by simp, hsolid⟩, hname⟩, ⟨⟨hmid, by simp, hsolid⟩, hname⟩, by simp⟩
  obtain ⟨t, hcompile, hexecute⟩ := compile_slotPage filters view
    (fun s hs => (hslots s hs).1) hpost fun s hs => (hslots s hs).2
  refine ⟨t, ?_, ?_⟩
  · rw [hsource, delimiters_default]
    exact hcompile
  · intro engine locals v hv
    have hvalue : ∀ s ∈ ([⟨pre, true, ['x']⟩, ⟨mid, false, ['x']⟩] : List Slot),
        Dict.lookup locals (String.ofList s.name) = some (.text v) := by
      simp only [List.forall_mem_cons]
      exact ⟨hv, hv, by simp⟩
    rw [hexecute engine locals (fun _ => v) hvalue, ← escapeHtml_eq]
    simp only [slotText, List.append_assoc]
    rfl

/-- Template marks in the text, and a value with HTML marks and a template mark in it. -/
theorem compile_escaped_and_raw_marks :
    let pre := "\x7b\x7b 1 \x7d\x7d <a title=\"\x7b".toList
    let mid := "\"> \x7b# % \x7b".toList
    let post := "%\x7d</a> <".toList
    let v := "</b>'\"&\x7b%"
    let locals : Dict Value := [("__viewpress_raw", .text "no"), ("x", .text v)]
    (¬ "<%".toList <:+: pre ∧ ¬ "<%".toList <:+: mid ∧ ¬ "<%".toList <:+: post) ∧
      locals.lookup "x" = some (.text v) ∧
      ∃ t, compile ({} : Settings).delimiters [] "page.txt"
          (pre ++ "<%= x %>".toList ++ mid ++ "<%- x %>".toList ++ post) = .ok t ∧
        t.execute locals =
          .ok (pre ++ "&lt;&#x2F;b&gt;&#x27;&quot;&amp;\x7b%".toList ++ mid ++ v.toList ++
            post) := by
  intro pre mid post v locals
  have hpre : ¬ "<%".toList <:+: pre := by simp [pre, List.infix_cons_iff]
  have hmid : ¬ "<%".toList <:+: mid := by simp [mid, List.infix_cons_iff]
  have hpost : ¬ "<%".toList <:+: post := by simp [post, List.infix_cons_iff]
  have hv : locals.lookup "x" = some (.text v) := rfl
  have hentities : withEntities v.toList =
      "&lt;&#x2F;b&gt;&#x27;&quot;&amp;\x7b%".toList := by decide +kernel
  obtain ⟨t, hcompile, hexecute⟩ := compile_escaped_and_raw [] "page.txt" pre mid post hpre hmid
    hpost
  rw [← hentities]
  exact ⟨⟨hpre, hmid, hpost⟩, hv, t, hcompile, hexecute .plain locals v hv⟩

end ViewRendering.Template
