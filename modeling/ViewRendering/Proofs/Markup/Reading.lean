import ViewRendering.Markup.Translation
import ViewRendering.Proofs.Text.Occurrence

/-!
How a marked page reads from left to right, stated without the scanner: the first
opening delimiter decides, a percent sign behind it makes it literal, and otherwise a
tag reaches to the first closing delimiter. The scanner finds a reading whenever there
is one, and no page has two readings.
-/
namespace ViewRendering.Markup

inductive Reading (d : Delimiters) : List Char → List Segment → Prop
  | plain {page : List Char} : ¬ d.opening <:+: page → Reading d page [.literal page]
  | escaped {page before rest : List Char} {segments : List Segment} :
      Text.FirstAt d.opening page before ('%' :: rest) → Reading d rest segments →
      Reading d page (.literal before :: .escapedOpening :: segments)
  | tag {page before rest inside after : List Char} {segments : List Segment} :
      Text.FirstAt d.opening page before rest → rest.head? ≠ some '%' →
      Text.FirstAt d.closing rest inside after →
      Reading d (tagBefore inside after).2 segments →
      Reading d page (.literal before :: .tag (tagBefore inside after).1 :: segments)

/-- What a trim marker drops in front of the rest: one line end, or nothing where none stands. -/
inductive DropsNewline : List Char → List Char → Prop
  | newline {rest : List Char} : DropsNewline ['\n'] rest
  | carriage {rest : List Char} : DropsNewline ['\r', '\n'] rest
  | none {rest : List Char} :
      ¬ ['\n'] <+: rest → ¬ ['\r', '\n'] <+: rest → DropsNewline [] rest

theorem dropsNewline_cutNewline (s : List Char) :
    DropsNewline (cutNewline s).1 (cutNewline s).2 := by
  unfold cutNewline
  split
  · exact .carriage
  · exact .newline
  · rename_i hcarriage hnewline
    refine .none ?_ ?_
    · rintro ⟨rest, hrest⟩
      exact hnewline rest hrest.symm
    · rintro ⟨rest, hrest⟩
      exact hcarriage rest hrest.symm

theorem DropsNewline.cutNewline_eq {newline rest : List Char} (h : DropsNewline newline rest) :
    cutNewline (newline ++ rest) = (newline, rest) := by
  cases h with
  | newline => rfl
  | carriage => rfl
  | none hnewline hcarriage =>
    rw [List.nil_append]
    unfold cutNewline
    split
    · exact absurd (List.prefix_append ['\r', '\n'] _) hcarriage
    · exact absurd (List.prefix_append ['\n'] _) hnewline
    · rfl

/-- What stands further behind plays no part. -/
theorem DropsNewline.of_append {newline u v : List Char} (h : DropsNewline newline (u ++ v)) :
    DropsNewline newline u := by
  cases h with
  | newline => exact .newline
  | carriage => exact .carriage
  | none hnewline hcarriage =>
    have hfront : u <+: u ++ v := List.prefix_append u v
    exact .none (fun h => hnewline (h.trans hfront)) fun h => hcarriage (h.trans hfront)

theorem withoutTrimMark_concat (s : List Char) : withoutTrimMark (s ++ ['-']) = (s, true) := by
  simp [withoutTrimMark]

theorem withoutTrimMark_of_getLast? {s : List Char} (h : s.getLast? ≠ some '-') :
    withoutTrimMark s = (s, false) := by
  unfold withoutTrimMark
  split
  · rename_i t hreverse
    rw [List.getLast?_eq_head?_reverse, hreverse] at h
    exact absurd rfl h
  · rfl

theorem inside_tagBefore (inside after : List Char) :
    (tagBefore inside after).1.inside = inside := by
  unfold tagBefore
  split <;> rfl

/-- A tag drops nothing but the line end that it remembers. -/
theorem newline_append_tagBefore (inside after : List Char) :
    (tagBefore inside after).1.newline ++ (tagBefore inside after).2 = after := by
  unfold tagBefore
  split
  · exact (eq_append_cutNewline after).symm
  · rfl

theorem length_tagBefore_le (inside after : List Char) :
    (tagBefore inside after).2.length ≤ after.length := by
  have h := congrArg List.length (newline_append_tagBefore inside after)
  simp only [List.length_append] at h
  omega

/-- The text of a tag and the text behind it are what stood there. -/
theorem source_append_tagBefore (d : Delimiters) (inside after : List Char) :
    (Segment.tag (tagBefore inside after).1).source d ++ (tagBefore inside after).2 =
      d.opening ++ (inside ++ (d.closing ++ after)) := by
  simp only [Segment.source, inside_tagBefore, List.append_assoc, newline_append_tagBefore]

/-- Whatever text follows, the text of a tag is delimited as the tag was. -/
theorem exists_firstAt_tag {d : Delimiters} (hd : d.closing ≠ [])
    {front before rest inside after : List Char} (hfirst : Text.FirstAt d.opening front before rest)
    (hpercent : rest.head? ≠ some '%') (hclose : Text.FirstAt d.closing rest inside after)
    (u : List Char) :
    ∃ rest', Text.FirstAt d.opening
        (before ++ ((Segment.tag (tagBefore inside after).1).source d ++ u)) before rest' ∧
      rest'.head? ≠ some '%' ∧
      Text.FirstAt d.closing rest' inside ((tagBefore inside after).1.newline ++ u) := by
  have hsome : (inside ++ d.closing).head?.isSome := by
    rw [List.isSome_head?]
    simp [hd]
  have hhead (v : List Char) :
      (inside ++ (d.closing ++ v)).head? = (inside ++ d.closing).head? := by
    rw [← List.append_assoc, List.head?_append, Option.or_of_isSome hsome]
  have hsource : (Segment.tag (tagBefore inside after).1).source d ++ u =
      d.opening ++ (inside ++ (d.closing ++ ((tagBefore inside after).1.newline ++ u))) := by
    simp only [Segment.source, inside_tagBefore, List.append_assoc]
  rw [hclose.split, hhead, ← hhead ((tagBefore inside after).1.newline ++ u)] at hpercent
  rw [hsource]
  exact ⟨_, hfirst.with_rest _, hpercent, hclose.with_rest _⟩

/-- A reading loses nothing: its segments are the page. -/
theorem Reading.source_eq {d : Delimiters} {page : List Char} {segments : List Segment}
    (h : Reading d page segments) : segments.flatMap (Segment.source d) = page := by
  induction h with
  | plain _ => simp [Segment.source]
  | escaped hfirst _ ih => simp [Segment.source, ih, hfirst.split]
  | @tag page before rest inside after segments hfirst _ hclose _ ih =>
    rw [List.flatMap_cons, List.flatMap_cons, ih, source_append_tagBefore, ← hclose.split]
    exact hfirst.split.symm

theorem step_of_plain {d : Delimiters} {page : List Char} (h : ¬ d.opening <:+: page) :
    step d page = .noOpening := by
  unfold step
  rw [(Text.cut?_eq_none_iff d.opening page).mpr h]

theorem step_of_escaped {d : Delimiters} {page before rest : List Char}
    (h : Text.FirstAt d.opening page before ('%' :: rest)) :
    step d page = .marked before .escapedOpening rest := by
  unfold step
  rw [(Text.cut?_eq_some_iff d.opening page before ('%' :: rest)).mpr h]
  rfl

theorem step_of_tag {d : Delimiters} {page before rest inside after : List Char}
    (hopen : Text.FirstAt d.opening page before rest) (hpercent : rest.head? ≠ some '%')
    (hclose : Text.FirstAt d.closing rest inside after) :
    step d page = .marked before (.tag (tagBefore inside after).1) (tagBefore inside after).2 := by
  unfold step
  rw [(Text.cut?_eq_some_iff d.opening page before rest).mpr hopen]
  split
  · rename_i heq
    simp at heq
  · rename_i heq
    simp only [Option.some.injEq, Prod.mk.injEq] at heq
    exact absurd (by rw [heq.2]; rfl) hpercent
  · rename_i heq
    simp only [Option.some.injEq, Prod.mk.injEq] at heq
    obtain ⟨rfl, rfl⟩ := heq
    rw [(Text.cut?_eq_some_iff d.closing rest inside after).mpr hclose]

/-- What a step of the scanner has found, by its result. -/
theorem step_cases (d : Delimiters) (page : List Char) :
    (¬ d.opening <:+: page ∧ step d page = .noOpening) ∨
    (∃ before rest, Text.FirstAt d.opening page before ('%' :: rest) ∧
      step d page = .marked before .escapedOpening rest) ∨
    (∃ before rest, Text.FirstAt d.opening page before rest ∧ rest.head? ≠ some '%' ∧
      ¬ d.closing <:+: rest ∧ step d page = .unclosed before (d.opening ++ rest)) ∨
    (∃ before rest inside after, Text.FirstAt d.opening page before rest ∧
      rest.head? ≠ some '%' ∧ Text.FirstAt d.closing rest inside after ∧
      step d page =
        .marked before (.tag (tagBefore inside after).1) (tagBefore inside after).2) := by
  cases hopen : Text.cut? d.opening page with
  | none =>
    have hplain := (Text.cut?_eq_none_iff d.opening page).mp hopen
    exact Or.inl ⟨hplain, step_of_plain hplain⟩
  | some p =>
    obtain ⟨before, rest⟩ := p
    have hfirst := (Text.cut?_eq_some_iff d.opening page before rest).mp hopen
    by_cases hpercent : rest.head? = some '%'
    · obtain ⟨tail, rfl⟩ := List.head?_eq_some_iff.mp hpercent
      exact Or.inr (Or.inl ⟨before, tail, hfirst, step_of_escaped hfirst⟩)
    · cases hclose : Text.cut? d.closing rest with
      | none =>
        have hnone := (Text.cut?_eq_none_iff d.closing rest).mp hclose
        refine Or.inr (Or.inr (Or.inl ⟨before, rest, hfirst, hpercent, hnone, ?_⟩))
        unfold step
        rw [hopen]
        split
        · rename_i heq
          simp at heq
        · rename_i heq
          simp only [Option.some.injEq, Prod.mk.injEq] at heq
          exact absurd (by rw [heq.2]; rfl) hpercent
        · rename_i heq
          simp only [Option.some.injEq, Prod.mk.injEq] at heq
          obtain ⟨rfl, rfl⟩ := heq
          rw [hclose]
      | some q =>
        obtain ⟨inside, after⟩ := q
        have htag := (Text.cut?_eq_some_iff d.closing rest inside after).mp hclose
        exact Or.inr (Or.inr (Or.inr ⟨before, rest, inside, after, hfirst, hpercent, htag,
          step_of_tag hfirst hpercent htag⟩))

theorem scan_of_marked {d : Delimiters} {page before rest : List Char} {segment : Segment}
    (h : step d page = .marked before segment rest) (hlt : rest.length < page.length) :
    scan d page =
      ⟨.literal before :: segment :: (scan d rest).segments, (scan d rest).unclosed⟩ := by
  rw [scan, h]
  simp only [if_pos hlt]

/-- With a delimiter to read, every marked step leaves a shorter text. -/
theorem length_lt_of_marked {d : Delimiters} (hd : d.opening ≠ [] ∨ d.closing ≠ [])
    {page before rest : List Char} {segment : Segment}
    (h : step d page = .marked before segment rest) : rest.length < page.length := by
  have hpos : 0 < d.opening.length ∨ 0 < d.closing.length :=
    hd.imp List.length_pos_iff.mpr List.length_pos_iff.mpr
  rcases step_cases d page with ⟨-, hs⟩ | ⟨b, r, hfirst, hs⟩ | ⟨b, r, -, -, -, hs⟩ |
    ⟨b, r, inside, after, hfirst, -, hclose, hs⟩
  · rw [hs] at h
    exact Step.noConfusion h
  · rw [hs] at h
    obtain ⟨-, -, rfl⟩ := Step.marked.inj h
    have hlength := hfirst.length_eq
    simp only [List.length_cons] at hlength
    omega
  · rw [hs] at h
    exact Step.noConfusion h
  · rw [hs] at h
    obtain ⟨-, -, rfl⟩ := Step.marked.inj h
    have hopen := hfirst.length_eq
    have hinside := hclose.length_eq
    have hnewline := length_tagBefore_le inside after
    omega

/-- A reading is what the scanner returns. -/
theorem Reading.scan_eq {d : Delimiters} (hd : d.opening ≠ []) {page : List Char}
    {segments : List Segment} (h : Reading d page segments) : scan d page = ⟨segments, none⟩ := by
  induction h with
  | plain hplain => rw [scan, step_of_plain hplain]
  | escaped hfirst _ ih =>
    have hstep := step_of_escaped hfirst
    rw [scan_of_marked hstep (length_lt_of_marked (Or.inl hd) hstep), ih]
  | tag hfirst hpercent hclose _ ih =>
    have hstep := step_of_tag hfirst hpercent hclose
    rw [scan_of_marked hstep (length_lt_of_marked (Or.inl hd) hstep), ih]

/-- A scan that leaves nothing unclosed is a reading. -/
theorem reading_scan {d : Delimiters} (hd : d.opening ≠ []) (page : List Char)
    (h : (scan d page).unclosed = none) : Reading d page (scan d page).segments := by
  induction hn : page.length using Nat.strongRecOn generalizing page with
  | ind n ih =>
    rcases step_cases d page with ⟨hplain, hs⟩ | ⟨before, rest, hfirst, hs⟩ |
      ⟨before, rest, -, -, -, hs⟩ | ⟨before, rest, inside, after, hfirst, hpercent, hclose, hs⟩
    · have heq : scan d page = ⟨[.literal page], none⟩ := by rw [scan, hs]
      rw [heq]
      exact .plain hplain
    · have hlt := length_lt_of_marked (Or.inl hd) hs
      rw [scan_of_marked hs hlt] at h ⊢
      exact .escaped hfirst (ih _ (hn ▸ hlt) rest h rfl)
    · rw [scan, hs] at h
      exact absurd h (Option.some_ne_none _)
    · have hlt := length_lt_of_marked (Or.inl hd) hs
      rw [scan_of_marked hs hlt] at h ⊢
      exact .tag hfirst hpercent hclose (ih _ (hn ▸ hlt) _ h rfl)

/-- A page is translated exactly when it has a reading, and segment by segment. -/
theorem translate_eq_ok_iff {d : Delimiters} (hd : d.opening ≠ []) (page out : List Char) :
    translate d page = .ok out ↔
      ∃ segments, Reading d page segments ∧ out = assemble d [] segments := by
  unfold translate
  constructor
  · intro h
    cases hscan : (scan d page).unclosed with
    | none =>
      rw [hscan] at h
      exact ⟨_, reading_scan hd page hscan, (Except.ok.inj h).symm⟩
    | some rest =>
      rw [hscan] at h
      cases h
  · rintro ⟨segments, hreading, rfl⟩
    rw [hreading.scan_eq hd]

end ViewRendering.Markup
