import ViewRendering.Http.Request
import ViewRendering.Proofs.Dict.Order
import ViewRendering.Proofs.Text.Parts

/-!
What templates see of the headers of a request: under each name that occurs all of its values, in
their order. How headers of different names stand among each other does not show.
-/
namespace ViewRendering.Http

theorem Header.eq_of_make {name : String} {value : List UInt8} {h : Header}
    (hmake : make name value = .ok h) : h = ⟨nameOf name, value⟩ := by
  unfold make at hmake
  split at hmake
  · cases hmake
  · split at hmake
    · cases hmake
    · exact (Except.ok.inj hmake).symm

theorem Headers.eq_of_build {fields : List (String × List UInt8)} {hs : Headers}
    (h : build fields = .ok hs) : hs = fields.map fun f => ⟨Header.nameOf f.1, f.2⟩ := by
  induction fields generalizing hs with
  | nil =>
    cases h
    rfl
  | cons f fields ih =>
    rw [build, List.mapM_cons] at h
    cases hmake : Header.make f.1 f.2 with
    | error fault =>
      rw [hmake] at h
      cases h
    | ok first =>
      rw [hmake] at h
      cases hrest : fields.mapM fun f => Header.make f.1 f.2 with
      | error fault =>
        rw [hrest] at h
        cases h
      | ok others =>
        rw [hrest] at h
        cases h
        rw [List.map_cons, Header.eq_of_make hmake, ih hrest]

theorem Headers.valuesOf_concat (hs : Headers) (h : Header) (name : String) :
    valuesOf (hs ++ [h]) name = valuesOf hs name ++ if h.name = name then [h.value] else [] := by
  rw [valuesOf, List.filter_append, List.map_append, valuesOf, List.filter_singleton]
  by_cases hname : h.name = name <;> simp [hname]

theorem Headers.valuesOf_ne_nil_iff {hs : Headers} {name : String} :
    hs.valuesOf name ≠ [] ↔ ∃ h ∈ hs, h.name = name := by
  rw [valuesOf, Ne, List.map_eq_nil_iff, List.filter_eq_nil_iff]
  simp

namespace Request

def joined (values : List (List UInt8)) : Option Value :=
  if values = [] then none
  else some (.ofChars (Text.join [',', ' '] (values.map Text.Utf8.decodeLossy)))

def behind (before : Option Value) (h : Header) : Value :=
  match before with
  | some (.text s) => .text (s ++ ", " ++ String.ofList h.text)
  | _ => .ofChars h.text

theorem addValue_eq (d : Dict Value) (h : Header) :
    addValue d h = d.insert h.name (behind (d.lookup h.name) h) := by
  unfold addValue
  cases Dict.lookup d h.name with
  | none => rfl
  | some v => cases v <;> rfl

/-- One more value stands behind those in front of it. -/
theorem joined_concat (values : List (List UInt8)) (h : Header) :
    joined (values ++ [h.value]) = some (behind (joined values) h) := by
  rw [joined, if_neg (List.concat_ne_nil _ _), List.map_append, List.map_singleton]
  by_cases hvalues : values = []
  · subst hvalues
    rfl
  · have htexts : values.map Text.Utf8.decodeLossy ≠ [] := by
      rwa [Ne, List.map_eq_nil_iff]
    rw [joined, if_neg hvalues, Text.join_concat htexts, Value.ofChars, String.ofList_append,
      String.ofList_append, ← String.append_assoc]
    rfl

/-- What a single header does to the texts. -/
theorem lookup_addValue (d : Dict Value) (h : Header) (name : String) :
    (addValue d h).lookup name =
      if h.name = name then some (behind (d.lookup h.name) h) else d.lookup name := by
  rw [addValue_eq, Dict.lookup_insert]

theorem sorted_addValue {d : Dict Value} (hd : d.Sorted) (h : Header) : (addValue d h).Sorted := by
  rw [addValue_eq]
  exact hd.insert _ _

theorem headerTexts_concat (hs : Headers) (h : Header) :
    headerTexts (hs ++ [h]) = addValue (headerTexts hs) h := by
  rw [headerTexts, List.foldl_append]
  rfl

/-- The text under a name after any number of headers. -/
theorem lookup_headerTexts (hs : Headers) (name : String) :
    (headerTexts hs).lookup name = joined (hs.valuesOf name) := by
  induction hs using List.reverseRecOn with
  | nil => rfl
  | append_singleton hs h ih =>
    rw [headerTexts_concat, lookup_addValue, Headers.valuesOf_concat]
    by_cases hname : h.name = name
    · subst hname
      rw [if_pos rfl, if_pos rfl, joined_concat, ih]
    · rw [if_neg hname, if_neg hname, List.append_nil, ih]

theorem sorted_headerTexts (hs : Headers) : (headerTexts hs).Sorted := by
  induction hs using List.reverseRecOn with
  | nil => exact Dict.sorted_nil
  | append_singleton hs h ih =>
    rw [headerTexts_concat]
    exact sorted_addValue ih h

/-- The texts depend on nothing but the values of each name. -/
theorem headerTexts_congr {hs hs' : Headers}
    (h : ∀ name, hs'.valuesOf name = hs.valuesOf name) : headerTexts hs' = headerTexts hs := by
  apply (sorted_headerTexts hs').ext (sorted_headerTexts hs)
  intro name
  rw [lookup_headerTexts, lookup_headerTexts, h]

theorem mem_keys_headerTexts {hs : Headers} {name : String} :
    name ∈ (headerTexts hs).keys ↔ ∃ h ∈ hs, h.name = name := by
  rw [← Dict.lookup_isSome_iff, lookup_headerTexts, joined, ← Headers.valuesOf_ne_nil_iff]
  split <;> simp [*]

theorem headers_of_build {method uri : String} {fields : List (String × List UInt8)}
    {r : Request} (h : build method uri fields = .ok r) :
    r.headers = fields.map fun f => ⟨Header.nameOf f.1, f.2⟩ := by
  unfold build at h
  by_cases hmethod : (!isToken method.toList) = true
  · rw [if_pos hmethod] at h
    cases h
  · rw [if_neg hmethod] at h
    cases huri : Uri.parse uri.toList with
    | error fault =>
      rw [huri] at h
      cases h
    | ok u =>
      rw [huri] at h
      cases hheaders : Headers.build fields with
      | error fault =>
        rw [hheaders] at h
        cases h
      | ok hs =>
        rw [hheaders] at h
        cases h
        exact Headers.eq_of_build hheaders

/-- Templates see every header of a request: the names are those that occur, and under each of them
stand all of its values, each read on its own, in their order. So a request whose names have the
same values in the same order looks the same. A request that is built has a header for each of the
fields it is given, the name in small letters. -/
theorem snapshot_keeps_values (r : Request) :
    (∃ seen texts, r.snapshot = .record seen ∧ Dict.lookup seen "headers" = some (.record texts) ∧
      Dict.Sorted texts ∧
      (∀ name, name ∈ Dict.keys texts ↔ ∃ h ∈ r.headers, h.name = name) ∧
      ∀ name ∈ Dict.keys texts, Dict.lookup texts name =
        some (.ofChars (Text.join [',', ' ']
          ((r.headers.valuesOf name).map Text.Utf8.decodeLossy)))) ∧
      (∀ r' : Request, r'.method = r.method → r'.uri = r.uri →
        (∀ name, r'.headers.valuesOf name = r.headers.valuesOf name) → r'.snapshot = r.snapshot) ∧
      ∀ method uri fields, build method uri fields = .ok r →
        r.headers = fields.map fun f => ⟨String.ofList (f.1.toList.map Char.toLower), f.2⟩ := by
  refine ⟨⟨_, headerTexts r.headers, rfl, Dict.lookup_insert_self _ _ _,
    sorted_headerTexts r.headers, fun name => mem_keys_headerTexts, fun name hname => ?_⟩,
    fun r' hmethod huri hvalues => ?_, fun method uri fields => headers_of_build⟩
  · have hvalues := Headers.valuesOf_ne_nil_iff.mpr (mem_keys_headerTexts.mp hname)
    rw [lookup_headerTexts, joined, if_neg hvalues]
  · rw [snapshot, snapshot, hmethod, huri, headerTexts_congr hvalues]

/-- Two names, each given twice, in capital and in small letters, among them an empty value and one
that is no text. -/
theorem snapshot_keeps_values_interleaved :
    let fields := [("Accept", []), ("X-Id", [0xFF]), ("ACCEPT", [0x61]), ("x-id", [0x62])]
    let sorted : List (String × List UInt8) :=
      [("x-id", [0xFF]), ("x-id", [0x62]), ("accept", []), ("accept", [0x61])]
    ∃ r r', build "GET" "/" fields = .ok r ∧ build "GET" "/" sorted = .ok r' ∧
      r'.snapshot = r.snapshot ∧
      (headerTexts r.headers).lookup "accept" = some (.ofChars ", a".toList) ∧
      (headerTexts r.headers).lookup "x-id" = some (.ofChars "\uFFFD, b".toList) ∧
      (headerTexts r.headers).keys = ["accept", "x-id"] := by
  intro fields sorted
  let r : Request := ⟨"GET", ⟨none, [], ['/'], none⟩,
    [⟨"accept", []⟩, ⟨"x-id", [0xFF]⟩, ⟨"accept", [0x61]⟩, ⟨"x-id", [0x62]⟩]⟩
  let r' : Request := ⟨"GET", ⟨none, [], ['/'], none⟩,
    [⟨"x-id", [0xFF]⟩, ⟨"x-id", [0x62]⟩, ⟨"accept", []⟩, ⟨"accept", [0x61]⟩]⟩
  have hvalues (name : String) : r'.headers.valuesOf name = r.headers.valuesOf name := by
    by_cases haccept : "accept" = name
    · subst haccept
      rfl
    · by_cases hid : "x-id" = name <;> simp [r, r', Headers.valuesOf, haccept, hid]
  obtain ⟨-, hsame, -⟩ := snapshot_keeps_values r
  have haccepts : Text.join [',', ' '] ([[], [0x61]].map Text.Utf8.decodeLossy) =
      ", a".toList := by
    decide +kernel
  have hids : Text.join [',', ' '] ([[0xFF], [0x62]].map Text.Utf8.decodeLossy) =
      "\uFFFD, b".toList := by
    decide +kernel
  refine ⟨r, r', by rfl, by rfl, hsame r' rfl rfl hvalues, ?_, ?_, by rfl⟩
  · rw [lookup_headerTexts, ← haccepts]
    rfl
  · rw [lookup_headerTexts, ← hids]
    rfl

end Request

end ViewRendering.Http
