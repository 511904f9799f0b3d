import ViewRendering.Proofs.Settings.Reading
import ViewRendering.Proofs.Toml.Order

/-!
Settings that are written as a table and read again. They come back as they were exactly if their
layout is not the empty name, which stands for no layout, and none of their unknown keys is the key
of a setting. All settings that come from a table are of this kind, and nothing of them is written
twice.
-/
namespace ViewRendering.Settings

def knownEntries (c : Settings) : List (String × Value) :=
  [("root", .text c.root), ("cache", .bool c.cache), ("layout", layoutValue c.layout),
    ("view_ext", .text c.extension), ("open", .text c.opening), ("close", .text c.closing)]

def entries (c : Settings) : List (String × Value) := c.knownEntries ++ c.extra

def writtenKeys : List String := ["root", "cache", "layout", "view_ext", "open", "close"]

structure Legible (c : Settings) : Prop where
  layout : c.layout ≠ some ""
  extra : ∀ e ∈ c.extra, e.1 ∉ knownKeys

variable {t : Dict Value} {c : Settings} {e : String × Value} {key : String} {v : Value}

theorem keys_knownEntries (c : Settings) : c.knownEntries.map Prod.fst = writtenKeys := rfl

theorem toTable_eq_foldl (c : Settings) :
    c.toTable = c.knownEntries.foldl (fun t e => t.insert e.1 e.2) c.extra := rfl

theorem nodup_knownEntries (c : Settings) : (c.knownEntries.map Prod.fst).Nodup := by
  rw [keys_knownEntries]
  decide

theorem mem_knownKeys_of_mem_knownEntries (he : e ∈ c.knownEntries) : e.1 ∈ knownKeys := by
  have hsubset : writtenKeys ⊆ knownKeys := by decide
  apply hsubset
  rw [← keys_knownEntries c]
  exact List.mem_map_of_mem he

theorem lookup_toTable_of_mem (he : e ∈ c.knownEntries) : c.toTable.lookup e.1 = some e.2 :=
  Dict.lookup_foldl_insert_of_mem c.nodup_knownEntries he c.extra

theorem lookup_toTable_of_not_mem (hkey : key ∉ writtenKeys) :
    c.toTable.lookup key = c.extra.lookup key := by
  apply Dict.lookup_foldl_insert
  intro e he heq
  apply hkey
  rw [← keys_knownEntries c, ← heq]
  exact List.mem_map_of_mem he

theorem mem_unknown_iff : e ∈ unknown t ↔ e ∈ t ∧ e.1 ∉ knownKeys := by
  simp [unknown]

theorem unknown_eq_self_iff : unknown t = t ↔ ∀ e ∈ t, e.1 ∉ knownKeys := by
  simp [unknown]

/-- The settings that the renderer knows leave no trace among the unknown keys. -/
theorem unknown_toTable (c : Settings) : unknown c.toTable = unknown c.extra := by
  apply Dict.filter_foldl_insert (p := fun name => !knownKeys.contains name)
  intro e he
  have hknown := mem_knownKeys_of_mem_knownEntries he
  simpa using hknown

theorem NamesLayout.ne_empty {layout : Option String} (h : NamesLayout v layout) :
    layout ≠ some "" := by
  cases h with
  | usual => exact mt Option.some.inj (by decide)
  | disabled => exact nofun
  | blank => exact nofun
  | named hname => exact mt Option.some.inj hname

theorem namesLayout_layoutValue {layout : Option String} (h : layout ≠ some "") :
    NamesLayout (layoutValue layout) layout := by
  cases layout with
  | none => exact .disabled
  | some name => exact .named (mt (congrArg some) h)

theorem Stands.legible (h : Stands t c) : c.Legible where
  layout := h.layout.ne_empty
  extra _ he := (mem_unknown_iff.mp (h.extra ▸ he)).2

/-- A table says the settings that were written into it exactly if they are legible. -/
theorem stands_toTable_iff : Stands c.toTable c ↔ c.Legible := by
  refine ⟨Stands.legible, fun h => ?_⟩
  have hread {key : String} {v w : Value} (he : (key, v) ∈ c.knownEntries) :
      (c.toTable.lookup key).getD w = v := by
    rw [lookup_toTable_of_mem he, Option.getD_some]
  have halias : c.toTable.lookup "viewExt" = none := by
    rw [lookup_toTable_of_not_mem (by decide), Option.eq_none_iff_forall_ne_some]
    intro v hv
    have hkey : "viewExt" ∈ knownKeys := by decide
    exact h.extra _ (Dict.mem_of_lookup hv) hkey
  refine ⟨hread ?_, hread ?_, ?_, ?_, Or.inr halias, hread ?_, hread ?_, ?_⟩
  · simp [knownEntries]
  · simp [knownEntries]
  · rw [hread (v := layoutValue c.layout) (by simp [knownEntries])]
    exact namesLayout_layoutValue h.layout
  · rw [halias, Option.or_none]
    exact hread (by simp [knownEntries])
  · simp [knownEntries]
  · simp [knownEntries]
  · rw [unknown_toTable, unknown_eq_self_iff.mpr h.extra]

/-- Settings are read from their table as they were exactly if they are legible. -/
theorem ofTable?_toTable_eq_some_iff : ofTable? c.toTable = some c ↔ c.Legible :=
  ofTable?_eq_some_iff.trans stands_toTable_iff

section Legible

variable (h : c.Legible) (hsorted : c.extra.Sorted)
include h hsorted

theorem Legible.nodup_entries : (c.entries.map Prod.fst).Nodup := by
  rw [entries, List.map_append]
  apply List.nodup_append.mpr
  refine ⟨c.nodup_knownEntries, hsorted.nodup_keys, ?_⟩
  rintro _ hknown _ hextra rfl
  obtain ⟨e, he, hkey⟩ := List.mem_map.mp hknown
  obtain ⟨x, hx, heq⟩ := List.mem_map.mp hextra
  rw [← heq] at hkey
  exact h.extra x hx (hkey ▸ mem_knownKeys_of_mem_knownEntries he)

/-- The table has the entries that are written, and no others. -/
theorem Legible.toTable_eq : c.toTable = Dict.ofList c.entries := by
  have hnames := h.nodup_entries hsorted
  apply (hsorted.foldl_insert c.knownEntries).ext (Dict.sorted_ofList c.entries)
  intro key
  by_cases hkey : key ∈ writtenKeys
  · rw [← keys_knownEntries c] at hkey
    obtain ⟨e, he, rfl⟩ := List.mem_map.mp hkey
    rw [Dict.ofList, Dict.lookup_foldl_insert_of_mem hnames (List.mem_append_left c.extra he)]
    exact lookup_toTable_of_mem he
  · rw [← toTable_eq_foldl, lookup_toTable_of_not_mem hkey]
    cases hextra : c.extra.lookup key with
    | some v =>
      have hmem := List.mem_append_right c.knownEntries (Dict.mem_of_lookup hextra)
      exact (Dict.lookup_foldl_insert_of_mem hnames hmem []).symm
    | none =>
      refine (Dict.lookup_ofList_of_fresh ?_).symm
      intro e he heq
      rcases List.mem_append.mp he with hknown | hmem
      · exact hkey (keys_knownEntries c ▸ heq ▸ List.mem_map_of_mem hknown)
      · rw [← heq, Dict.lookup_of_mem hsorted hmem] at hextra
        cases hextra

end Legible

theorem lookup_toTable_layout (c : Settings) :
    c.toTable.lookup "layout" = some (.bool false) ↔ c.layout = none := by
  have hlayout : c.toTable.lookup "layout" = some (layoutValue c.layout) :=
    lookup_toTable_of_mem (e := ("layout", layoutValue c.layout)) (by simp [knownEntries])
  rw [hlayout]
  cases c.layout <;> simp [layoutValue]

/-- Settings that are read from their own table as they were, also through a document. A layout is
written as `false` exactly if there is none. No key is written twice, and the unknown keys that are
written are those of the table that the settings come from, with their values. -/
structure ComesBack (c : Settings) (t : Dict Value) : Prop where
  table : ofTable? c.toTable = some c
  document : ∀ text, Toml.parse text = some c.toTable → ofDocument text = .ok c
  layout : c.toTable.lookup "layout" = some (.bool false) ↔ c.layout = none
  once : (c.entries.map Prod.fst).Nodup
  entries : c.toTable = Dict.ofList c.entries
  unknown : unknown c.toTable = unknown t

theorem Stands.comesBack (h : Stands t c) (ht : t.Sorted) : c.ComesBack t := by
  have hextra : c.extra.Sorted := by
    rw [h.extra]
    exact ht.filter _
  have hagain := stands_toTable_iff.mpr h.legible
  exact {
    table := ofTable?_toTable_eq_some_iff.mpr h.legible
    document := fun text htext => ofDocument_eq_ok_iff.mpr ⟨c.toTable, htext, hagain⟩
    layout := c.lookup_toTable_layout
    once := h.legible.nodup_entries hextra
    entries := h.legible.toTable_eq hextra
    unknown := by rw [← hagain.extra, h.extra] }

/-- Settings from a table come back, and so do those from any document, whatever the order of its
lines. -/
theorem ofTable?_toTable :
    (∀ (t : Dict Value) (c : Settings), t.Sorted → ofTable? t = some c → c.ComesBack t) ∧
    ∀ (text : List Char) (c : Settings), ofDocument text = .ok c →
      ∃ t, Toml.parse text = some t ∧ c.ComesBack t := by
  refine ⟨fun t c ht h => (ofTable?_eq_some_iff.mp h).comesBack ht, fun text c h => ?_⟩
  obtain ⟨t, hparse, hstands⟩ := ofDocument_eq_ok_iff.mp h
  exact ⟨t, hparse, hstands.comesBack (Toml.sorted_parse hparse)⟩

def lookAlikes : Dict Value :=
  [("Layout", .bool true), ("layout", .text ""),
    ("site", .record [("layout", .bool true), ("root", .text "")]), ("viewExt", .text ".html")]

def lookAlikesText : List Char :=
  "viewExt = '.html'\nlayout = ''\nLayout = true\n[site]\nroot = ''\nlayout = true".toList

/-- A layout that is disabled by the empty name, the other spelling of the extension, and unknown
keys that look like settings, in a table and in a document. -/
theorem ofTable?_toTable_lookAlikes :
    let c : Settings :=
      { layout := none, extension := ".html"
        extra := [("Layout", .bool true),
          ("site", .record [("layout", .bool true), ("root", .text "")])] }
    lookAlikes.Sorted ∧ ofTable? lookAlikes = some c ∧ c.ComesBack lookAlikes ∧
      ∃ c' t, ofDocument lookAlikesText = .ok c' ∧ c'.layout = none ∧ c'.extension = ".html" ∧
        c'.extra.keys = ["Layout", "site"] ∧ Toml.parse lookAlikesText = some t ∧
        c'.ComesBack t := by
  intro c
  have hsorted : lookAlikes.Sorted := by decide
  have htable : ofTable? lookAlikes = some c := rfl
  obtain ⟨c', hdocument, hfields⟩ := exists_of_any (x := ofDocument lookAlikesText)
    (p := fun c => decide (c.layout = none ∧ c.extension = ".html" ∧
      Dict.keys c.extra = ["Layout", "site"]))
    (by decide +kernel)
  obtain ⟨hlayout, hextension, hextra⟩ := of_decide_eq_true hfields
  obtain ⟨hfromTable, hfromDocument⟩ := ofTable?_toTable
  obtain ⟨t, hparse, hback⟩ := hfromDocument _ c' hdocument
  exact ⟨hsorted, htable, hfromTable _ c hsorted htable, c', t, hdocument, hlayout, hextension,
    hextra, hparse, hback⟩

end ViewRendering.Settings
