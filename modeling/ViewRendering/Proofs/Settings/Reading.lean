import ViewRendering.Settings.File

/-!
The settings that stand in a table, key by key, and those in a file. A key that is left out is read
as the value that its default is written as.
-/
namespace ViewRendering

/-- A result that passes a test is there. -/
theorem exists_of_any {ε α : Type} {x : Except ε α} {p : α → Bool}
    (h : x.toOption.any p = true) : ∃ a, x = .ok a ∧ p a = true := by
  cases x with
  | error e => cases h
  | ok a => exact ⟨a, rfl, h⟩

theorem Value.text?_eq_some_iff {v : Value} {s : String} : v.text? = some s ↔ v = .text s := by
  cases v <;> simp [Value.text?]

namespace Settings

inductive NamesLayout : Value → Option String → Prop
  | usual : NamesLayout (.bool true) (some "layout.html")
  | disabled : NamesLayout (.bool false) none
  | blank : NamesLayout (.text "") none
  | named {name : String} (h : name ≠ "") : NamesLayout (.text name) (some name)

structure Stands (t : Dict Value) (s : Settings) : Prop where
  root : (t.lookup "root").getD (.text "views") = .text s.root
  cache : (t.lookup "cache").getD (.bool true) = .bool s.cache
  layout : NamesLayout ((t.lookup "layout").getD (.bool true)) s.layout
  extension :
    ((t.lookup "view_ext").or (t.lookup "viewExt")).getD (.text "") = .text s.extension
  /-- Only one of the spellings is used. -/
  spelling : t.lookup "view_ext" = none ∨ t.lookup "viewExt" = none
  opening : (t.lookup "open").getD (.text "<%") = .text s.opening
  closing : (t.lookup "close").getD (.text "%>") = .text s.closing
  extra : s.extra = unknown t

/-- The settings in the file at a path. A relative root is looked up from the directory of the
file. -/
def InFile (files : Files) (path : String) (s : Settings) : Prop :=
  ∃ text t base, files.read path = .ok text ∧ Toml.parse text = some t ∧ Stands t base ∧
    s = { base with
      root :=
        if Path.isAbsolute base.root then base.root
        else (Path.parent? path).elim base.root fun directory => Path.join directory base.root }

variable {t : Dict Value} {s : Settings} {v : Value}

/-- A default is read like any other value. -/
theorem fieldOr_eq_some_iff {α : Type} {key : String} (read? : Value → Option α) {default a : α}
    (hv : read? v = some default) :
    fieldOr t key read? default = some a ↔ read? ((t.lookup key).getD v) = some a := by
  unfold fieldOr
  cases t.lookup key with
  | none => rw [Option.getD_none, hv]
  | some _ => rfl

theorem readFlag_eq_some_iff {b : Bool} : readFlag v = some b ↔ v = .bool b := by
  cases v <;> simp [readFlag]

theorem readLayout_eq_some_iff {layout : Option String} :
    readLayout v = some layout ↔ NamesLayout v layout := by
  constructor
  · intro h
    unfold readLayout at h
    split at h
    · cases h
      split
      · rename_i name hname
        rw [String.isEmpty_iff.mp hname]
        exact .blank
      · rename_i name hname
        exact .named (mt String.isEmpty_iff.mpr hname)
    · cases h
      exact .usual
    · cases h
      exact .disabled
    · cases h
  · rintro (_ | _ | _ | hname)
    · rfl
    · rfl
    · rfl
    · rw [readLayout, if_neg (mt String.isEmpty_iff.mp hname)]

theorem readExtension_eq_some_iff {extension : String} :
    readExtension t = some extension ↔
      ((t.lookup "view_ext").or (t.lookup "viewExt")).getD (.text "") = .text extension ∧
        (t.lookup "view_ext" = none ∨ t.lookup "viewExt" = none) := by
  unfold readExtension extensionKey extensionAlias
  cases t.lookup "view_ext" <;> cases t.lookup "viewExt" <;> simp [Value.text?_eq_some_iff]

theorem ofTable?_eq_some_iff : ofTable? t = some s ↔ Stands t s := by
  have htext {key default a : String} : fieldOr t key Value.text? default = some a ↔
      (t.lookup key).getD (.text default) = .text a :=
    (fieldOr_eq_some_iff Value.text? rfl).trans Value.text?_eq_some_iff
  have hflag {key : String} {b : Bool} : fieldOr t key readFlag true = some b ↔
      (t.lookup key).getD (.bool true) = .bool b :=
    (fieldOr_eq_some_iff readFlag rfl).trans readFlag_eq_some_iff
  have hlayout {layout : Option String} :
      fieldOr t "layout" readLayout (some defaultLayout) = some layout ↔
        NamesLayout ((t.lookup "layout").getD (.bool true)) layout :=
    (fieldOr_eq_some_iff readLayout rfl).trans readLayout_eq_some_iff
  simp only [ofTable?, bind, Option.bind_eq_some_iff, pure, Option.some.injEq, htext, hflag,
    hlayout, readExtension_eq_some_iff]
  constructor
  · rintro ⟨root, hroot, cache, hcache, layout, hlayout, extension, ⟨hextension, hspelling⟩,
      opening, hopening, closing, hclosing, rfl⟩
    exact ⟨hroot, hcache, hlayout, hextension, hspelling, hopening, hclosing, rfl⟩
  · intro h
    refine ⟨s.root, h.root, s.cache, h.cache, s.layout, h.layout, s.extension,
      ⟨h.extension, h.spelling⟩, s.opening, h.opening, s.closing, h.closing, ?_⟩
    rw [← h.extra]

theorem relativeTo_eq (s : Settings) (path : String) :
    s.relativeTo path = { s with
      root :=
        if Path.isAbsolute s.root then s.root
        else (Path.parent? path).elim s.root fun directory => Path.join directory s.root } := by
  unfold relativeTo
  split
  · rfl
  · cases Path.parent? path <;> rfl

theorem ofDocument_eq_ok_iff {text : List Char} :
    ofDocument text = .ok s ↔ ∃ t, Toml.parse text = some t ∧ Stands t s := by
  unfold ofDocument
  simp only [← ofTable?_eq_some_iff, ← Option.bind_eq_some_iff]
  cases (Toml.parse text).bind ofTable? <;> simp

/-- Settings are loaded from a file exactly if it can be read, is a document, and each of its keys
has a value of its kind. -/
theorem load_eq_ok_iff {files : Files} {path : String} :
    (load files path).1 = .ok s ↔ InFile files path s := by
  unfold load InFile
  simp only [← relativeTo_eq]
  cases files.read path with
  | error e => simp
  | ok text =>
    dsimp only
    constructor
    · intro h
      split at h
      · cases h
      · rename_i base hdocument
        obtain ⟨t, hparse, hstands⟩ := ofDocument_eq_ok_iff.mp hdocument
        exact ⟨text, t, base, rfl, hparse, hstands, (Except.ok.inj h).symm⟩
    · rintro ⟨_, t, base, htext, hparse, hstands, rfl⟩
      cases htext
      rw [ofDocument_eq_ok_iff.mpr ⟨t, hparse, hstands⟩]

end Settings

end ViewRendering
