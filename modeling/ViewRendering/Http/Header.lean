import ViewRendering.Http.Fault
import ViewRendering.Text.Case
import ViewRendering.Text.Scan
import ViewRendering.Text.Utf8

/-!
Header fields in the order in which they were added. Names are compared without regard
to case and kept in small letters; a value is a run of octets without control
characters. A name may occur more than once, and setting it leaves a single field.
-/
namespace ViewRendering.Http

def isTokenChar (c : Char) : Bool := c.isAlphanum || "!#$%&'*+-.^_`|~".toList.contains c

def isToken (s : List Char) : Bool := !s.isEmpty && s.all isTokenChar

/-- Octets of header values: no control characters apart from the tab. -/
def isValueOctet (b : UInt8) : Bool := b == 9 || (32 ≤ b && b != 127)

def isVisibleOctet (b : UInt8) : Bool := b == 9 || (32 ≤ b && b < 127)

structure Header where
  name : String
  value : List UInt8
deriving DecidableEq, Repr

namespace Header

def nameOf (name : String) : String := String.ofList (name.toList.map Char.toLower)

def make (name : String) (value : List UInt8) : Except Fault Header :=
  if !isToken name.toList || 65535 < name.length then .error .headerName
  else if !value.all isValueOctet then .error .headerValue
  else .ok ⟨nameOf name, value⟩

/-- The value as a text; octets that are no text show as replacement characters. -/
def text (h : Header) : List Char := Text.Utf8.decodeLossy h.value

def visibleText? (h : Header) : Option (List Char) :=
  if h.value.all isVisibleOctet then some (h.value.map fun b => Char.ofNat b.toNat) else none

end Header

abbrev Headers := List Header

namespace Headers

def valuesOf (hs : Headers) (name : String) : List (List UInt8) :=
  (hs.filter (·.name = name)).map (·.value)

def first? (hs : Headers) (name : String) : Option Header := hs.find? (·.name = name)

/-- One field in place of all fields of its name; it stands where the first of them stood. -/
def set (hs : Headers) (h : Header) : Headers :=
  match hs with
  | [] => [h]
  | k :: rest =>
    if k.name = h.name then h :: rest.filter (·.name ≠ h.name) else k :: set rest h

/-- The fields in the order of their names; fields of one name keep their order. -/
def sorted (hs : Headers) : Headers := hs.mergeSort fun a b => !(b.name < a.name)

/-- The fields that a list of names and values stands for; the first fault counts. -/
def build (fields : List (String × List UInt8)) : Except Fault Headers :=
  fields.mapM fun f => Header.make f.1 f.2

theorem valuesOf_cons (k : Header) (hs : Headers) (name : String) :
    valuesOf (k :: hs) name =
      if k.name = name then k.value :: valuesOf hs name else valuesOf hs name := by
  by_cases h : k.name = name <;> simp [valuesOf, h]

theorem valuesOf_without (hs : Headers) (other name : String) :
    valuesOf (hs.filter (·.name ≠ other)) name = if name = other then [] else valuesOf hs name := by
  induction hs with
  | nil => simp [valuesOf]
  | cons k rest ih =>
    by_cases hk : k.name = other <;> by_cases hn : k.name = name <;>
      simp_all [valuesOf_cons]

/-- A name that was set has the one value it was set to. -/
theorem valuesOf_set_self (hs : Headers) (h : Header) : (hs.set h).valuesOf h.name = [h.value] := by
  induction hs with
  | nil => simp [set, valuesOf]
  | cons k rest ih =>
    unfold set
    split
    · rw [valuesOf_cons, valuesOf_without]
      simp
    · rename_i hk
      rw [valuesOf_cons, if_neg hk, ih]

/-- The other names keep their values. -/
theorem valuesOf_set_of_ne (hs : Headers) (h : Header) {name : String} (hne : name ≠ h.name) :
    (hs.set h).valuesOf name = hs.valuesOf name := by
  induction hs with
  | nil => simp [set, valuesOf, Ne.symm hne]
  | cons k rest ih =>
    unfold set
    split
    · rename_i hk
      rw [valuesOf_cons, valuesOf_cons, valuesOf_without]
      simp [hne, Ne.symm hne, hk]
    · rw [valuesOf_cons, valuesOf_cons, ih]

end Headers

end ViewRendering.Http
