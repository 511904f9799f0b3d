import ViewRendering.Text.Scan

/-!
Texts as octets in UTF-8. Reading takes one character at a time; an octet that no
character can continue with ends the stretch read so far, which strict reading
refuses and lenient reading shows as one replacement character.
-/
namespace ViewRendering.Text.Utf8

def encode (s : List Char) : List UInt8 := s.flatMap String.utf8EncodeChar

theorem encode_append (s t : List Char) : encode (s ++ t) = encode s ++ encode t := by
  simp [encode]

/-- What the first octet of a longer character says: its own bits, the least and the greatest
octet that may follow, and how many octets follow after that one. -/
def lead? (b : Nat) : Option (Nat × Nat × Nat × Nat) :=
  if b < 0xC2 then none
  else if b < 0xE0 then some (b - 0xC0, 0x80, 0xBF, 0)
  else if b = 0xE0 then some (0, 0xA0, 0xBF, 1)
  else if b = 0xED then some (0xD, 0x80, 0x9F, 1)
  else if b < 0xF0 then some (b - 0xE0, 0x80, 0xBF, 1)
  else if b = 0xF0 then some (0, 0x90, 0xBF, 2)
  else if b < 0xF4 then some (b - 0xF0, 0x80, 0xBF, 2)
  else if b = 0xF4 then some (4, 0x80, 0x8F, 2)
  else none

/-- Reads the last `n` octets of a character onto the bits before them; the octets that follow
the longest readable stretch are handed back either way. -/
def tail : Nat → Nat → List UInt8 → Option Nat × List UInt8
  | 0, bits, r => (some bits, r)
  | _ + 1, _, [] => (none, [])
  | n + 1, bits, b :: r =>
    if 0x80 ≤ b.toNat ∧ b.toNat ≤ 0xBF then tail n (bits * 64 + (b.toNat - 0x80)) r
    else (none, b :: r)

/-- One character, or the stretch that cannot become one, and the octets after it. -/
def next (b : UInt8) (r : List UInt8) : Option Char × List UInt8 :=
  if b.toNat < 0x80 then (some (Char.ofNat b.toNat), r)
  else
    match lead? b.toNat, r with
    | some (bits, least, greatest, more), c :: r' =>
      if least ≤ c.toNat ∧ c.toNat ≤ greatest then
        let (n, rest) := tail more (bits * 64 + (c.toNat - 0x80)) r'
        (n.map Char.ofNat, rest)
      else (none, r)
    | _, _ => (none, r)

theorem length_tail_le (n bits : Nat) (r : List UInt8) : (tail n bits r).2.length ≤ r.length := by
  fun_induction tail n bits r <;> simp_all; omega

theorem length_next_le (b : UInt8) (r : List UInt8) : (next b r).2.length ≤ r.length := by
  unfold next
  split
  · simp
  · split
    · rename_i bits least greatest more c r' _
      split
      · have := length_tail_le more (bits * 64 + (c.toNat - 0x80)) r'
        simp only [List.length_cons]
        omega
      · simp
    · simp

/-- The characters of a text, `none` for each stretch that is not one. -/
def characters : List UInt8 → List (Option Char)
  | [] => []
  | b :: r => (next b r).1 :: characters (next b r).2
termination_by s => s.length
decreasing_by
  have := length_next_le b r
  simp only [List.length_cons]
  omega

/-- Strict reading: nothing unless every stretch is a character. -/
def decode? (s : List UInt8) : Option (List Char) := (characters s).mapM id

/-- Lenient reading: U+FFFD for each stretch that is not a character. -/
def decodeLossy (s : List UInt8) : List Char :=
  (characters s).map (·.getD (Char.ofNat 0xFFFD))

theorem encode_cons_of_ascii {c : Char} (h : c.toNat < 0x80) (s : List Char) :
    encode (c :: s) = c.toUInt8 :: encode s := by
  have hval : c.val.toNat ≤ 0x7F := Nat.le_of_lt_succ h
  simp only [encode, List.flatMap_cons, String.utf8EncodeChar, if_pos hval]
  rfl

theorem characters_encode_of_ascii {s : List Char} (h : ∀ c ∈ s, c.toNat < 0x80) :
    characters (encode s) = s.map some := by
  induction s with
  | nil => rw [encode, List.flatMap_nil, characters]; rfl
  | cons c s ih =>
    obtain ⟨hc, hs⟩ := List.forall_mem_cons.mp h
    have hoctet : c.toUInt8.toNat = c.toNat := by
      rw [Char.toUInt8, UInt32.toNat_toUInt8]
      exact Nat.mod_eq_of_lt (by have : c.val.toNat < 0x80 := hc; omega)
    have hnext : next c.toUInt8 (encode s) = (some c, encode s) := by
      unfold next
      rw [hoctet, if_pos hc, Char.ofNat_toNat]
    rw [encode_cons_of_ascii hc, characters, hnext, ih hs]
    rfl

end ViewRendering.Text.Utf8
