import ViewRendering.Dict

/-!
A cache by name that counts its lookups. A lookup is a hit or a miss; keeping an entry
replaces one of the same name; clearing drops the entries and the counts.
-/
namespace ViewRendering

structure Cache (α : Type) where
  entries : Dict α := []
  hits : Nat := 0
  misses : Nat := 0

namespace Cache

variable {α : Type}

def lookup (c : Cache α) (name : String) : Option α × Cache α :=
  match c.entries.lookup name with
  | some a => (some a, { c with hits := c.hits + 1 })
  | none => (none, { c with misses := c.misses + 1 })

def insert (c : Cache α) (name : String) (a : α) : Cache α :=
  { c with entries := c.entries.insert name a }

def clear (_ : Cache α) : Cache α := {}

def size (c : Cache α) : Nat := c.entries.length

/-- Hits in a hundred lookups; zero if there were none. -/
def hitRate (c : Cache α) : Float :=
  if c.hits + c.misses = 0 then 0.0
  else Float.ofNat c.hits / Float.ofNat (c.hits + c.misses) * 100.0

end Cache

end ViewRendering
