import ViewRendering.Locals
import ViewRendering.Proofs.Dict.Order

/-!
Locals that agree off the reserved names. Adding helpers and the request keeps the agreement, and
once the reserved names are dropped, locals that agree are the same. On the way there a local
under a reserved name may hide the request, and then both are dropped.
-/
namespace ViewRendering

namespace Dict

variable {α β : Type} {names : List String} {d e : Dict α}

def AgreeOff (names : List String) (d e : Dict α) : Prop :=
  ∀ key, key ∉ names → d.lookup key = e.lookup key

theorem AgreeOff.insert (h : AgreeOff names d e) (key : String) (v : α) :
    AgreeOff names (d.insert key v) (e.insert key v) := by
  intro other hother
  rw [lookup_insert, lookup_insert, h other hother]

/-- Without the names on which they may differ, dictionaries in order are the same. -/
theorem AgreeOff.filter_eq {hidden : Dict β} (hd : d.Sorted) (he : e.Sorted)
    (h : AgreeOff hidden.keys d e) :
    (d.filter fun x => !hidden.has x.1) = e.filter fun x => !hidden.has x.1 := by
  refine (hd.filter _).ext (he.filter _) ?_
  intro key
  rw [lookup_filter (fun name => !hidden.has name), lookup_filter (fun name => !hidden.has name)]
  by_cases hkey : key ∈ hidden.keys
  · rw [has_iff_mem_keys.mpr hkey]
    rfl
  · rw [h key hkey]

end Dict

namespace Locals

variable {view : String} {request : Http.Request} {helpers : Dict Helper} {reserved : List String}
  {d e : Dict Value}

theorem lookup_withoutReserved (reserved : List String) (d : Dict Value) (key : String) :
    (withoutReserved reserved d).lookup key = if key ∈ reserved then none else d.lookup key := by
  induction reserved generalizing d with
  | nil => rfl
  | cons name reserved ih =>
    change (withoutReserved reserved (d.erase name)).lookup key = _
    rw [ih, Dict.lookup_erase]
    by_cases hname : name = key
    · simp [hname]
    · simp [hname, Ne.symm hname]

end Locals

end ViewRendering
