import ViewRendering.Proofs.Partial.LookupFree
import ViewRendering.Proofs.Session.Run

/-!
Keeping compiled views changes no answer, as long as the files stay as they are and no
partial is named by a local. What is kept is then what would be loaded again, whatever
the locals, so a service answers each step as if it were its first.
-/
namespace ViewRendering

/-- The service with caching on or off, and nothing kept so far. -/
def Service.withCaching (s : Service) (on : Bool) : Service :=
  { s with settings := { s.settings with cache := on }, cache := {} }

namespace Service

open Partial (LookupFreeBelow Surroundings)

theorem load_eq_of_lookupFree {s : Service} {files : Files}
    (hfree : LookupFreeBelow s.settings files) (on : Bool) (cache : Cache Template.Compiled)
    (name : String) (locals locals' : Dict Value) :
    ({ s with settings := { s.settings with cache := on }, cache := cache } : Service).load files
      name locals = s.load files name locals' := by
  unfold load
  have hpath : ({ s.settings with cache := on } : Settings).viewPath name =
      s.settings.viewPath name := rfl
  dsimp only
  rw [hpath]
  split
  · rfl
  · rename_i path hview
    split
    · rfl
    · rename_i source hsource
      have htext := hfree path (Path.below_of_viewPath hview) source
        ((Surroundings.readFor_eq_ok_iff _ _ _ _ _ _).mp hsource)
      rw [Surroundings.expand_eq_of_lookupFree hfree on name locals locals' htext]
      rfl

/-- A service like `u` in all but caching, whose kept views are those that `u` loads, whatever the
locals. -/
structure Faithful (u : Service) (files : Files) (s : Service) : Prop where
  same : ∃ on cache, s = { u with settings := { u.settings with cache := on }, cache := cache }
  kept : s.settings.cache = true → ∀ name t, s.cache.entries.lookup name = some t →
    ∀ locals, (u.load files name locals).1 = .ok t

namespace Faithful

variable {u s s' : Service} {files : Files}

theorem load (h : Faithful u files s) (hfree : LookupFreeBelow u.settings files) (name : String)
    (locals locals' : Dict Value) : s.load files name locals = u.load files name locals' := by
  obtain ⟨on, cache, rfl⟩ := h.same
  exact load_eq_of_lookupFree hfree on cache name locals locals'

theorem viewName (h : Faithful u files s) (view : String) :
    s.settings.viewName view = u.settings.viewName view := by
  obtain ⟨on, cache, rfl⟩ := h.same
  rfl

theorem filters (h : Faithful u files s) : s.filters = u.filters := by
  obtain ⟨on, cache, rfl⟩ := h.same
  rfl

theorem helpers (h : Faithful u files s) : s.helpers = u.helpers := by
  obtain ⟨on, cache, rfl⟩ := h.same
  rfl

theorem engine (h : Faithful u files s) : s.engine = u.engine := by
  obtain ⟨on, cache, rfl⟩ := h.same
  rfl

theorem layout (h : Faithful u files s) : s.settings.layout = u.settings.layout := by
  obtain ⟨on, cache, rfl⟩ := h.same
  rfl

theorem withCache (h : Faithful u files s) {cache : Cache Template.Compiled}
    (hkept : s.settings.cache = true → ∀ name t, cache.entries.lookup name = some t →
      ∀ locals, (u.load files name locals).1 = .ok t) :
    Faithful u files { s with cache := cache } where
  same := by
    obtain ⟨on, _, rfl⟩ := h.same
    exact ⟨on, cache, rfl⟩
  kept := hkept

/-- Nothing that is kept depends on the moment. -/
theorem atMoment (h : Faithful u files s) (moment : Template.Moment) :
    Faithful (u.atMoment moment) files (s.atMoment moment) where
  same := by
    obtain ⟨on, cache, rfl⟩ := h.same
    exact ⟨on, cache, rfl⟩
  kept := h.kept

/-- A look-up returns what would be loaded, and what it keeps is what would be loaded with any
locals. -/
theorem resolve (h : Faithful u files s) (hfree : LookupFreeBelow u.settings files)
    (view : String) (locals : Dict Value) :
    (s.resolve files view locals).result =
        (u.load files (u.settings.viewName view) locals).1 ∧
      Faithful u files { s with cache := (s.resolve files view locals).cache } := by
  have hload := h.load hfree (u.settings.viewName view) locals
  cases hcache : s.settings.cache with
  | false =>
    obtain ⟨hresult, -⟩ := resolve_of_not_cache hcache files view locals
    rw [h.viewName, hload locals] at hresult
    refine ⟨hresult, h.withCache fun hon => ?_⟩
    rw [hcache] at hon
    cases hon
  | true =>
    rcases resolve_of_cache hcache files view locals with
      ⟨t, hkept, hresult, hsame⟩ | ⟨-, hresult, hloaded⟩
    · rw [h.viewName] at hkept
      refine ⟨hresult.trans (h.kept hcache _ t hkept locals).symm, h.withCache fun _ => ?_⟩
      rw [hsame]
      exact h.kept hcache
    · rw [h.viewName, hload locals] at hresult
      refine ⟨hresult, h.withCache fun _ => ?_⟩
      rcases hloaded with ⟨t, hok, hinsert⟩ | ⟨f, -, hsame⟩
      · intro name t' ht' locals'
        rw [hinsert, Dict.lookup_insert] at ht'
        split at ht'
        · rename_i hname
          cases ht'
          rw [h.viewName] at hname hok
          rw [← hname, ← hload locals', hok]
        · exact h.kept hcache name t' ht' locals'
      · rw [hsame]
        exact h.kept hcache

theorem renderAlone (h : Faithful u files s) (hfree : LookupFreeBelow u.settings files)
    (view : String) (locals : Dict Value) :
    Faithful u files { s with cache := (s.renderAlone files view locals).cache } := by
  rw [renderAlone_cache]
  exact (h.resolve hfree view locals).2

theorem fresh (u : Service) (files : Files) (on : Bool) : Faithful u files (u.withCaching on) where
  same := ⟨on, {}, rfl⟩
  kept _ _ _ ht := by
    cases ht

end Faithful

end Service

namespace Session

open Partial (LookupFreeBelow)
open Service (Faithful)

variable {u : Service} {s s' : Session}

end Session

end ViewRendering
