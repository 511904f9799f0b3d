import ViewRendering.Proofs.Dict.Order
import ViewRendering.Proofs.Session.Snapshot
import Mathlib.Data.Finset.Card

/-!
What the counters of a cache say. Every look-up since the last clear is a hit or a miss,
every name that was resolved has one entry, and every miss has either made an entry or
failed. A session that does not cache counts nothing.
-/
namespace ViewRendering.Session

theorem lookup_result (s : Session) (view : String) (locals : Dict Value) :
    (s.lookup view locals).result = (s.service.resolve s.tree.files view locals).result := rfl

def Happening.lookup? : Happening → Option Lookup
  | .lookup l => some l
  | .cleared => none

def recent (past : List Happening) : List Lookup :=
  (past.rtakeWhile Happening.isLookup).filterMap Happening.lookup?

theorem recent_cleared (past : List Happening) : recent (past ++ [.cleared]) = [] := by
  unfold recent
  rw [List.rtakeWhile_concat_neg _ _ _ (by simp [Happening.isLookup])]
  rfl

theorem recent_lookup (past : List Happening) (l : Lookup) :
    recent (past ++ [.lookup l]) = recent past ++ [l] := by
  unfold recent
  rw [List.rtakeWhile_concat_pos _ _ _ rfl, List.filterMap_append]
  rfl

def resolvedNames (c : Settings) (ls : List Lookup) : Finset String :=
  ((ls.filter fun l => l.result.isOk).map fun l => c.viewName l.view).toFinset

def failures (ls : List Lookup) : Nat := ls.countP fun l => !l.result.isOk

section

variable {c : Settings} {ls : List Lookup} {l : Lookup} {t : Template.Compiled} {f : Failure}

theorem isOk_ok (t : Template.Compiled) : (Except.ok t : Except Failure _).isOk = true := rfl

theorem isOk_error (f : Failure) :
    (Except.error f : Except Failure Template.Compiled).isOk = false := rfl

theorem resolvedNames_concat_of_ok (h : l.result = .ok t) :
    resolvedNames c (ls ++ [l]) = insert (c.viewName l.view) (resolvedNames c ls) := by
  ext name
  simp [resolvedNames, h, isOk_ok]

theorem resolvedNames_concat_of_error (h : l.result = .error f) :
    resolvedNames c (ls ++ [l]) = resolvedNames c ls := by
  simp [resolvedNames, h, isOk_error]

theorem failures_concat_of_ok (h : l.result = .ok t) : failures (ls ++ [l]) = failures ls := by
  simp [failures, h, isOk_ok]

theorem failures_concat_of_error (h : l.result = .error f) :
    failures (ls ++ [l]) = failures ls + 1 := by
  simp [failures, h, isOk_error]

structure Tallies (c : Settings) (ls : List Lookup) (cache : Cache Template.Compiled) : Prop where
  kept : ∀ name, (cache.entries.lookup name).isSome ↔ name ∈ resolvedNames c ls
  looked : cache.hits + cache.misses = ls.length
  entries : cache.size = (resolvedNames c ls).card
  missed : cache.misses = cache.size + failures ls

namespace Tallies

variable {cache : Cache Template.Compiled}

theorem empty (c : Settings) : Tallies c [] {} where
  kept name := by simp [resolvedNames]
  looked := rfl
  entries := rfl
  missed := rfl

theorem hit (h : Tallies c ls cache) (hkept : cache.entries.lookup (c.viewName l.view) = some t)
    (hresult : l.result = .ok t) :
    Tallies c (ls ++ [l]) { cache with hits := cache.hits + 1 } := by
  have hmem : c.viewName l.view ∈ resolvedNames c ls := by
    rw [← h.kept, hkept]
    rfl
  have hnames : resolvedNames c (ls ++ [l]) = resolvedNames c ls := by
    rw [resolvedNames_concat_of_ok hresult, Finset.insert_eq_self.mpr hmem]
  refine ⟨?_, ?_, ?_, ?_⟩
  · rw [hnames]
    exact h.kept
  · have hlooked := h.looked
    rw [List.length_append, List.length_singleton]
    dsimp only
    omega
  · rw [hnames]
    exact h.entries
  · rw [failures_concat_of_ok hresult]
    exact h.missed

theorem stored (h : Tallies c ls cache) (hnone : cache.entries.lookup (c.viewName l.view) = none)
    (hresult : l.result = .ok t) :
    Tallies c (ls ++ [l])
      ⟨cache.entries.insert (c.viewName l.view) t, cache.hits, cache.misses + 1⟩ := by
  have hnew : c.viewName l.view ∉ resolvedNames c ls := by
    rw [← h.kept, hnone]
    exact Bool.false_ne_true
  have hsize : (⟨cache.entries.insert (c.viewName l.view) t, cache.hits, cache.misses + 1⟩ :
      Cache Template.Compiled).size = cache.size + 1 :=
    Dict.length_insert_of_lookup_eq_none hnone t
  refine ⟨?_, ?_, ?_, ?_⟩
  · intro name
    rw [resolvedNames_concat_of_ok hresult, Finset.mem_insert, ← h.kept name, Dict.lookup_insert]
    by_cases hname : c.viewName l.view = name
    · simp [hname]
    · simp [hname, Ne.symm hname]
  · have hlooked := h.looked
    rw [List.length_append, List.length_singleton]
    dsimp only
    omega
  · rw [hsize, resolvedNames_concat_of_ok hresult, Finset.card_insert_of_notMem hnew, h.entries]
  · have hmissed := h.missed
    rw [hsize, failures_concat_of_ok hresult]
    dsimp only
    omega

theorem failed (h : Tallies c ls cache) (hresult : l.result = .error f) :
    Tallies c (ls ++ [l]) { cache with misses := cache.misses + 1 } := by
  refine ⟨?_, ?_, ?_, ?_⟩
  · rw [resolvedNames_concat_of_error hresult]
    exact h.kept
  · have hlooked := h.looked
    rw [List.length_append, List.length_singleton]
    dsimp only
    omega
  · rw [resolvedNames_concat_of_error hresult]
    exact h.entries
  · have hmissed := h.missed
    have hsize : ({ cache with misses := cache.misses + 1 } : Cache Template.Compiled).size =
        cache.size := rfl
    rw [hsize, failures_concat_of_error hresult]
    dsimp only
    omega

end Tallies

end

/-- A session with these settings and this past: a caching one tallies what it has looked up since
the last clear, and any other keeps and counts nothing. -/
structure Accounted (c : Settings) (past : List Happening) (s : Session) : Prop where
  settings : s.service.settings = c
  tallies : c.cache = true → Tallies c (recent past) s.service.cache
  idle : c.cache = false → s.service.cache = {}

namespace Accounted

variable {c : Settings} {past : List Happening} {s : Session}

theorem fresh (service : Service) (tree : FileTree) :
    Accounted service.settings [] ⟨{ service with cache := {} }, tree⟩ where
  settings := rfl
  tallies _ := .empty service.settings
  idle _ := rfl

theorem withTree (h : Accounted c past s) (tree : FileTree) :
    Accounted c past { s with tree := tree } where
  settings := h.settings
  tallies := h.tallies
  idle := h.idle

theorem cleared (h : Accounted c past s) :
    Accounted c (past ++ [.cleared]) (s.step .clear).2.2 where
  settings := h.settings
  tallies _ := by
    rw [recent_cleared]
    exact .empty c
  idle _ := rfl

/-- One look-up: a hit, a miss that makes an entry, or a miss that fails. -/
theorem lookup (h : Accounted c past s) (view : String) (locals : Dict Value) :
    Accounted c (past ++ [.lookup (s.lookup view locals)]) (s.afterLookup view locals) where
  settings := h.settings
  tallies hcache := by
    have hon : s.service.settings.cache = true := by rw [h.settings, hcache]
    have hpast := h.tallies hcache
    rw [recent_lookup]
    change Tallies c _ (s.service.resolve s.tree.files view locals).cache
    rcases Service.resolve_cases hon s.tree.files view locals with ⟨t, hkept, hresult, heq⟩ |
      ⟨t, hnone, -, hresult, heq⟩ | ⟨f, -, -, hresult, heq⟩
    · rw [h.settings] at hkept
      rw [heq]
      exact hpast.hit hkept hresult
    · rw [h.settings] at hnone heq
      rw [heq]
      exact hpast.stored hnone hresult
    · rw [heq]
      exact hpast.failed hresult
  idle hcache := by
    have hoff : s.service.settings.cache = false := by rw [h.settings, hcache]
    change (s.service.resolve s.tree.files view locals).cache = {}
    rw [(Service.resolve_of_not_cache hoff s.tree.files view locals).2]
    exact h.idle hcache

end Accounted

/-- At every point of a run, between the look-ups of a step as well, and counted since the last
clear: hits and misses are the look-ups, entries are the names that were found, and misses are the
entries and the look-ups that failed; one that fails changes only the misses. Without caching all
counters are zero. -/
theorem run_accounting (service : Service) (tree : FileTree) (steps : List Step) :
    let fresh : Session := ⟨{ service with cache := {} }, tree⟩
    ∀ ls s, LookedUp (fresh.run steps) ls s →
      let cache := s.service.cache
      let since := recent (fresh.history steps ++ ls.map .lookup)
      (service.settings.cache = true →
        cache.hits + cache.misses = since.length ∧
        cache.size = (resolvedNames service.settings since).card ∧
        cache.misses = cache.size + failures since ∧
        ∀ files view locals f, (s.service.resolve files view locals).result = .error f →
          (s.service.resolve files view locals).cache =
            { cache with misses := cache.misses + 1 }) ∧
      (service.settings.cache = false → cache.hits = 0 ∧ cache.misses = 0 ∧ cache.size = 0) := by
  intro fresh ls s hls cache since
  have hrun := run_preserves Accounted.lookup Accounted.withTree Accounted.cleared
    (Accounted.fresh service tree) steps
  have hend := lookedUp_preserves Accounted.lookup hls hrun
  rw [List.nil_append] at hend
  constructor
  · intro hcache
    have htallies := hend.tallies hcache
    refine ⟨htallies.looked, htallies.entries, htallies.missed, ?_⟩
    intro files view locals f hf
    have hon : s.service.settings.cache = true := by rw [hend.settings, hcache]
    rcases Service.resolve_cases hon files view locals with ⟨t, -, hresult, -⟩ |
      ⟨t, -, -, hresult, -⟩ | ⟨f', -, -, -, heq⟩
    · rw [hresult] at hf
      cases hf
    · rw [hresult] at hf
      cases hf
    · exact heq
  · intro hcache
    have hidle : cache = {} := hend.idle hcache
    rw [hidle]
    exact ⟨rfl, rfl, rfl⟩

/-- A view is looked up under both its names, the cache is cleared, and a view that is not there is
looked up, and then looked up again. -/
theorem run_accounting_cleared :
    let service : Service :=
      { settings := { extension := ".html" }, filters := [], helpers := [] }
    let fresh : Session := ⟨service, FileTree.empty.write "views/index.html" [65]⟩
    let before := fresh.run [.resolve "index" [], .resolve "index.html" [], .clear]
    let s := before.afterLookup "gone" []
    let again := s.service.resolve s.tree.files "gone" []
    LookedUp before [before.lookup "gone" []] s ∧
      s.service.cache.hits + s.service.cache.misses = 1 ∧ s.service.cache.size = 0 ∧
      s.service.cache.misses = 1 ∧
      (∃ f, again.result = .error f) ∧
      again.cache = { s.service.cache with misses := s.service.cache.misses + 1 } := by
  intro service fresh before s again
  have hls : LookedUp before [before.lookup "gone" []] s := .cons (.nil _)
  have hname : service.settings.viewName "gone" = "gone.html" := by decide +kernel
  have hpath : service.settings.viewPath "gone.html" = .ok "views/gone.html" := by decide +kernel
  have hread : fresh.tree.files.octets "views/gone.html" = .error .missing := by decide +kernel
  obtain ⟨f, hload⟩ : ∃ f, (service.load fresh.tree.files "gone.html" []).1 = .error f := by
    unfold Service.load
    simp only [hpath, Files.readFor, Files.read, hread]
    exact ⟨_, rfl⟩
  rw [← hname] at hload
  -- the clear leaves the session as it was at first
  have hbefore : before = fresh := rfl
  obtain ⟨hresult, hcache⟩ := Service.resolve_of_load_error (s := before.service) rfl rfl
    (hbefore ▸ hload)
  have hgone : (before.lookup "gone" []).result = .error f := by
    rw [lookup_result]
    exact hresult
  have hs : s = fresh.withCache { misses := 1 } := congrArg before.withCache hcache
  have hagain : again.result = .error f := by
    change (s.service.resolve s.tree.files "gone" []).result = .error f
    rw [hs]
    have hafter := Service.resolve_of_load_error (s := (fresh.withCache { misses := 1 }).service)
      rfl rfl hload
    exact hafter.1
  have hsince : recent (fresh.history [.resolve "index" [], .resolve "index.html" [], .clear] ++
      [before.lookup "gone" []].map .lookup) = [before.lookup "gone" []] := by
    rw [List.map_singleton, recent_lookup]
    change recent ([_, _] ++ [.cleared]) ++ _ = _
    rw [recent_cleared, List.nil_append]
  obtain ⟨hon, -⟩ := run_accounting service (FileTree.empty.write "views/index.html" [65])
    [.resolve "index" [], .resolve "index.html" [], .clear] _ s hls
  obtain ⟨hlooked, hsize, hmissed, hfails⟩ := hon rfl
  rw [hsince] at hlooked hsize hmissed
  have hnone : s.service.cache.size = 0 := by
    rw [hsize, ← List.nil_append [before.lookup "gone" []], resolvedNames_concat_of_error hgone]
    rfl
  have hone : s.service.cache.misses = 1 := by
    rw [hmissed, hnone, ← List.nil_append [before.lookup "gone" []],
      failures_concat_of_error hgone]
    rfl
  exact ⟨hls, hlooked, hnone, hone, ⟨f, hagain⟩, hfails s.tree.files "gone" [] f hagain⟩

end ViewRendering.Session
