import ViewRendering.Proofs.Service.RawSection
import ViewRendering.Proofs.Session.Run
import Mathlib.Data.List.DropRight

/-!
What a caching session remembers. The history of a run lists its look-ups and clears;
the snapshot of a name is its first successful look-up since the last clear. The kept
views of a session are those of the snapshots, through any run, so a look-up returns
what the files and locals of the snapshot gave, and without one what they give now.
-/
namespace ViewRendering.Session

inductive Happening where
  | lookup (l : Lookup)
  | cleared

namespace Happening

def isLookup : Happening → Bool
  | .lookup _ => true
  | .cleared => false

def success? (c : Settings) (name : String) : Happening → Option Lookup
  | .lookup l => if c.viewName l.view = name ∧ l.result.isOk then some l else none
  | .cleared => none

end Happening

def happenings (s : Session) : Step → List Happening
  | .clear => [.cleared]
  | step => (s.lookups step).map .lookup

def history (s : Session) : List Step → List Happening
  | [] => []
  | step :: rest => s.happenings step ++ (s.step step).2.2.history rest

section

variable {P : List Happening → Session → Prop}

theorem lookedUp_preserves
    (hlookup : ∀ {past s}, P past s → ∀ view locals,
      P (past ++ [.lookup (s.lookup view locals)]) (s.afterLookup view locals))
    {past : List Happening} {s s' : Session} {ls : List Lookup} (hls : LookedUp s ls s')
    (h : P past s) : P (past ++ ls.map .lookup) s' := by
  induction hls generalizing past with
  | nil s =>
    rw [List.map_nil, List.append_nil]
    exact h
  | @cons s s' view locals rest _ ih =>
    rw [List.map_cons, List.append_cons]
    exact ih (hlookup h view locals)

/-- What look-ups, changes of the files and clears preserve is preserved by every step. -/
theorem step_preserves
    (hlookup : ∀ {past s}, P past s → ∀ view locals,
      P (past ++ [.lookup (s.lookup view locals)]) (s.afterLookup view locals))
    (htree : ∀ {past s}, P past s → ∀ tree, P past { s with tree := tree })
    (hclear : ∀ {past s}, P past s → P (past ++ [.cleared]) (s.step .clear).2.2)
    {past : List Happening} {s : Session} (h : P past s) (step : Step) :
    P (past ++ s.happenings step) (s.step step).2.2 := by
  have hlookups (hwrite : ∀ path content, step ≠ .write path content)
      (hremove : ∀ path, step ≠ .remove path) (hclear : step ≠ .clear) :
      P (past ++ (s.lookups step).map .lookup) (s.step step).2.2 :=
    lookedUp_preserves hlookup (lookedUp_step s hwrite hremove hclear) h
  cases step with
  | text request view options moment => exact hlookups nofun nofun nofun
  | render request draft view options moment => exact hlookups nofun nofun nofun
  | resolve view locals => exact hlookups nofun nofun nofun
  | write path content =>
    rw [show s.happenings (.write path content) = [] from rfl, List.append_nil]
    exact htree h _
  | remove path =>
    rw [show s.happenings (.remove path) = [] from rfl, List.append_nil]
    exact htree h _
  | clear => exact hclear h

/-- And by every run. -/
theorem run_preserves
    (hlookup : ∀ {past s}, P past s → ∀ view locals,
      P (past ++ [.lookup (s.lookup view locals)]) (s.afterLookup view locals))
    (htree : ∀ {past s}, P past s → ∀ tree, P past { s with tree := tree })
    (hclear : ∀ {past s}, P past s → P (past ++ [.cleared]) (s.step .clear).2.2)
    {past : List Happening} {s : Session} (h : P past s) (steps : List Step) :
    P (past ++ s.history steps) (s.run steps) := by
  induction steps generalizing past s with
  | nil =>
    rw [history, List.append_nil]
    exact h
  | cons first rest ih =>
    rw [history, ← List.append_assoc]
    exact ih (step_preserves hlookup htree hclear h first)

end

/-- The first successful look-up of a name since the cache was last cleared. -/
def snapshot (c : Settings) (past : List Happening) (name : String) : Option Lookup :=
  (past.rtakeWhile Happening.isLookup).findSome? (Happening.success? c name)

/-- What a service makes of the files and locals of a look-up, without looking at its cache. -/
def Lookup.loaded (s : Service) (l : Lookup) : Except Failure Template.Compiled :=
  (s.load l.tree.files (s.settings.viewName l.view) l.locals).1

/-- With a snapshot in the past of a caching service, a look-up returns the view loaded from the
files and locals of the snapshot; otherwise it returns what its own files and locals give. -/
def Lookup.AnsweredBy (s : Service) (past : List Happening) (l : Lookup) : Prop :=
  match
    if s.settings.cache then snapshot s.settings past (s.settings.viewName l.view) else none with
  | some first => ∃ t, first.loaded s = .ok t ∧ l.result = .ok t
  | none => l.result = l.loaded s

theorem Lookup.answeredBy_of_snapshot {s : Service} {past : List Happening} {l first : Lookup}
    {t : Template.Compiled} (hcache : s.settings.cache = true)
    (hfirst : snapshot s.settings past (s.settings.viewName l.view) = some first)
    (hloaded : first.loaded s = .ok t) (hresult : l.result = .ok t) : l.AnsweredBy s past := by
  unfold Lookup.AnsweredBy
  rw [if_pos hcache, hfirst]
  exact ⟨t, hloaded, hresult⟩

theorem Lookup.answeredBy_of_none {s : Service} {past : List Happening} {l : Lookup}
    (hnone : s.settings.cache = true → snapshot s.settings past (s.settings.viewName l.view) = none)
    (hresult : l.result = l.loaded s) : l.AnsweredBy s past := by
  unfold Lookup.AnsweredBy
  by_cases hcache : s.settings.cache = true
  · rw [if_pos hcache, hnone hcache]
    exact hresult
  · rw [if_neg hcache]
    exact hresult

theorem Lookup.AnsweredBy.exists_of_snapshot {s : Service} {past : List Happening}
    {l first : Lookup} (h : l.AnsweredBy s past) (hcache : s.settings.cache = true)
    (hfirst : snapshot s.settings past (s.settings.viewName l.view) = some first) :
    ∃ t, first.loaded s = .ok t ∧ l.result = .ok t := by
  unfold Lookup.AnsweredBy at h
  rw [if_pos hcache, hfirst] at h
  exact h

def AllAnswered (s : Service) (past : List Happening) : List Happening → Prop
  | [] => True
  | .lookup l :: rest => l.AnsweredBy s past ∧ AllAnswered s (past ++ [.lookup l]) rest
  | .cleared :: rest => AllAnswered s (past ++ [.cleared]) rest

theorem snapshot_cleared (c : Settings) (past : List Happening) (name : String) :
    snapshot c (past ++ [.cleared]) name = none := by
  unfold snapshot
  rw [List.rtakeWhile_concat_neg _ _ _ (by simp [Happening.isLookup])]
  rfl

theorem snapshot_lookup (c : Settings) (past : List Happening) (name : String) (l : Lookup) :
    snapshot c (past ++ [.lookup l]) name =
      (snapshot c past name).or (Happening.success? c name (.lookup l)) := by
  unfold snapshot
  rw [List.rtakeWhile_concat_pos _ _ _ rfl, List.findSome?_append, List.findSome?_singleton]

theorem AllAnswered.append {s : Service} {past h k : List Happening}
    (hh : AllAnswered s past h) (hk : AllAnswered s (past ++ h) k) :
    AllAnswered s past (h ++ k) := by
  induction h generalizing past with
  | nil =>
    rw [List.append_nil] at hk
    exact hk
  | cons x h ih =>
    rw [List.append_cons] at hk
    cases x with
    | lookup l => exact ⟨hh.1, ih hh.2 hk⟩
    | cleared => exact ih hh hk

theorem AllAnswered.answeredBy {s : Service} {start past future : List Happening} {l : Lookup}
    (h : AllAnswered s start (past ++ .lookup l :: future)) : l.AnsweredBy s (start ++ past) := by
  induction past generalizing start with
  | nil =>
    rw [List.append_nil]
    exact h.1
  | cons x past ih =>
    rw [List.append_cons]
    cases x with
    | lookup m => exact ih h.2
    | cleared => exact ih h

/-- A session of the given service whose kept views are those of the snapshots of its past, each
under its own name. -/
structure Remembers (s₀ : Service) (past : List Happening) (s : Session) : Prop where
  service : ∃ cache, s.service = { s₀ with cache := cache }
  none_kept : ∀ name, snapshot s₀.settings past name = none →
    s.service.cache.entries.lookup name = none
  kept : s₀.settings.cache = true → ∀ name first, snapshot s₀.settings past name = some first →
    ∃ t, first.loaded s₀ = .ok t ∧ s.service.cache.entries.lookup name = some t
  named : ∀ e ∈ s.service.cache.entries, e.2.name = e.1

namespace Remembers

variable {s₀ : Service} {past : List Happening} {s : Session}

theorem settings (h : Remembers s₀ past s) : s.service.settings = s₀.settings := by
  obtain ⟨cache, hservice⟩ := h.service
  rw [hservice]

theorem load (h : Remembers s₀ past s) (files : Files) (name : String) (locals : Dict Value) :
    s.service.load files name locals = s₀.load files name locals := by
  obtain ⟨cache, hservice⟩ := h.service
  rw [hservice]
  rfl

theorem fresh (s₀ : Service) (tree : FileTree) :
    Remembers s₀ [] ⟨{ s₀ with cache := {} }, tree⟩ where
  service := ⟨{}, rfl⟩
  none_kept _ _ := rfl
  kept _ name first hfirst := by
    cases hfirst
  named e he := by
    cases he

theorem withTree (h : Remembers s₀ past s) (tree : FileTree) :
    Remembers s₀ past { s with tree := tree } where
  service := h.service
  none_kept := h.none_kept
  kept := h.kept
  named := h.named

theorem cleared (h : Remembers s₀ past s) :
    Remembers s₀ (past ++ [.cleared]) (s.step .clear).2.2 where
  service := by
    obtain ⟨cache, hservice⟩ := h.service
    exact ⟨{}, by rw [step, hservice]; rfl⟩
  none_kept _ _ := rfl
  kept _ name first hfirst := by
    rw [snapshot_cleared] at hfirst
    cases hfirst
  named e he := by
    cases he

/-- A look-up that fails, or finds its view kept, leaves the snapshots as they are. -/
theorem lookup_of_entries_eq {s' : Session} {l : Lookup} (h : Remembers s₀ past s)
    (hservice : ∃ cache, s'.service = { s₀ with cache := cache })
    (hentries : s'.service.cache.entries = s.service.cache.entries)
    (hl : s₀.settings.cache = true → l.result.isOk →
      s.service.cache.entries.lookup (s₀.settings.viewName l.view) ≠ none) :
    Remembers s₀ (past ++ [.lookup l]) s' where
  service := hservice
  none_kept name hname := by
    rw [snapshot_lookup, Option.or_eq_none_iff] at hname
    rw [hentries]
    exact h.none_kept name hname.1
  kept hcache name first hfirst := by
    rw [snapshot_lookup, Option.or_eq_some_iff] at hfirst
    rw [hentries]
    rcases hfirst with hfirst | ⟨hnone, hnew⟩
    · exact h.kept hcache name first hfirst
    · by_cases hname : s₀.settings.viewName l.view = name ∧ l.result.isOk
      · obtain ⟨rfl, hok⟩ := hname
        exact absurd (h.none_kept _ hnone) (hl hcache hok)
      · rw [Happening.success?, if_neg hname] at hnew
        cases hnew
  named := by
    rw [hentries]
    exact h.named

/-- A look-up whose view was loaded and kept is the snapshot of its name from then on. -/
theorem lookup_of_entries_insert {s' : Session} {l : Lookup} {t : Template.Compiled}
    (h : Remembers s₀ past s) (hservice : ∃ cache, s'.service = { s₀ with cache := cache })
    (hnone : snapshot s₀.settings past (s₀.settings.viewName l.view) = none)
    (hloaded : l.loaded s₀ = .ok t) (hresult : l.result = .ok t)
    (hentries : s'.service.cache.entries =
      s.service.cache.entries.insert (s₀.settings.viewName l.view) t) :
    Remembers s₀ (past ++ [.lookup l]) s' where
  service := hservice
  none_kept name hname := by
    rw [snapshot_lookup, Option.or_eq_none_iff] at hname
    obtain ⟨hpast, hnew⟩ := hname
    have hne : s₀.settings.viewName l.view ≠ name := by
      intro heq
      rw [Happening.success?, if_pos ⟨heq, by rw [hresult]; rfl⟩] at hnew
      cases hnew
    rw [hentries, Dict.lookup_insert_of_ne _ _ hne]
    exact h.none_kept name hpast
  kept hcache name first hfirst := by
    rw [snapshot_lookup, Option.or_eq_some_iff] at hfirst
    rw [hentries, Dict.lookup_insert]
    by_cases hname : s₀.settings.viewName l.view = name
    · subst hname
      rcases hfirst with hfirst | ⟨_, hnew⟩
      · rw [hnone] at hfirst
        cases hfirst
      · rw [Happening.success?, if_pos ⟨rfl, by rw [hresult]; rfl⟩] at hnew
        cases hnew
        exact ⟨t, hloaded, if_pos rfl⟩
    · rw [if_neg hname]
      rcases hfirst with hfirst | ⟨_, hnew⟩
      · exact h.kept hcache name first hfirst
      · rw [Happening.success?, if_neg fun hboth => hname hboth.1] at hnew
        cases hnew
  named e he := by
    rw [hentries] at he
    rcases Dict.mem_insert he with rfl | he
    · exact Service.load_name hloaded
    · exact h.named e he

theorem snapshot_eq_none (h : Remembers s₀ past s) (hcache : s₀.settings.cache = true)
    {name : String} (hnone : s.service.cache.entries.lookup name = none) :
    snapshot s₀.settings past name = none := by
  cases hfirst : snapshot s₀.settings past name with
  | none => rfl
  | some first =>
    obtain ⟨t, _, ht⟩ := h.kept hcache name first hfirst
    rw [hnone] at ht
    cases ht

/-- One look-up: it is answered by the past, and the session behind it remembers it. -/
theorem lookup (h : Remembers s₀ past s) (view : String) (locals : Dict Value) :
    (s.lookup view locals).AnsweredBy s₀ past ∧
      Remembers s₀ (past ++ [.lookup (s.lookup view locals)]) (s.afterLookup view locals) := by
  have hservice : ∃ cache, (s.afterLookup view locals).service = { s₀ with cache := cache } := by
    obtain ⟨cache, hservice⟩ := h.service
    exact ⟨_, by rw [afterLookup, withCache, hservice]⟩
  have hload := h.load s.tree.files (s₀.settings.viewName view) locals
  cases hcache : s₀.settings.cache with
  | false =>
    have hnot : s.service.settings.cache = false := by rw [h.settings, hcache]
    obtain ⟨hresult, hsame⟩ := Service.resolve_of_not_cache hnot s.tree.files view locals
    rw [h.settings, hload] at hresult
    have hoff : s₀.settings.cache ≠ true := ne_true_of_eq_false hcache
    exact ⟨Lookup.answeredBy_of_none (fun hon => absurd hon hoff) hresult,
      h.lookup_of_entries_eq hservice (congrArg Cache.entries hsame) fun hon => absurd hon hoff⟩
  | true =>
    have hon : s.service.settings.cache = true := by rw [h.settings, hcache]
    rcases Service.resolve_of_cache hon s.tree.files view locals with
      ⟨t, hkept, hresult, hsame⟩ | ⟨hmiss, hresult, hloaded⟩
    · rw [h.settings] at hkept
      obtain ⟨first, hfirst⟩ : ∃ first,
          snapshot s₀.settings past (s₀.settings.viewName view) = some first := by
        cases hfirst : snapshot s₀.settings past (s₀.settings.viewName view) with
        | none =>
          rw [h.none_kept _ hfirst] at hkept
          cases hkept
        | some first => exact ⟨first, rfl⟩
      obtain ⟨t', hfirstLoaded, ht'⟩ := h.kept hcache _ first hfirst
      rw [hkept] at ht'
      cases ht'
      refine ⟨Lookup.answeredBy_of_snapshot hcache hfirst hfirstLoaded hresult,
        h.lookup_of_entries_eq hservice hsame fun _ _ hnone => ?_⟩
      rw [show (s.lookup view locals).view = view from rfl, hkept] at hnone
      cases hnone
    · rw [h.settings] at hmiss hresult hloaded
      rw [hload] at hresult hloaded
      have hnone := h.snapshot_eq_none hcache hmiss
      refine ⟨Lookup.answeredBy_of_none (fun _ => hnone) hresult, ?_⟩
      rcases hloaded with ⟨t, hok, hinsert⟩ | ⟨f, herror, hsame⟩
      · exact h.lookup_of_entries_insert hservice hnone hok (hresult.trans hok) hinsert
      · refine h.lookup_of_entries_eq hservice hsame fun _ hok => ?_
        rw [show (s.lookup view locals).result = .error f from hresult.trans herror] at hok
        cases hok

/-- A whole run. -/
theorem run (h : Remembers s₀ past s) (steps : List Step) :
    AllAnswered s₀ past (s.history steps) ∧
      Remembers s₀ (past ++ s.history steps) (s.run steps) := by
  -- what has happened since `past` is answered, at every point of the run
  let P : List Happening → Session → Prop := fun q s =>
    ∃ since, q = past ++ since ∧ AllAnswered s₀ past since ∧ Remembers s₀ q s
  have hlookup {q : List Happening} {s : Session} (hP : P q s) (view : String)
      (locals : Dict Value) :
      P (q ++ [.lookup (s.lookup view locals)]) (s.afterLookup view locals) := by
    obtain ⟨since, rfl, hanswered, hs⟩ := hP
    obtain ⟨hnew, hafter⟩ := hs.lookup view locals
    exact ⟨since ++ [_], List.append_assoc _ _ _, hanswered.append ⟨hnew, trivial⟩, hafter⟩
  have htree {q : List Happening} {s : Session} (hP : P q s) (tree : FileTree) :
      P q { s with tree := tree } := by
    obtain ⟨since, hq, hanswered, hs⟩ := hP
    exact ⟨since, hq, hanswered, hs.withTree tree⟩
  have hclear {q : List Happening} {s : Session} (hP : P q s) :
      P (q ++ [.cleared]) (s.step .clear).2.2 := by
    obtain ⟨since, rfl, hanswered, hs⟩ := hP
    have hnone : AllAnswered s₀ (past ++ since) [.cleared] := trivial
    exact ⟨since ++ [_], List.append_assoc _ _ _, hanswered.append hnone, hs.cleared⟩
  have hstart : P past s := ⟨[], (List.append_nil past).symm, trivial, h⟩
  obtain ⟨since, hsince, hanswered, hend⟩ := run_preserves hlookup htree hclear hstart steps
  obtain rfl := List.append_cancel_left hsince
  exact ⟨hanswered, hend⟩

end Remembers

/-- From an empty cache and through any steps, each look-up of a run and any look-up behind it is
answered by the snapshot of its name, and by the files and locals of its own time if there is none;
and what is kept has the name that it is kept under. -/
theorem run_snapshot (service : Service) (tree : FileTree) (steps : List Step) :
    let fresh : Session := ⟨{ service with cache := {} }, tree⟩
    (∀ past l future, fresh.history steps = past ++ .lookup l :: future →
      l.AnsweredBy service past) ∧
    (∀ view locals, ((fresh.run steps).lookup view locals).AnsweredBy service
      (fresh.history steps)) ∧
    ∀ e ∈ (fresh.run steps).service.cache.entries, e.2.name = e.1 := by
  intro fresh
  obtain ⟨hanswered, hbehind⟩ := (Remembers.fresh service tree).run steps
  refine ⟨?_, fun view locals => (hbehind.lookup view locals).1, hbehind.named⟩
  intro past l future hhistory
  rw [hhistory] at hanswered
  exact hanswered.answeredBy

/-- A view is looked up, written anew, and looked up again without its extension. What comes back is
the view as it was. -/
theorem run_snapshot_rewritten :
    let service : Service := { settings := { extension := ".html" }, filters := [], helpers := [] }
    let fresh : Session := ⟨service, FileTree.empty.write "views/index.html" [65]⟩
    let steps : List Step := [.resolve "index.html" [], .write "views/index.html" [66]]
    (fresh.run steps).tree.files.read "views/index.html" = .ok ['B'] ∧
      ∃ t, ((fresh.run steps).lookup "index" []).result = .ok t ∧
        ∀ engine locals, t.execute locals engine = .ok ['A'] := by
  intro service fresh steps
  let first := fresh.lookup "index.html" []
  have hname : service.settings.viewName "index.html" = service.settings.viewName "index" := by
    decide +kernel
  have hpath : service.settings.viewPath (service.settings.viewName "index.html") =
      .ok "views/index.html" := by
    decide +kernel
  have hread : fresh.tree.files.read "views/index.html" = .ok ['A'] := by decide +kernel
  obtain ⟨t, hload, hexecute⟩ :=
    Service.load_literal (delimiters_of_usual rfl rfl) hpath hread (by decide)
  have hfirst : first.result = .ok t := Service.resolve_of_load (hload []) nofun
  have hsnapshot : snapshot service.settings (fresh.history steps)
      (service.settings.viewName "index") = some first := by
    change snapshot _ ([] ++ [.lookup first]) _ = _
    rw [snapshot_lookup, Happening.success?, if_pos ⟨hname, by rw [hfirst]; rfl⟩]
    rfl
  obtain ⟨-, hlookup, -⟩ := run_snapshot service fresh.tree steps
  obtain ⟨t', hloaded, hresult⟩ := (hlookup "index" []).exists_of_snapshot rfl hsnapshot
  cases (hload []).symm.trans hloaded
  exact ⟨by decide +kernel, t, hresult, hexecute⟩

end ViewRendering.Session
