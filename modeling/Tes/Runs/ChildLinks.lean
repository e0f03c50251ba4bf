import Tes.Runs.ChildKeys
import Tes.Runs.Tournaments

/-! The children of a tournament are created, linked and enqueued one after the other. -/
namespace Tes
open IsoTime

/-- A linked child, as a store lists it. -/
structure ChildRow extends ChildLink where
  runType : String
  dimensions : Json.Dict

/-- How a store keeps the children of one tournament. -/
structure ChildStore (Rows : Type) where
  empty : Rows
  linkTournamentChild : Rows → ChildRow → Rows
  listTournamentChildren : Rows → List ChildRow

/-- Every link is appended. -/
def inMemoryRunStore : ChildStore (List ChildRow) :=
  { empty := []
    linkTournamentChild := fun rows row => rows ++ [row]
    listTournamentChildren := fun rows => rows }

/-- The key is primary: a link replaces the row with its key. Rows are listed by their keys. -/
def sqliteRunStore : ChildStore (Table ChildRow) :=
  { empty := ∅
    linkTournamentChild := fun rows row => rows.insert row.childKey row
    listTournamentChildren := fun rows => rows.entries.map Prod.snd }

/-- A tournament whose children are started: the runs that were created, under their ids. -/
structure Launch (Rows : Type) where
  created : List (String × ChildRunSpec)
  children : Rows
  queue : Option RunQueue

section Run
variable {Rows : Type} (store : ChildStore Rows) (priority : ℤ) (uuid : ℕ → String)
variable (clock : ℕ → Datetime)

/-- Create, link and enqueue a child. Nothing where the priority does not fit its column. -/
def startChild (launch : Launch Rows) (spec : ChildRunSpec) : Option (Launch Rows) :=
  let runId := uuid launch.created.length
  let created := launch.created ++ [(runId, spec)]
  let children := store.linkTournamentChild launch.children
    { childRunId := runId, childKey := spec.childKey, runType := spec.runType
      dimensions := spec.dimensions }
  match launch.queue with
  | none => some { created, children, queue := none }
  | some queue =>
    (queue.enqueue runId priority none (clock launch.created.length)).map fun queue =>
      { created, children, queue := some queue }

/-- Run a tournament on a store, with a queue or without. Nothing where it raises. -/
def runTournament (config : TournamentConfig) (queue : Option RunQueue) : Option (Launch Rows) :=
  match expandTournament config with
  | .error _ => none
  | .ok specs => specs.foldlM (startChild store config.priority uuid clock)
      { created := [], children := store.empty, queue }

end Run

namespace Launch
variable {Rows : Type}

/-- The store lists one row for each run that was created, and no other. -/
def ListsOnce (launch : Launch Rows) (store : ChildStore Rows) : Prop :=
  ((store.listTournamentChildren launch.children).map fun row => row.childRunId).Perm
    (launch.created.map Prod.fst)

end Launch

/-- The children have keys of their own, and both stores list each of them once. -/
structure LinkedOnce (config : TournamentConfig) (memory : Launch (List ChildRow))
    (sqlite : Launch (Table ChildRow)) : Prop where
  keys : ∃ specs, expandTournament config = .ok specs ∧
    (specs.map ChildRunSpec.childKey).Nodup
  inMemory : memory.ListsOnce inMemoryRunStore
  sqlite : sqlite.ListsOnce sqliteRunStore

section Links
variable {Rows : Type} {store : ChildStore Rows} {priority : ℤ} {uuid : ℕ → String}
variable {clock : ℕ → Datetime}

theorem startChild_eq_some {launch launch' : Launch Rows} {spec : ChildRunSpec}
    (h : startChild store priority uuid clock launch spec = some launch') :
    ∃ row : ChildRow, row.childKey = spec.childKey ∧
      launch'.children = store.linkTournamentChild launch.children row ∧
      launch'.created.map Prod.fst = launch.created.map Prod.fst ++ [row.childRunId] := by
  unfold startChild at h
  dsimp only at h
  split at h
  · rw [← Option.some.inj h]
    exact ⟨_, rfl, rfl, List.map_append⟩
  · obtain ⟨queue, -, rfl⟩ := Option.map_eq_some_iff.mp h
    exact ⟨_, rfl, rfl, List.map_append⟩

/-- The rows that some children are linked by. -/
theorem foldlM_startChild {specs : List ChildRunSpec} {launch launch' : Launch Rows}
    (h : specs.foldlM (startChild store priority uuid clock) launch = some launch') :
    ∃ rows : List ChildRow, (rows.map fun row => row.childKey) = specs.map ChildRunSpec.childKey ∧
      launch'.children = rows.foldl store.linkTournamentChild launch.children ∧
      launch'.created.map Prod.fst =
        launch.created.map Prod.fst ++ rows.map fun row => row.childRunId := by
  induction specs generalizing launch with
  | nil =>
    cases h
    exact ⟨[], rfl, rfl, (List.append_nil _).symm⟩
  | cons spec specs ih =>
    rw [List.foldlM_cons] at h
    obtain ⟨middle, hfirst, hrest⟩ := Option.bind_eq_some_iff.mp h
    obtain ⟨row, hkey, hlink, hid⟩ := startChild_eq_some hfirst
    obtain ⟨rows, hkeys, hlinks, hids⟩ := ih hrest
    refine ⟨row :: rows, ?_, ?_, ?_⟩
    · rw [List.map_cons, List.map_cons, hkey, hkeys]
    · rw [hlinks, hlink, List.foldl_cons]
    · rw [hids, hid, List.append_assoc, List.map_cons, List.singleton_append]

theorem runTournament_eq_some {config : TournamentConfig} {queue : Option RunQueue}
    {launch : Launch Rows} (h : runTournament store uuid clock config queue = some launch) :
    ∃ specs, expandTournament config = .ok specs ∧ ∃ rows : List ChildRow,
      (rows.map fun row => row.childKey) = specs.map ChildRunSpec.childKey ∧
      launch.children = rows.foldl store.linkTournamentChild store.empty ∧
      launch.created.map Prod.fst = rows.map fun row => row.childRunId := by
  unfold runTournament at h
  cases hspecs : expandTournament config with
  | error e =>
    rw [hspecs] at h
    cases h
  | ok specs =>
    rw [hspecs] at h
    obtain ⟨rows, hkeys, hlinks, hids⟩ := foldlM_startChild h
    exact ⟨specs, rfl, rows, hkeys, hlinks, hids⟩

/-- Without a queue a tournament that is expanded is run. -/
theorem runTournament_without_queue (store : ChildStore Rows) (config : TournamentConfig)
    {specs : List ChildRunSpec}
    (h : expandTournament config = .ok specs) :
    ∃ launch, runTournament store uuid clock config none = some launch := by
  have hstart : ∀ (specs : List ChildRunSpec) (launch : Launch Rows), launch.queue = none →
      ∃ launch', specs.foldlM (startChild store config.priority uuid clock) launch =
        some launch' := by
    intro specs
    induction specs with
    | nil => exact fun launch _ => ⟨launch, rfl⟩
    | cons spec specs ih =>
      intro launch hqueue
      rw [List.foldlM_cons]
      unfold startChild
      dsimp only
      rw [hqueue]
      exact ih _ rfl
  unfold runTournament
  rw [h]
  exact hstart specs _ rfl

theorem foldl_append_rows (rows linked : List ChildRow) :
    rows.foldl inMemoryRunStore.linkTournamentChild linked = linked ++ rows := by
  induction rows generalizing linked with
  | nil => exact (List.append_nil linked).symm
  | cons row rest ih =>
    rw [List.foldl_cons, ih]
    exact List.append_assoc _ _ _

/-- The store in memory lists every child, whatever its key. -/
theorem listsOnce_inMemory {config : TournamentConfig} {queue : Option RunQueue}
    {launch : Launch (List ChildRow)}
    (h : runTournament inMemoryRunStore uuid clock config queue = some launch) :
    launch.ListsOnce inMemoryRunStore := by
  obtain ⟨specs, -, rows, -, hlinks, hids⟩ := runTournament_eq_some h
  show (launch.children.map _).Perm _
  rw [hids, hlinks, foldl_append_rows]
  exact List.Perm.refl _

theorem listsOnce_sqlite {config : TournamentConfig} {queue : Option RunQueue}
    {launch : Launch (Table ChildRow)} {specs : List ChildRunSpec}
    (h : runTournament sqliteRunStore uuid clock config queue = some launch)
    (hspecs : expandTournament config = .ok specs)
    (hkeys : (specs.map ChildRunSpec.childKey).Nodup) : launch.ListsOnce sqliteRunStore := by
  obtain ⟨specs', hspecs', rows, hrows, hlinks, hids⟩ := runTournament_eq_some h
  rw [hspecs] at hspecs'
  cases hspecs'
  have hperm := OrderedMap.foldl_insert_perm (fun row : ChildRow => row.childKey) rows
    (∅ : Table ChildRow) (fun _ _ => rfl) (hrows ▸ hkeys)
  show ((launch.children.entries.map Prod.snd).map _).Perm _
  rw [hids, hlinks]
  exact (hperm.map _).trans (by rw [OrderedMap.entries_empty, List.map_nil, List.append_nil])

/-- The children of a tournament are linked once exactly if its request keeps their keys apart. -/
theorem children_linked_once_iff (config : TournamentConfig) (queue : Option RunQueue)
    (uuid : ℕ → String) (clock : ℕ → Datetime) {memory : Launch (List ChildRow)}
    {sqlite : Launch (Table ChildRow)}
    (hmemory : runTournament inMemoryRunStore uuid clock config queue = some memory)
    (hsqlite : runTournament sqliteRunStore uuid clock config queue = some sqlite) :
    LinkedOnce config memory sqlite ↔ config.DistinctChildren := by
  obtain ⟨specs, hspecs, -⟩ := runTournament_eq_some hsqlite
  rw [← childKeys_nodup_iff hspecs]
  constructor
  · rintro ⟨⟨specs', hspecs', hkeys⟩, -, -⟩
    rw [hspecs] at hspecs'
    cases hspecs'
    exact hkeys
  · intro hkeys
    exact ⟨⟨specs, hspecs, hkeys⟩, listsOnce_inMemory hmemory,
      listsOnce_sqlite hsqlite hspecs hkeys⟩

end Links

/-- Strategies against each other, on one symbol. -/
def versusConfig (seeds : List ℤ) (hseeds : seeds ≠ []) : TournamentConfig :=
  { priority := 5, tournamentType := .strategyVsStrategy, strategies := ["crossing_taker"]
    scenarios := ["calm_market"], symbols := ["DEFAULT"], seeds, steps := 25
    initialCash := 1000000, participantCounts := [20]
    volatilityRanges := [⟨"0.02", by simp⟩], strategyParameters := ∅
    parameterSweep := none, named := by decide, seeds_ne := hseeds, steps_pos := by decide
    initialCash_nonneg := by decide, participantCounts_ne := by decide
    participantCounts_pos := by decide, volatilityRanges_ne := List.cons_ne_nil _ _
    volatilityRanges_nonneg := by decide +kernel }

def versusLaunch {Rows : Type} (store : ChildStore Rows) (seeds : List ℤ) (hseeds : seeds ≠ []) :
    Option (Launch Rows) :=
  runTournament store (fun n => toString n) (fun _ => ⟨0, by decide⟩) (versusConfig seeds hseeds) none

/-- A seed that is listed twice gives two children one key. -/
theorem repeated_seed_not_linked_once : ∃ memory sqlite,
    versusLaunch inMemoryRunStore [1, 1] (by decide) = some memory ∧
      versusLaunch sqliteRunStore [1, 1] (by decide) = some sqlite ∧
      ¬ LinkedOnce (versusConfig [1, 1] (by decide)) memory sqlite := by
  obtain ⟨memory, hmemory⟩ := runTournament_without_queue inMemoryRunStore
    (versusConfig [1, 1] (by decide)) rfl
  obtain ⟨sqlite, hsqlite⟩ := runTournament_without_queue sqliteRunStore
    (versusConfig [1, 1] (by decide)) rfl
  refine ⟨memory, sqlite, hmemory, hsqlite, fun hlinked => ?_⟩
  obtain ⟨specs, hspecs, hkeys⟩ := hlinked.keys
  have hdistinct : [(1 : ℤ), 1].Nodup := ((childKeys_nodup_iff hspecs).mp hkeys).2
  revert hdistinct
  decide

/-- Two seeds give two children. -/
theorem two_seeds_linked_once : ∃ memory sqlite,
    versusLaunch inMemoryRunStore [1, 2] (by decide) = some memory ∧
      versusLaunch sqliteRunStore [1, 2] (by decide) = some sqlite ∧
      LinkedOnce (versusConfig [1, 2] (by decide)) memory sqlite := by
  obtain ⟨memory, hmemory⟩ := runTournament_without_queue inMemoryRunStore
    (versusConfig [1, 2] (by decide)) rfl
  obtain ⟨sqlite, hsqlite⟩ := runTournament_without_queue sqliteRunStore
    (versusConfig [1, 2] (by decide)) rfl
  refine ⟨memory, sqlite, hmemory, hsqlite, ?_⟩
  have hdistinct : (versusConfig [1, 2] (by decide)).DistinctChildren :=
    ⟨List.nodup_singleton _, by decide⟩
  exact (children_linked_once_iff _ _ _ _ hmemory hsqlite).mpr hdistinct

end Tes
