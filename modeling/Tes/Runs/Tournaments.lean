import Tes.Library.Steps
import Tes.Runs.Listings
import Tes.Runs.RunStore

/-! Tournaments: their stored status is written by cancellation and by aggregation. -/
namespace Tes
open IsoTime

/-- A child of a tournament, as the store lists it. -/
structure ChildLink where
  childRunId : String
  childKey : String
  deriving DecidableEq

structure ChildResult where
  childRunId : String
  childKey : String
  status : RunStatus
  error : Option String
  deriving DecidableEq

/-- A report, less the scores of its results, which are floats, and their ranking. -/
structure TournamentReport where
  status : RunStatus
  childCount : ℕ
  completedChildCount : ℕ
  failedChildCount : ℕ
  results : List ChildResult
  failures : List ChildResult
  deriving DecidableEq

structure TournamentRecord where
  status : RunStatus
  createdAt : Datetime
  completedAt : Option Datetime
  report : Option TournamentReport
  error : Option String
  deriving DecidableEq

/-- What the tournament service reads and writes: the queue, the runs, and the tournaments with
the children that are linked to them. -/
structure TournamentStore where
  queue : RunQueue
  runs : RunStore
  tournaments : Table TournamentRecord
  children : String → List ChildLink

/-- A value that is falsy in its place counts as missing. -/
def orText (text : Option String) (fallback : String) : String :=
  if text.getD "" = "" then fallback else text.getD ""

def childResult (runs : RunStore) (link : ChildLink) : ChildResult :=
  let (status, error) := match runs.getRun link.childRunId with
    | some record => (record.status, record.error)
    | none => (.failed, some "missing child run")
  { childRunId := link.childRunId, childKey := link.childKey, status
    error := match status with
      | .completed => none
      | .canceled => some (orText error "canceled")
      | _ => error }

/-- Aggregate the children of a tournament into its report. -/
def buildReport (links : List ChildLink) (runs : RunStore) : TournamentReport :=
  let children := (links.insertionSort fun a b => a.childKey ≤ b.childKey).map (childResult runs)
  let results := children.filter fun child => child.status = .completed
  let failures := children.filter fun child => child.status = .failed ∨ child.status = .canceled
  let completed := results.length
  let failed := (children.filter fun child => child.status = .failed).length
  let total := links.length
  let terminal :=
    completed + failed + (failures.filter fun child => child.status = .canceled).length
  { status := if total = 0 then .failed
      else if 0 < total ∧ terminal = total then .completed else .running
    childCount := total, completedChildCount := completed, failedChildCount := failed
    results, failures }

namespace TournamentStore

def getTournament (s : TournamentStore) (tournamentId : String) : Option TournamentRecord :=
  s.tournaments.find? tournamentId

def status (s : TournamentStore) (tournamentId : String) : Option RunStatus :=
  (s.getTournament tournamentId).map TournamentRecord.status

/-- Write the columns that are given. -/
def updateTournament (s : TournamentStore) (tournamentId : String) (status : Option RunStatus)
    (completedAt : Option Datetime) (report : Option TournamentReport) (error : Option String) :
    TournamentStore :=
  { s with
    tournaments := s.tournaments.updateWhere (fun id _ => id = tournamentId) fun record =>
      { record with
        status := status.getD record.status
        completedAt := completedAt.or record.completedAt
        report := report.or record.report
        error := error.or record.error } }

/-- The ids of the tournaments, oldest first. -/
def listTournaments (s : TournamentStore) : List String :=
  (listByCreatedAt TournamentRecord.createdAt s.tournaments).map Prod.fst

def aggregate (s : TournamentStore) (tournamentId : String) (now : Datetime) :
    Except ApiError TournamentStore :=
  match s.getTournament tournamentId with
  | none => .error (.runNotFound tournamentId)
  | some _ =>
    let report := buildReport (s.children tournamentId) s.runs
    let completedAt :=
      if report.status ∈ [RunStatus.completed, .failed, .canceled] then some now else none
    .ok (s.updateTournament tournamentId (some report.status) completedAt (some report) none)

/-- A call that raises writes nothing. -/
def aggregated (s : TournamentStore) (tournamentId : String) (now : Datetime) : TournamentStore :=
  match s.aggregate tournamentId now with
  | .ok s' => s'
  | .error _ => s

/-- Aggregate every tournament that a run is a child of. -/
def aggregateForChild (s : TournamentStore) (childRunId : String) (now : Datetime) :
    TournamentStore :=
  s.listTournaments.foldl (fun s tournamentId =>
    if (s.children tournamentId).any fun link => link.childRunId = childRunId then
      s.aggregated tournamentId now
    else s) s

/-- What reading a report writes: it is aggregated where none is stored. -/
def getReport (s : TournamentStore) (tournamentId : String) (now : Datetime) : TournamentStore :=
  match s.getTournament tournamentId with
  | some record => if record.report.isSome then s else s.aggregated tournamentId now
  | none => s

/-- Cancel the runs of some children that are pending or running. -/
def cancelChildren (s : TournamentStore) (now : Datetime) : List ChildLink → TournamentStore
  | [] => s
  | link :: rest =>
    let queue := s.queue.cancelPending link.childRunId now
    let runs := match s.runs.getRun link.childRunId with
      | some record =>
        if record.status = .pending ∨ record.status = .running then
          match cancelRun s.runs link.childRunId now with
          | .ok runs => runs
          | .error _ => s.runs
        else s.runs
      | none => s.runs
    { s with queue, runs }.cancelChildren now rest

def cancelTournament (s : TournamentStore) (tournamentId : String) (now : Datetime) :
    Except ApiError TournamentStore :=
  match s.getTournament tournamentId with
  | none => .error (.runNotFound tournamentId)
  | some record =>
    if record.status = .completed then
      .error (.invalidRequest s!"completed tournament cannot be canceled: {tournamentId}")
    else
      .ok ((s.cancelChildren now (s.children tournamentId)).updateTournament tournamentId
        (some .canceled) (some now) none (some "canceled"))

end TournamentStore

/-- What happens after a tournament was canceled. -/
inductive TournamentCall
  /-- A child run changes. -/
  | transition (runId : String) (status : RunStatus) (startedAt completedAt : Option Datetime)
      (error : Option String)
  | aggregateForChild (childRunId : String)
  | getReport (tournamentId : String)
  | aggregate (tournamentId : String)

namespace TournamentStore

def step (s : TournamentStore) (call : Datetime × TournamentCall) : TournamentStore :=
  match call.2 with
  | .transition runId status startedAt completedAt error =>
    { s with runs := s.runs.updateRun runId (some status) startedAt completedAt error }
  | .aggregateForChild childRunId => s.aggregateForChild childRunId call.1
  | .getReport tournamentId => s.getReport tournamentId call.1
  | .aggregate tournamentId => s.aggregated tournamentId call.1

/-- The call does not aggregate the tournament. -/
def Spares (tournamentId : String) (s : TournamentStore) (call : Datetime × TournamentCall) : Prop :=
  match call.2 with
  | .transition .. => True
  | .aggregateForChild childRunId => ∀ link ∈ s.children tournamentId, link.childRunId ≠ childRunId
  | .getReport id => id = tournamentId →
    ∀ record, s.getTournament tournamentId = some record → record.report.isSome
  | .aggregate id => id ≠ tournamentId

section Step
variable {s s' : TournamentStore} {id tournamentId : String} {now : Datetime}

theorem status_updateTournament (status : RunStatus) (completedAt : Option Datetime)
    (report : Option TournamentReport) (error : Option String) :
    (s.updateTournament id (some status) completedAt report error).status tournamentId =
      (s.status tournamentId).map fun old => if tournamentId = id then status else old := by
  unfold TournamentStore.status TournamentStore.getTournament updateTournament
  dsimp only
  rw [OrderedMap.find?_updateWhere, Option.map_map, Option.map_map]
  congr 1
  funext record
  by_cases hid : tournamentId = id <;> simp [hid]

/-- A report never says that its tournament is canceled. -/
theorem status_buildReport_ne_canceled (links : List ChildLink) (runs : RunStore) :
    (buildReport links runs).status ≠ .canceled := by
  unfold buildReport
  dsimp only
  split_ifs <;> decide

theorem children_aggregated : (s.aggregated id now).children = s.children := by
  unfold aggregated aggregate
  cases s.getTournament id <;> rfl

theorem status_aggregated (h : (s.status tournamentId).isSome) :
    (s.aggregated id now).status tournamentId = if tournamentId = id then
      some (buildReport (s.children id) s.runs).status else s.status tournamentId := by
  obtain ⟨old, hold⟩ := Option.isSome_iff_exists.mp h
  unfold aggregated aggregate
  cases hrecord : s.getTournament id with
  | none =>
    have hid : tournamentId ≠ id := by
      rintro rfl
      unfold TournamentStore.status at hold
      rw [hrecord] at hold
      cases hold
    rw [if_neg hid]
  | some record =>
    show (s.updateTournament id _ _ _ _).status tournamentId = _
    rw [status_updateTournament, hold, Option.map_some]
    split_ifs <;> rfl

theorem getTournament_of_status {status : RunStatus} (h : s.status id = some status) :
    ∃ record, s.getTournament id = some record ∧ record.status = status :=
  Option.map_eq_some_iff.mp h

/-- A canceled tournament is canceled no more exactly if it is aggregated. -/
theorem status_aggregated_canceled (h : s.status tournamentId = some .canceled) :
    (s.aggregated id now).status tournamentId = some .canceled ↔ id ≠ tournamentId := by
  rw [status_aggregated (h ▸ rfl)]
  split_ifs with hid
  · have hreport := status_buildReport_ne_canceled (s.children id) s.runs
    simp [hid, hreport]
  · exact iff_of_true h (Ne.symm hid)

theorem mem_listTournaments : id ∈ s.listTournaments ↔ (s.getTournament id).isSome := by
  unfold listTournaments getTournament
  simp only [List.mem_map, Prod.exists, mem_listByCreatedAt, Option.isSome_iff_exists]
  constructor
  · rintro ⟨id', record, hrecord, rfl⟩
    exact ⟨record, hrecord⟩
  · rintro ⟨record, hrecord⟩
    exact ⟨id, record, hrecord, rfl⟩

/-- The aggregations that a child causes, on some of the tournaments. -/
theorem status_foldl_aggregated {childRunId : String} (ids : List String)
    (h : (s.status tournamentId).isSome) :
    (ids.foldl (fun s id => if (s.children id).any fun link => link.childRunId = childRunId then
        s.aggregated id now else s) s).status tournamentId = some .canceled ↔
      s.status tournamentId = some .canceled ∧ (tournamentId ∈ ids →
        ∀ link ∈ s.children tournamentId, link.childRunId ≠ childRunId) := by
  induction ids generalizing s with
  | nil => simp
  | cons id rest ih =>
    rw [List.foldl_cons]
    by_cases hchild : (s.children id).any fun link => link.childRunId = childRunId
    · rw [if_pos hchild]
      have hlater : (s.aggregated id now).status tournamentId = if tournamentId = id then
          some (buildReport (s.children id) s.runs).status else s.status tournamentId :=
        status_aggregated h
      have hexists : ((s.aggregated id now).status tournamentId).isSome := by
        rw [hlater]
        split_ifs
        · rfl
        · exact h
      rw [ih hexists, children_aggregated, hlater]
      split_ifs with hid
      · have hreport := status_buildReport_ne_canceled (s.children id) s.runs
        subst hid
        obtain ⟨link, hlink, hchildRun⟩ := List.any_eq_true.mp hchild
        refine iff_of_false (fun hboth => hreport (Option.some.inj hboth.1)) fun hboth => ?_
        exact hboth.2 List.mem_cons_self link hlink (of_decide_eq_true hchildRun)
      · rw [List.mem_cons, or_iff_right hid]
    · rw [if_neg hchild, ih h]
      by_cases hid : tournamentId = id
      · subst hid
        have hspares : ∀ link ∈ s.children tournamentId, link.childRunId ≠ childRunId := by
          intro link hlink hrun
          exact hchild (List.any_eq_true.mpr ⟨link, hlink, decide_eq_true hrun⟩)
        exact and_congr_right fun _ => iff_of_true (fun _ => hspares) fun _ => hspares
      · rw [List.mem_cons, or_iff_right hid]

theorem status_step_canceled (h : s.status tournamentId = some .canceled)
    (call : Datetime × TournamentCall) :
    (s.step call).status tournamentId = some .canceled ↔ s.Spares tournamentId call := by
  obtain ⟨record, hrecord, -⟩ := getTournament_of_status h
  obtain ⟨now, call⟩ := call
  cases call with
  | transition runId status startedAt completedAt error => exact iff_of_true h trivial
  | aggregateForChild childRunId =>
    have hlisted : tournamentId ∈ s.listTournaments := by
      rw [mem_listTournaments, hrecord]
      rfl
    show (s.aggregateForChild childRunId now).status tournamentId = _ ↔ _
    rw [aggregateForChild, status_foldl_aggregated _ (h ▸ rfl), and_iff_right h]
    exact forall_prop_of_true hlisted
  | getReport id =>
    show (s.getReport id now).status tournamentId = _ ↔ (id = tournamentId → _)
    unfold getReport
    cases hfound : s.getTournament id with
    | none =>
      refine iff_of_true h fun hid => ?_
      rw [hid, hrecord] at hfound
      cases hfound
    | some found =>
      dsimp only
      split_ifs with hreport
      · refine iff_of_true h fun hid record' hrecord' => ?_
        rw [hid, hrecord'] at hfound
        rw [Option.some.inj hfound]
        exact hreport
      · rw [status_aggregated_canceled h]
        constructor
        · exact fun hid heq => absurd heq hid
        · intro hspares hid
          exact hreport (hspares hid found (hid ▸ hfound))
  | aggregate id => exact status_aggregated_canceled h

theorem cancelTournament_canceled (h : s.cancelTournament tournamentId now = .ok s') :
    s'.status tournamentId = some .canceled := by
  have hchildren : ∀ (links : List ChildLink) (s : TournamentStore),
      (s.cancelChildren now links).tournaments = s.tournaments := by
    intro links
    induction links with
    | nil => exact fun s => rfl
    | cons link rest ih => exact fun s => ih _
  unfold cancelTournament at h
  cases hrecord : s.getTournament tournamentId with
  | none =>
    simp only [hrecord] at h
    cases h
  | some record =>
    simp only [hrecord] at h
    split_ifs at h
    rw [← Except.ok.inj h, status_updateTournament]
    unfold TournamentStore.status TournamentStore.getTournament
    rw [hchildren]
    unfold getTournament at hrecord
    rw [hrecord, Option.map_some, Option.map_some, if_pos rfl]

/-- A tournament stays canceled exactly as long as it is not aggregated. -/
theorem tournament_stays_canceled_iff (s s' : TournamentStore) (tournamentId : String)
    (now : Datetime) (hcancel : s.cancelTournament tournamentId now = .ok s')
    (calls : List (Datetime × TournamentCall)) :
    Steps.Always step (fun s => s.status tournamentId = some .canceled) s' calls ↔
      Steps.Each step (Spares tournamentId) s' calls :=
  Steps.always_iff_each (I := fun _ => True) (fun _ _ _ => trivial)
    (fun _ call _ h => status_step_canceled h call) trivial (cancelTournament_canceled hcancel)

/-- A worker reports the child of a canceled tournament. -/
theorem reported_tournament_completes :
    let t : Datetime := .ofSeconds 1000 (by decide)
    let s : TournamentStore :=
      { queue := {}
        runs := (∅ : RunStore).insert "r" { status := .pending }
        tournaments := (∅ : Table TournamentRecord).insert "t" ⟨.running, t, none, none, none⟩
        children := fun _ => [⟨"r", "k"⟩] }
    ∃ s', s.cancelTournament "t" t = .ok s' ∧
      ¬Steps.Always step (fun s => s.status "t" = some .canceled) s'
        [(t, .aggregateForChild "r")] := by
  intro t s
  refine ⟨_, rfl, fun h => ?_⟩
  have hlast := h.last
  revert hlast
  decide +kernel

/-- A canceled tournament whose children still change. -/
theorem unreported_tournament_stays_canceled :
    let t : Datetime := .ofSeconds 1000 (by decide)
    let s : TournamentStore :=
      { queue := {}
        runs := (∅ : RunStore).insert "r" { status := .running }
        tournaments := (∅ : Table TournamentRecord).insert "t" ⟨.running, t, none, none, none⟩
        children := fun _ => [⟨"r", "k"⟩] }
    ∃ s', s.cancelTournament "t" t = .ok s' ∧
      Steps.Always step (fun s => s.status "t" = some .canceled) s'
        [(t, .transition "r" .completed none (some t) none), (t, .aggregate "u")] := by
  intro t s
  have hother : "u" ≠ "t" := by decide
  exact ⟨_, rfl, (tournament_stays_canceled_iff s _ "t" t rfl _).mpr ⟨trivial, hother, trivial⟩⟩

end Step
end TournamentStore
end Tes
