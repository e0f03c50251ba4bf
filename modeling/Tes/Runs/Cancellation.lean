import Mathlib.Logic.Function.Basic
import Tes.Queue.Claims
import Tes.Runs.RunStore

/-! The cancel route against the workers: both write the status of a run in several calls, and
each call is one step. -/
namespace Tes
open IsoTime

/-- Where a worker stands with the run it claimed. The calls of `execute_pending_run` are one
step each; the run is marked in the queue at the end. -/
inductive ExecutionPhase
  | idle
  | claimed (runId : String)
  | starting (runId : String)
  | executing (runId : String)
  | storing (runId : String)
  | completing (runId : String)
  | recording (runId error raised : String)
  | marking (runId : String) (raised : Option String)
  deriving DecidableEq

/-- The run that a worker claimed and has not marked yet. -/
def ExecutionPhase.held : ExecutionPhase → Option String
  | idle => none
  | claimed runId | starting runId | executing runId | storing runId | completing runId
  | recording runId _ _ | marking runId _ => some runId

/-- A worker in this phase leaves a canceled run alone whose row has the status. -/
def ExecutionPhase.Settled (r : String) (row : Option QueueStatus) : ExecutionPhase → Prop
  | idle => True
  | claimed runId => runId = r → ∀ status ∈ row, status = .completed ∨ status = .failed
  | starting runId | executing runId | storing runId | completing runId | recording runId _ _ =>
    runId ≠ r
  | marking runId raised => runId = r → ∀ status ∈ row,
    status = .completed ∨ status = .failed ∧ raised.isSome

/-- A worker that has a running run is not done with it. -/
theorem ExecutionPhase.not_settled_of_running {r : String} {phase : ExecutionPhase}
    (hheld : phase.held = some r) : ¬phase.Settled r (some .running) := by
  intro hsettled
  cases phase with
  | idle => cases hheld
  | claimed id =>
    rcases hsettled (Option.some.inj hheld) .running rfl with h | h <;> cases h
  | marking id raised =>
    rcases hsettled (Option.some.inj hheld) .running rfl with h | h
    · cases h
    · cases h.1
  | starting id => exact hsettled (Option.some.inj hheld)
  | executing id => exact hsettled (Option.some.inj hheld)
  | storing id => exact hsettled (Option.some.inj hheld)
  | completing id => exact hsettled (Option.some.inj hheld)
  | recording id error raised => exact hsettled (Option.some.inj hheld)

/-- How a call ends that may raise: validating the config, running the engine, storing results. -/
inductive ExecutionOutcome
  | result
  | invalidRequest (message : String)
  | failed (message : String)
  deriving DecidableEq

/-- Where a call of the cancel route stands. -/
inductive CancelPhase
  | notCalled
  | canceling (runId : String)
  | updating (runId : String) (record : RunRecord)
  | returned (runId : String)
  | raised (error : ApiError)
  deriving DecidableEq

/-- The run whose row a call of the route has canceled if it was pending. -/
def CancelPhase.target : CancelPhase → Option String
  | canceling runId | updating runId _ | returned runId => some runId
  | notCalled | raised _ => none

structure Lifecycle where
  queue : RunQueue
  runs : RunStore
  worker : String → ExecutionPhase := fun _ => .idle
  route : ℕ → CancelPhase := fun _ => .notCalled

inductive LifecycleStep
  | work (workerId : String) (outcome : ExecutionOutcome)
  | cancel (route : ℕ) (runId : String)
  deriving DecidableEq

def RunQueue.status (q : RunQueue) (runId : String) : Option QueueStatus :=
  (q.get runId).map QueueItem.status

namespace Lifecycle

def setWorker (s : Lifecycle) (workerId : String) (phase : ExecutionPhase) : Lifecycle :=
  { s with worker := Function.update s.worker workerId phase }

def setRoute (s : Lifecycle) (route : ℕ) (phase : CancelPhase) : Lifecycle :=
  { s with route := Function.update s.route route phase }

/-- The next call of a worker. -/
def work (staleAfter : ℤ) (s : Lifecycle) (workerId : String) (outcome : ExecutionOutcome)
    (now : Datetime) : Lifecycle :=
  match s.worker workerId with
  | .idle =>
    match s.queue.claimNext staleAfter workerId now with
    | some (some (runId, _), queue) => { s with queue }.setWorker workerId (.claimed runId)
    | _ => s
  | .claimed runId =>
    match checkPending runId (s.runs.getRun runId) with
    | .error error => s.setWorker workerId (.marking runId (some error.message))
    | .ok () => s.setWorker workerId <| match outcome with
      | .result => .starting runId
      | .invalidRequest message | .failed message => .marking runId (some message)
  | .starting runId =>
    { s with runs := s.runs.updateRun runId (some .running) (some now) none none }.setWorker
      workerId (.executing runId)
  | .executing runId => s.setWorker workerId <| match outcome with
    | .result => .storing runId
    | .invalidRequest message => .recording runId "invalid request" message
    | .failed message => .recording runId message message
  | .storing runId => s.setWorker workerId <| match outcome with
    | .result => .completing runId
    | .invalidRequest message | .failed message => .marking runId (some message)
  | .completing runId =>
    let runs := s.runs.updateRun runId (some .completed) none (some now) none
    { s with runs }.setWorker workerId <| .marking runId <|
      if (runs.getRun runId).isSome then none else some (ApiError.runNotFound runId).message
  | .recording runId error raised =>
    { s with runs := s.runs.updateRun runId (some .failed) none (some now) (some error) }.setWorker
      workerId (.marking runId (some raised))
  | .marking runId none =>
    { s with queue := s.queue.markCompleted runId now }.setWorker workerId .idle
  | .marking runId (some raised) =>
    { s with queue := s.queue.markFailed runId raised now }.setWorker workerId .idle

/-- The next call of the cancel route. -/
def cancel (s : Lifecycle) (route : ℕ) (runId : String) (now : Datetime) : Lifecycle :=
  match s.route route with
  | .notCalled =>
    { s with queue := s.queue.cancelPending runId now }.setRoute route (.canceling runId)
  | .canceling runId =>
    match checkCancel runId (s.runs.getRun runId) with
    | .error error => s.setRoute route (.raised error)
    | .ok none => s.setRoute route (.returned runId)
    | .ok (some record) => s.setRoute route (.updating runId record)
  | .updating runId record =>
    let runs := writeCancel s.runs runId record now
    { s with runs }.setRoute route <|
      if (runs.getRun runId).isSome then .returned runId else .raised (.runNotFound runId)
  | .returned _ | .raised _ => s

def step (staleAfter : ℤ) (s : Lifecycle) (step : Datetime × LifecycleStep) : Lifecycle :=
  match step.2 with
  | .work workerId outcome => s.work staleAfter workerId outcome step.1
  | .cancel route runId => s.cancel route runId step.1

/-- No worker has started, no run is running, and the route has not been called. -/
structure Starts (s : Lifecycle) : Prop where
  workers_idle : ∀ workerId, s.worker workerId = .idle
  routes_notCalled : ∀ route, s.route route = .notCalled
  none_running : ∀ r, s.queue.status r ≠ some .running

/-- The run is still canceled, and its row has not become running, completed or failed. -/
def StaysCanceled (s s' : Lifecycle) (r : String) : Prop :=
  s'.runs.status r = some .canceled ∧ ∀ status ∈ [QueueStatus.running, .completed, .failed],
    s'.queue.status r = some status → s.queue.status r = some status

instance (s s' : Lifecycle) (r : String) : Decidable (s.StaysCanceled s' r) :=
  inferInstanceAs (Decidable (_ ∧ ∀ status ∈ _, _))

/-- No worker is between its status check of the run and its last write of the record; and where
one has the run without executing it, the row already has the status it will mark. -/
def Settled (s : Lifecycle) (r : String) : Prop :=
  ∀ workerId, (s.worker workerId).Settled r (s.queue.status r)

end Lifecycle

section Rows
variable {staleAfter : ℤ} {q q' : RunQueue} {workerId runId : String} {now : Datetime}
  {item : QueueItem} {r : String}

theorem status_claimNext (h : q.claimNext staleAfter workerId now = some (some (runId, item), q')) :
    (q.status runId = some .pending ∨ q.status runId = some .running) ∧
      q'.status r = if r = runId then some .running else q.status r := by
  obtain ⟨-, staleBefore, old, -, -, hold, heligible, rfl, hget, -⟩ := RunQueue.claimNext_some h
  unfold RunQueue.status
  constructor
  · rw [hold, Option.map_some]
    rcases heligible.1 with hpending | hstale
    · exact Or.inl (congrArg some hpending)
    · exact Or.inr (congrArg some hstale.1)
  · rw [hget]
    split_ifs <;> rfl

theorem status_markTerminal (status : QueueStatus) (error : Option String) :
    (q.markTerminal runId status error now).status r = (q.status r).map fun old =>
      if r = runId ∧ old ≠ .completed then status else old := by
  unfold RunQueue.status
  rw [RunQueue.get_markTerminal, Option.map_map, Option.map_map]
  congr 1
  funext item
  rw [Function.comp_apply, Function.comp_apply]
  split_ifs <;> rfl

theorem status_cancelPending : (q.cancelPending runId now).status r = (q.status r).map fun old =>
    if r = runId ∧ old = .pending then .canceled else old := by
  unfold RunQueue.status
  rw [RunQueue.get_cancelPending, Option.map_map, Option.map_map]
  congr 1
  funext item
  rw [Function.comp_apply, Function.comp_apply]
  split_ifs <;> rfl

end Rows

namespace Lifecycle
section Step
variable {staleAfter : ℤ} {s : Lifecycle} {now : Datetime} {workerId r : String} {route : ℕ}

theorem worker_setWorker (phase : ExecutionPhase) (w : String) :
    (s.setWorker workerId phase).worker w = if w = workerId then phase else s.worker w :=
  Function.update_apply _ _ _ _

theorem route_setRoute (phase : CancelPhase) (c : ℕ) :
    (s.setRoute route phase).route c = if c = route then phase else s.route c :=
  Function.update_apply _ _ _ _

/-! Once it is settled, a canceled run is left alone. -/

/-- The run is canceled and its row has a status that no worker will change. -/
structure Canceled (s : Lifecycle) (r : String) (row : Option QueueStatus) : Prop where
  record : s.runs.status r = some .canceled
  row : s.queue.status r = row
  settled : s.Settled r

variable {row : Option QueueStatus}

/-- The row may be rewritten, as long as it keeps its status. -/
theorem Canceled.setQueue {queue : RunQueue} (h : s.Canceled r row) (hrow : queue.status r = row) :
    Canceled { s with queue } r row := by
  refine ⟨h.record, hrow, fun w => ?_⟩
  have hsettled := h.settled w
  dsimp only
  rw [hrow]
  rwa [h.row] at hsettled

theorem Canceled.setRuns {runs : RunStore} (h : s.Canceled r row)
    (hrecord : runs.status r = some .canceled) : Canceled { s with runs } r row :=
  ⟨hrecord, h.row, h.settled⟩

theorem Canceled.setRoute (h : s.Canceled r row) (phase : CancelPhase) :
    (s.setRoute route phase).Canceled r row :=
  ⟨h.record, h.row, h.settled⟩

theorem Canceled.setWorker {phase : ExecutionPhase} (h : s.Canceled r row)
    (hphase : phase.Settled r row) : (s.setWorker workerId phase).Canceled r row := by
  refine ⟨h.record, h.row, fun w => ?_⟩
  rw [worker_setWorker]
  split_ifs
  · exact h.row.symm ▸ hphase
  · exact h.settled w

theorem status_updateRun_of_ne {runs : RunStore} {runId : String} {status : RunStatus}
    {startedAt completedAt : Option Datetime} {error : Option String} (hne : runId ≠ r) :
    (runs.updateRun runId (some status) startedAt completedAt error).status r = runs.status r := by
  rw [RunStore.status_updateRun]
  cases runs.status r <;> simp [Ne.symm hne]

theorem checkPending_of_canceled {runs : RunStore} (h : runs.status r = some .canceled) :
    checkPending r (runs.getRun r) = .error (.invalidRequest s!"run is canceled: {r}") := by
  obtain ⟨record, hrecord, hstatus⟩ := Option.map_eq_some_iff.mp h
  rw [hrecord, checkPending, if_neg (by rw [hstatus]; decide), if_pos hstatus]

theorem Canceled.work (h : s.Canceled r row) (hpending : row ≠ some .pending)
    (hrunning : row ≠ some .running) (outcome : ExecutionOutcome) :
    (s.work staleAfter workerId outcome now).Canceled r row := by
  have hsettled := h.settled workerId
  rw [h.row] at hsettled
  unfold Lifecycle.work
  cases hphase : s.worker workerId with
  | idle =>
    dsimp only
    split
    · rename_i id item queue hclaim
      obtain ⟨htaken, hrow⟩ := status_claimNext (r := r) hclaim
      have hid : r ≠ id := by
        rintro rfl
        rw [h.row] at htaken
        exact htaken.elim hpending hrunning
      rw [if_neg hid, h.row] at hrow
      exact (h.setQueue hrow).setWorker fun heq => absurd heq.symm hid
    · exact h
  | claimed id =>
    rw [hphase] at hsettled
    dsimp only
    split
    · refine h.setWorker fun heq status hstatus => ?_
      exact (hsettled heq status hstatus).imp_right fun hfailed => ⟨hfailed, rfl⟩
    · rename_i hcheck
      have hid : id ≠ r := by
        rintro rfl
        rw [checkPending_of_canceled h.record] at hcheck
        cases hcheck
      cases outcome with
      | result => exact h.setWorker hid
      | invalidRequest message => exact h.setWorker fun heq => absurd heq hid
      | failed message => exact h.setWorker fun heq => absurd heq hid
  | starting id =>
    rw [hphase] at hsettled
    have hid : id ≠ r := hsettled
    exact (h.setRuns ((status_updateRun_of_ne hid).trans h.record)).setWorker hid
  | executing id =>
    rw [hphase] at hsettled
    have hid : id ≠ r := hsettled
    cases outcome with
    | result => exact h.setWorker hid
    | invalidRequest message => exact h.setWorker hid
    | failed message => exact h.setWorker hid
  | storing id =>
    rw [hphase] at hsettled
    have hid : id ≠ r := hsettled
    cases outcome with
    | result => exact h.setWorker hid
    | invalidRequest message => exact h.setWorker fun heq => absurd heq hid
    | failed message => exact h.setWorker fun heq => absurd heq hid
  | completing id =>
    rw [hphase] at hsettled
    have hid : id ≠ r := hsettled
    exact (h.setRuns ((status_updateRun_of_ne hid).trans h.record)).setWorker
      fun heq => absurd heq hid
  | recording id error raised =>
    rw [hphase] at hsettled
    have hid : id ≠ r := hsettled
    exact (h.setRuns ((status_updateRun_of_ne hid).trans h.record)).setWorker
      fun heq => absurd heq hid
  | marking id raised =>
    rw [hphase] at hsettled
    cases raised with
    | none =>
      refine (h.setQueue ?_).setWorker trivial
      rw [RunQueue.markCompleted, status_markTerminal, h.row]
      cases row with
      | none => rfl
      | some status =>
        rw [Option.map_some]
        split_ifs with hmarked
        · rcases hsettled hmarked.1.symm status rfl with hcompleted | ⟨-, hnone⟩
          · exact absurd hcompleted hmarked.2
          · cases hnone
        · rfl
    | some message =>
      refine (h.setQueue ?_).setWorker trivial
      rw [RunQueue.markFailed, status_markTerminal, h.row]
      cases row with
      | none => rfl
      | some status =>
        rw [Option.map_some]
        split_ifs with hmarked
        · rcases hsettled hmarked.1.symm status rfl with hcompleted | ⟨hfailed, -⟩
          · exact absurd hcompleted hmarked.2
          · rw [hfailed]
        · rfl

theorem Canceled.cancel (h : s.Canceled r row) (hpending : row ≠ some .pending) (runId : String) :
    (s.cancel route runId now).Canceled r row := by
  unfold Lifecycle.cancel
  cases s.route route with
  | notCalled =>
    refine (h.setQueue ?_).setRoute _
    rw [status_cancelPending, h.row]
    cases row with
    | none => rfl
    | some status =>
      rw [Option.map_some, if_neg]
      rintro ⟨-, rfl⟩
      exact hpending rfl
  | canceling id =>
    dsimp only
    split
    · exact h.setRoute _
    · exact h.setRoute _
    · exact h.setRoute _
  | updating id record =>
    refine (h.setRuns ?_).setRoute _
    rw [writeCancel, RunStore.status_updateRun, h.record, Option.map_some]
    split_ifs <;> rfl
  | returned id => exact h
  | raised error => exact h

theorem Canceled.step (h : s.Canceled r row) (hpending : row ≠ some .pending)
    (hrunning : row ≠ some .running) (step : Datetime × LifecycleStep) :
    (s.step staleAfter step).Canceled r row := by
  obtain ⟨now, step⟩ := step
  cases step with
  | work workerId outcome => exact h.work hpending hrunning outcome
  | cancel route runId => exact h.cancel hpending runId

theorem Canceled.run (h : s.Canceled r row) (hpending : row ≠ some .pending)
    (hrunning : row ≠ some .running) (steps : List (Datetime × LifecycleStep)) :
    (steps.foldl (Lifecycle.step staleAfter) s).Canceled r row := by
  induction steps generalizing s with
  | nil => exact h
  | cons step rest ih => exact ih (h.step hpending hrunning step)

/-! What holds in every state that the system reaches. -/

/-- A row that is running was claimed by a worker that has not marked it, and a row that the route
has passed is not pending. -/
structure Sound (s : Lifecycle) : Prop where
  holders : ∀ r, s.queue.status r = some .running → ∃ w, (s.worker w).held = some r
  passed : ∀ c r, (s.route c).target = some r → s.queue.status r ≠ some .pending

theorem Starts.sound (h : s.Starts) : s.Sound := by
  constructor
  · exact fun r hrunning => absurd hrunning (h.none_running r)
  · intro c r htarget
    rw [h.routes_notCalled c] at htarget
    cases htarget

theorem Sound.setWorker {phase : ExecutionPhase} (h : s.Sound)
    (hheld : phase.held = (s.worker workerId).held) : (s.setWorker workerId phase).Sound := by
  refine ⟨fun r hrunning => ?_, h.passed⟩
  obtain ⟨w, hw⟩ := h.holders r hrunning
  refine ⟨w, ?_⟩
  rw [worker_setWorker]
  split_ifs with hworker
  · rw [hheld, ← hworker, hw]
  · exact hw

theorem Sound.setRuns (h : s.Sound) (runs : RunStore) : Sound { s with runs } :=
  ⟨h.holders, h.passed⟩

theorem Sound.setRoute {phase : CancelPhase} (h : s.Sound)
    (hphase : ∀ r, phase.target = some r → s.queue.status r ≠ some .pending) :
    (s.setRoute route phase).Sound := by
  refine ⟨h.holders, fun c r htarget => ?_⟩
  rw [route_setRoute] at htarget
  split_ifs at htarget
  · exact hphase r htarget
  · exact h.passed c r htarget

theorem Sound.claimNext {runId : String} {item : QueueItem} {queue : RunQueue} (h : s.Sound)
    (hidle : s.worker workerId = .idle)
    (hclaim : s.queue.claimNext staleAfter workerId now = some (some (runId, item), queue)) :
    (Lifecycle.setWorker { s with queue } workerId (.claimed runId)).Sound := by
  have hrow := fun r => (status_claimNext (r := r) hclaim).2
  constructor
  · intro r hrunning
    have hstatus : queue.status r = some .running := hrunning
    rw [hrow] at hstatus
    by_cases hr : r = runId
    · refine ⟨workerId, ?_⟩
      rw [worker_setWorker, if_pos rfl, hr]
      rfl
    · rw [if_neg hr] at hstatus
      obtain ⟨w, hw⟩ := h.holders r hstatus
      refine ⟨w, ?_⟩
      rw [worker_setWorker, if_neg]
      · exact hw
      · rintro rfl
        rw [hidle] at hw
        cases hw
  · intro c r htarget hpending
    have hstatus : queue.status r = some .pending := hpending
    rw [hrow] at hstatus
    split_ifs at hstatus
    · cases hstatus
    · exact h.passed c r htarget hstatus

theorem Sound.mark {runId : String} {error : Option String} (status : QueueStatus)
    (hrunning : status ≠ .running) (hpending : status ≠ .pending) (h : s.Sound)
    (hheld : (s.worker workerId).held = some runId) :
    (Lifecycle.setWorker { s with queue := s.queue.markTerminal runId status error now }
      workerId .idle).Sound := by
  constructor
  · intro r hafter
    have hstatus : (s.queue.markTerminal runId status error now).status r = some .running := hafter
    rw [status_markTerminal] at hstatus
    obtain ⟨old, hold, hkept⟩ := Option.map_eq_some_iff.mp hstatus
    split_ifs at hkept with hmarked
    · exact absurd hkept hrunning
    · rw [hkept] at hold
      obtain ⟨w, hw⟩ := h.holders r hold
      refine ⟨w, ?_⟩
      rw [worker_setWorker, if_neg]
      · exact hw
      · rintro rfl
        refine hmarked ⟨Option.some.inj (hw.symm.trans hheld), ?_⟩
        rw [hkept]
        decide
  · intro c r htarget hafter
    have hstatus : (s.queue.markTerminal runId status error now).status r = some .pending := hafter
    rw [status_markTerminal] at hstatus
    obtain ⟨old, hold, hkept⟩ := Option.map_eq_some_iff.mp hstatus
    split_ifs at hkept
    · exact hpending hkept
    · rw [hkept] at hold
      exact h.passed c r htarget hold

theorem Sound.work (h : s.Sound) (outcome : ExecutionOutcome) :
    (s.work staleAfter workerId outcome now).Sound := by
  unfold Lifecycle.work
  cases hphase : s.worker workerId with
  | idle =>
    dsimp only
    split
    · rename_i hclaim
      exact h.claimNext hphase hclaim
    · exact h
  | claimed id =>
    dsimp only
    split
    · exact h.setWorker (by rw [hphase]; rfl)
    · cases outcome <;> exact h.setWorker (by rw [hphase]; rfl)
  | starting id =>
    refine (h.setRuns _).setWorker ?_
    show some id = (s.worker workerId).held
    rw [hphase]
    rfl
  | executing id => cases outcome <;> exact h.setWorker (by rw [hphase]; rfl)
  | storing id => cases outcome <;> exact h.setWorker (by rw [hphase]; rfl)
  | completing id =>
    refine (h.setRuns _).setWorker ?_
    show some id = (s.worker workerId).held
    rw [hphase]
    rfl
  | recording id error raised =>
    refine (h.setRuns _).setWorker ?_
    show some id = (s.worker workerId).held
    rw [hphase]
    rfl
  | marking id raised =>
    have hheld : (s.worker workerId).held = some id := by rw [hphase]; rfl
    cases raised with
    | none => exact h.mark .completed (by decide) (by decide) hheld
    | some message => exact h.mark .failed (by decide) (by decide) hheld

theorem Sound.cancelPending (h : s.Sound) (runId : String) :
    Sound { s with queue := s.queue.cancelPending runId now } := by
  constructor
  · intro r hafter
    have hstatus : (s.queue.cancelPending runId now).status r = some .running := hafter
    rw [status_cancelPending] at hstatus
    obtain ⟨old, hold, hkept⟩ := Option.map_eq_some_iff.mp hstatus
    split_ifs at hkept
    rw [hkept] at hold
    exact h.holders r hold
  · intro c r htarget hafter
    have hstatus : (s.queue.cancelPending runId now).status r = some .pending := hafter
    rw [status_cancelPending] at hstatus
    obtain ⟨old, hold, hkept⟩ := Option.map_eq_some_iff.mp hstatus
    split_ifs at hkept
    rw [hkept] at hold
    exact h.passed c r htarget hold

theorem Sound.cancel (h : s.Sound) (runId : String) : (s.cancel route runId now).Sound := by
  unfold Lifecycle.cancel
  cases hphase : s.route route with
  | notCalled =>
    refine (h.cancelPending runId).setRoute fun r htarget hafter => ?_
    cases htarget
    have hstatus : (s.queue.cancelPending runId now).status runId = some .pending := hafter
    rw [status_cancelPending] at hstatus
    obtain ⟨old, hold, hkept⟩ := Option.map_eq_some_iff.mp hstatus
    split_ifs at hkept with hpending
    exact hpending ⟨rfl, hkept⟩
  | canceling id =>
    have hpassed : s.queue.status id ≠ some .pending := h.passed route id (by rw [hphase]; rfl)
    dsimp only
    split
    · exact h.setRoute fun r htarget => nomatch htarget
    · exact h.setRoute fun r htarget => Option.some.inj htarget ▸ hpassed
    · exact h.setRoute fun r htarget => Option.some.inj htarget ▸ hpassed
  | updating id record =>
    have hpassed : s.queue.status id ≠ some .pending := h.passed route id (by rw [hphase]; rfl)
    refine (h.setRuns _).setRoute fun r htarget => ?_
    split_ifs at htarget
    · exact Option.some.inj htarget ▸ hpassed
    · cases htarget
  | returned id => exact h
  | raised error => exact h

theorem Sound.run (h : s.Sound) (steps : List (Datetime × LifecycleStep)) :
    (steps.foldl (Lifecycle.step staleAfter) s).Sound := by
  induction steps generalizing s with
  | nil => exact h
  | cons step rest ih =>
    obtain ⟨now, step⟩ := step
    cases step with
    | work workerId outcome => exact ih (h.work outcome)
    | cancel route runId => exact ih (h.cancel runId)

/-! What a worker can still do to a canceled run. -/

/-- From here on, the run stays as it was canceled in `s`. -/
def Final (staleAfter : ℤ) (s t : Lifecycle) (r : String) : Prop :=
  ∀ steps : List (Datetime × LifecycleStep),
    s.StaysCanceled (steps.foldl (Lifecycle.step staleAfter) t) r

variable {t : Lifecycle}

theorem Final.stays (h : Final staleAfter s t r) : s.StaysCanceled t r := h []

theorem Final.step (h : Final staleAfter s t r) (now : Datetime) (step : LifecycleStep) :
    Final staleAfter s (t.step staleAfter (now, step)) r := fun steps => h ((now, step) :: steps)

theorem Final.write_canceled (h : Final staleAfter s t r) {step : Datetime × LifecycleStep}
    {status : RunStatus} {startedAt completedAt : Option Datetime} {error : Option String}
    (hruns : (t.step staleAfter step).runs =
      t.runs.updateRun r (some status) startedAt completedAt error) : status = .canceled := by
  have hnext := (h.step step.1 step.2).stays.1
  rw [hruns, RunStore.status_updateRun, h.stays.1, Option.map_some, if_pos rfl] at hnext
  exact Option.some.inj hnext

/-- A worker that executes the run will write its status. -/
theorem Final.not_executing (h : Final staleAfter s t r) {w : String} :
    t.worker w ≠ .starting r ∧ t.worker w ≠ .executing r ∧ t.worker w ≠ .storing r ∧
      t.worker w ≠ .completing r ∧ ∀ error raised, t.worker w ≠ .recording r error raised := by
  let call : Datetime × LifecycleStep := (.ofSeconds 0 (by decide), .work w .result)
  have hcompleting : ∀ {t}, Final staleAfter s t r → t.worker w ≠ .completing r := by
    intro t h hphase
    have hruns : (t.step staleAfter call).runs =
        t.runs.updateRun r (some .completed) none (some call.1) none := by
      show (t.work staleAfter w .result call.1).runs = _
      unfold Lifecycle.work
      rw [hphase]
      rfl
    cases h.write_canceled hruns
  have hstoring : ∀ {t}, Final staleAfter s t r → t.worker w ≠ .storing r := by
    intro t h hphase
    refine hcompleting (h.step call.1 call.2) ?_
    show (t.work staleAfter w .result call.1).worker w = _
    unfold Lifecycle.work
    rw [hphase]
    exact (worker_setWorker _ _).trans (if_pos rfl)
  refine ⟨fun hphase => ?_, fun hphase => ?_, hstoring h, hcompleting h, fun error raised hphase => ?_⟩
  · have hruns : (t.step staleAfter call).runs =
        t.runs.updateRun r (some .running) (some call.1) none none := by
      show (t.work staleAfter w .result call.1).runs = _
      unfold Lifecycle.work
      rw [hphase]
      rfl
    cases h.write_canceled hruns
  · refine hstoring (h.step call.1 call.2) ?_
    show (t.work staleAfter w .result call.1).worker w = _
    unfold Lifecycle.work
    rw [hphase]
    exact (worker_setWorker _ _).trans (if_pos rfl)
  · have hruns : (t.step staleAfter call).runs =
        t.runs.updateRun r (some .failed) none (some call.1) (some error) := by
      show (t.work staleAfter w .result call.1).runs = _
      unfold Lifecycle.work
      rw [hphase]
      rfl
    cases h.write_canceled hruns

/-- A worker that marks the run may only repeat the status of its row. -/
theorem Final.marking (h : Final staleAfter s t r) (hrow : t.queue.status r = s.queue.status r)
    {w : String} {raised : Option String} (hphase : t.worker w = .marking r raised) :
    ∀ status ∈ s.queue.status r, status = .completed ∨ status = .failed ∧ raised.isSome := by
  intro status hstatus
  by_contra hother
  rw [not_or] at hother
  let now : Datetime := .ofSeconds 0 (by decide)
  have hnext := (h.step now (.work w .result)).stays.2
  have hqueue : ∀ marked error, (t.step staleAfter (now, .work w .result)).queue =
      t.queue.markTerminal r marked error now → marked ∈ [QueueStatus.running, .completed, .failed] →
      status = marked := by
    intro marked error hmark hmem
    have hmarked := hnext marked hmem
    rw [hmark, status_markTerminal, hrow, Option.mem_def.mp hstatus, Option.map_some,
      if_pos ⟨rfl, hother.1⟩] at hmarked
    exact Option.some.inj (hmarked rfl)
  cases raised with
  | none =>
    refine hother.1 (hqueue .completed none ?_ (by decide))
    show (t.work staleAfter w .result now).queue = _
    unfold Lifecycle.work
    rw [hphase]
    rfl
  | some message =>
    refine hother.2 ⟨hqueue .failed (some message) ?_ (by decide), rfl⟩
    show (t.work staleAfter w .result now).queue = _
    unfold Lifecycle.work
    rw [hphase]
    rfl

theorem Final.settled (h : Final staleAfter s s r) : s.Settled r := by
  intro w
  cases hphase : s.worker w with
  | idle => trivial
  | claimed id =>
    intro heq status hstatus
    subst heq
    have hnext : (s.step staleAfter (.ofSeconds 0 (by decide), .work w .result)) =
        s.setWorker w (.marking id (some s!"run is canceled: {id}")) := by
      show s.work staleAfter w .result _ = _
      unfold Lifecycle.work
      simp only [hphase, checkPending_of_canceled h.stays.1]
      rfl
    have hmarking := h.step (.ofSeconds 0 (by decide)) (.work w .result)
    rw [hnext] at hmarking
    have hworker : (s.setWorker w (.marking id (some s!"run is canceled: {id}"))).worker w =
        .marking id (some s!"run is canceled: {id}") := (worker_setWorker _ w).trans (if_pos rfl)
    exact (hmarking.marking rfl hworker status hstatus).imp_right And.left
  | starting id => exact fun heq => h.not_executing.1 (heq ▸ hphase)
  | executing id => exact fun heq => h.not_executing.2.1 (heq ▸ hphase)
  | storing id => exact fun heq => h.not_executing.2.2.1 (heq ▸ hphase)
  | completing id => exact fun heq => h.not_executing.2.2.2.1 (heq ▸ hphase)
  | recording id error raised => exact fun heq => h.not_executing.2.2.2.2 error raised (heq ▸ hphase)
  | marking id raised =>
    intro heq
    subst heq
    exact h.marking rfl hphase

/-- Once the cancel route has returned and the run is canceled, it stays as it is whatever happens
exactly if no worker is executing it then, and none has it to mark it otherwise. -/
theorem cancellation_final_iff (staleAfter : ℤ) (s₀ : Lifecycle) (hstart : s₀.Starts)
    (steps : List (Datetime × LifecycleStep)) (route : ℕ) (r : String)
    (hreturned : (steps.foldl (Lifecycle.step staleAfter) s₀).route route = .returned r)
    (hcanceled : (steps.foldl (Lifecycle.step staleAfter) s₀).runs.status r = some .canceled) :
    (∀ more : List (Datetime × LifecycleStep),
      (steps.foldl (Lifecycle.step staleAfter) s₀).StaysCanceled
        (more.foldl (Lifecycle.step staleAfter) (steps.foldl (Lifecycle.step staleAfter) s₀)) r) ↔
      (steps.foldl (Lifecycle.step staleAfter) s₀).Settled r := by
  have hsound : (steps.foldl (Lifecycle.step staleAfter) s₀).Sound := hstart.sound.run steps
  generalize steps.foldl (Lifecycle.step staleAfter) s₀ = s at hreturned hcanceled hsound ⊢
  constructor
  · exact fun h => Final.settled h
  · intro hsettled more
    have hpending : s.queue.status r ≠ some .pending :=
      hsound.passed route r (by rw [hreturned]; rfl)
    have hrunning : s.queue.status r ≠ some .running := by
      intro hrunning
      obtain ⟨w, hw⟩ := hsound.holders r hrunning
      have hworker := hsettled w
      rw [hrunning] at hworker
      exact ExecutionPhase.not_settled_of_running hw hworker
    have hlater : (more.foldl (Lifecycle.step staleAfter) s).Canceled r (s.queue.status r) :=
      Canceled.run ⟨hcanceled, rfl, hsettled⟩ hpending hrunning more
    exact ⟨hlater.record, fun status _ hstatus => hlater.row.symm.trans hstatus⟩

/-- A run is canceled while the engine runs it, and completed afterwards. -/
theorem canceled_run_completes :
    let t : Datetime := .ofSeconds 1000 (by decide)
    let s₀ : Lifecycle :=
      { queue := ({} : RunQueue).after 900 [(t, .call (.enqueue "r" 0 none))]
        runs := (∅ : RunStore).insert "r" { status := .pending } }
    let work := (t, LifecycleStep.work "w" .result)
    let cancel := (t, LifecycleStep.cancel 0 "r")
    let s := [work, work, work, cancel, cancel, cancel].foldl (Lifecycle.step 900) s₀
    let s' := [work, work, work].foldl (Lifecycle.step 900) s
    s.route 0 = .returned "r" ∧ s.runs.status "r" = some .canceled ∧
      s'.runs.status "r" = some .completed ∧ ¬s.StaysCanceled s' "r" := by
  decide +kernel

/-- A run that is canceled before any worker claims it stays canceled. -/
theorem cancellation_final_pending :
    let t : Datetime := .ofSeconds 1000 (by decide)
    let s₀ : Lifecycle :=
      { queue := ({} : RunQueue).after 900 [(t, .call (.enqueue "r" 0 none))]
        runs := (∅ : RunStore).insert "r" { status := .pending } }
    let cancel := (t, LifecycleStep.cancel 0 "r")
    let s := [cancel, cancel, cancel].foldl (Lifecycle.step 900) s₀
    ∀ more : List (Datetime × LifecycleStep),
      s.StaysCanceled (more.foldl (Lifecycle.step 900) s) "r" := by
  intro t s₀ cancel s
  have hqueue : RunQueue.enqueue {} "r" 0 none t = some s₀.queue := by decide +kernel
  have hstart : s₀.Starts := by
    refine ⟨fun _ => rfl, fun _ => rfl, fun r hrunning => ?_⟩
    unfold RunQueue.status at hrunning
    rw [(RunQueue.get_enqueue hqueue).1] at hrunning
    split_ifs at hrunning <;> cases hrunning
  have hworker : ∀ (s : Lifecycle) c r now, (s.cancel c r now).worker = s.worker := by
    intro s c r now
    unfold Lifecycle.cancel
    split
    · rfl
    · split <;> rfl
    all_goals rfl
  have hsettled : s.Settled "r" := by
    intro w
    have hidle : s.worker w = .idle := by
      show ((([cancel, cancel, cancel].foldl (Lifecycle.step 900) s₀)).worker w) = .idle
      show (((s₀.cancel 0 "r" t).cancel 0 "r" t).cancel 0 "r" t).worker w = .idle
      rw [hworker, hworker, hworker]
    rw [hidle]
    trivial
  exact (cancellation_final_iff 900 s₀ hstart [cancel, cancel, cancel] 0 "r" (by decide +kernel)
    (by decide +kernel)).mpr hsettled

end Step
end Lifecycle
end Tes
