import Tes.Queue.RunQueue

/-! The stored runs, and the calls of the run service that read and write their status. -/
namespace Tes
open IsoTime

inductive RunStatus
  | pending
  | running
  | completed
  | failed
  | canceled
  deriving DecidableEq, Repr

/-- What the life cycle of a run reads and writes of its record. -/
structure RunRecord where
  status : RunStatus
  startedAt : Option Datetime := none
  completedAt : Option Datetime := none
  error : Option String := none
  deriving DecidableEq

inductive ApiError
  | runNotFound (runId : String)
  | invalidRequest (message : String)
  deriving DecidableEq, Repr

def ApiError.message : ApiError → String
  | runNotFound runId => s!"run not found: {runId}"
  | invalidRequest message => message

abbrev RunStore := Table RunRecord

namespace RunStore

def getRun (runs : RunStore) (runId : String) : Option RunRecord := runs.find? runId

/-- Write the columns that are given. -/
def updateRun (runs : RunStore) (runId : String) (status : Option RunStatus)
    (startedAt completedAt : Option Datetime) (error : Option String) : RunStore :=
  runs.updateWhere (fun id _ => id = runId) fun record =>
    { status := status.getD record.status
      startedAt := startedAt.or record.startedAt
      completedAt := completedAt.or record.completedAt
      error := error.or record.error }

def status (runs : RunStore) (runId : String) : Option RunStatus :=
  (runs.getRun runId).map RunRecord.status

theorem status_updateRun (runs : RunStore) (runId r : String) (status : RunStatus)
    (startedAt completedAt : Option Datetime) (error : Option String) :
    (runs.updateRun runId (some status) startedAt completedAt error).status r =
      (runs.status r).map fun old => if r = runId then status else old := by
  unfold RunStore.status RunStore.getRun updateRun
  rw [OrderedMap.find?_updateWhere, Option.map_map, Option.map_map]
  congr 1
  funext record
  by_cases hr : r = runId <;> simp [hr]

end RunStore

/-! The run service. -/

/-- The status check of `execute_pending_run`. -/
def checkPending (runId : String) : Option RunRecord → Except ApiError Unit
  | none => .error (.runNotFound runId)
  | some record =>
    if record.status = .completed then
      .error (.invalidRequest s!"run is already completed: {runId}")
    else if record.status = .canceled then .error (.invalidRequest s!"run is canceled: {runId}")
    else .ok ()

/-- The status check of `cancel_run`. Returns the record to cancel; nothing where it is canceled. -/
def checkCancel (runId : String) : Option RunRecord → Except ApiError (Option RunRecord)
  | none => .error (.runNotFound runId)
  | some record =>
    if record.status = .completed then
      .error (.invalidRequest s!"completed run cannot be canceled: {runId}")
    else if record.status = .canceled then .ok none
    else .ok (some record)

/-- The write of `cancel_run`, for the record that it has read. -/
def writeCancel (runs : RunStore) (runId : String) (record : RunRecord) (now : Datetime) :
    RunStore :=
  runs.updateRun runId (some .canceled) none
    (if record.status = .pending then some now else none) (some "canceled")

/-- `cancel_run` in one piece. -/
def cancelRun (runs : RunStore) (runId : String) (now : Datetime) : Except ApiError RunStore :=
  (checkCancel runId (runs.getRun runId)).map fun found =>
    found.elim runs fun record => writeCancel runs runId record now

end Tes
