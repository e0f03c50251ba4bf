import Tes.Library.Simulation
import Tes.Runs.Chronology
import Tes.Runs.RunLogs

/-! The two stores of runs behind one interface: records in memory, and rows of SQLite tables. A
column of JSON text holds the dict that its text stands for. -/
namespace Tes
open Json IsoTime Simulation

inductive RunType
  | session
  | backtest
  | benchmark
  deriving DecidableEq, Repr

/-- A run record with its results, as both stores return it. -/
structure RunDetails where
  runId : String
  runType : RunType
  status : RunStatus
  createdAt : Option WallTime
  startedAt : Option WallTime := none
  completedAt : Option WallTime := none
  config : Dict := []
  report : Dict := []
  payloads : RunPayloads := ⟨[], [], []⟩
  logs : List Dict := []
  error : Option String := none
  verification : Dict := []

/-- An aware datetime in UTC. -/
def utcTime (d : Datetime) : WallTime := { wall := d, offset := some 0 }

inductive StoreCall
  | createRun (runId : String) (runType : RunType) (config : Dict) (now : Datetime)
  | updateRun (runId : String) (status : Option RunStatus) (startedAt completedAt : Option Datetime)
      (error : Option String)
  | getRun (runId : String)
  | deleteRun (runId : String)
  | storeResult (runId : String) (report : Dict) (payloads : RunPayloads) (logs : Option (List Dict))
  | appendLog (runId : String) (log : Dict)
  | storeVerification (runId : String) (report : Dict)
  | getReport (runId : String)
  | getVerification (runId : String)
  | getEvents (runId : String) (query : PayloadQuery)
  | getSnapshots (runId : String) (query : PayloadQuery)
  | getAccounts (runId : String) (query : PayloadQuery)
  | getLogs (runId : String) (limit : Option ℤ) (offset : ℤ)

inductive StoreAnswer
  | record (record : Option RunDetails)
  | flag (found : Bool)
  | dict (dict : Option Dict)
  | payloads (payloads : Option (List Dict))
  | raised

/-! The store in memory. -/
namespace InMemoryStore

/-- The records by run id; the order they were added in only matters to listings. -/
abbrev Records := Table RunDetails

variable (records : Records) (runId : String)

def createRun (runType : RunType) (config : Dict) (now : Datetime) : RunDetails × Records :=
  let record := { runId, runType, status := .pending, createdAt := some (utcTime now), config }
  (record, records.insert runId record)

/-- Change the record of a run, and return it. -/
def change (f : RunDetails → RunDetails) : Option RunDetails × Records :=
  ((records.find? runId).map f, records.updateWhere (fun id _ => id = runId) f)

def updateRun (status : Option RunStatus) (startedAt completedAt : Option Datetime)
    (error : Option String) : Option RunDetails × Records :=
  change records runId fun record =>
    { record with
      status := status.getD record.status
      startedAt := (startedAt.map utcTime).or record.startedAt
      completedAt := (completedAt.map utcTime).or record.completedAt
      error := error.or record.error }

def deleteRun : Bool × Records := ((records.find? runId).isSome, records.erase runId)

def storeResult (report : Dict) (payloads : RunPayloads) (logs : Option (List Dict)) :
    Option RunDetails × Records :=
  change records runId fun record =>
    { record with report, payloads, logs := logs.getD record.logs }

def appendLog (log : Dict) : Bool × Records :=
  let (record, records) :=
    change records runId fun record => { record with logs := record.logs ++ [log] }
  (record.isSome, records)

def storeVerification (report : Dict) : Option Dict × Records :=
  let (record, records) := change records runId fun record => { record with verification := report }
  (record.map RunDetails.verification, records)

def getLogs (limit : Option ℤ) (offset : ℤ) : Option (List Dict) :=
  (records.find? runId).map fun record => page record.logs limit offset

/-- The answer of the store to a call. -/
def machine (render : Value → String) : Machine Records StoreCall StoreAnswer
  | records, .createRun runId runType config now =>
    let (record, records) := createRun records runId runType config now
    (.record (some record), records)
  | records, .updateRun runId status startedAt completedAt error =>
    (updateRun records runId status startedAt completedAt error).map StoreAnswer.record id
  | records, .getRun runId => (.record (records.find? runId), records)
  | records, .deleteRun runId => (deleteRun records runId).map StoreAnswer.flag id
  | records, .storeResult runId report payloads logs =>
    (storeResult records runId report payloads logs).map StoreAnswer.record id
  | records, .appendLog runId log => (appendLog records runId log).map StoreAnswer.flag id
  | records, .storeVerification runId report =>
    (storeVerification records runId report).map StoreAnswer.dict id
  | records, .getReport runId => (.dict ((records.find? runId).map RunDetails.report), records)
  | records, .getVerification runId =>
    (.dict ((records.find? runId).map RunDetails.verification), records)
  | records, .getEvents runId query =>
    (.payloads ((records.find? runId).map fun record => getEvents record.payloads query), records)
  | records, .getSnapshots runId query =>
    (.payloads ((records.find? runId).map fun record => getSnapshots record.payloads query), records)
  | records, .getAccounts runId query =>
    (.payloads ((records.find? runId).map fun record =>
      getAccounts render record.payloads query), records)
  | records, .getLogs runId limit offset => (.payloads (getLogs records runId limit offset), records)

end InMemoryStore

/-! The store in SQLite. -/
namespace SQLiteStore

/-- A row of `runs`. A time column holds the ISO 8601 text of its datetime. -/
structure RunRow where
  runType : RunType
  status : RunStatus
  createdAt : String
  startedAt : Option String
  completedAt : Option String
  config : Dict
  report : Option Dict
  error : Option String

/-- A row of `run_verifications`. -/
structure VerificationRow where
  verifiedAt : Option String
  status : String
  report : Dict

/-- The rows of a payload table, with their primary key. -/
structure Keyed (R : Type) where
  runId : String
  sequence : ℕ
  row : R

structure Database where
  runs : Table RunRow := ∅
  runReports : Table Dict := ∅
  runVerifications : Table VerificationRow := ∅
  runEvents : List (Keyed EventRow) := []
  runSnapshots : List (Keyed SnapshotRow) := []
  runAccounts : List (Keyed AccountRow) := []
  runLogs : List RunLog := []

/-- `_replace_payload_rows`. -/
def replaceRows {R : Type} (table : List (Keyed R)) (runId : String) (rows : List R) :
    List (Keyed R) :=
  table.filter (·.runId ≠ runId) ++ rows.mapIdx fun sequence row => ⟨runId, sequence, row⟩

/-- The rows of a run, by their sequence. -/
def rowsOf {R : Type} (table : List (Keyed R)) (runId : String) : List R :=
  ((table.filter (·.runId = runId)).insertionSort fun a b => a.sequence ≤ b.sequence).map Keyed.row

/-- `_log_rows`, for one log. -/
def logRow (runId : String) (sequence : ℕ) (log : Dict) : RunLog where
  runId
  sequence
  level := stringOrNone (log.get "level")
  message := stringOrNone (log.get "message")
  payload := log

def verificationRow (report : Dict) : VerificationRow where
  verifiedAt := stringOrNone (report.get "verified_at")
  status :=
    match stringOrNone (report.get "status") with
    | some status => if status = "" then "failed" else status
    | none => "failed"
  report

/-- The row of a new run. -/
def pendingRow (runType : RunType) (config : Dict) (now : Datetime) : RunRow where
  runType
  status := .pending
  createdAt := now.zuluformat
  startedAt := none
  completedAt := none
  config
  report := none
  error := none

/-- Write the columns that are given. -/
def RunRow.updated (row : RunRow) (status : Option RunStatus) (startedAt completedAt : Option Datetime)
    (error : Option String) : RunRow :=
  { row with
    status := status.getD row.status
    startedAt := (startedAt.map Datetime.zuluformat).or row.startedAt
    completedAt := (completedAt.map Datetime.zuluformat).or row.completedAt
    error := error.or row.error }

namespace Database
variable (db : Database) (runId : String)

/-- Nothing where the primary key is taken. -/
def createRun (runType : RunType) (config : Dict) (now : Datetime) :
    Option (RunDetails × Database) :=
  if (db.runs.find? runId).isSome then none
  else
    let record := { runId, runType, status := .pending, createdAt := some (utcTime now), config }
    some (record, { db with runs := db.runs.insert runId (pendingRow runType config now) })

def getReport : Option Dict :=
  (db.runs.find? runId).map fun row => ((db.runReports.find? runId).or row.report).getD []

def getVerification : Option Dict :=
  (db.runs.find? runId).map fun _ =>
    ((db.runVerifications.find? runId).map VerificationRow.report).getD []

/-- The rows of the payload tables that belong to a run. -/
def payloadRows : PayloadRows where
  events := rowsOf db.runEvents runId
  snapshots := rowsOf db.runSnapshots runId
  accounts := rowsOf db.runAccounts runId

/-- The logs of a run, by their sequence. -/
def logPayloads : List Dict :=
  ((db.runLogs.filter (·.runId = runId)).insertionSort fun a b =>
    a.sequence ≤ b.sequence).map RunLog.payload

/-- `_record_from_row`. -/
def recordFromRow (row : RunRow) : RunDetails where
  runId
  runType := row.runType
  status := row.status
  createdAt := RunStore.parseDatetime row.createdAt
  startedAt := row.startedAt.bind RunStore.parseDatetime
  completedAt := row.completedAt.bind RunStore.parseDatetime
  config := row.config
  report := (db.getReport runId).getD []
  payloads :=
    { events := (getEvents (db.payloadRows runId) {}).getD []
      snapshots := (getSnapshots (db.payloadRows runId) {}).getD []
      accounts := (getAccounts (db.payloadRows runId) {}).getD [] }
  logs := (fetchPayloads (db.logPayloads runId) none 0).getD []
  error := row.error
  verification := (db.getVerification runId).getD []

def getRun : Option RunDetails := (db.runs.find? runId).map (db.recordFromRow runId)

def updateRun (status : Option RunStatus) (startedAt completedAt : Option Datetime)
    (error : Option String) : Option RunDetails × Database :=
  let db := { db with
    runs := db.runs.updateWhere (fun id _ => id = runId) fun row =>
      row.updated status startedAt completedAt error }
  (db.getRun runId, db)

/-- Delete a run; the rows that refer to it go with it. -/
def deleteRun : Bool × Database :=
  ((db.runs.find? runId).isSome,
    { runs := db.runs.erase runId
      runReports := db.runReports.erase runId
      runVerifications := db.runVerifications.erase runId
      runEvents := db.runEvents.filter (·.runId ≠ runId)
      runSnapshots := db.runSnapshots.filter (·.runId ≠ runId)
      runAccounts := db.runAccounts.filter (·.runId ≠ runId)
      runLogs := db.runLogs.filter (·.runId ≠ runId) })

/-- The logs of a result replace those of its run, unless there are none given. -/
def replaceLogs (logs : Option (List Dict)) : List RunLog :=
  match logs with
  | some logs => db.runLogs.filter (·.runId ≠ runId) ++ logs.mapIdx (logRow runId)
  | none => db.runLogs

/-- The statements of `store_result`. -/
def writeResult (report : Dict) (rows : PayloadRows) (logs : Option (List Dict)) : Database :=
  { db with
    runReports := db.runReports.insert runId report
    runs := db.runs.updateWhere (fun id _ => id = runId) fun row => { row with report := some report }
    runEvents := replaceRows db.runEvents runId rows.events
    runSnapshots := replaceRows db.runSnapshots runId rows.snapshots
    runAccounts := replaceRows db.runAccounts runId rows.accounts
    runLogs := db.replaceLogs runId logs }

/-- Nothing where a step does not fit its column, and then nothing is stored. -/
def storeResult (report : Dict) (payloads : RunPayloads) (logs : Option (List Dict)) :
    Option (Option RunDetails × Database) :=
  if (db.runs.find? runId).isNone then some (none, db)
  else (SQLiteStore.storeResult payloads).map fun rows =>
    let db := db.writeResult runId report rows logs
    (db.getRun runId, db)

/-- Nothing where the sequence is taken. -/
def appendLog (log : Dict) : Option (Bool × Database) :=
  if (db.runs.find? runId).isNone then some (false, db)
  else (insertLog db.runLogs (runLog runId (nextSequence db.runLogs runId) log)).map fun runLogs =>
    (true, { db with runLogs })

def storeVerification (report : Dict) : Option Dict × Database :=
  if (db.runs.find? runId).isNone then (none, db)
  else
    let db := { db with
      runVerifications := db.runVerifications.insert runId (verificationRow report) }
    (db.getVerification runId, db)

/-- The payloads of a run that exists, unless the query raises. -/
def fetch (payloads : Option (List Dict)) : StoreAnswer :=
  if (db.runs.find? runId).isNone then .payloads none
  else
    match payloads with
    | some payloads => .payloads (some payloads)
    | none => .raised

end Database

/-- The answer of the store to a call. A call that raises leaves the database as it was. -/
def machine : Machine Database StoreCall StoreAnswer
  | db, .createRun runId runType config now =>
    match db.createRun runId runType config now with
    | some (record, db) => (.record (some record), db)
    | none => (.raised, db)
  | db, .updateRun runId status startedAt completedAt error =>
    (db.updateRun runId status startedAt completedAt error).map StoreAnswer.record id
  | db, .getRun runId => (.record (db.getRun runId), db)
  | db, .deleteRun runId => (db.deleteRun runId).map StoreAnswer.flag id
  | db, .storeResult runId report payloads logs =>
    match db.storeResult runId report payloads logs with
    | some (record, db) => (.record record, db)
    | none => (.raised, db)
  | db, .appendLog runId log =>
    match db.appendLog runId log with
    | some (found, db) => (.flag found, db)
    | none => (.raised, db)
  | db, .storeVerification runId report =>
    (db.storeVerification runId report).map StoreAnswer.dict id
  | db, .getReport runId => (.dict (db.getReport runId), db)
  | db, .getVerification runId => (.dict (db.getVerification runId), db)
  | db, .getEvents runId query =>
    (db.fetch runId (getEvents (db.payloadRows runId) query), db)
  | db, .getSnapshots runId query =>
    (db.fetch runId (getSnapshots (db.payloadRows runId) query), db)
  | db, .getAccounts runId query =>
    (db.fetch runId (getAccounts (db.payloadRows runId) query), db)
  | db, .getLogs runId limit offset =>
    (db.fetch runId (fetchPayloads (db.logPayloads runId) limit offset), db)

end SQLiteStore
end Tes
