import Tes.Runs.Stores

/-! The SQLite store answers as the store in memory does: what its tables hold of a run is the
record of the run. -/
namespace Tes
open Json IsoTime Simulation

namespace SQLiteStore

/-- What the tables hold of one run. -/
@[ext] structure RunView where
  run : Option RunRow
  report : Option Dict
  verification : Option VerificationRow
  events : List (Keyed EventRow)
  snapshots : List (Keyed SnapshotRow)
  accounts : List (Keyed AccountRow)
  logs : List RunLog

def RunView.empty : RunView := ⟨none, none, none, [], [], [], []⟩

def Database.view (db : Database) (runId : String) : RunView where
  run := db.runs.find? runId
  report := db.runReports.find? runId
  verification := db.runVerifications.find? runId
  events := db.runEvents.filter (·.runId = runId)
  snapshots := db.runSnapshots.filter (·.runId = runId)
  accounts := db.runAccounts.filter (·.runId = runId)
  logs := db.runLogs.filter (·.runId = runId)

/-- Rows of a run numbered in their order. -/
def numbered {R : Type} (runId : String) (rows : List R) : List (Keyed R) :=
  rows.mapIdx fun sequence row => ⟨runId, sequence, row⟩

/-- The tables hold this record of a run. -/
structure RunView.Holds (view : RunView) (runId : String) (row : RunRow) (record : RunDetails) :
    Prop where
  run : view.run = some row
  id : record.runId = runId
  runType : record.runType = row.runType
  status : record.status = row.status
  createdAt : record.createdAt = RunStore.parseDatetime row.createdAt
  startedAt : record.startedAt = row.startedAt.bind RunStore.parseDatetime
  completedAt : record.completedAt = row.completedAt.bind RunStore.parseDatetime
  config : record.config = row.config
  error : record.error = row.error
  report : record.report = (view.report.or row.report).getD []
  verification : record.verification = (view.verification.map VerificationRow.report).getD []
  uniform : record.payloads.Uniform
  events : view.events = numbered runId (record.payloads.events.map eventRow)
  snapshots : view.snapshots = numbered runId (record.payloads.snapshots.map snapshotRow)
  accounts : view.accounts = numbered runId (record.payloads.accounts.map accountRow)
  logs : record.logs = view.logs.map RunLog.payload
  sequences : view.logs.map RunLog.sequence = List.range view.logs.length

/-- The tables hold what the store in memory has of a run, and nothing where it has nothing. -/
def RunView.Shows (view : RunView) (runId : String) : Option RunDetails → Prop
  | none => view = RunView.empty
  | some record => ∃ row, view.Holds runId row record

/-- The tables hold all the records. -/
def Database.Represents (db : Database) (records : InMemoryStore.Records) : Prop :=
  ∀ runId, (db.view runId).Shows runId (records.find? runId)

/-! Rows. -/
section Rows
variable {R : Type} {table : List (Keyed R)} {runId other : String} {rows : List R}

/-- Rows of one run are all its rows, and none of another's. -/
theorem filter_of_key {K : Type} (key : K → String) {rows : List K}
    (h : ∀ row ∈ rows, key row = runId) : (rows.filter fun row => key row = other) =
      if other = runId then rows else [] := by
  split_ifs with hother
  · apply List.filter_eq_self.mpr
    intro row hrow
    simp [h row hrow, hother]
  · apply List.filter_eq_nil_iff.mpr
    intro row hrow
    simp [h row hrow, Ne.symm hother]

/-- Rows are kept but for those of one run. -/
theorem filter_others {K : Type} (key : K → String) (table : List K) :
    (table.filter fun row => key row ≠ runId).filter (fun row => key row = other) =
      if other = runId then [] else table.filter fun row => key row = other := by
  rw [List.filter_filter]
  split_ifs with hother
  · apply List.filter_eq_nil_iff.mpr
    intro row _
    simp [hother]
  · apply List.filter_congr
    intro row _
    by_cases hrow : key row = other
    · simp [hrow, hother]
    · simp [hrow]

theorem filter_replaceRows : (replaceRows table runId rows).filter (·.runId = other) =
    if other = runId then numbered runId rows else table.filter (·.runId = other) := by
  have hkeys : ∀ row ∈ numbered runId rows, row.runId = runId := by
    intro row hrow
    obtain ⟨i, hi, rfl⟩ := List.mem_mapIdx.mp hrow
    rfl
  unfold replaceRows
  rw [List.filter_append, filter_others Keyed.runId]
  change _ ++ (numbered runId rows).filter (·.runId = other) = _
  rw [filter_of_key Keyed.runId hkeys]
  split_ifs
  · rfl
  · rw [List.append_nil]

/-- Numbered rows are listed in their order. -/
theorem rowsOf_numbered (h : table.filter (·.runId = runId) = numbered runId rows) :
    rowsOf table runId = rows := by
  unfold rowsOf
  rw [h, List.Pairwise.insertionSort_eq]
  · apply List.ext_getElem
    · simp [numbered]
    · intro i _ _
      simp [numbered]
  · rw [List.pairwise_iff_getElem]
    intro i j hi hj hij
    simp only [numbered, List.getElem_mapIdx]
    omega

end Rows

/-- The text of a time in UTC is read back. -/
theorem parseDatetime_zuluformat (d : Datetime) :
    RunStore.parseDatetime d.zuluformat = some (utcTime d) := by
  have hutc : (utcTime d).utc 0 = some d := by
    unfold WallTime.utc utcTime
    exact d.shift_zero
  have hread := RunStore.parseDatetime_formatDatetime hutc
  rw [RunStore.formatDatetime, hutc, Option.map_some, Option.bind_some] at hread
  exact hread

/-! Reading a run. -/
section Reads
variable {db : Database} {runId : String} {row : RunRow} {record : RunDetails}

theorem inRange_all : PayloadQuery.InRange {} := by
  constructor
  · exact fun limit hlimit => nomatch hlimit
  · show (0 : ℤ) < 2 ^ 63
    decide

theorem RunView.Holds.payloadRows (h : (db.view runId).Holds runId row record) :
    db.payloadRows runId =
      { events := record.payloads.events.map eventRow
        snapshots := record.payloads.snapshots.map snapshotRow
        accounts := record.payloads.accounts.map accountRow } := by
  unfold Database.payloadRows
  rw [rowsOf_numbered h.events, rowsOf_numbered h.snapshots, rowsOf_numbered h.accounts]

/-- A query of the tables selects what it selects of the record. -/
theorem RunView.Holds.selects (render : Value → String) (h : (db.view runId).Holds runId row record)
    {query : PayloadQuery} (hrange : query.InRange) :
    getEvents (db.payloadRows runId) query = some (InMemoryStore.getEvents record.payloads query) ∧
    getSnapshots (db.payloadRows runId) query =
      some (InMemoryStore.getSnapshots record.payloads query) ∧
    getAccounts (db.payloadRows runId) query =
      some (InMemoryStore.getAccounts render record.payloads query) := by
  have halike : AnswerAlike render record.payloads query := h.uniform.answerAlike hrange
  obtain ⟨rows, hrows, hsame⟩ := halike
  obtain ⟨-, -, rfl⟩ := storeResult_eq_some.mp hrows
  rw [h.payloadRows]
  exact hsame

theorem select_all (render : Value → String) (p : RunPayloads) :
    InMemoryStore.getEvents p {} = p.events ∧ InMemoryStore.getSnapshots p {} = p.snapshots ∧
      InMemoryStore.getAccounts render p {} = p.accounts := by
  refine ⟨?_, ?_, ?_⟩
  · exact page_all.trans (List.filter_true _)
  · exact page_all.trans (List.filter_true _)
  · exact page_all.trans (List.filter_true _)

/-- The logs are listed in the order of their sequences, which is that of their rows. -/
theorem RunView.Holds.logPayloads (h : (db.view runId).Holds runId row record) :
    db.logPayloads runId = record.logs := by
  have hordered : ((db.view runId).logs).Pairwise fun a b => a.sequence ≤ b.sequence := by
    have hsorted : ((db.view runId).logs.map RunLog.sequence).Pairwise (· ≤ ·) := by
      rw [h.sequences]
      exact List.pairwise_le_range
    exact List.pairwise_map.mp hsorted
  rw [h.logs]
  exact congrArg (List.map RunLog.payload) hordered.insertionSort_eq

theorem RunView.Holds.run_eq (h : (db.view runId).Holds runId row record) :
    db.runs.find? runId = some row := h.run

theorem RunView.Holds.getReport (h : (db.view runId).Holds runId row record) :
    db.getReport runId = some record.report := by
  have hrun : db.runs.find? runId = some row := h.run
  unfold Database.getReport
  rw [hrun, h.report]
  rfl

theorem RunView.Holds.getVerification (h : (db.view runId).Holds runId row record) :
    db.getVerification runId = some record.verification := by
  have hrun : db.runs.find? runId = some row := h.run
  unfold Database.getVerification
  rw [hrun, h.verification]
  rfl

theorem RunView.Holds.getRun (h : (db.view runId).Holds runId row record) :
    db.getRun runId = some record := by
  have hrun : db.runs.find? runId = some row := h.run
  obtain ⟨hevents, hsnapshots, haccounts⟩ := h.selects (fun _ => "") inRange_all
  obtain ⟨hallEvents, hallSnapshots, hallAccounts⟩ := select_all (fun _ => "") record.payloads
  rw [hallEvents] at hevents
  rw [hallSnapshots] at hsnapshots
  rw [hallAccounts] at haccounts
  have hlogs : (fetchPayloads (db.logPayloads runId) none 0).getD [] = record.logs := by
    rw [h.logPayloads]
    rfl
  unfold Database.getRun
  rw [hrun, Option.map_some, Option.some.injEq]
  unfold Database.recordFromRow
  rw [hevents, hsnapshots, haccounts, hlogs, h.getReport, h.getVerification, ← h.runType, ← h.status,
    ← h.createdAt, ← h.startedAt, ← h.completedAt, ← h.config, ← h.error, ← h.id]
  rfl

theorem Database.find?_eq_none (h : (db.view runId) = RunView.empty) :
    db.runs.find? runId = none :=
  congrArg RunView.run h

theorem Database.Represents.getRun {records : InMemoryStore.Records} (h : db.Represents records)
    (runId : String) : db.getRun runId = records.find? runId := by
  have hshows := h runId
  cases hfound : records.find? runId with
  | none =>
    rw [hfound] at hshows
    unfold Database.getRun
    rw [Database.find?_eq_none hshows]
    rfl
  | some record =>
    rw [hfound] at hshows
    obtain ⟨row, hholds⟩ := hshows
    exact hholds.getRun

theorem Database.Represents.getReport {records : InMemoryStore.Records} (h : db.Represents records)
    (runId : String) : db.getReport runId = (records.find? runId).map RunDetails.report := by
  have hshows := h runId
  cases hfound : records.find? runId with
  | none =>
    rw [hfound] at hshows
    unfold Database.getReport
    rw [Database.find?_eq_none hshows]
    rfl
  | some record =>
    rw [hfound] at hshows
    obtain ⟨row, hholds⟩ := hshows
    exact hholds.getReport

theorem Database.Represents.getVerification {records : InMemoryStore.Records}
    (h : db.Represents records) (runId : String) :
    db.getVerification runId = (records.find? runId).map RunDetails.verification := by
  have hshows := h runId
  cases hfound : records.find? runId with
  | none =>
    rw [hfound] at hshows
    unfold Database.getVerification
    rw [Database.find?_eq_none hshows]
    rfl
  | some record =>
    rw [hfound] at hshows
    obtain ⟨row, hholds⟩ := hshows
    exact hholds.getVerification

end Reads

/-! Writing to a run. -/
section Writes
variable {db : Database} {records records' : InMemoryStore.Records} (db' : Database) (runId : String)

/-- Only what the tables hold of one run has changed, and they hold its record. -/
theorem Database.Represents.of_view (h : db.Represents records)
    (hviews : ∀ id, id ≠ runId → db'.view id = db.view id)
    (hrecords : ∀ id, id ≠ runId → records'.find? id = records.find? id)
    (hshows : (db'.view runId).Shows runId (records'.find? runId)) : db'.Represents records' := by
  intro id
  by_cases hid : id = runId
  · rwa [hid]
  · rw [hviews id hid, hrecords id hid]
    exact h id

theorem Database.Represents.find?_eq_none (h : db.Represents records) (runId : String) :
    db.runs.find? runId = none ↔ records.find? runId = none := by
  have hshows := h runId
  cases hfound : records.find? runId with
  | none =>
    rw [hfound] at hshows
    exact iff_of_true (Database.find?_eq_none hshows) rfl
  | some record =>
    rw [hfound] at hshows
    obtain ⟨row, hholds⟩ := hshows
    have hrun : db.runs.find? runId = some row := hholds.run
    rw [hrun]
    exact iff_of_false (fun h => nomatch h) fun h => nomatch h

theorem Database.Represents.isSome (h : db.Represents records) (runId : String) :
    (db.runs.find? runId).isSome = (records.find? runId).isSome := by
  rw [Bool.eq_iff_iff, Option.isSome_iff_ne_none, Option.isSome_iff_ne_none, ne_eq, ne_eq,
    h.find?_eq_none]

/-- A run without payloads. -/
theorem RunPayloads.uniform_nil : RunPayloads.Uniform ⟨[], [], []⟩ where
  event_steps := by simp
  snapshot_steps := by simp
  event_symbols := by simp
  snapshots_ordered := List.Pairwise.nil
  snapshot_symbols := by simp
  account_ids := by simp
  account_symbols := by simp

theorem Database.Represents.createRun (h : db.Represents records)
    (hfresh : records.find? runId = none) (runType : RunType) (config : Dict) (now : Datetime) :
    ∃ db', db.createRun runId runType config now =
        some ((InMemoryStore.createRun records runId runType config now).1, db') ∧
      db'.Represents (InMemoryStore.createRun records runId runType config now).2 := by
  have hempty : db.view runId = RunView.empty := by
    have hshows := h runId
    rwa [hfresh] at hshows
  have hnone : (db.runs.find? runId).isSome ≠ true := by
    rw [Database.find?_eq_none hempty]
    exact Bool.false_ne_true
  unfold Database.createRun
  rw [if_neg hnone]
  refine ⟨_, rfl, h.of_view _ runId (fun id hid => ?_) (fun id hid => ?_) ?_⟩
  · unfold Database.view
    rw [OrderedMap.find?_insert, if_neg hid]
  · unfold InMemoryStore.createRun
    rw [OrderedMap.find?_insert, if_neg hid]
  · unfold InMemoryStore.createRun
    rw [OrderedMap.find?_insert, if_pos rfl]
    have hreport : db.runReports.find? runId = none := congrArg RunView.report hempty
    have hverification : db.runVerifications.find? runId = none :=
      congrArg RunView.verification hempty
    have hlogs : db.runLogs.filter (·.runId = runId) = [] := congrArg RunView.logs hempty
    refine ⟨pendingRow runType config now, ?_⟩
    constructor
    · exact (OrderedMap.find?_insert _ _ _ _).trans (if_pos rfl)
    · rfl
    · rfl
    · rfl
    · exact (parseDatetime_zuluformat now).symm
    · rfl
    · rfl
    · rfl
    · rfl
    · change [] = ((db.runReports.find? runId).or none).getD []
      rw [hreport]
      rfl
    · change [] = ((db.runVerifications.find? runId).map VerificationRow.report).getD []
      rw [hverification]
      rfl
    · exact RunPayloads.uniform_nil
    · exact congrArg RunView.events hempty
    · exact congrArg RunView.snapshots hempty
    · exact congrArg RunView.accounts hempty
    · change [] = (db.runLogs.filter (·.runId = runId)).map RunLog.payload
      rw [hlogs]
      rfl
    · change (db.runLogs.filter (·.runId = runId)).map RunLog.sequence =
        List.range (db.runLogs.filter (·.runId = runId)).length
      rw [hlogs]
      rfl

/-- A write to the record of a run that the tables follow. -/
theorem Database.Represents.change (h : db.Represents records) (f : RunDetails → RunDetails)
    (hviews : ∀ id, id ≠ runId → db'.view id = db.view id)
    (hempty : db.view runId = RunView.empty → db'.view runId = RunView.empty)
    (hholds : ∀ row record, (db.view runId).Holds runId row record →
      ∃ row', (db'.view runId).Holds runId row' (f record)) :
    db'.getRun runId = (InMemoryStore.change records runId f).1 ∧
      db'.Represents (InMemoryStore.change records runId f).2 := by
  have hchanged : ∀ id, (InMemoryStore.change records runId f).2.find? id =
      if id = runId then (records.find? id).map f else records.find? id := by
    intro id
    unfold InMemoryStore.change
    rw [OrderedMap.find?_updateWhere]
    by_cases hid : id = runId
    · simp [hid]
    · simp [hid]
  have hnext : db'.Represents (InMemoryStore.change records runId f).2 := by
    refine h.of_view db' runId hviews (fun id hid => ?_) ?_
    · rw [hchanged, if_neg hid]
    · have hshows := h runId
      rw [hchanged, if_pos rfl]
      cases hfound : records.find? runId with
      | none =>
        rw [hfound] at hshows
        exact hempty hshows
      | some record =>
        rw [hfound] at hshows
        obtain ⟨row, hrow⟩ := hshows
        exact hholds row record hrow
  refine ⟨?_, hnext⟩
  rw [hnext.getRun, hchanged, if_pos rfl]
  rfl

/-- A write to the row of a run. -/
theorem view_updateRuns (db : Database) (f : RunRow → RunRow) (id : String) :
    { db with runs := db.runs.updateWhere (fun id _ => id = runId) f }.view id =
      { db.view id with
        run := if id = runId then (db.runs.find? id).map f else db.runs.find? id } := by
  unfold Database.view
  dsimp only
  rw [OrderedMap.find?_updateWhere]
  by_cases hid : id = runId
  · simp [hid]
  · simp [hid]

theorem Database.Represents.updateRun (h : db.Represents records) (status : Option RunStatus)
    (startedAt completedAt : Option Datetime) (error : Option String) :
    (db.updateRun runId status startedAt completedAt error).1 =
        (InMemoryStore.updateRun records runId status startedAt completedAt error).1 ∧
      (db.updateRun runId status startedAt completedAt error).2.Represents
        (InMemoryStore.updateRun records runId status startedAt completedAt error).2 := by
  have htime : ∀ (given : Option Datetime) (old : Option String),
      (given.map utcTime).or (old.bind RunStore.parseDatetime) =
        ((given.map Datetime.zuluformat).or old).bind RunStore.parseDatetime := by
    intro given old
    cases given with
    | none => rw [Option.map_none, Option.map_none, Option.none_or, Option.none_or]
    | some d =>
      rw [Option.map_some, Option.map_some, Option.some_or, Option.some_or, Option.bind_some,
        parseDatetime_zuluformat]
  refine h.change (db.updateRun runId status startedAt completedAt error).2 runId _
    (fun id hid => ?_) (fun hempty => ?_) fun row record hholds => ?_
  · rw [Database.updateRun, view_updateRuns, if_neg hid]
    rfl
  · rw [Database.updateRun, view_updateRuns, hempty, Database.find?_eq_none hempty, if_pos rfl]
    rfl
  · have hrun : db.runs.find? runId = some row := hholds.run
    rw [Database.updateRun, view_updateRuns, hrun]
    refine ⟨row.updated status startedAt completedAt error, ?_⟩
    constructor
    · exact if_pos rfl
    · exact hholds.id
    · exact hholds.runType
    · rw [hholds.status]
      rfl
    · exact hholds.createdAt
    · rw [hholds.startedAt]
      exact htime startedAt row.startedAt
    · rw [hholds.completedAt]
      exact htime completedAt row.completedAt
    · exact hholds.config
    · rw [hholds.error]
      rfl
    · exact hholds.report
    · exact hholds.verification
    · exact hholds.uniform
    · exact hholds.events
    · exact hholds.snapshots
    · exact hholds.accounts
    · exact hholds.logs
    · exact hholds.sequences

theorem Database.Represents.deleteRun (h : db.Represents records) :
    (db.deleteRun runId).1 = (InMemoryStore.deleteRun records runId).1 ∧
      (db.deleteRun runId).2.Represents (InMemoryStore.deleteRun records runId).2 := by
  constructor
  · exact h.isSome runId
  · have hview : ∀ id, (db.deleteRun runId).2.view id =
        if id = runId then RunView.empty else db.view id := by
      intro id
      unfold Database.deleteRun Database.view
      dsimp only
      rw [OrderedMap.find?_erase, OrderedMap.find?_erase, OrderedMap.find?_erase,
        filter_others Keyed.runId, filter_others Keyed.runId, filter_others Keyed.runId,
        filter_others RunLog.runId]
      split_ifs
      · rfl
      · rfl
    refine h.of_view _ runId (fun id hid => ?_) (fun id hid => ?_) ?_
    · rw [hview, if_neg hid]
    · exact (OrderedMap.find?_erase _ _ _).trans (if_neg hid)
    · have herased : (InMemoryStore.deleteRun records runId).2.find? runId = none :=
        (OrderedMap.find?_erase _ _ _).trans (if_pos rfl)
      rw [herased, hview, if_pos rfl]
      rfl

/-- The logs of a result are numbered in their order. -/
theorem mapIdx_logRow (logs : List Dict) :
    (logs.mapIdx (logRow runId)).map RunLog.payload = logs ∧
      (logs.mapIdx (logRow runId)).map RunLog.sequence =
        List.range (logs.mapIdx (logRow runId)).length := by
  constructor
  · apply List.ext_getElem
    · simp
    · intro i _ _
      simp [logRow]
  · apply List.ext_getElem
    · simp
    · intro i _ _
      simp [logRow]

theorem filter_replaceLogs (db : Database) (logs : Option (List Dict)) (id : String) :
    (db.replaceLogs runId logs).filter (·.runId = id) =
      if id = runId then logs.elim (db.runLogs.filter (·.runId = id)) (·.mapIdx (logRow runId))
      else db.runLogs.filter (·.runId = id) := by
  unfold Database.replaceLogs
  cases logs with
  | none =>
    dsimp only [Option.elim_none]
    rw [ite_self]
  | some logs =>
    have hkeys : ∀ row ∈ logs.mapIdx (logRow runId), row.runId = runId := by
      intro row hrow
      obtain ⟨i, hi, rfl⟩ := List.mem_mapIdx.mp hrow
      rfl
    dsimp only [Option.elim_some]
    rw [List.filter_append, filter_others RunLog.runId, filter_of_key RunLog.runId hkeys]
    split_ifs
    · rfl
    · rw [List.append_nil]

theorem view_writeResult (db : Database) (report : Dict) (rows : PayloadRows)
    (logs : Option (List Dict)) (id : String) : (db.writeResult runId report rows logs).view id =
      if id = runId then
        { run := (db.runs.find? id).map fun row => { row with report := some report }
          report := some report
          verification := db.runVerifications.find? id
          events := numbered runId rows.events
          snapshots := numbered runId rows.snapshots
          accounts := numbered runId rows.accounts
          logs := logs.elim (db.runLogs.filter (·.runId = id)) (·.mapIdx (logRow runId)) }
      else db.view id := by
  unfold Database.writeResult Database.view
  dsimp only
  rw [OrderedMap.find?_insert, OrderedMap.find?_updateWhere, filter_replaceRows, filter_replaceRows,
    filter_replaceRows, filter_replaceLogs]
  by_cases hid : id = runId
  · simp [hid]
  · simp [hid]

theorem Database.Represents.storeResult (h : db.Represents records) (report : Dict)
    {payloads : RunPayloads} (huniform : payloads.Uniform) (logs : Option (List Dict)) :
    ∃ db', db.storeResult runId report payloads logs =
        some ((InMemoryStore.storeResult records runId report payloads logs).1, db') ∧
      db'.Represents (InMemoryStore.storeResult records runId report payloads logs).2 := by
  have hnone := h.find?_eq_none runId
  unfold Database.storeResult
  cases hrun : db.runs.find? runId with
  | none =>
    have hfound := hnone.mp hrun
    have hsame : (InMemoryStore.storeResult records runId report payloads logs).1 = none := by
      unfold InMemoryStore.storeResult InMemoryStore.change
      rw [hfound]
      rfl
    refine ⟨db, ?_, ?_⟩
    · rw [hsame]
      rfl
    · exact (h.change db runId _ (fun _ _ => rfl) id fun row record hholds => by
        have hsome : db.runs.find? runId = some row := hholds.run
        rw [hrun] at hsome
        cases hsome).2
  | some row =>
    obtain ⟨rows, hrows⟩ := huniform.storeResult
    obtain ⟨-, -, rfl⟩ := storeResult_eq_some.mp hrows
    have hwritten : (db.writeResult runId report
        { events := payloads.events.map eventRow
          snapshots := payloads.snapshots.map snapshotRow
          accounts := payloads.accounts.map accountRow } logs).getRun runId =
        (InMemoryStore.storeResult records runId report payloads logs).1 ∧
      (db.writeResult runId report
        { events := payloads.events.map eventRow
          snapshots := payloads.snapshots.map snapshotRow
          accounts := payloads.accounts.map accountRow } logs).Represents
        (InMemoryStore.storeResult records runId report payloads logs).2 := by
      refine h.change _ runId _ (fun id hid => ?_) (fun hempty => ?_) fun row record hholds => ?_
      · rw [view_writeResult, if_neg hid]
      · rw [Database.find?_eq_none hempty] at hrun
        cases hrun
      · rw [view_writeResult, if_pos rfl, hholds.run_eq]
        refine ⟨{ row with report := some report }, ?_⟩
        constructor
        · rfl
        · exact hholds.id
        · exact hholds.runType
        · exact hholds.status
        · exact hholds.createdAt
        · exact hholds.startedAt
        · exact hholds.completedAt
        · exact hholds.config
        · exact hholds.error
        · rfl
        · exact hholds.verification
        · exact huniform
        · rfl
        · rfl
        · rfl
        · cases logs with
          | none => exact hholds.logs
          | some logs => exact (mapIdx_logRow runId logs).1.symm
        · cases logs with
          | none => exact hholds.sequences
          | some logs => exact (mapIdx_logRow runId logs).2
    refine ⟨_, ?_, hwritten.2⟩
    rw [if_neg (by simp), hrows, Option.map_some, ← hwritten.1]

theorem view_appendLog (db : Database) (sequence : ℕ) (log : Dict) (id : String) :
    { db with runLogs := db.runLogs ++ [runLog runId sequence log] }.view id =
      { db.view id with
        logs := (db.view id).logs ++ if runId = id then [runLog runId sequence log] else [] } := by
  unfold Database.view
  dsimp only
  rw [List.filter_append]
  by_cases hid : runId = id
  · simp [hid, runLog]
  · simp [hid, runLog]

theorem Database.Represents.appendLog (h : db.Represents records) (log : Dict) :
    ∃ db', db.appendLog runId log = some ((InMemoryStore.appendLog records runId log).1, db') ∧
      db'.Represents (InMemoryStore.appendLog records runId log).2 := by
  have hfound : (InMemoryStore.appendLog records runId log).1 = (db.runs.find? runId).isSome := by
    rw [h.isSome]
    exact Option.isSome_map
  unfold Database.appendLog
  rw [hfound]
  cases hrun : db.runs.find? runId with
  | none =>
    refine ⟨db, rfl, ?_⟩
    exact (h.change db runId _ (fun _ _ => rfl) id fun row record hholds => by
      rw [hholds.run_eq] at hrun
      cases hrun).2
  | some row =>
    obtain ⟨record, hrecord⟩ : ∃ record, records.find? runId = some record := by
      rw [← Option.isSome_iff_exists, ← h.isSome, hrun]
      rfl
    have hshows := h runId
    rw [hrecord] at hshows
    obtain ⟨row', hholds⟩ := hshows
    have hsequences : sequencesOf db.runLogs runId =
        List.range (db.runLogs.filter (·.runId = runId)).length := hholds.sequences
    have hfresh : nextSequence db.runLogs runId ∉ sequencesOf db.runLogs runId := by
      rw [nextSequence_of_range hsequences, hsequences, List.mem_range]
      exact lt_irrefl _
    have hinsert : insertLog db.runLogs (runLog runId (nextSequence db.runLogs runId) log) =
        some (db.runLogs ++ [runLog runId (nextSequence db.runLogs runId) log]) := if_neg hfresh
    refine ⟨{ db with runLogs := db.runLogs ++ [runLog runId (nextSequence db.runLogs runId) log] },
      ?_, ?_⟩
    · rw [if_neg (by simp), hinsert]
      rfl
    · refine (h.change _ runId _ (fun id hid => ?_) (fun hempty => ?_) fun row record hholds => ?_).2
      · rw [view_appendLog, if_neg (Ne.symm hid), List.append_nil]
      · rw [Database.find?_eq_none hempty] at hrun
        cases hrun
      · have hnext : nextSequence db.runLogs runId = (db.view runId).logs.length :=
          nextSequence_of_range hsequences
        rw [view_appendLog, if_pos rfl]
        refine ⟨row, { hholds with logs := ?_, sequences := ?_ }⟩
        · rw [List.map_append, ← hholds.logs]
          rfl
        · rw [List.map_append, hholds.sequences, List.length_append, List.length_singleton,
            List.range_succ, ← hnext]
          rfl

theorem Database.Represents.storeVerification (h : db.Represents records) (report : Dict) :
    (db.storeVerification runId report).1 =
        (InMemoryStore.storeVerification records runId report).1 ∧
      (db.storeVerification runId report).2.Represents
        (InMemoryStore.storeVerification records runId report).2 := by
  have hnone := h.find?_eq_none runId
  unfold Database.storeVerification
  cases hrun : db.runs.find? runId with
  | none =>
    have hfound := hnone.mp hrun
    refine ⟨?_, ?_⟩
    · unfold InMemoryStore.storeVerification InMemoryStore.change
      rw [hfound]
      rfl
    · exact (h.change db runId _ (fun _ _ => rfl) id fun row record hholds => by
        rw [hholds.run_eq] at hrun
        cases hrun).2
  | some row =>
    have hview : ∀ id, { db with
        runVerifications := db.runVerifications.insert runId (verificationRow report) }.view id =
        { db.view id with verification :=
            if id = runId then some (verificationRow report) else db.runVerifications.find? id } := by
      intro id
      unfold Database.view
      dsimp only
      rw [OrderedMap.find?_insert]
    have hwritten := h.change { db with
        runVerifications := db.runVerifications.insert runId (verificationRow report) } runId
      (fun record => { record with verification := report }) (fun id hid => ?_) (fun hempty => ?_)
      fun row record hholds => ?_
    · rw [if_neg (by simp)]
      refine ⟨?_, hwritten.2⟩
      have hrecord : (records.find? runId).isSome := by
        rw [← h.isSome, hrun]
        rfl
      obtain ⟨record, hrecord⟩ := Option.isSome_iff_exists.mp hrecord
      unfold Database.getVerification InMemoryStore.storeVerification InMemoryStore.change
      dsimp only
      rw [hrun, OrderedMap.find?_insert, if_pos rfl, hrecord]
      rfl
    · rw [hview, if_neg hid]
      rfl
    · rw [Database.find?_eq_none hempty] at hrun
      cases hrun
    · rw [hview, if_pos rfl]
      exact ⟨row, { hholds with verification := rfl }⟩

end Writes

end SQLiteStore

/-- What the service keeps to: the ids of runs are new, the payloads of a result are uniform, and
the limits and offsets of queries are in range. -/
def StoreCall.Plain (records : InMemoryStore.Records) : StoreCall → Prop
  | .createRun runId .. => records.find? runId = none
  | .storeResult _ _ payloads _ => payloads.Uniform
  | .getEvents _ query | .getSnapshots _ query | .getAccounts _ query => query.InRange
  | .getLogs _ limit offset => PayloadQuery.InRange { limit, offset }
  | _ => True

namespace SQLiteStore
variable {render : Value → String}

/-- A query of a run. -/
theorem Database.Represents.fetch {db : Database} {records : InMemoryStore.Records}
    (h : db.Represents records) (runId : String) {payloads : Option (List Dict)}
    (answer : RunDetails → List Dict)
    (hsame : ∀ row record, (db.view runId).Holds runId row record → payloads = some (answer record)) :
    db.fetch runId payloads = .payloads ((records.find? runId).map answer) := by
  have hshows := h runId
  unfold Database.fetch
  cases hfound : records.find? runId with
  | none =>
    rw [hfound] at hshows
    rw [Database.find?_eq_none hshows]
    rfl
  | some record =>
    rw [hfound] at hshows
    obtain ⟨row, hholds⟩ := hshows
    rw [hholds.run_eq, hsame row record hholds]
    rfl

/-- The SQLite store simulates the store in memory. -/
theorem simulates : Simulates machine (InMemoryStore.machine render) Database.Represents
    StoreCall.Plain Eq := by
  have hboth : ∀ {db records call}, Database.Represents db records → StoreCall.Plain records call →
      (machine db call).1 = (InMemoryStore.machine render records call).1 ∧
        (machine db call).2.Represents (InMemoryStore.machine render records call).2 := by
    intro db records call h hplain
    cases call with
    | createRun runId runType config now =>
      obtain ⟨db', hcreate, hnext⟩ := h.createRun runId hplain runType config now
      unfold machine
      dsimp only
      rw [hcreate]
      exact ⟨rfl, hnext⟩
    | updateRun runId status startedAt completedAt error =>
      obtain ⟨hsame, hnext⟩ := h.updateRun runId status startedAt completedAt error
      exact ⟨congrArg StoreAnswer.record hsame, hnext⟩
    | getRun runId => exact ⟨congrArg StoreAnswer.record (h.getRun runId), h⟩
    | deleteRun runId =>
      obtain ⟨hsame, hnext⟩ := h.deleteRun runId
      exact ⟨congrArg StoreAnswer.flag hsame, hnext⟩
    | storeResult runId report payloads logs =>
      obtain ⟨db', hstore, hnext⟩ := h.storeResult runId report hplain logs
      unfold machine
      dsimp only
      rw [hstore]
      exact ⟨rfl, hnext⟩
    | appendLog runId log =>
      obtain ⟨db', happend, hnext⟩ := h.appendLog runId log
      unfold machine
      dsimp only
      rw [happend]
      exact ⟨rfl, hnext⟩
    | storeVerification runId report =>
      obtain ⟨hsame, hnext⟩ := h.storeVerification runId report
      exact ⟨congrArg StoreAnswer.dict hsame, hnext⟩
    | getReport runId => exact ⟨congrArg StoreAnswer.dict (h.getReport runId), h⟩
    | getVerification runId => exact ⟨congrArg StoreAnswer.dict (h.getVerification runId), h⟩
    | getEvents runId query =>
      exact ⟨h.fetch runId _ fun row record hholds => (hholds.selects render hplain).1, h⟩
    | getSnapshots runId query =>
      exact ⟨h.fetch runId _ fun row record hholds => (hholds.selects render hplain).2.1, h⟩
    | getAccounts runId query =>
      exact ⟨h.fetch runId _ fun row record hholds => (hholds.selects render hplain).2.2, h⟩
    | getLogs runId limit offset =>
      refine ⟨h.fetch runId _ fun row record hholds => ?_, h⟩
      rw [hholds.logPayloads]
      exact fetchPayloads_of_inRange hplain
  exact ⟨fun h hplain => (hboth h hplain).1, fun h hplain => (hboth h hplain).2⟩

theorem represents_empty : Database.Represents {} ∅ := fun _ => rfl

/-- Whatever calls are made, the durable store answers them as the store in memory does. -/
theorem answers_as_in_memory {calls : List StoreCall}
    (h : Steps.Each (InMemoryStore.machine render).next StoreCall.Plain ∅ calls) :
    Machine.answers machine {} calls = (InMemoryStore.machine render).answers ∅ calls := by
  have hanswers := simulates.answers represents_empty h
  exact List.forall₂_eq_eq_eq ▸ hanswers

/-- A run gets a result and a log, is asked for the trades of a symbol, and is deleted. -/
theorem answers_as_in_memory_oneRun :
    let now : Datetime := .ofSeconds 0 (by decide)
    let event : Dict := [("type", .str "trade"), ("data", .dict [("symbol", .str "A")])]
    let calls : List StoreCall :=
      [.createRun "r" .backtest [("seed", .int 7)] now,
        .updateRun "r" (some .running) (some now) none none,
        .storeResult "r" [("trades", .int 1)] ⟨[event], [], []⟩ none,
        .appendLog "r" [("level", .str "info")],
        .getEvents "r" { symbol := some "A" },
        .deleteRun "r",
        .getRun "r"]
    Machine.answers machine {} calls = (InMemoryStore.machine fun _ => "").answers ∅ calls := by
  intro now event calls
  have huniform : RunPayloads.Uniform ⟨[event], [], []⟩ := by
    constructor
    · exact List.forall_mem_singleton.mpr (by decide)
    · simp
    · refine List.forall_mem_singleton.mpr fun data symbol _ hsymbol => ?_
      have hmissing : event.get "symbol" = none := by decide +kernel
      rw [hmissing] at hsymbol
      cases hsymbol
    · exact List.Pairwise.nil
    · simp
    · simp
    · simp
  have hrange : PayloadQuery.InRange { symbol := some "A" } := by
    constructor
    · exact fun limit hlimit => nomatch hlimit
    · show (0 : ℤ) < 2 ^ 63
      decide
  exact answers_as_in_memory
    ⟨rfl, trivial, huniform, trivial, hrange, trivial, trivial, trivial⟩

end SQLiteStore
end Tes
