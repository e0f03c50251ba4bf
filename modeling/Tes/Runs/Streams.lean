import Tes.Library.FiniteMap
import Tes.Library.Lists
import Tes.Runs.Chronology
import Tes.Runs.Payloads
import Tes.Runs.RunLogs

/-! Stream messages are replayed from memory by the service that published them, and from the logs
of their run by a service that starts later. -/
namespace Tes.Streams
open Json

inductive StreamCategory
  | status
  | progress
  | event
  | snapshot
  | account
  | log
  | error
  | completed
  deriving DecidableEq

namespace StreamCategory

def text : StreamCategory → String
  | status => "status"
  | progress => "progress"
  | event => "event"
  | snapshot => "snapshot"
  | account => "account"
  | log => "log"
  | error => "error"
  | completed => "completed"

def all : List StreamCategory :=
  [status, progress, event, snapshot, account, log, error, completed]

def ofText (text : String) : Option StreamCategory := all.find? fun category => category.text = text

end StreamCategory

/-- A message, with its time among the datetimes `T`. -/
structure StreamMessage (T : Type) where
  runId : String
  timestamp : T
  step : Option ℤ
  category : StreamCategory
  type : String
  payload : Dict

/-- The texts of datetimes, and how the message model reads a dict; a dict it rejects raises. -/
structure Formats (T : Type) where
  isoformat : T → String
  fromIsoformat : String → Option T
  dumpTimestamp : T → String
  modelValidate : Dict → Option (StreamMessage T)

def stepValue (step : Option ℤ) : Value := step.elim .null .int

def replaceText (old new text : String) : String :=
  String.ofList (IsoTime.replaceFrom old.toList new.toList 0 text.toList)

namespace Formats
variable {T : Type} (formats : Formats T)

/-- The JSON form of a message. -/
def modelDump (message : StreamMessage T) : Dict :=
  [("run_id", .str message.runId), ("timestamp", .str (formats.dumpTimestamp message.timestamp)),
    ("step", stepValue message.step), ("category", .str message.category.text),
    ("type", .str message.type), ("payload", .dict message.payload)]

/-- The model reads back what it writes. -/
def RoundTrips : Prop := ∀ message, formats.modelValidate (formats.modelDump message) = some message

def toLog (message : StreamMessage T) : Dict :=
  [("timestamp", .str (replaceText "+00:00" "Z" (formats.isoformat message.timestamp))),
    ("step", stepValue message.step), ("level", .str message.category.text),
    ("category", .str message.category.text), ("type", .str message.type),
    ("message", .str message.type), ("payload", .dict message.payload),
    ("stream", .dict (formats.modelDump message))]

/-- The time of a log; the clock where it has none. -/
def parseTimestamp (now : T) : Option Value → Option T
  | some (.str text) => formats.fromIsoformat (replaceText "Z" "+00:00" text)
  | _ => some now

/-- The message of a log that is no stream log, if it can be read as one. -/
def readLog (render : Value → String) (now : T) (runId : String) (log : Dict) :
    Option (StreamMessage T) := do
  let label ← stringOrNone (firstTruthy (log.get "category") (log.get "level"))
  let timestamp ← formats.parseTimestamp now (log.get "timestamp")
  let category ← StreamCategory.ofText label
  let type := pyStr render
    (firstTruthy (log.get "type") (firstTruthy (log.get "message") (some (.str label))))
  let payload := match log.get "payload" with
    | some (.dict items) => items
    | _ => []
  return { runId, timestamp, step := intOrNone (log.get "step"), category, type, payload }

/-- The message of a log, if it has one; nothing where the model raises. -/
def fromLog (render : Value → String) (now : T) (runId : String) (log : Dict) :
    Option (Option (StreamMessage T)) :=
  match log.get "stream" with
  | some (.dict stream) => (formats.modelValidate stream).map some
  | _ => some (formats.readLog render now runId log)

end Formats

/-! The store. -/

/-- The tables that the logs of runs are in. -/
structure LogTables where
  runs : List String
  runLogs : List RunLog

namespace LogTables

/-- Append a log, and tell whether its run exists; nothing where its sequence is taken. -/
def appendLog (s : LogTables) (runId : String) (log : Dict) : Option (LogTables × Bool) :=
  if runId ∈ s.runs then
    (insertLog s.runLogs (runLog runId (nextSequence s.runLogs runId) log)).map fun runLogs =>
      ({ s with runLogs }, true)
  else some (s, false)

/-- The logs of a run in the order of their sequence, unless there is no such run; nothing where a
bound does not fit an integer. -/
def getLogs (s : LogTables) (runId : String) (limit : Option ℤ) (offset : ℤ) :
    Option (Option (List Dict)) :=
  if runId ∈ s.runs then
    let rows := (s.runLogs.filter (·.runId = runId)).insertionSort fun a b => a.sequence ≤ b.sequence
    (SQLiteStore.fetchPayloads (rows.map RunLog.payload) limit offset).map some
  else some none

end LogTables

/-! The service. -/

/-- The messages that a service keeps of each run, at most as many as its deques may hold. -/
structure StreamService (T : Type) where
  recentLimit : ℕ
  recent : Finmap fun _ : String => List (StreamMessage T)
  pos : 0 < recentLimit
  fits : isSqliteInteger recentLimit

namespace StreamService
variable {T : Type} (formats : Formats T)

def start (recentLimit : ℕ) (pos : 0 < recentLimit) (fits : isSqliteInteger recentLimit) :
    StreamService T :=
  { recentLimit, recent := ∅, pos, fits }

/-- Publish a message and persist it; nothing where it is a message of another run. -/
def publish (service : StreamService T) (store : LogTables) (runId : String)
    (message : StreamMessage T) : Option (StreamService T × LogTables) :=
  if message.runId ≠ runId then none
  else
    let recent := (service.recent.valueD runId [] ++ [message]).rtake service.recentLimit
    let service := { service with recent := service.recent.insert runId recent }
    (store.appendLog runId (formats.toLog message)).map fun result => (service, result.1)

/-- The last messages of a run, from memory if there are any; nothing where a log raises. -/
def replayRecent (service : StreamService T) (render : Value → String) (now : T)
    (store : LogTables) (runId : String) (limit : ℤ) : Option (List (StreamMessage T)) :=
  let boundedLimit := max 0 limit
  if boundedLimit = 0 then some []
  else
    let recent := service.recent.valueD runId []
    if recent ≠ [] then some (recent.rtake boundedLimit.toNat)
    else do
      match ← store.getLogs runId (some boundedLimit) 0 with
      | none => return []
      | some logs =>
        let messages ← (logs.rtake boundedLimit.toNat).mapM (formats.fromLog render now runId)
        return messages.filterMap id

end StreamService

/-! What the store keeps. -/
section Store
variable {s s' : LogTables} {runId other : String} {log : Dict} {found : Bool} {logs : List Dict}

/-- The rows of a run are its logs, numbered from zero. -/
def Numbers (s : LogTables) (runId : String) (logs : List Dict) : Prop :=
  s.runLogs.filter (·.runId = runId) = logs.mapIdx fun i log => runLog runId i log

theorem Numbers.sequences (h : Numbers s runId logs) :
    sequencesOf s.runLogs runId = List.range logs.length := by
  unfold sequencesOf
  rw [h]
  apply List.ext_getElem
  · simp
  · simp [runLog]

/-- A log that is appended is the last of its run. -/
theorem Numbers.appendLog (h : Numbers s runId logs) (hrun : runId ∈ s.runs)
    (happend : s.appendLog other log = some (s', found)) :
    s'.runs = s.runs ∧ Numbers s' runId (if other = runId then logs ++ [log] else logs) := by
  unfold LogTables.appendLog at happend
  split_ifs at happend with hother
  · obtain ⟨runLogs, hinsert, heq⟩ := Option.map_eq_some_iff.mp happend
    obtain ⟨rfl, -⟩ := Prod.mk.inj heq
    unfold insertLog at hinsert
    split_ifs at hinsert
    rw [← Option.some.inj hinsert]
    refine ⟨rfl, ?_⟩
    unfold Numbers at h ⊢
    dsimp only
    rw [List.filter_append, h]
    by_cases hsame : other = runId
    · subst hsame
      have hnext := nextSequence_of_range (Numbers.sequences h)
      rw [if_pos rfl, List.mapIdx_append, hnext]
      simp [runLog]
    · rw [if_neg hsame]
      simp [runLog, hsame]
  · obtain ⟨rfl, -⟩ := Prod.mk.inj (Option.some.inj happend)
    have hne : other ≠ runId := fun heq => hother (heq ▸ hrun)
    rw [if_neg hne]
    exact ⟨rfl, h⟩

/-- The logs of a run, as many as the limit asks for. -/
theorem Numbers.getLogs (h : Numbers s runId logs) (hrun : runId ∈ s.runs) {limit : ℕ}
    (hfits : isSqliteInteger limit) :
    s.getLogs runId (some limit) 0 = some (some (logs.take limit)) := by
  have hsorted : (s.runLogs.filter (·.runId = runId)).Pairwise
      fun a b => a.sequence ≤ b.sequence := by
    have hrange : (sequencesOf s.runLogs runId).Pairwise (· ≤ ·) := by
      rw [h.sequences]
      exact List.pairwise_le_range
    exact List.pairwise_map.mp hrange
  have hpayloads : (s.runLogs.filter (·.runId = runId)).map RunLog.payload = logs := by
    rw [h]
    apply List.ext_getElem
    · simp
    · simp [runLog]
  unfold LogTables.getLogs SQLiteStore.fetchPayloads
  rw [if_pos hrun, hsorted.insertionSort_eq]
  have hlimit : max 0 (limit : ℤ) = limit := by omega
  dsimp only
  rw [hpayloads, hlimit, if_pos ⟨hfits, by decide⟩]
  simp

end Store

/-! The calls on a service and its store. -/

/-- What workers and cancel requests log. -/
inductive OtherLog
  | workerClaimed (workerId : String)
  | executionFailed (error : String)
  | cancellationRequested (status timestamp : String)

def OtherLog.log : OtherLog → Dict
  | workerClaimed workerId =>
    [("level", .str "info"), ("message", .str "worker claimed run"), ("worker_id", .str workerId)]
  | executionFailed error =>
    [("level", .str "error"), ("message", .str "worker execution failed"), ("error", .str error)]
  | cancellationRequested status timestamp =>
    [("level", .str "warning"), ("message", .str "run cancellation requested"),
      ("status", .str status), ("timestamp", .str timestamp)]

inductive Call (T : Type)
  | publish (runId : String) (message : StreamMessage T)
  | append (runId : String) (log : OtherLog)

/-- A message or another log of a run. -/
abbrev Entry (T : Type) := StreamMessage T ⊕ OtherLog

def Call.entry {T : Type} (runId : String) : Call T → Option (Entry T)
  | publish r message => if r = runId then some (.inl message) else none
  | append r log => if r = runId then some (.inr log) else none

def published {T : Type} (entries : List (Entry T)) : List (StreamMessage T) :=
  entries.filterMap Sum.getLeft?

section Exec
variable {T : Type} (formats : Formats T)

def step (s : StreamService T × LogTables) : Call T → Option (StreamService T × LogTables)
  | .publish runId message => s.1.publish formats s.2 runId message
  | .append runId log => (s.2.appendLog runId log.log).map fun result => (s.1, result.1)

def exec (s : StreamService T × LogTables) (calls : List (Call T)) :
    Option (StreamService T × LogTables) :=
  calls.foldlM (step formats) s

/-- The log of an entry. -/
def entryLog : Entry T → Dict
  | .inl message => formats.toLog message
  | .inr log => log.log

/-- The message that the log of a failed execution is read as. -/
def failure (now : T) (runId : String) : StreamMessage T :=
  { runId, timestamp := now, step := none, category := .error, type := "worker execution failed"
    payload := [] }

/-- What a log is read as. -/
def reading (now : T) (runId : String) : Entry T → Option (StreamMessage T)
  | .inl message => some message
  | .inr (.executionFailed _) => some (failure now runId)
  | .inr _ => none

/-- The service that published the messages of a run and one that starts on its store both replay
the last of them, at any time. -/
def SurvivesRestart (render : Value → String) (service : StreamService T) (store : LogTables)
    (runId : String) (messages : List (StreamMessage T)) (limit : ℕ) : Prop :=
  ∀ now : T,
    service.replayRecent formats render now store runId limit = some (messages.rtake limit) ∧
    (StreamService.start service.recentLimit service.pos service.fits).replayRecent formats render
      now store runId limit = some (messages.rtake limit)

/-- No failed execution is among the first logs of a run, and no message comes after these, or they
are all messages that the last ones repeat. -/
structure KeepsLast (entries : List (Entry T)) (limit : ℕ) : Prop where
  noFailure : ∀ error, .inr (.executionFailed error) ∉ entries.take limit
  last : published (entries.drop limit) = [] ∨
    (published (entries.take limit)).length = limit ∧
      (published entries).take limit = (published entries).rtake limit

/-- What a service and its store hold of the entries of a run. -/
structure Holds (runId : String) (s : StreamService T × LogTables) (entries : List (Entry T)) :
    Prop where
  run : runId ∈ s.2.runs
  recent : s.1.recent.valueD runId [] = (published entries).rtake s.1.recentLimit
  stored : Numbers s.2 runId (entries.map (entryLog formats))

end Exec

/-! What the logs are read as. -/
section Readings
variable {T : Type} {formats : Formats T} (render : Value → String) (now : T) {runId : String}

theorem fromLog_entryLog (hread : formats.RoundTrips) (entry : Entry T) :
    formats.fromLog render now runId (entryLog formats entry) = some (reading now runId entry) := by
  cases entry with
  | inl message =>
    have hstream : (formats.toLog message).get "stream" =
        some (.dict (formats.modelDump message)) := rfl
    unfold Formats.fromLog entryLog
    dsimp only
    rw [hstream]
    dsimp only
    rw [hread message]
    rfl
  | inr log =>
    cases log with
    | workerClaimed workerId => rfl
    | executionFailed error => rfl
    | cancellationRequested status timestamp =>
      -- its level is no category, whether or not its timestamp can be read
      have hnone : formats.readLog render now runId
          (OtherLog.cancellationRequested status timestamp).log = none := by
        have hlabel : stringOrNone (firstTruthy
            (Dict.get (OtherLog.cancellationRequested status timestamp).log "category")
            (Dict.get (OtherLog.cancellationRequested status timestamp).log "level")) =
              some "warning" := rfl
        have hcategory : StreamCategory.ofText "warning" = none := by decide
        unfold Formats.readLog
        rw [hlabel, Option.bind_eq_bind, Option.bind_some, hcategory]
        cases formats.parseTimestamp now
          (Dict.get (OtherLog.cancellationRequested status timestamp).log "timestamp") <;> rfl
      exact congrArg some hnone

theorem mapM_fromLog (hread : formats.RoundTrips) (entries : List (Entry T)) :
    (entries.map (entryLog formats)).mapM (formats.fromLog render now runId) =
      some (entries.map (reading now runId)) := by
  induction entries with
  | nil => rfl
  | cons entry rest ih =>
    rw [List.map_cons, List.mapM_cons, fromLog_entryLog render now hread, Option.bind_eq_bind,
      Option.bind_some, ih]
    rfl

/-- Without failed executions the logs are read as the messages, at any time. -/
theorem readings_eq_published {entries : List (Entry T)}
    (h : ∀ error, .inr (.executionFailed error) ∉ entries) :
    entries.filterMap (reading now runId) = published entries := by
  unfold published
  apply List.filterMap_congr
  intro entry hentry
  match entry with
  | .inl message => rfl
  | .inr (.workerClaimed _) => rfl
  | .inr (.cancellationRequested _ _) => rfl
  | .inr (.executionFailed error) => exact absurd hentry (h error)

/-- A failed execution is read differently at different times. -/
theorem noFailure_of_readings_eq {entries : List (Entry T)} {later : T} (hne : now ≠ later)
    (h : entries.filterMap (reading now runId) = entries.filterMap (reading later runId))
    (error : String) : .inr (.executionFailed error) ∉ entries := by
  induction entries with
  | nil => exact List.not_mem_nil
  | cons entry rest ih =>
    rw [List.mem_cons, not_or]
    match entry with
    | .inl message => exact ⟨Sum.inr_ne_inl, ih (List.cons.inj h).2⟩
    | .inr (.workerClaimed _) => exact ⟨by simp, ih h⟩
    | .inr (.cancellationRequested _ _) => exact ⟨by simp, ih h⟩
    | .inr (.executionFailed _) =>
      have hhead := (List.cons.inj h).1
      exact absurd (congrArg StreamMessage.timestamp hhead) hne

end Readings

/-! What the calls leave. -/
section Runs
variable {T : Type} {formats : Formats T} {runId : String} {s s' : StreamService T × LogTables}
  {entries : List (Entry T)}

theorem published_append (xs ys : List (Entry T)) :
    published (xs ++ ys) = published xs ++ published ys := List.filterMap_append ..

theorem Numbers.entry {store : LogTables} {r : String} (entry : Entry T)
    (h : Numbers store runId (if r = runId then entries.map (entryLog formats) ++
      [entryLog formats entry] else entries.map (entryLog formats))) :
    Numbers store runId
      ((entries ++ (if r = runId then some entry else none).toList).map (entryLog formats)) := by
  by_cases hsame : r = runId
  · rw [if_pos hsame] at h ⊢
    rwa [List.map_append]
  · rw [if_neg hsame] at h ⊢
    rwa [Option.toList_none, List.append_nil]

/-- What a call adds to the entries of a run. -/
theorem Holds.step (h : Holds formats runId s entries) {call : Call T}
    (hstep : step formats s call = some s') :
    Holds formats runId s' (entries ++ (call.entry runId).toList) ∧
      s'.1.recentLimit = s.1.recentLimit := by
  cases call with
  | publish r message =>
    dsimp only [Streams.step] at hstep
    unfold StreamService.publish at hstep
    split_ifs at hstep
    obtain ⟨⟨store, found⟩, happend, rfl⟩ := Option.map_eq_some_iff.mp hstep
    obtain ⟨hruns, hnumbers⟩ := h.stored.appendLog h.run happend
    refine ⟨⟨?_, ?_, ?_⟩, rfl⟩
    · exact hruns ▸ h.run
    · dsimp only [Call.entry]
      rw [Finmap.valueD_insert, published_append]
      by_cases hsame : runId = r
      · subst hsame
        rw [if_pos rfl, if_pos rfl, h.recent, Lists.rtake_rtake_append]
        rfl
      · rw [if_neg hsame, if_neg (Ne.symm hsame), h.recent]
        exact congrArg (List.rtake · s.1.recentLimit) (List.append_nil _).symm
    · exact Numbers.entry (.inl message) hnumbers
  | append r log =>
    dsimp only [Streams.step] at hstep
    obtain ⟨⟨store, found⟩, happend, rfl⟩ := Option.map_eq_some_iff.mp hstep
    obtain ⟨hruns, hnumbers⟩ := h.stored.appendLog h.run happend
    refine ⟨⟨?_, ?_, ?_⟩, rfl⟩
    · exact hruns ▸ h.run
    · dsimp only [Call.entry]
      rw [published_append, h.recent]
      by_cases hsame : r = runId
      · rw [if_pos hsame]
        exact congrArg (List.rtake · s.1.recentLimit) (List.append_nil _).symm
      · rw [if_neg hsame]
        exact congrArg (List.rtake · s.1.recentLimit) (List.append_nil _).symm
    · exact Numbers.entry (.inr log) hnumbers

theorem Holds.exec (h : Holds formats runId s entries) {calls : List (Call T)}
    (hexec : exec formats s calls = some s') :
    Holds formats runId s' (entries ++ calls.filterMap (Call.entry runId)) ∧
      s'.1.recentLimit = s.1.recentLimit := by
  induction calls generalizing s entries with
  | nil =>
    rw [← Option.some.inj hexec]
    exact ⟨by rwa [List.filterMap_nil, List.append_nil], rfl⟩
  | cons call rest ih =>
    unfold Streams.exec at hexec
    rw [List.foldlM_cons] at hexec
    obtain ⟨between, hstep, hrest⟩ := Option.bind_eq_some_iff.mp hexec
    obtain ⟨hbetween, hsame⟩ := h.step hstep
    obtain ⟨hfinal, hlimit⟩ := ih hbetween hrest
    rw [List.append_assoc, ← Lists.filterMap_cons_append] at hfinal
    exact ⟨hfinal, hlimit.trans hsame⟩

end Runs

/-! What is replayed. -/
section Replays
variable {T : Type} {formats : Formats T} {runId : String} {service : StreamService T}
  {store : LogTables} {entries : List (Entry T)} {limit : ℕ}

theorem replayRecent_of_recent (render : Value → String) (now : T) (hpos : 0 < limit)
    (hrecent : service.recent.valueD runId [] ≠ []) :
    service.replayRecent formats render now store runId limit =
      some ((service.recent.valueD runId []).rtake limit) := by
  have hlimit : max 0 (limit : ℤ) = limit := by omega
  unfold StreamService.replayRecent
  dsimp only
  rw [hlimit, if_neg (by omega), if_pos hrecent, Int.toNat_natCast]

/-- A service that has published nothing of a run reads its first logs. -/
theorem replayRecent_of_logs (hread : formats.RoundTrips) (render : Value → String) (now : T)
    (hpos : 0 < limit) (hfits : isSqliteInteger limit)
    (hrecent : service.recent.valueD runId [] = []) (hrun : runId ∈ store.runs)
    (hstored : Numbers store runId (entries.map (entryLog formats))) :
    service.replayRecent formats render now store runId limit =
      some ((entries.take limit).filterMap (reading now runId)) := by
  have hlimit : max 0 (limit : ℤ) = limit := by omega
  have hlength : ((entries.map (entryLog formats)).take limit).length ≤ limit :=
    List.length_take_le ..
  unfold StreamService.replayRecent
  dsimp only
  rw [hlimit, if_neg (by omega), if_neg (not_not_intro hrecent), hstored.getLogs hrun hfits,
    Option.bind_eq_bind, Option.bind_some]
  dsimp only
  rw [Int.toNat_natCast, Lists.rtake_of_length_le hlength, ← List.map_take,
    mapM_fromLog render now hread, Option.bind_eq_bind, Option.bind_some, List.filterMap_map]
  rfl

/-- The messages among the first logs are the last messages exactly if none comes after these, or
they are all messages that the last ones repeat. -/
theorem published_take_iff (entries : List (Entry T)) (limit : ℕ) :
    published (entries.take limit) = (published entries).rtake limit ↔
      published (entries.drop limit) = [] ∨ (published (entries.take limit)).length = limit ∧
        (published entries).take limit = (published entries).rtake limit := by
  have hparts : published entries = published (entries.take limit) ++ published (entries.drop limit) := by
    rw [← published_append, List.take_append_drop]
  have hle : (published (entries.take limit)).length ≤ limit :=
    (List.length_filterMap_le ..).trans (List.length_take_le ..)
  constructor
  · intro h
    have hlength := congrArg List.length h
    rw [Lists.length_rtake, hparts, List.length_append] at hlength
    rcases Nat.eq_zero_or_pos (published (entries.drop limit)).length with hnone | hsome
    · exact Or.inl (List.length_eq_zero_iff.mp hnone)
    · have hfull : (published (entries.take limit)).length = limit := by omega
      refine Or.inr ⟨hfull, ?_⟩
      rw [← h, hparts, List.take_append_of_le_length hfull.ge, List.take_of_length_le hle]
  · rintro (hnone | ⟨hfull, hrepeat⟩)
    · rw [hparts, hnone, List.append_nil, Lists.rtake_of_length_le hle]
    · rw [← hrepeat, hparts, List.take_append_of_le_length hfull.ge, List.take_of_length_le hle]

/-- Replays of the service that published the messages of a run and of one that starts later agree
on the last messages, at any time, exactly where the first logs of the run keep them. -/
theorem replay_survivesRestart_iff [Nontrivial T] (hread : formats.RoundTrips)
    (render : Value → String) {recentLimit : ℕ} (pos : 0 < recentLimit)
    (fits : isSqliteInteger recentLimit) {created : LogTables} (hrun : runId ∈ created.runs)
    (hnew : created.runLogs.filter (·.runId = runId) = []) {calls : List (Call T)}
    (hexec : exec formats (StreamService.start recentLimit pos fits, created) calls =
      some (service, store))
    (hpos : 0 < limit) (hlimit : limit ≤ recentLimit) :
    SurvivesRestart formats render service store runId
        (published (calls.filterMap (Call.entry runId))) limit ↔
      KeepsLast (calls.filterMap (Call.entry runId)) limit := by
  have hinitial : Holds formats runId (StreamService.start recentLimit pos fits, created) [] :=
    ⟨hrun, (Finmap.valueD_empty runId []).trans List.drop_nil.symm, hnew⟩
  obtain ⟨hholds, hsame⟩ := hinitial.exec hexec
  rw [List.nil_append] at hholds
  generalize calls.filterMap (Call.entry runId) = entries at hholds ⊢
  have hrecentLimit : service.recentLimit = recentLimit := hsame
  have hfits : isSqliteInteger limit := by
    unfold isSqliteInteger at fits ⊢
    omega
  have hfresh : ∀ now, (StreamService.start service.recentLimit service.pos
      service.fits).replayRecent formats render now store runId limit =
        some ((entries.take limit).filterMap (reading now runId)) := fun now =>
    replayRecent_of_logs hread render now hpos hfits (Finmap.valueD_empty runId []) hholds.run
      hholds.stored
  constructor
  · intro h
    have hreadings : ∀ now, (entries.take limit).filterMap (reading now runId) =
        (published entries).rtake limit := fun now =>
      Option.some.inj ((hfresh now).symm.trans (h now).2)
    obtain ⟨now, later, hne⟩ := exists_pair_ne T
    have hnone := noFailure_of_readings_eq now hne ((hreadings now).trans (hreadings later).symm)
    refine ⟨hnone, (published_take_iff entries limit).mp ?_⟩
    rw [← hreadings now, readings_eq_published now hnone]
  · rintro ⟨hnone, hlast⟩ now
    have hreadings : (entries.take limit).filterMap (reading now runId) =
        (published entries).rtake limit := by
      rw [readings_eq_published now hnone]
      exact (published_take_iff entries limit).mpr hlast
    constructor
    · by_cases hrecent : service.recent.valueD runId [] = []
      · rw [replayRecent_of_logs hread render now hpos hfits hrecent hholds.run hholds.stored,
          hreadings]
      · rw [replayRecent_of_recent render now hpos hrecent, hholds.recent]
        dsimp only
        rw [Lists.rtake_rtake (hrecentLimit ▸ hlimit)]
    · rw [hfresh now, hreadings]

end Replays

/-! Messages with times in UTC. -/
section Utc
open IsoTime

def validateMessage (data : Dict) : Option (StreamMessage Datetime) := do
  let runId ← stringOrNone (data.get "run_id")
  let text ← stringOrNone (data.get "timestamp")
  let timestamp ← (RunStore.parseDatetime text).bind (·.utc 0)
  let label ← stringOrNone (data.get "category")
  let category ← StreamCategory.ofText label
  let type ← stringOrNone (data.get "type")
  match data.get "payload" with
  | some (.dict payload) =>
    some { runId, timestamp, step := intOrNone (data.get "step"), category, type, payload }
  | _ => none

def utcFormats : Formats Datetime where
  isoformat := Datetime.isoformat
  fromIsoformat text := (fromIsoformat text).bind (·.utc 0)
  dumpTimestamp := Datetime.zuluformat
  modelValidate := validateMessage

theorem StreamCategory.ofText_text (category : StreamCategory) :
    StreamCategory.ofText category.text = some category := by
  cases category <;> decide

theorem parseDatetime_zuluformat (d : Datetime) :
    (RunStore.parseDatetime d.zuluformat).bind (·.utc 0) = some d := by
  have hutc : WallTime.utc { wall := d, offset := some 0 } 0 = some d := d.shift_zero
  have hparse := RunStore.parseDatetime_formatDatetime hutc
  unfold RunStore.formatDatetime at hparse
  rw [hutc, Option.map_some, Option.bind_some] at hparse
  rw [hparse, Option.bind_some, hutc]

theorem utcFormats_roundTrips : utcFormats.RoundTrips := by
  intro message
  have hrun : (utcFormats.modelDump message).get "run_id" = some (.str message.runId) := rfl
  have htime : (utcFormats.modelDump message).get "timestamp" =
      some (.str message.timestamp.zuluformat) := rfl
  have hcategory : (utcFormats.modelDump message).get "category" =
      some (.str message.category.text) := rfl
  have htype : (utcFormats.modelDump message).get "type" = some (.str message.type) := rfl
  have hpayload : (utcFormats.modelDump message).get "payload" = some (.dict message.payload) := rfl
  have hstep : intOrNone ((utcFormats.modelDump message).get "step") = message.step := by
    have hvalue : (utcFormats.modelDump message).get "step" = some (stepValue message.step) := rfl
    rw [hvalue]
    cases message.step <;> rfl
  have hread : utcFormats.modelValidate = validateMessage := rfl
  rw [hread]
  unfold validateMessage
  rw [hrun, htime, hcategory, htype, hpayload, hstep]
  simp only [stringOrNone, Option.bind_eq_bind, Option.bind_some, parseDatetime_zuluformat,
    StreamCategory.ofText_text]

def firstService : StreamService Datetime := .start 100 (by decide) (by decide)

def oneRun : LogTables := { runs := ["r1"], runLogs := [] }

def progress (step : ℤ) : StreamMessage Datetime :=
  { runId := "r1", timestamp := ⟨0, horizon_pos⟩, step := some step, category := .progress
    type := "progress", payload := [] }

/-- A message before a cancel request is replayed. -/
theorem replay_survivesRestart_canceled : ∃ service store,
    exec utcFormats (firstService, oneRun)
        [.publish "r1" (progress 1), .append "r1" (.cancellationRequested "running" "")] =
      some (service, store) ∧
    SurvivesRestart utcFormats (fun _ => "") service store "r1" [progress 1] 1 := by
  have hexec : exec utcFormats (firstService, oneRun)
      [.publish "r1" (progress 1), .append "r1" (.cancellationRequested "running" "")] =
        some (_, _) := rfl
  have hkeeps : KeepsLast [Sum.inl (progress 1), .inr (.cancellationRequested "running" "")] 1 := by
    constructor
    · intro error hmem
      cases List.mem_singleton.mp hmem
    · exact Or.inl rfl
  have htwo : Nontrivial Datetime := ⟨⟨⟨0, by decide⟩, ⟨1, by decide⟩, by decide⟩⟩
  exact ⟨_, _, hexec, (replay_survivesRestart_iff utcFormats_roundTrips _ _ _
    (List.mem_singleton_self _) rfl hexec (by decide) (by decide)).mpr hkeeps⟩

/-- Of two messages the one that is replayed after a restart is the first. -/
theorem not_survivesRestart_twoMessages : ∃ service store,
    exec utcFormats (firstService, oneRun)
        [.publish "r1" (progress 1), .publish "r1" (progress 2)] = some (service, store) ∧
    ¬ SurvivesRestart utcFormats (fun _ => "") service store "r1" [progress 1, progress 2] 1 := by
  have hexec : exec utcFormats (firstService, oneRun)
      [.publish "r1" (progress 1), .publish "r1" (progress 2)] = some (_, _) := rfl
  have hinitial : Holds utcFormats "r1" (firstService, oneRun) [] :=
    ⟨List.mem_singleton_self _, Finmap.valueD_empty "r1" [], rfl⟩
  have hholds := (hinitial.exec hexec).1
  refine ⟨_, _, hexec, fun h => ?_⟩
  have hfresh : (StreamService.start 100 firstService.pos firstService.fits).replayRecent utcFormats
      (fun _ => "") ⟨0, horizon_pos⟩ _ "r1" (1 : ℕ) = some [progress 1] :=
    replayRecent_of_logs utcFormats_roundTrips (fun _ => "") ⟨0, horizon_pos⟩
      (by decide) (by decide) (Finmap.valueD_empty "r1" []) hholds.run hholds.stored
  have hlast : some [progress 1] = some [progress 2] := hfresh.symm.trans (h ⟨0, horizon_pos⟩).2
  have hmessage := (List.cons.inj (Option.some.inj hlast)).1
  have hstep : (some 1 : Option ℤ) = some 2 := congrArg StreamMessage.step hmessage
  cases hstep

end Utc

end Tes.Streams
