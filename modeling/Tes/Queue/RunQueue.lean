import Mathlib.Data.List.MinMax
import Mathlib.Data.List.Sort
import Mathlib.Data.Prod.Lex
import Tes.Library.OrderedMap
import Tes.Library.IsoTime

/-! The SQLite run queue: its rows and leases, and the statements each of its calls runs in
one transaction. A call that raises leaves the queue as it was. -/
namespace Tes
open IsoTime

/-- A table with a text primary key, listed by key. -/
abbrev Table (V : Type) := OrderedMap String V (· < ·)

inductive QueueStatus
  | pending
  | running
  | completed
  | failed
  | canceled
  deriving DecidableEq, Repr

/-- A row of `run_queue`. A time column holds the ISO 8601 text of its datetime. -/
structure QueueItem where
  status : QueueStatus
  priority : ℤ
  createdAt : Datetime
  availableAt : Datetime
  startedAt : Option Datetime
  completedAt : Option Datetime
  attempts : ℕ
  lastError : Option String
  lockedBy : Option String
  lockedAt : Option Datetime
  deriving DecidableEq

/-- A row of `run_leases`. -/
structure RunLease where
  workerId : String
  acquiredAt : Datetime
  expiresAt : Datetime
  heartbeatAt : Datetime
  deriving DecidableEq

structure RunQueue where
  runQueue : Table QueueItem := ∅
  runLeases : Table RunLease := ∅
  deriving DecidableEq

/-- What SQLite stores as an integer. -/
def isSqliteInteger (n : ℤ) : Prop := -2 ^ 63 ≤ n ∧ n < 2 ^ 63

instance (n : ℤ) : Decidable (isSqliteInteger n) := inferInstanceAs (Decidable (_ ∧ _))

namespace QueueItem

/-- The row is running and was locked before the cutoff. -/
def isStale (item : QueueItem) (cutoff : Datetime) : Prop :=
  item.status = .running ∧ ∃ lockedAt ∈ item.lockedAt, lockedAt.isoformat < cutoff.isoformat

instance (item : QueueItem) (cutoff : Datetime) : Decidable (item.isStale cutoff) :=
  inferInstanceAs (Decidable (_ ∧ ∃ lockedAt ∈ item.lockedAt, _))

theorem isStale_iff {item : QueueItem} {cutoff : Datetime} :
    item.isStale cutoff ↔ item.status = .running ∧ ∃ lockedAt ∈ item.lockedAt, lockedAt < cutoff := by
  unfold isStale
  simp only [Datetime.isoformat_lt_iff]

/-- A worker may claim the row. -/
def isEligible (item : QueueItem) (now staleBefore : Datetime) : Prop :=
  (item.status = .pending ∨ item.isStale staleBefore) ∧
    item.availableAt.isoformat ≤ now.isoformat

instance (item : QueueItem) (now staleBefore : Datetime) :
    Decidable (item.isEligible now staleBefore) :=
  inferInstanceAs (Decidable (_ ∧ _))

/-- The order of claims: higher priorities first, then older rows. -/
def claimKey (item : QueueItem) : ℤ ×ₗ String :=
  toLex (-item.priority, item.createdAt.isoformat)

/-- Keys are compared by priority, ties by text. -/
abbrev claimOrder : LinearOrder (ℤ ×ₗ String) :=
  @Prod.Lex.instLinearOrder ℤ String Int.instLinearOrder inferInstance

/-! The statements, on one row. -/

def inserted (priority : ℤ) (available now : Datetime) : QueueItem :=
  { status := .pending, priority, createdAt := now, availableAt := available, startedAt := none,
    completedAt := none, attempts := 0, lastError := none, lockedBy := none, lockedAt := none }

/-- A row that is there is enqueued again: it keeps its status if completed or running. -/
def renewed (item : QueueItem) (priority : ℤ) (available : Datetime) : QueueItem :=
  { item with
    status := if item.status = .completed ∨ item.status = .running then item.status else .pending
    priority, availableAt := available, completedAt := none, lastError := none, lockedBy := none,
    lockedAt := none }

def claimed (item : QueueItem) (workerId : String) (now : Datetime) : QueueItem :=
  { item with
    status := .running, startedAt := item.startedAt.or (some now), attempts := item.attempts + 1,
    lockedBy := some workerId, lockedAt := some now, lastError := none }

def started (item : QueueItem) (workerId : Option String) (now : Datetime) : QueueItem :=
  { item with
    status := .running, startedAt := item.startedAt.or (some now),
    lockedBy := workerId.or item.lockedBy, lockedAt := some now }

def locked (item : QueueItem) (workerId : String) (now : Datetime) : QueueItem :=
  { item with lockedAt := some now, lockedBy := some workerId }

def ended (item : QueueItem) (status : QueueStatus) (error : Option String) (now : Datetime) :
    QueueItem :=
  { item with
    status, completedAt := some now, lastError := error, lockedBy := none, lockedAt := none }

def canceled (item : QueueItem) (now : Datetime) : QueueItem :=
  { item with
    status := .canceled, completedAt := some now, lockedBy := none, lockedAt := none,
    lastError := item.lastError.or (some "canceled before execution") }

def requeued (item : QueueItem) (now : Datetime) : QueueItem :=
  { item with
    status := .pending, availableAt := now, lockedBy := none, lockedAt := none,
    lastError := some "requeued after stale worker lease expired" }

end QueueItem

namespace RunQueue

def get (q : RunQueue) (runId : String) : Option QueueItem := q.runQueue.find? runId

def getLease (q : RunQueue) (runId : String) : Option RunLease := q.runLeases.find? runId

/-- Insert a pending row, or renew the one that is there. -/
def enqueue (q : RunQueue) (runId : String) (priority : ℤ) (availableAt : Option Datetime)
    (now : Datetime) : Option RunQueue :=
  if isSqliteInteger priority then
    let available := availableAt.getD now
    let item := match q.get runId with
      | none => QueueItem.inserted priority available now
      | some item => item.renewed priority available
    some { q with runQueue := q.runQueue.insert runId item }
  else none

/-- The row a claim at `now` takes. -/
def nextEligible (q : RunQueue) (now staleBefore : Datetime) : Option (String × QueueItem) :=
  @List.argmin _ _ QueueItem.claimOrder.toPreorder QueueItem.claimOrder.toDecidableLT
    (fun e => e.2.claimKey) (q.runQueue.entries.filter fun e => e.2.isEligible now staleBefore)

/-- Claim the next eligible row for a worker. Returns the row as claimed. -/
def claimNext (staleAfter : ℤ) (q : RunQueue) (workerId : String) (now : Datetime) :
    Option (Option (String × QueueItem) × RunQueue) :=
  match now.addSeconds staleAfter, now.addSeconds (-staleAfter) with
  | some expiresAt, some staleBefore =>
    match q.nextEligible now staleBefore with
    | none => some (none, q)
    | some (runId, item) =>
      let lease : RunLease := { workerId, acquiredAt := now, expiresAt, heartbeatAt := now }
      some (some (runId, item.claimed workerId now),
        { runQueue := q.runQueue.insert runId (item.claimed workerId now)
          runLeases := (q.runLeases.erase runId).insert runId lease })
  | _, _ => none

/-- Write or extend the lease of a run, and the lock of its row if that is running. -/
def upsertLease (staleAfter : ℤ) (q : RunQueue) (runId workerId : String) (now : Datetime) :
    Option RunQueue :=
  (now.addSeconds staleAfter).map fun expires =>
    let lease : RunLease := match q.getLease runId with
      | none => { workerId, acquiredAt := now, expiresAt := expires, heartbeatAt := now }
      | some lease => { lease with workerId, expiresAt := expires, heartbeatAt := now }
    { runQueue := q.runQueue.updateWhere (fun id item => id = runId ∧ item.status = .running)
        fun item => item.locked workerId now
      runLeases := q.runLeases.insert runId lease }

def markRunning (staleAfter : ℤ) (q : RunQueue) (runId : String) (workerId : Option String)
    (now : Datetime) : Option RunQueue :=
  let running : RunQueue :=
    { q with
      runQueue := q.runQueue.updateWhere (fun id item => id = runId ∧ item.status ≠ .completed)
        fun item => item.started workerId now }
  match workerId with
  | none => some running
  | some workerId => running.upsertLease staleAfter runId workerId now

def markTerminal (q : RunQueue) (runId : String) (status : QueueStatus) (error : Option String)
    (now : Datetime) : RunQueue :=
  { runQueue := q.runQueue.updateWhere (fun id item => id = runId ∧ item.status ≠ .completed)
      fun item => item.ended status error now
    runLeases := q.runLeases.erase runId }

def markCompleted (q : RunQueue) (runId : String) (now : Datetime) : RunQueue :=
  q.markTerminal runId .completed none now

def markFailed (q : RunQueue) (runId error : String) (now : Datetime) : RunQueue :=
  q.markTerminal runId .failed (some error) now

def markCanceled (q : RunQueue) (runId : String) (error : Option String) (now : Datetime) :
    RunQueue :=
  q.markTerminal runId .canceled error now

/-- Cancel a row that is still pending, and drop its lease. -/
def cancelPending (q : RunQueue) (runId : String) (now : Datetime) : RunQueue :=
  { runQueue := q.runQueue.updateWhere (fun id item => id = runId ∧ item.status = .pending)
      fun item => item.canceled now
    runLeases := q.runLeases.erase runId }

/-- What a heartbeat does to rows and leases: it extends the lease of the current run. -/
def heartbeat (staleAfter : ℤ) (q : RunQueue) (workerId : String) (currentRunId : Option String)
    (now : Datetime) : Option RunQueue :=
  match currentRunId with
  | none => some q
  | some runId => q.upsertLease staleAfter runId workerId now

/-- The timeout of a stale recovery; zero stands for the default too. -/
def staleTimeout (staleAfter : ℤ) (staleAfterSeconds : Option ℤ) : ℤ :=
  match staleAfterSeconds with
  | none => staleAfter
  | some seconds => if seconds = 0 then staleAfter else seconds

/-- The runs a stale recovery selects, oldest lock first. -/
def selectStale (q : RunQueue) (cutoff : Datetime) : List String :=
  let stale := q.runQueue.entries.filter fun e => e.2.isStale cutoff
  let text := fun e : String × QueueItem => (e.2.lockedAt.map Datetime.isoformat).getD ""
  (stale.insertionSort fun a b => text a ≤ text b).map Prod.fst

/-- The transaction of a stale recovery: move what is stale now, and drop the leases of the
runs selected before. -/
def requeueSelected (q : RunQueue) (requeued : List String) (now cutoff : Datetime) : RunQueue :=
  { runQueue := q.runQueue.updateWhere (fun _ item => item.isStale cutoff)
      fun item => item.requeued now
    runLeases := requeued.foldl OrderedMap.erase q.runLeases }

/-- A stale recovery that no other connection interrupts. Returns the runs it reports. -/
def requeueStale (staleAfter : ℤ) (q : RunQueue) (staleAfterSeconds : Option ℤ) (now : Datetime) :
    Option (List String × RunQueue) :=
  (now.addSeconds (-staleTimeout staleAfter staleAfterSeconds)).map fun cutoff =>
    let requeued := q.selectStale cutoff
    (requeued, q.requeueSelected requeued now cutoff)

/-! What each statement does to the row and the lease of a run. -/
section View
variable {staleAfter : ℤ} {q q' : RunQueue} {r runId workerId : String} {now : Datetime}

theorem enqueue_eq_none {priority : ℤ} {availableAt : Option Datetime} :
    q.enqueue runId priority availableAt now = none ↔ ¬isSqliteInteger priority := by
  unfold enqueue
  split_ifs with hpriority <;> simp [hpriority]

theorem get_enqueue {priority : ℤ} {availableAt : Option Datetime}
    (h : q.enqueue runId priority availableAt now = some q') :
    q'.get r = (if r = runId then
        some ((q.get runId).elim (QueueItem.inserted priority (availableAt.getD now) now) fun item =>
          item.renewed priority (availableAt.getD now))
      else q.get r) ∧ q'.getLease r = q.getLease r := by
  unfold enqueue at h
  split_ifs at h
  dsimp only at h
  rw [← Option.some.inj h]
  refine ⟨?_, rfl⟩
  unfold get
  dsimp only
  rw [OrderedMap.find?_insert]
  cases q.runQueue.find? runId <;> rfl

theorem nextEligible_some {staleBefore : Datetime} {item : QueueItem}
    (h : q.nextEligible now staleBefore = some (r, item)) :
    q.get r = some item ∧ item.isEligible now staleBefore := by
  have hmem := List.mem_filter.mp (List.argmin_mem h)
  exact ⟨OrderedMap.mem_entries_iff.mp hmem.1, of_decide_eq_true hmem.2⟩

/-- A claim that takes a run: its row was eligible, and becomes the worker's. -/
theorem claimNext_some {item : QueueItem}
    (h : q.claimNext staleAfter workerId now = some (some (runId, item), q')) :
    ∃ expiresAt staleBefore old, now.addSeconds staleAfter = some expiresAt ∧
      now.addSeconds (-staleAfter) = some staleBefore ∧ q.get runId = some old ∧
      old.isEligible now staleBefore ∧ item = old.claimed workerId now ∧
      (∀ r, q'.get r = if r = runId then some item else q.get r) ∧
      ∀ r, q'.getLease r =
        if r = runId then some ⟨workerId, now, expiresAt, now⟩ else q.getLease r := by
  unfold claimNext at h
  split at h
  · rename_i expiresAt staleBefore hexpires hstale
    cases hnext : q.nextEligible now staleBefore with
    | none => rw [hnext] at h; cases h
    | some next =>
      obtain ⟨id, old⟩ := next
      rw [hnext] at h
      simp only [Option.some.injEq, Prod.mk.injEq] at h
      obtain ⟨⟨rfl, rfl⟩, rfl⟩ := h
      obtain ⟨hget, heligible⟩ := nextEligible_some hnext
      refine ⟨expiresAt, staleBefore, old, hexpires, hstale, hget, heligible, rfl, fun r => ?_,
        fun r => ?_⟩
      · exact OrderedMap.find?_insert _ _ _ _
      · unfold getLease
        rw [OrderedMap.find?_insert, OrderedMap.find?_erase]
        split_ifs <;> rfl
  · cases h

/-- A claim that finds nothing changes nothing. -/
theorem claimNext_none (h : q.claimNext staleAfter workerId now = some (none, q')) : q' = q := by
  unfold claimNext at h
  split at h
  · rename_i expiresAt staleBefore hexpires hstale
    cases hnext : q.nextEligible now staleBefore with
    | none =>
      rw [hnext] at h
      simp only [Option.some.injEq, Prod.mk.injEq, true_and] at h
      exact h.symm
    | some next =>
      rw [hnext] at h
      cases h
  · cases h

theorem get_upsertLease (h : q.upsertLease staleAfter runId workerId now = some q') :
    q'.get r = (q.get r).map fun item =>
      if r = runId ∧ item.status = .running then item.locked workerId now else item := by
  obtain ⟨expires, -, rfl⟩ := Option.map_eq_some_iff.mp h
  unfold get
  rw [OrderedMap.find?_updateWhere]
  simp only [decide_eq_true_eq]

theorem getLease_upsertLease (h : q.upsertLease staleAfter runId workerId now = some q') :
    ∃ expires, now.addSeconds staleAfter = some expires ∧ ∀ r, q'.getLease r =
      if r = runId then some ((q.getLease runId).elim ⟨workerId, now, expires, now⟩ fun lease =>
        { lease with workerId, expiresAt := expires, heartbeatAt := now }) else q.getLease r := by
  obtain ⟨expires, hexpires, rfl⟩ := Option.map_eq_some_iff.mp h
  refine ⟨expires, hexpires, fun r => ?_⟩
  unfold getLease
  dsimp only
  rw [OrderedMap.find?_insert]
  cases q.runLeases.find? runId <;> rfl

theorem get_markRunning {worker : Option String}
    (h : q.markRunning staleAfter runId worker now = some q') :
    q'.get r = (q.get r).map fun item =>
      if r = runId ∧ item.status ≠ .completed then item.started worker now else item := by
  unfold markRunning at h
  dsimp only at h
  cases worker with
  | none =>
    rw [← Option.some.inj h]
    unfold get
    dsimp only
    rw [OrderedMap.find?_updateWhere]
    simp only [decide_eq_true_eq]
  | some workerId =>
    rw [get_upsertLease h]
    unfold get
    dsimp only
    rw [OrderedMap.find?_updateWhere, Option.map_map]
    simp only [decide_eq_true_eq]
    congr 1
    funext item
    rw [Function.comp_apply]
    by_cases hid : r = runId
    · by_cases hdone : item.status = .completed
      · simp [hdone]
      · simp [hid, hdone, QueueItem.started, QueueItem.locked]
    · simp [hid]

theorem get_markTerminal (status : QueueStatus) (error : Option String) :
    (q.markTerminal runId status error now).get r = (q.get r).map fun item =>
      if r = runId ∧ item.status ≠ .completed then item.ended status error now else item := by
  unfold get markTerminal
  dsimp only
  rw [OrderedMap.find?_updateWhere]
  simp only [decide_eq_true_eq]

theorem getLease_markTerminal (status : QueueStatus) (error : Option String) :
    (q.markTerminal runId status error now).getLease r =
      if r = runId then none else q.getLease r :=
  OrderedMap.find?_erase _ _ _

theorem get_cancelPending : (q.cancelPending runId now).get r = (q.get r).map fun item =>
    if r = runId ∧ item.status = .pending then item.canceled now else item := by
  unfold get cancelPending
  dsimp only
  rw [OrderedMap.find?_updateWhere]
  simp only [decide_eq_true_eq]

theorem getLease_cancelPending :
    (q.cancelPending runId now).getLease r = if r = runId then none else q.getLease r :=
  OrderedMap.find?_erase _ _ _

theorem get_requeueSelected (requeued : List String) (cutoff : Datetime) :
    (q.requeueSelected requeued now cutoff).get r = (q.get r).map fun item =>
      if item.isStale cutoff then item.requeued now else item := by
  unfold get requeueSelected
  dsimp only
  rw [OrderedMap.find?_updateWhere]
  simp only [decide_eq_true_eq]

theorem getLease_requeueSelected (requeued : List String) (cutoff : Datetime) :
    (q.requeueSelected requeued now cutoff).getLease r =
      if r ∈ requeued then none else q.getLease r := by
  have hfold : ∀ leases : Table RunLease, (requeued.foldl OrderedMap.erase leases).find? r =
      if r ∈ requeued then none else leases.find? r := by
    induction requeued with
    | nil => simp
    | cons id rest ih =>
      intro leases
      rw [List.foldl_cons, ih, OrderedMap.find?_erase]
      by_cases hid : r = id <;> by_cases hrest : r ∈ rest <;> simp [hid, hrest]
  exact hfold q.runLeases

theorem mem_selectStale {cutoff : Datetime} :
    r ∈ q.selectStale cutoff ↔ ∃ item, q.get r = some item ∧ item.isStale cutoff := by
  unfold selectStale get
  simp only [List.mem_map, List.mem_insertionSort, List.mem_filter, decide_eq_true_eq, Prod.exists,
    OrderedMap.mem_entries_iff]
  constructor
  · rintro ⟨id, item, ⟨hget, hstale⟩, rfl⟩
    exact ⟨item, hget, hstale⟩
  · rintro ⟨item, hget, hstale⟩
    exact ⟨r, item, ⟨hget, hstale⟩, rfl⟩

theorem nodup_selectStale {cutoff : Datetime} : (q.selectStale cutoff).Nodup := by
  have hkeys : (q.runQueue.entries.filter fun e => e.2.isStale cutoff).Pairwise
      fun e e' => e.1 ≠ e'.1 := by
    refine (q.runQueue.sorted.filter _).imp fun hlt heq => ?_
    rw [heq] at hlt
    exact lt_irrefl _ hlt
  unfold selectStale
  refine (List.pairwise_map.mpr ?_ : List.Pairwise (· ≠ ·) _)
  exact ((List.perm_insertionSort _ _).pairwise_iff fun h => Ne.symm h).mpr hkeys

end View
end RunQueue
end Tes
