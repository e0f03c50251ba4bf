import Tes.Queue.Leases

/-! A stale recovery in two steps: it selects the stale runs, and moves them in a transaction of
its own, with heartbeats and claims of other connections in between. -/
namespace Tes
open IsoTime

/-- The calls that lock a row. -/
inductive LockingCall
  | heartbeat (workerId : String) (currentRunId : Option String)
  | claimNext (workerId : String)
  deriving DecidableEq

def LockingCall.toCall : LockingCall → QueueCall
  | heartbeat workerId currentRunId => .heartbeat workerId currentRunId
  | claimNext workerId => .claimNext workerId

namespace RunQueue

/-- The queue after a call at its time. -/
def lockStep (staleAfter : ℤ) (q : RunQueue) (call : Datetime × LockingCall) : RunQueue :=
  q.callStep staleAfter (call.1, call.2.toCall)

/-- The run whose row a call locks: the one it claims, or keeps alive while that runs. -/
def locks (staleAfter : ℤ) (q : RunQueue) (call : Datetime × LockingCall) : Option String :=
  match call.2 with
  | .heartbeat _ none => none
  | .heartbeat _ (some runId) =>
    if (call.1.addSeconds staleAfter).isSome ∧ q.isRunning runId then some runId else none
  | .claimNext workerId => (QueueCall.claimNext workerId).claims staleAfter call.1 q

/-- When the calls last lock the row of a run, if they do. -/
def lastLock (staleAfter : ℤ) (q : RunQueue) (r : String) :
    List (Datetime × LockingCall) → Option Datetime
  | [] => none
  | call :: rest => ((q.lockStep staleAfter call).lastLock staleAfter r rest).or
      (if q.locks staleAfter call = some r then some call.1 else none)

/-- The run is stale at the cutoff. -/
def StaleAt (q : RunQueue) (r : String) (cutoff : Datetime) : Prop :=
  ∃ item, q.get r = some item ∧ item.isStale cutoff

/-- A transaction moves the run to pending. -/
def Moves (q q' : RunQueue) (r : String) : Prop :=
  (q.get r).map QueueItem.status ≠ some .pending ∧ (q'.get r).map QueueItem.status = some .pending

/-- The transaction of a recovery acts on the runs it was given: it deletes no lease of a run
that it does not move, it deletes the lease of each run that it moves, and it moves exactly the
runs of the list. -/
structure Consistent (requeued : List String) (q q' : RunQueue) : Prop where
  deletes_moved : ∀ r, q.getLease r ≠ none → q'.getLease r = none → q.Moves q' r
  moved_deleted : ∀ r, q.Moves q' r → q'.getLease r = none
  lists_moved : requeued.Nodup ∧ ∀ r, r ∈ requeued ↔ q.Moves q' r

end RunQueue

section Recovery
variable {staleAfter : ℤ} {q : RunQueue} {r : String}

/-- A call that locks the row of a run sets its lock, and leaves the other rows alone. -/
theorem lockStep_cases (staleAfter : ℤ) (q : RunQueue) (r : String)
    (call : Datetime × LockingCall) :
    (q.locks staleAfter call = some r ∧ ∃ item, (q.lockStep staleAfter call).get r = some item ∧
      item.status = .running ∧ item.lockedAt = some call.1) ∨
    (q.locks staleAfter call ≠ some r ∧ (q.lockStep staleAfter call).get r = q.get r) := by
  obtain ⟨now, call⟩ := call
  unfold RunQueue.lockStep RunQueue.callStep
  dsimp only
  cases call with
  | claimNext workerId =>
    cases hclaim : q.claimNext staleAfter workerId now with
    | none =>
      right
      simp [RunQueue.locks, QueueCall.claims, LockingCall.toCall, QueueCall.exec, hclaim]
    | some result =>
      obtain ⟨taken, q'⟩ := result
      cases taken with
      | none =>
        right
        rw [RunQueue.claimNext_none hclaim] at hclaim
        simp [RunQueue.locks, QueueCall.claims, LockingCall.toCall, QueueCall.exec, hclaim]
      | some taken =>
        obtain ⟨runId, item⟩ := taken
        obtain ⟨-, -, old, -, -, -, -, rfl, hget, -⟩ := RunQueue.claimNext_some hclaim
        by_cases hr : runId = r
        · left
          simp [RunQueue.locks, QueueCall.claims, LockingCall.toCall, QueueCall.exec, hclaim, hget,
            hr, QueueItem.claimed]
        · right
          simp [RunQueue.locks, QueueCall.claims, LockingCall.toCall, QueueCall.exec, hclaim, hget,
            hr, Ne.symm hr]
  | heartbeat workerId currentRunId =>
    cases currentRunId with
    | none =>
      right
      simp [RunQueue.locks, LockingCall.toCall, QueueCall.exec, RunQueue.heartbeat]
    | some runId =>
      have hexec : (LockingCall.heartbeat workerId (some runId)).toCall.exec staleAfter now q =
          q.upsertLease staleAfter runId workerId now := rfl
      rw [hexec]
      cases hbeat : q.upsertLease staleAfter runId workerId now with
      | none =>
        right
        have hexpires := Option.map_eq_none_iff.mp hbeat
        simp [RunQueue.locks, hexpires]
      | some q' =>
        obtain ⟨expires, hexpires, -⟩ := Option.map_eq_some_iff.mp hbeat
        rw [Option.getD_some, RunQueue.get_upsertLease hbeat]
        by_cases hrunning : q.isRunning runId
        · obtain ⟨item, hitem, hstatus⟩ := Option.map_eq_some_iff.mp hrunning
          by_cases hr : runId = r
          · left
            subst hr
            simp [RunQueue.locks, hexpires, hrunning, hitem, hstatus, QueueItem.locked]
          · right
            simp [RunQueue.locks, hexpires, hrunning, hr, Ne.symm hr]
        · right
          refine ⟨by simp [RunQueue.locks, hexpires, hrunning], ?_⟩
          cases hrow : q.get r with
          | none => rfl
          | some item =>
            have hother : ¬(r = runId ∧ item.status = .running) := by
              rintro ⟨rfl, hstatus⟩
              exact hrunning (by rw [RunQueue.isRunning, hrow, Option.map_some, hstatus])
            rw [Option.map_some, if_neg hother]

/-- The row of a run after some calls: locked by the last one that locks it, or as before. -/
theorem lastLock_cases (staleAfter : ℤ) (q : RunQueue) (r : String)
    (calls : List (Datetime × LockingCall)) :
    (∃ t item, q.lastLock staleAfter r calls = some t ∧
      (calls.foldl (RunQueue.lockStep staleAfter) q).get r = some item ∧ item.status = .running ∧
      item.lockedAt = some t) ∨
    (q.lastLock staleAfter r calls = none ∧
      (calls.foldl (RunQueue.lockStep staleAfter) q).get r = q.get r) := by
  induction calls generalizing q with
  | nil => exact Or.inr ⟨rfl, rfl⟩
  | cons call rest ih =>
    rw [RunQueue.lastLock, List.foldl_cons]
    rcases ih (q.lockStep staleAfter call) with ⟨t, item, hlast, hget, hlocked⟩ | ⟨hlast, hget⟩
    · left
      rw [hlast]
      exact ⟨t, item, rfl, hget, hlocked⟩
    · rw [hlast, Option.none_or, hget]
      rcases lockStep_cases staleAfter q r call with
        ⟨hlocks, item, hitem, hlocked⟩ | ⟨hlocks, hsame⟩
      · left
        rw [if_pos hlocks]
        exact ⟨call.1, item, rfl, hitem, hlocked⟩
      · right
        rw [if_neg hlocks]
        exact ⟨rfl, hsame⟩

theorem staleAt_after (calls : List (Datetime × LockingCall)) (cutoff : Datetime) :
    (calls.foldl (RunQueue.lockStep staleAfter) q).StaleAt r cutoff ↔
      (q.lastLock staleAfter r calls).elim (q.StaleAt r cutoff) fun t => t < cutoff := by
  unfold RunQueue.StaleAt
  rcases lastLock_cases staleAfter q r calls with
    ⟨t, item, hlast, hget, hstatus, hlocked⟩ | ⟨hlast, hget⟩
  · rw [hlast, hget, Option.elim_some]
    simp only [Option.some.injEq, exists_eq_left', QueueItem.isStale_iff]
    rw [hlocked]
    simp [hstatus]
  · rw [hlast, hget, Option.elim_none]

theorem moves_requeueSelected (requeued : List String) (now cutoff : Datetime) :
    q.Moves (q.requeueSelected requeued now cutoff) r ↔ q.StaleAt r cutoff := by
  unfold RunQueue.Moves RunQueue.StaleAt
  rw [RunQueue.get_requeueSelected]
  cases q.get r with
  | none => simp
  | some item =>
    by_cases hstale : item.isStale cutoff
    · simp [hstale, QueueItem.requeued, (QueueItem.isStale_iff.mp hstale).1]
    · simp [hstale]

/-- The transaction acts on its list exactly if that lists what is stale when it runs. -/
theorem consistent_requeueSelected (requeued : List String) (now cutoff : Datetime) :
    RunQueue.Consistent requeued q (q.requeueSelected requeued now cutoff) ↔
      requeued.Nodup ∧ ∀ r, r ∈ requeued ↔ q.StaleAt r cutoff := by
  constructor
  · intro h
    refine ⟨h.lists_moved.1, fun r => ?_⟩
    rw [h.lists_moved.2 r, moves_requeueSelected]
  · rintro ⟨hnodup, hlist⟩
    constructor
    · intro r hleased hdeleted
      rw [RunQueue.getLease_requeueSelected] at hdeleted
      split_ifs at hdeleted with hr
      · exact (moves_requeueSelected _ _ _).mpr ((hlist r).mp hr)
      · exact absurd hdeleted hleased
    · intro r hmoves
      rw [RunQueue.getLease_requeueSelected, if_pos]
      exact (hlist r).mpr ((moves_requeueSelected _ _ _).mp hmoves)
    · exact ⟨hnodup, fun r => (hlist r).trans (moves_requeueSelected _ _ _).symm⟩

/-- A recovery, interrupted by heartbeats and claims, acts on the runs that it selected exactly if
a run that these lock is stale again iff it was selected. -/
theorem requeueStale_consistent_iff (staleAfter : ℤ) (q : RunQueue) (now cutoff : Datetime)
    (calls : List (Datetime × LockingCall)) :
    RunQueue.Consistent (q.selectStale cutoff) (calls.foldl (RunQueue.lockStep staleAfter) q)
        ((calls.foldl (RunQueue.lockStep staleAfter) q).requeueSelected (q.selectStale cutoff) now
          cutoff) ↔
      ∀ r, ∀ t ∈ q.lastLock staleAfter r calls, t < cutoff ↔ q.StaleAt r cutoff := by
  rw [consistent_requeueSelected, and_iff_right RunQueue.nodup_selectStale]
  refine forall_congr' fun r => ?_
  rw [RunQueue.mem_selectStale, staleAt_after]
  cases q.lastLock staleAfter r calls with
  | none => simp [RunQueue.StaleAt]
  | some t =>
    simp only [Option.elim_some, Option.mem_some_iff, forall_eq']
    exact iff_comm

/-- Where the clock does not run back, no run that was selected may be locked in between. -/
theorem requeueStale_consistent_of_clock (staleAfter : ℤ) (q : RunQueue) {now cutoff : Datetime}
    {calls : List (Datetime × LockingCall)} (hcutoff : cutoff ≤ now)
    (hclock : ∀ call ∈ calls, now ≤ call.1) :
    (∀ r, ∀ t ∈ q.lastLock staleAfter r calls, t < cutoff ↔ q.StaleAt r cutoff) ↔
      ∀ r, q.StaleAt r cutoff → q.lastLock staleAfter r calls = none := by
  have hlate : ∀ {r t}, t ∈ q.lastLock staleAfter r calls → ¬t < cutoff := by
    intro r t hlast
    have htime : now ≤ t := by
      clear hcutoff
      induction calls generalizing q with
      | nil => cases hlast
      | cons call rest ih =>
        rw [RunQueue.lastLock, Option.mem_def, Option.or_eq_some_iff] at hlast
        rcases hlast with hrest | ⟨-, hcall⟩
        · exact ih _ (fun call' hcall' => hclock call' (List.mem_cons_of_mem _ hcall')) hrest
        · split_ifs at hcall
          cases hcall
          exact hclock call List.mem_cons_self
    exact not_lt.mpr (hcutoff.trans htime)
  constructor
  · intro h r hstale
    cases hlast : q.lastLock staleAfter r calls with
    | none => rfl
    | some t => exact absurd ((h r t hlast).mpr hstale) (hlate hlast)
  · intro h r t hlast
    refine ⟨fun hlt => absurd hlt (hlate hlast), fun hstale => ?_⟩
    rw [h r hstale] at hlast
    cases hlast

/-- A worker renews a lease after the recovery has selected its run. -/
theorem late_heartbeat_inconsistent :
    let t := fun n h => Datetime.ofSeconds n h
    let q := RunQueue.after 900 {} [(t 1000 (by decide), .call (.enqueue "r" 0 none)),
      (t 1000 (by decide), .call (.claimNext "a"))]
    let cutoff := t 1100 (by decide)
    let q' := q.lockStep 900 (t 2001 (by decide), .heartbeat "a" (some "r"))
    ¬RunQueue.Consistent (q.selectStale cutoff) q'
      (q'.requeueSelected (q.selectStale cutoff) (t 2000 (by decide)) cutoff) := by
  intro t q cutoff q' h
  have hlisted : "r" ∈ q.selectStale cutoff := by decide +kernel
  have hmoved := ((h.lists_moved.2 "r").mp hlisted).2
  have hrunning : (q'.requeueSelected (q.selectStale cutoff) (t 2000 (by decide)) cutoff).isRunning
      "r" := by decide +kernel
  rw [hrunning] at hmoved
  cases hmoved

end Recovery
end Tes
