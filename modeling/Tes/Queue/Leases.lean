import Tes.Library.Steps
import Tes.Queue.Claims

/-! Rows and leases: the calls under which a run has a lease exactly while its row is running. -/
namespace Tes
open IsoTime

namespace RunQueue

/-- A row and a lease of one run agree. -/
def Agree : Option QueueItem → Option RunLease → Prop
  | some item, some lease =>
    item.status = .running ∧ item.lockedBy = some lease.workerId ∧ item.lockedAt ≠ none
  | some item, none => item.status ≠ .running
  | none, lease => lease = none

/-- Every row agrees with its lease. -/
structure LeasesAgree (q : RunQueue) : Prop where
  agree : ∀ r, Agree (q.get r) (q.getLease r)

theorem leasesAgree_iff {q : RunQueue} : q.LeasesAgree ↔
    (∀ r, (q.getLease r).isSome ↔ q.isRunning r) ∧
      ∀ r item lease, q.get r = some item → q.getLease r = some lease →
        item.lockedBy = some lease.workerId ∧ item.lockedAt ≠ none := by
  have hrun : ∀ r, Agree (q.get r) (q.getLease r) ↔
      ((q.getLease r).isSome ↔ q.isRunning r) ∧
        ∀ item lease, q.get r = some item → q.getLease r = some lease →
          item.lockedBy = some lease.workerId ∧ item.lockedAt ≠ none := fun r => by
    unfold isRunning
    cases q.get r <;> cases q.getLease r <;> simp [Agree]
  constructor
  · intro h
    exact ⟨fun r => ((hrun r).mp (h.agree r)).1, fun r => ((hrun r).mp (h.agree r)).2⟩
  · intro h
    exact ⟨fun r => (hrun r).mpr ⟨h.1 r, h.2 r⟩⟩

/-- Where rows and leases agree, a recovery that comes late enough selects every running row. -/
theorem LeasesAgree.recoverable {q : RunQueue} (h : q.LeasesAgree) {r : String}
    (hrunning : q.isRunning r) : ∃ item lockedAt, q.get r = some item ∧
      item.lockedAt = some lockedAt ∧ ∀ cutoff, lockedAt < cutoff → r ∈ q.selectStale cutoff := by
  obtain ⟨item, hitem, hstatus⟩ := Option.map_eq_some_iff.mp hrunning
  have hlease := ((leasesAgree_iff.mp h).1 r).mpr hrunning
  obtain ⟨lease, hlease⟩ := Option.isSome_iff_exists.mp hlease
  have hlock := ((leasesAgree_iff.mp h).2 r item lease hitem hlease).2
  obtain ⟨lockedAt, hlock⟩ := Option.ne_none_iff_exists'.mp hlock
  refine ⟨item, lockedAt, hitem, hlock, fun cutoff hlt => mem_selectStale.mpr ⟨item, hitem, ?_⟩⟩
  exact QueueItem.isStale_iff.mpr ⟨hstatus, lockedAt, hlock, hlt⟩

/-- The queue after a call at `now`, the same where it raises. -/
def callStep (staleAfter : ℤ) (q : RunQueue) (call : Datetime × QueueCall) : RunQueue :=
  (call.2.exec staleAfter call.1 q).getD q

end RunQueue

/-- The call leaves every row in agreement with its lease. It does not renew or cancel a row that
is running, and it leases a run only whose row runs then. -/
def QueueCall.KeepsLeases (staleAfter : ℤ) (q : RunQueue) (now : Datetime) (call : QueueCall) :
    Prop :=
  match call with
  | enqueue runId priority _ => isSqliteInteger priority → ¬q.isRunning runId
  | cancelPending runId => ¬q.isRunning runId
  | heartbeat _ (some runId) => (now.addSeconds staleAfter).isSome → q.isRunning runId
  | markRunning runId none => ∀ item, q.get runId = some item →
      item.status = .completed ∨ item.status = .running
  | markRunning runId (some _) => (now.addSeconds staleAfter).isSome →
      ∃ item, q.get runId = some item ∧ item.status ≠ .completed
  | _ => True

section Call
variable {staleAfter : ℤ} {now : Datetime} {q q' : RunQueue} {runId : String}

/-- A step that leaves the other runs alone keeps the agreement iff it does for its run. -/
theorem leasesAgree_iff_of_frame (h : q.LeasesAgree)
    (hframe : ∀ r ≠ runId, q'.get r = q.get r ∧ q'.getLease r = q.getLease r) :
    q'.LeasesAgree ↔ RunQueue.Agree (q'.get runId) (q'.getLease runId) := by
  constructor
  · exact fun h' => h'.agree runId
  · refine fun hrun => ⟨fun r => ?_⟩
    by_cases hr : r = runId
    · exact hr ▸ hrun
    · obtain ⟨hget, hlease⟩ := hframe r hr
      rw [hget, hlease]
      exact h.agree r

theorem leasesAgree_enqueue {priority : ℤ} {availableAt : Option Datetime} (h : q.LeasesAgree)
    (hcall : q.enqueue runId priority availableAt now = some q') :
    q'.LeasesAgree ↔ ¬q.isRunning runId := by
  have hview := fun r => RunQueue.get_enqueue (r := r) hcall
  have hagree := h.agree runId
  obtain ⟨hget, hlease⟩ := hview runId
  rw [if_pos rfl] at hget
  have hframe : ∀ r ≠ runId, q'.get r = q.get r ∧ q'.getLease r = q.getLease r := fun r hr => by
    rw [(hview r).1, (hview r).2, if_neg hr]
    exact ⟨rfl, rfl⟩
  rw [leasesAgree_iff_of_frame h hframe, hget, hlease]
  unfold RunQueue.isRunning
  cases hrow : q.get runId with
  | none =>
    rw [hrow] at hagree
    have hnone : q.getLease runId = none := hagree
    simp [hnone, RunQueue.Agree, QueueItem.inserted]
  | some item =>
    rw [hrow] at hagree
    cases hl : q.getLease runId with
    | none =>
      rw [hl] at hagree
      have hstatus : item.status ≠ .running := hagree
      by_cases hdone : item.status = .completed
      · simp [RunQueue.Agree, QueueItem.renewed, hdone]
      · simp [RunQueue.Agree, QueueItem.renewed, hdone, hstatus]
    | some lease =>
      rw [hl] at hagree
      obtain ⟨hstatus, -, -⟩ := hagree
      simp [RunQueue.Agree, QueueItem.renewed, hstatus]

theorem leasesAgree_claimNext {workerId : String} {taken : Option (String × QueueItem)}
    (h : q.LeasesAgree) (hcall : q.claimNext staleAfter workerId now = some (taken, q')) :
    q'.LeasesAgree := by
  cases taken with
  | none => exact RunQueue.claimNext_none hcall ▸ h
  | some taken =>
    obtain ⟨runId, item⟩ := taken
    obtain ⟨expiresAt, -, old, -, -, -, -, rfl, hget, hlease⟩ := RunQueue.claimNext_some hcall
    have hframe : ∀ r ≠ runId, q'.get r = q.get r ∧ q'.getLease r = q.getLease r := fun r hr => by
      rw [hget, hlease, if_neg hr, if_neg hr]
      exact ⟨rfl, rfl⟩
    rw [leasesAgree_iff_of_frame h hframe, hget, hlease, if_pos rfl, if_pos rfl]
    exact ⟨rfl, rfl, Option.some_ne_none now⟩

theorem leasesAgree_upsertLease {workerId : String} (h : q.LeasesAgree)
    (hcall : q.upsertLease staleAfter runId workerId now = some q') :
    q'.LeasesAgree ↔ q.isRunning runId := by
  have hget := fun r => RunQueue.get_upsertLease (r := r) hcall
  obtain ⟨expires, -, hlease⟩ := RunQueue.getLease_upsertLease hcall
  have hframe : ∀ r ≠ runId, q'.get r = q.get r ∧ q'.getLease r = q.getLease r := fun r hr => by
    rw [hget, hlease, if_neg hr]
    simp [hr]
  rw [leasesAgree_iff_of_frame h hframe, hget, hlease, if_pos rfl]
  unfold RunQueue.isRunning
  cases q.get runId with
  | none => simp [RunQueue.Agree]
  | some item =>
    by_cases hstatus : item.status = .running
    · cases q.getLease runId <;> simp [RunQueue.Agree, QueueItem.locked, hstatus]
    · cases q.getLease runId <;> simp [RunQueue.Agree, hstatus]

theorem leasesAgree_markRunning_none (h : q.LeasesAgree)
    (hcall : q.markRunning staleAfter runId none now = some q') : q'.LeasesAgree ↔
      ∀ item, q.get runId = some item → item.status = .completed ∨ item.status = .running := by
  have hagree := h.agree runId
  have hget := fun r => RunQueue.get_markRunning (r := r) hcall
  have hlease : ∀ r, q'.getLease r = q.getLease r := fun r => by rw [← Option.some.inj hcall]; rfl
  have hframe : ∀ r ≠ runId, q'.get r = q.get r ∧ q'.getLease r = q.getLease r := fun r hr => by
    rw [hget, hlease]
    simp [hr]
  rw [leasesAgree_iff_of_frame h hframe, hget, hlease]
  cases hrow : q.get runId with
  | none =>
    rw [hrow] at hagree
    have hnone : q.getLease runId = none := hagree
    simp [hnone, RunQueue.Agree]
  | some item =>
    rw [hrow] at hagree
    cases hl : q.getLease runId with
    | none =>
      rw [hl] at hagree
      have hstatus : item.status ≠ .running := hagree
      by_cases hdone : item.status = .completed
      · simp [RunQueue.Agree, hdone]
      · simp [RunQueue.Agree, QueueItem.started, hdone, hstatus]
    | some lease =>
      rw [hl] at hagree
      obtain ⟨hstatus, hworker, hlock⟩ := hagree
      simp [RunQueue.Agree, QueueItem.started, hstatus, hworker]

theorem leasesAgree_markRunning_some {workerId : String} (h : q.LeasesAgree)
    (hcall : q.markRunning staleAfter runId (some workerId) now = some q') : q'.LeasesAgree ↔
      ∃ item, q.get runId = some item ∧ item.status ≠ .completed := by
  have hget := fun r => RunQueue.get_markRunning (r := r) hcall
  obtain ⟨expires, -, hlease⟩ := RunQueue.getLease_upsertLease hcall
  have hsame : ∀ r, RunQueue.getLease { q with
      runQueue := q.runQueue.updateWhere (fun id item => id = runId ∧ item.status ≠ .completed)
        fun item => item.started (some workerId) now } r = q.getLease r := fun r => rfl
  have hframe : ∀ r ≠ runId, q'.get r = q.get r ∧ q'.getLease r = q.getLease r := fun r hr => by
    rw [hget, hlease, if_neg hr, hsame]
    simp [hr]
  rw [leasesAgree_iff_of_frame h hframe, hget, hlease, if_pos rfl, hsame]
  cases q.get runId with
  | none => simp [RunQueue.Agree]
  | some item =>
    by_cases hdone : item.status = .completed
    · cases q.getLease runId <;> simp [RunQueue.Agree, hdone]
    · cases q.getLease runId <;> simp [RunQueue.Agree, QueueItem.started, hdone]

theorem leasesAgree_markTerminal (status : QueueStatus) (error : Option String)
    (hterminal : status ≠ .running) (h : q.LeasesAgree) :
    (q.markTerminal runId status error now).LeasesAgree := by
  have hframe : ∀ r ≠ runId, (q.markTerminal runId status error now).get r = q.get r ∧
      (q.markTerminal runId status error now).getLease r = q.getLease r := fun r hr => by
    rw [RunQueue.get_markTerminal, RunQueue.getLease_markTerminal, if_neg hr]
    simp [hr]
  rw [leasesAgree_iff_of_frame h hframe, RunQueue.get_markTerminal, RunQueue.getLease_markTerminal,
    if_pos rfl]
  cases q.get runId with
  | none => rfl
  | some item =>
    by_cases hdone : item.status = .completed
    · simp [RunQueue.Agree, hdone]
    · simpa [RunQueue.Agree, QueueItem.ended, hdone] using hterminal

theorem leasesAgree_cancelPending (h : q.LeasesAgree) :
    (q.cancelPending runId now).LeasesAgree ↔ ¬q.isRunning runId := by
  have hframe : ∀ r ≠ runId, (q.cancelPending runId now).get r = q.get r ∧
      (q.cancelPending runId now).getLease r = q.getLease r := fun r hr => by
    rw [RunQueue.get_cancelPending, RunQueue.getLease_cancelPending, if_neg hr]
    simp [hr]
  rw [leasesAgree_iff_of_frame h hframe, RunQueue.get_cancelPending,
    RunQueue.getLease_cancelPending, if_pos rfl]
  unfold RunQueue.isRunning
  cases q.get runId with
  | none => simp [RunQueue.Agree]
  | some item =>
    by_cases hpending : item.status = .pending
    · simp [RunQueue.Agree, QueueItem.canceled, hpending]
    · simp [RunQueue.Agree, hpending]

theorem leasesAgree_requeueStale {seconds : Option ℤ} {requeued : List String} (h : q.LeasesAgree)
    (hcall : q.requeueStale staleAfter seconds now = some (requeued, q')) : q'.LeasesAgree := by
  obtain ⟨cutoff, -, heq⟩ := Option.map_eq_some_iff.mp hcall
  simp only [Prod.mk.injEq] at heq
  obtain ⟨rfl, rfl⟩ := heq
  refine ⟨fun r => ?_⟩
  have hagree := h.agree r
  rw [RunQueue.get_requeueSelected, RunQueue.getLease_requeueSelected]
  by_cases hstale : r ∈ q.selectStale cutoff
  · obtain ⟨item, hitem, hitemStale⟩ := RunQueue.mem_selectStale.mp hstale
    rw [if_pos hstale, hitem, Option.map_some, if_pos hitemStale]
    exact fun hrunning => nomatch hrunning
  · rw [if_neg hstale]
    cases hrow : q.get r with
    | none =>
      rw [hrow] at hagree
      exact hagree
    | some item =>
      have hfresh : ¬item.isStale cutoff := fun hitemStale =>
        hstale (RunQueue.mem_selectStale.mpr ⟨item, hrow, hitemStale⟩)
      rw [Option.map_some, if_neg hfresh, ← hrow]
      exact hagree

/-- A call keeps the agreement exactly under its condition. -/
theorem leasesAgree_callStep (h : q.LeasesAgree) (call : Datetime × QueueCall) :
    (q.callStep staleAfter call).LeasesAgree ↔ call.2.KeepsLeases staleAfter q call.1 := by
  obtain ⟨now, call⟩ := call
  unfold RunQueue.callStep
  dsimp only
  cases hexec : call.exec staleAfter now q with
  | none =>
    rw [Option.getD_none]
    refine ⟨fun _ => ?_, fun _ => h⟩
    cases call with
    | enqueue runId priority availableAt =>
      intro hpriority
      exact absurd hpriority (RunQueue.enqueue_eq_none.mp hexec)
    | markRunning runId workerId =>
      cases workerId with
      | none => cases hexec
      | some workerId =>
        intro hexpires
        rw [Option.map_eq_none_iff.mp hexec] at hexpires
        cases hexpires
    | heartbeat workerId currentRunId =>
      cases currentRunId with
      | none => trivial
      | some runId =>
        intro hexpires
        rw [Option.map_eq_none_iff.mp hexec] at hexpires
        cases hexpires
    | cancelPending runId => cases hexec
    | _ => trivial
  | some q' =>
    rw [Option.getD_some]
    cases call with
    | enqueue runId priority availableAt =>
      have hpriority : isSqliteInteger priority := by
        by_contra hpriority
        have hraises : q.enqueue runId priority availableAt now = none :=
          RunQueue.enqueue_eq_none.mpr hpriority
        cases hraises.symm.trans hexec
      rw [leasesAgree_enqueue h hexec]
      exact ⟨fun hrunning _ => hrunning, fun hkeeps => hkeeps hpriority⟩
    | claimNext workerId =>
      obtain ⟨⟨taken, q''⟩, hclaim, rfl⟩ := Option.map_eq_some_iff.mp hexec
      exact ⟨fun _ => trivial, fun _ => leasesAgree_claimNext h hclaim⟩
    | markRunning runId workerId =>
      cases workerId with
      | none =>
        have hmark : q.markRunning staleAfter runId none now = some q' := hexec
        exact leasesAgree_markRunning_none h hmark
      | some workerId =>
        obtain ⟨expires, hexpires, -⟩ := Option.map_eq_some_iff.mp hexec
        rw [leasesAgree_markRunning_some h hexec]
        exact ⟨fun hrow _ => hrow, fun hkeeps => hkeeps (hexpires ▸ rfl)⟩
    | markCompleted runId =>
      rw [← Option.some.inj hexec]
      exact ⟨fun _ => trivial, fun _ => leasesAgree_markTerminal _ _ (by decide) h⟩
    | markFailed runId error =>
      rw [← Option.some.inj hexec]
      exact ⟨fun _ => trivial, fun _ => leasesAgree_markTerminal _ _ (by decide) h⟩
    | markCanceled runId error =>
      rw [← Option.some.inj hexec]
      exact ⟨fun _ => trivial, fun _ => leasesAgree_markTerminal _ _ (by decide) h⟩
    | cancelPending runId =>
      rw [← Option.some.inj hexec]
      exact leasesAgree_cancelPending h
    | heartbeat workerId currentRunId =>
      cases currentRunId with
      | none =>
        rw [← Option.some.inj hexec]
        exact ⟨fun _ => trivial, fun _ => h⟩
      | some runId =>
        obtain ⟨expires, hexpires, -⟩ := Option.map_eq_some_iff.mp hexec
        rw [leasesAgree_upsertLease h hexec]
        exact ⟨fun hrunning _ => hrunning, fun hkeeps => hkeeps (hexpires ▸ rfl)⟩
    | requeueStale staleAfterSeconds =>
      obtain ⟨⟨requeued, q''⟩, hrequeue, rfl⟩ := Option.map_eq_some_iff.mp hexec
      exact ⟨fun _ => trivial, fun _ => leasesAgree_requeueStale h hrequeue⟩

/-- In every state of a run of calls the rows agree with the leases exactly if every call of it
meets its condition. -/
theorem leasesAgree_run_iff (staleAfter : ℤ) (calls : List (Datetime × QueueCall)) :
    Steps.Always (RunQueue.callStep staleAfter) RunQueue.LeasesAgree {} calls ↔
      Steps.Each (RunQueue.callStep staleAfter)
        (fun q call => call.2.KeepsLeases staleAfter q call.1) {} calls :=
  Steps.always_iff_each (I := fun _ => True) (fun _ _ _ => trivial)
    (fun _ call _ h => leasesAgree_callStep h call) trivial ⟨fun _ => rfl⟩

/-- A run that executes is enqueued again: its row keeps running, with a lease but no lock. -/
theorem reenqueued_running_not_leasesAgree :
    let t := fun n h => Datetime.ofSeconds n h
    let calls : List (Datetime × QueueCall) := [(t 1000 (by decide), .enqueue "r" 0 none),
      (t 1001 (by decide), .claimNext "a"), (t 1002 (by decide), .enqueue "r" 0 none)]
    ¬Steps.Always (RunQueue.callStep 900) RunQueue.LeasesAgree {} calls := by
  intro t calls h
  have hlast : (calls.foldl (RunQueue.callStep 900) {}).LeasesAgree := h.last
  have hrunning : (calls.foldl (RunQueue.callStep 900) {}).isRunning "r" := by decide +kernel
  have hunlocked : ((calls.foldl (RunQueue.callStep 900) {}).get "r").bind QueueItem.lockedAt =
      none := by decide +kernel
  obtain ⟨item, lockedAt, hitem, hlock, -⟩ := hlast.recoverable hrunning
  rw [hitem, Option.bind_some, hlock] at hunlocked
  cases hunlocked

end Call
end Tes
