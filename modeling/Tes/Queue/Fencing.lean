import Mathlib.Logic.Function.Basic
import Tes.Library.Steps
import Tes.Queue.Claims

/-! Workers that run their loop against one queue: when a worker whose claim was superseded
leaves the run to its new owner. -/
namespace Tes
open IsoTime

/-- Where a worker stands in its loop. A heartbeat follows a claim and an execution; the run is
marked after the second one. -/
inductive WorkerPhase
  | idle
  | claimed (runId : String)
  | executing (runId : String)
  | executed (runId : String) (error : Option String)
  | marking (runId : String) (error : Option String)
  | stopped
  deriving DecidableEq

/-- The run that a worker took and has not marked yet. -/
def WorkerPhase.held : WorkerPhase → Option String
  | claimed runId | executing runId | executed runId _ | marking runId _ => some runId
  | idle | stopped => none

/-- The queue and the workers, by their ids. The holder of a run is the worker of its latest
claim, and nobody once a recovery has moved the run back. -/
structure Fleet where
  queue : RunQueue := {}
  phase : String → WorkerPhase := fun _ => .idle
  holder : String → Option String := fun _ => none

inductive FleetStep
  /-- A run that is new is enqueued. -/
  | enqueue (runId : String) (priority : ℤ) (availableAt : Option Datetime)
  | requeueStale (staleAfterSeconds : Option ℤ)
  /-- The next call of a worker; where it executes its run, `error` is what that raises. -/
  | work (workerId : String) (error : Option String)
  /-- A worker dies wherever it is, and starts again. -/
  | restart (workerId : String)
  deriving DecidableEq

namespace Fleet

def setPhase (s : Fleet) (workerId : String) (phase : WorkerPhase) : Fleet :=
  { s with phase := Function.update s.phase workerId phase }

/-- The heartbeat with the run that a worker took. A worker whose call raises stops. -/
def heartbeat (staleAfter : ℤ) (s : Fleet) (workerId runId : String) (next : WorkerPhase)
    (now : Datetime) : Fleet :=
  match s.queue.heartbeat staleAfter workerId (some runId) now with
  | some queue => { s with queue }.setPhase workerId next
  | none => s.setPhase workerId .stopped

/-- The next step of a worker. -/
def work (staleAfter : ℤ) (s : Fleet) (workerId : String) (error : Option String) (now : Datetime) :
    Fleet :=
  match s.phase workerId with
  | .idle =>
    match s.queue.claimNext staleAfter workerId now with
    | some (some (runId, _), queue) =>
      { queue, phase := Function.update s.phase workerId (.claimed runId)
        holder := Function.update s.holder runId (some workerId) }
    | some (none, _) => s
    | none => s.setPhase workerId .stopped
  | .claimed runId => s.heartbeat staleAfter workerId runId (.executing runId) now
  | .executing runId => s.setPhase workerId (.executed runId error)
  | .executed runId error => s.heartbeat staleAfter workerId runId (.marking runId error) now
  | .marking runId none =>
    { s with queue := s.queue.markCompleted runId now }.setPhase workerId .idle
  | .marking runId (some error) =>
    { s with queue := s.queue.markFailed runId error now }.setPhase workerId .idle
  | .stopped => s

def step (staleAfter : ℤ) (s : Fleet) (step : Datetime × FleetStep) : Fleet :=
  match step.2 with
  | .enqueue runId priority availableAt =>
    if (s.queue.get runId).isNone then
      { s with queue := (s.queue.enqueue runId priority availableAt step.1).getD s.queue }
    else s
  | .requeueStale staleAfterSeconds =>
    match s.queue.requeueStale staleAfter staleAfterSeconds step.1 with
    | some (requeued, queue) =>
      { s with queue, holder := fun runId => if runId ∈ requeued then none else s.holder runId }
    | none => s
  | .work workerId error => s.work staleAfter workerId error step.1
  | .restart workerId => s.setPhase workerId .idle

/-- The worker has a run that was moved back, or that another worker has claimed. -/
def Superseded (s : Fleet) (workerId runId : String) : Prop :=
  (s.phase workerId).held = some runId ∧ s.holder runId ≠ some workerId

/-- The calls that a superseded worker has to make in vain: a heartbeat changes neither the lease
nor the lock, a mark neither the status nor the lease. -/
def Fenced (staleAfter : ℤ) (s : Fleet) (step : Datetime × FleetStep) : Prop :=
  ∀ workerId error runId, step.2 = .work workerId error → s.Superseded workerId runId →
    match s.phase workerId with
    | .claimed _ | .executed _ _ =>
      (s.step staleAfter step).queue.getLease runId = s.queue.getLease runId ∧
        ((s.step staleAfter step).queue.get runId).map (fun item => (item.lockedBy, item.lockedAt)) =
          (s.queue.get runId).map fun item => (item.lockedBy, item.lockedAt)
    | .marking _ _ =>
      ((s.step staleAfter step).queue.get runId).map QueueItem.status =
          (s.queue.get runId).map QueueItem.status ∧
        (s.step staleAfter step).queue.getLease runId = s.queue.getLease runId
    | _ => True

/-- The row and the lease of every run that is running name the worker of its latest claim. -/
structure NamesOwners (s : Fleet) : Prop where
  owner : ∀ r item, s.queue.get r = some item → item.status = .running →
    ∃ workerId lease, s.holder r = some workerId ∧ item.lockedBy = some workerId ∧
      s.queue.getLease r = some lease ∧ lease.workerId = workerId

/-- A superseded worker makes no heartbeat that goes through, and marks its run only where that
is completed, or failed too. -/
def Harmless (staleAfter : ℤ) (s : Fleet) (step : Datetime × FleetStep) : Prop :=
  ∀ workerId error runId, step.2 = .work workerId error → s.Superseded workerId runId →
    match s.phase workerId with
    | .claimed _ | .executed _ _ => step.1.addSeconds staleAfter = none
    | .marking _ error => ∀ item, s.queue.get runId = some item →
      item.status = .completed ∨ item.status = .failed ∧ error.isSome
    | _ => True

/-- The row, the lease and the holder of a run that was left to its holder. -/
def Owned : Option QueueItem → Option RunLease → Option String → Prop
  | some item, lease, holder =>
    if item.status = .running then
      ∃ owned, lease = some owned ∧ holder = some owned.workerId ∧
        item.lockedBy = some owned.workerId
    else lease = none
  | none, lease, _ => lease = none

theorem owned_running {item : QueueItem} {lease : RunLease} (hstatus : item.status = .running)
    (hlocked : item.lockedBy = some lease.workerId) :
    Owned (some item) (some lease) (some lease.workerId) := by
  rw [Owned, if_pos hstatus]
  exact ⟨lease, rfl, rfl, hlocked⟩

theorem owned_not_running {item : QueueItem} {holder : Option String}
    (hstatus : item.status ≠ .running) : Owned (some item) none holder := by
  rw [Owned, if_neg hstatus]

/-- Where no superseded worker interferes: rows, leases and holders agree, and a worker that holds
its run still has it running. -/
structure Sound (s : Fleet) : Prop where
  owned : ∀ r, Owned (s.queue.get r) (s.queue.getLease r) (s.holder r)
  held : ∀ workerId r, (s.phase workerId).held = some r → s.holder r = some workerId →
    s.queue.isRunning r

theorem Sound.namesOwners {s : Fleet} (h : s.Sound) : s.NamesOwners := by
  constructor
  intro r item hitem hstatus
  have hrow := h.owned r
  rw [hitem, Owned, if_pos hstatus] at hrow
  obtain ⟨lease, hlease, hholder, hlocked⟩ := hrow
  exact ⟨lease.workerId, lease, hholder, hlocked, hlease, rfl⟩

section Step
variable {staleAfter : ℤ} {s : Fleet} {now : Datetime} {workerId runId : String}
  {error : Option String} {queue : RunQueue}

theorem phase_setPhase (phase : WorkerPhase) (w : String) :
    (s.setPhase workerId phase).phase w = if w = workerId then phase else s.phase w :=
  Function.update_apply _ _ _ _

/-- A worker may move on as long as it takes no run that it does not hold already. -/
theorem Sound.setPhase {phase : WorkerPhase} (h : s.Sound)
    (hheld : ∀ r, phase.held = some r → (s.phase workerId).held = some r) :
    (s.setPhase workerId phase).Sound := by
  refine ⟨h.owned, fun w r hw hholder => ?_⟩
  rw [phase_setPhase] at hw
  split_ifs at hw with hwork
  · subst hwork
    exact h.held w r (hheld r hw) hholder
  · exact h.held w r hw hholder

/-- The queue may change one run, as long as that is left to its holder. -/
theorem Sound.setQueue (h : s.Sound) (runId : String)
    (hframe : ∀ r ≠ runId, queue.get r = s.queue.get r ∧ queue.getLease r = s.queue.getLease r)
    (howned : Owned (queue.get runId) (queue.getLease runId) (s.holder runId))
    (hheld : ∀ w, (s.phase w).held = some runId → s.holder runId = some w →
      queue.isRunning runId) : Sound { s with queue } := by
  constructor
  · intro r
    by_cases hr : r = runId
    · exact hr ▸ howned
    · dsimp only
      rw [(hframe r hr).1, (hframe r hr).2]
      exact h.owned r
  · intro w r hw hholder
    by_cases hr : r = runId
    · subst hr
      exact hheld w hw hholder
    · unfold RunQueue.isRunning
      dsimp only
      rw [(hframe r hr).1]
      exact h.held w r hw hholder

theorem Sound.claimNext {item : QueueItem} (h : s.Sound)
    (hclaim : s.queue.claimNext staleAfter workerId now = some (some (runId, item), queue)) :
    Sound { queue, phase := Function.update s.phase workerId (.claimed runId)
            holder := Function.update s.holder runId (some workerId) } := by
  obtain ⟨expiresAt, -, old, -, -, -, -, rfl, hget, hlease⟩ := RunQueue.claimNext_some hclaim
  constructor
  · intro r
    dsimp only
    rw [hget, hlease, Function.update_apply]
    by_cases hr : r = runId
    · rw [if_pos hr, if_pos hr, if_pos hr]
      exact owned_running rfl rfl
    · rw [if_neg hr, if_neg hr, if_neg hr]
      exact h.owned r
  · intro w r hw hholder
    unfold RunQueue.isRunning
    dsimp only at hw hholder ⊢
    rw [Function.update_apply] at hw hholder
    rw [hget]
    by_cases hr : r = runId
    · rw [if_pos hr]
      rfl
    · rw [if_neg hr] at hholder ⊢
      by_cases hwork : w = workerId
      · rw [if_pos hwork] at hw
        exact absurd (Option.some.inj hw).symm hr
      · rw [if_neg hwork] at hw
        exact h.held w r hw hholder

/-- The heartbeat of a worker that holds its run. -/
theorem Sound.beat (h : s.Sound) (hheld : (s.phase workerId).held = some runId)
    (hholder : s.holder runId = some workerId)
    (hbeat : s.queue.upsertLease staleAfter runId workerId now = some queue) :
    Sound { s with queue } := by
  have hget := fun r => RunQueue.get_upsertLease (r := r) hbeat
  obtain ⟨expires, -, hlease⟩ := RunQueue.getLease_upsertLease hbeat
  obtain ⟨item, hitem, hstatus⟩ := Option.map_eq_some_iff.mp (h.held workerId runId hheld hholder)
  have hlocked : queue.get runId = some (item.locked workerId now) := by
    rw [hget, hitem, Option.map_some, if_pos ⟨rfl, hstatus⟩]
  refine h.setQueue runId (fun r hr => ?_) ?_ fun w hw hw' => ?_
  · rw [hget, hlease, if_neg hr]
    simp [hr]
  · rw [hlocked, hlease, if_pos rfl, hholder]
    cases s.queue.getLease runId with
    | none => exact owned_running hstatus rfl
    | some lease => exact owned_running hstatus rfl
  · unfold RunQueue.isRunning
    rw [hlocked]
    exact congrArg some hstatus

/-- A run may be marked once no worker that holds it works on it any more. -/
theorem Sound.markTerminal {status : QueueStatus} (hterminal : status ≠ .running) (h : s.Sound)
    (hheld : ∀ w, (s.phase w).held = some runId → s.holder runId ≠ some w) :
    Sound { s with queue := s.queue.markTerminal runId status error now } := by
  refine h.setQueue runId (fun r hr => ?_) ?_ fun w hw hw' => absurd hw' (hheld w hw)
  · rw [RunQueue.get_markTerminal, RunQueue.getLease_markTerminal, if_neg hr]
    simp [hr]
  · rw [RunQueue.get_markTerminal, RunQueue.getLease_markTerminal, if_pos rfl]
    cases s.queue.get runId with
    | none => exact rfl
    | some item =>
      rw [Option.map_some]
      split_ifs with hdone
      · exact owned_not_running hterminal
      · refine owned_not_running fun hrunning => hdone ⟨rfl, ?_⟩
        rw [hrunning]
        decide

theorem Sound.requeueStale {seconds : Option ℤ} {requeued : List String} (h : s.Sound)
    (hcall : s.queue.requeueStale staleAfter seconds now = some (requeued, queue)) :
    Sound { s with queue
                   holder := fun r => if r ∈ requeued then none else s.holder r } := by
  obtain ⟨cutoff, -, heq⟩ := Option.map_eq_some_iff.mp hcall
  simp only [Prod.mk.injEq] at heq
  obtain ⟨rfl, rfl⟩ := heq
  have hkept : ∀ r, r ∉ s.queue.selectStale cutoff →
      (s.queue.requeueSelected (s.queue.selectStale cutoff) now cutoff).get r = s.queue.get r := by
    intro r hr
    rw [RunQueue.get_requeueSelected]
    cases hrow : s.queue.get r with
    | none => rfl
    | some item =>
      have hfresh : ¬item.isStale cutoff := fun hstale =>
        hr (RunQueue.mem_selectStale.mpr ⟨item, hrow, hstale⟩)
      rw [Option.map_some, if_neg hfresh]
  constructor
  · intro r
    dsimp only
    rw [RunQueue.getLease_requeueSelected]
    by_cases hr : r ∈ s.queue.selectStale cutoff
    · obtain ⟨item, hitem, hstale⟩ := RunQueue.mem_selectStale.mp hr
      rw [RunQueue.get_requeueSelected, hitem, Option.map_some, if_pos hstale, if_pos hr]
      exact owned_not_running fun hrunning => nomatch hrunning
    · rw [hkept r hr, if_neg hr, if_neg hr]
      exact h.owned r
  · intro w r hw hholder
    unfold RunQueue.isRunning
    dsimp only at hholder ⊢
    split_ifs at hholder with hr
    rw [hkept r hr]
    exact h.held w r hw hholder

theorem Sound.enqueue {priority : ℤ} {availableAt : Option Datetime} (h : s.Sound)
    (hnew : s.queue.get runId = none)
    (hcall : s.queue.enqueue runId priority availableAt now = some queue) :
    Sound { s with queue } := by
  have hview := fun r => RunQueue.get_enqueue (r := r) hcall
  refine h.setQueue runId (fun r hr => ?_) ?_ fun w hw hw' => ?_
  · rw [(hview r).1, (hview r).2, if_neg hr]
    exact ⟨rfl, rfl⟩
  · have hlease := h.owned runId
    rw [hnew] at hlease
    have hnone : s.queue.getLease runId = none := hlease
    rw [(hview runId).1, (hview runId).2, if_pos rfl, hnew, hnone]
    exact owned_not_running fun hrunning => nomatch hrunning
  · have hrunning := h.held w runId hw hw'
    unfold RunQueue.isRunning at hrunning
    rw [hnew] at hrunning
    cases hrunning

/-- The status of a row that a superseded worker marks. -/
theorem status_markTerminal_iff {status : QueueStatus} :
    ((s.queue.markTerminal runId status error now).get runId).map QueueItem.status =
        (s.queue.get runId).map QueueItem.status ↔
      ∀ item, s.queue.get runId = some item → item.status = .completed ∨ item.status = status := by
  rw [RunQueue.get_markTerminal]
  cases s.queue.get runId with
  | none => simp
  | some item =>
    by_cases hdone : item.status = .completed
    · simp [hdone]
    · simp only [hdone, QueueItem.ended, ne_eq, not_false_eq_true, and_self, if_true,
        Option.map_some, Option.some.injEq, forall_eq', false_or]
      exact eq_comm

/-- A heartbeat that goes through rewrites the lease of another worker's run. -/
theorem Sound.beat_changes_lease (h : s.Sound) (hholder : s.holder runId ≠ some workerId)
    (hbeat : s.queue.upsertLease staleAfter runId workerId now = some queue) :
    queue.getLease runId ≠ s.queue.getLease runId := by
  intro hsame
  obtain ⟨expires, -, hlease⟩ := RunQueue.getLease_upsertLease hbeat
  have hnew := hlease runId
  rw [if_pos rfl, hsame] at hnew
  have howned := h.owned runId
  cases hl : s.queue.getLease runId with
  | none =>
    rw [hl] at hnew
    cases hnew
  | some lease =>
    rw [hl, Option.elim_some, Option.some.injEq] at hnew
    have hworker : lease.workerId = workerId := congrArg RunLease.workerId hnew
    rw [hl] at howned
    cases hrow : s.queue.get runId with
    | none =>
      rw [hrow] at howned
      cases howned
    | some item =>
      rw [hrow, Owned] at howned
      split_ifs at howned
      obtain ⟨owned, hsome, howner, -⟩ := howned
      rw [← Option.some.inj hsome, hworker] at howner
      exact hholder howner

theorem Sound.lease_none {item : QueueItem} (h : s.Sound)
    (hitem : s.queue.get runId = some item) (hstatus : item.status ≠ .running) :
    s.queue.getLease runId = none := by
  have howned := h.owned runId
  rwa [hitem, Owned, if_neg hstatus] at howned

theorem Sound.heartbeat {next : WorkerPhase} (h : s.Sound)
    (hheld : (s.phase workerId).held = some runId) (hnext : next.held = some runId)
    (hfails : s.holder runId ≠ some workerId → now.addSeconds staleAfter = none) :
    (s.heartbeat staleAfter workerId runId next now).Sound := by
  unfold Fleet.heartbeat
  split
  · rename_i queue hbeat
    have hholder : s.holder runId = some workerId := by
      by_contra hother
      obtain ⟨expires, hexpires, -⟩ := Option.map_eq_some_iff.mp hbeat
      rw [hfails hother] at hexpires
      cases hexpires
    refine (h.beat hheld hholder hbeat).setPhase fun r hr => ?_
    rw [← hr, hnext]
    exact hheld
  · exact h.setPhase fun r hr => nomatch hr

theorem Sound.mark (status : QueueStatus) (hterminal : status ≠ .running) (h : s.Sound)
    (hdone : s.holder runId ≠ some workerId → ¬s.queue.isRunning runId) :
    (Fleet.setPhase { s with queue := s.queue.markTerminal runId status error now }
      workerId .idle).Sound := by
  have hidle : (s.setPhase workerId .idle).Sound := h.setPhase fun r hr => nomatch hr
  refine hidle.markTerminal hterminal fun w hw hholder => ?_
  rw [phase_setPhase] at hw
  split_ifs at hw with hwork
  · cases hw
  · refine hdone (fun hworker => hwork ?_) (h.held w runId hw hholder)
    exact Option.some.inj (hholder.symm.trans hworker)

/-- A superseded worker that meets its condition marks a run that is not running. -/
theorem not_running_of_done
    (hdone : ∀ item, s.queue.get runId = some item →
      item.status = .completed ∨ item.status = .failed ∧ error.isSome) :
    ¬s.queue.isRunning runId := by
  intro hrunning
  obtain ⟨item, hitem, hstatus⟩ := Option.map_eq_some_iff.mp hrunning
  rcases hdone item hitem with hcompleted | ⟨hfailed, -⟩
  · rw [hstatus] at hcompleted
    cases hcompleted
  · rw [hstatus] at hfailed
    cases hfailed

theorem Sound.work (h : s.Sound) (hharmless : s.Harmless staleAfter (now, .work workerId error)) :
    (s.work staleAfter workerId error now).Sound := by
  have hcond := hharmless workerId error
  unfold Fleet.work
  cases hphase : s.phase workerId with
  | idle =>
    dsimp only
    split
    · rename_i hclaim
      exact h.claimNext hclaim
    · exact h
    · exact h.setPhase fun r hr => nomatch hr
  | claimed runId =>
    refine h.heartbeat (by rw [hphase]; rfl) rfl fun hholder => ?_
    have hfails := hcond runId rfl ⟨by rw [hphase]; rfl, hholder⟩
    rwa [hphase] at hfails
  | executing runId => exact h.setPhase fun r hr => by rw [hphase]; exact hr
  | executed runId executed =>
    refine h.heartbeat (by rw [hphase]; rfl) rfl fun hholder => ?_
    have hfails := hcond runId rfl ⟨by rw [hphase]; rfl, hholder⟩
    rwa [hphase] at hfails
  | marking runId raised =>
    have hdone : s.holder runId ≠ some workerId → ¬s.queue.isRunning runId := fun hholder => by
      have hmarked := hcond runId rfl ⟨by rw [hphase]; rfl, hholder⟩
      rw [hphase] at hmarked
      exact not_running_of_done hmarked
    cases raised with
    | none => exact h.mark .completed (by decide) hdone
    | some message => exact h.mark .failed (by decide) hdone
  | stopped => exact h

/-- What meets its condition keeps the fleet sound. -/
theorem Sound.step (h : s.Sound) (step : Datetime × FleetStep)
    (hharmless : s.Harmless staleAfter step) : (s.step staleAfter step).Sound := by
  obtain ⟨now, step⟩ := step
  cases step with
  | enqueue runId priority availableAt =>
    unfold Fleet.step
    dsimp only
    split_ifs with hnew
    · cases hcall : s.queue.enqueue runId priority availableAt now with
      | none => exact h
      | some queue => exact h.enqueue (Option.isNone_iff_eq_none.mp hnew) hcall
    · exact h
  | requeueStale seconds =>
    unfold Fleet.step
    dsimp only
    split
    · rename_i hcall
      exact h.requeueStale hcall
    · exact h
  | work workerId error => exact h.work hharmless
  | restart workerId => exact h.setPhase fun r hr => nomatch hr

theorem heartbeat_untouched_iff (next : WorkerPhase) (h : s.Sound)
    (hholder : s.holder runId ≠ some workerId) :
    ((s.heartbeat staleAfter workerId runId next now).queue.getLease runId =
        s.queue.getLease runId ∧
      ((s.heartbeat staleAfter workerId runId next now).queue.get runId).map
          (fun item => (item.lockedBy, item.lockedAt)) =
        (s.queue.get runId).map fun item => (item.lockedBy, item.lockedAt)) ↔
      now.addSeconds staleAfter = none := by
  unfold Fleet.heartbeat
  split
  · rename_i queue hbeat
    have hchanges := h.beat_changes_lease hholder hbeat
    obtain ⟨expires, hexpires, -⟩ := Option.map_eq_some_iff.mp hbeat
    rw [hexpires]
    exact ⟨fun hsame => absurd hsame.1 hchanges, fun hnone => nomatch hnone⟩
  · rename_i hbeat
    exact ⟨fun _ => Option.map_eq_none_iff.mp hbeat, fun _ => ⟨rfl, rfl⟩⟩

theorem mark_untouched_iff (status : QueueStatus) (hterminal : status ≠ .running) (h : s.Sound) :
    (((s.queue.markTerminal runId status error now).get runId).map QueueItem.status =
        (s.queue.get runId).map QueueItem.status ∧
      (s.queue.markTerminal runId status error now).getLease runId = s.queue.getLease runId) ↔
      ∀ item, s.queue.get runId = some item →
        item.status = .completed ∨ item.status = status := by
  rw [status_markTerminal_iff, RunQueue.getLease_markTerminal, if_pos rfl]
  refine and_iff_left_of_imp fun hdone => ?_
  cases hrow : s.queue.get runId with
  | none =>
    have howned := h.owned runId
    rw [hrow] at howned
    exact Eq.symm howned
  | some item =>
    refine (h.lease_none hrow fun hrunning => ?_).symm
    rcases hdone item hrow with hcompleted | hmarked
    · rw [hrunning] at hcompleted
      cases hcompleted
    · exact hterminal (hmarked.symm.trans hrunning)

/-- In a sound fleet a superseded worker is fenced off exactly under its condition. -/
theorem Sound.fenced_iff (h : s.Sound) (step : Datetime × FleetStep) :
    s.Fenced staleAfter step ↔ s.Harmless staleAfter step := by
  obtain ⟨now, step⟩ := step
  unfold Fenced Harmless
  refine forall_congr' fun workerId => forall_congr' fun error => forall_congr' fun runId =>
    imp_congr_right fun hstep => imp_congr_right fun hsuperseded => ?_
  dsimp only at hstep
  subst hstep
  obtain ⟨hheld, hholder⟩ := hsuperseded
  have hnext : s.step staleAfter (now, .work workerId error) =
      s.work staleAfter workerId error now := rfl
  rw [hnext]
  unfold Fleet.work
  cases hphase : s.phase workerId with
  | idle => exact Iff.rfl
  | claimed claimed =>
    rw [hphase] at hheld
    cases hheld
    exact heartbeat_untouched_iff _ h hholder
  | executing => exact Iff.rfl
  | executed executed raised =>
    rw [hphase] at hheld
    cases hheld
    exact heartbeat_untouched_iff _ h hholder
  | marking marked raised =>
    rw [hphase] at hheld
    cases hheld
    cases raised with
    | none =>
      refine (mark_untouched_iff .completed (by decide) h).trans ?_
      simp
    | some message =>
      refine (mark_untouched_iff .failed (by decide) h).trans ?_
      simp
  | stopped => exact Iff.rfl

theorem sound_empty : ({} : Fleet).Sound :=
  ⟨fun _ => rfl, fun _ _ hheld => nomatch hheld⟩

end Step
end Fleet
end Tes
