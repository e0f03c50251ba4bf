import Tes.Queue.RunQueue

/-! Claims are exclusive: the lock of a claimed run is never older than its claim, and every
claim is counted. -/
namespace Tes
open IsoTime

/-- The calls that write rows and leases. -/
inductive QueueCall
  | enqueue (runId : String) (priority : ℤ) (availableAt : Option Datetime)
  | claimNext (workerId : String)
  | markRunning (runId : String) (workerId : Option String)
  | markCompleted (runId : String)
  | markFailed (runId error : String)
  | markCanceled (runId : String) (error : Option String)
  | cancelPending (runId : String)
  | heartbeat (workerId : String) (currentRunId : Option String)
  | requeueStale (staleAfterSeconds : Option ℤ)
  deriving DecidableEq

namespace QueueCall

/-- The queue after a call at `now`; nothing where the call raises. -/
def exec (staleAfter : ℤ) (call : QueueCall) (now : Datetime) (q : RunQueue) : Option RunQueue :=
  match call with
  | enqueue runId priority availableAt => q.enqueue runId priority availableAt now
  | claimNext workerId => (q.claimNext staleAfter workerId now).map Prod.snd
  | markRunning runId workerId => q.markRunning staleAfter runId workerId now
  | markCompleted runId => some (q.markCompleted runId now)
  | markFailed runId error => some (q.markFailed runId error now)
  | markCanceled runId error => some (q.markCanceled runId error now)
  | cancelPending runId => some (q.cancelPending runId now)
  | heartbeat workerId currentRunId => q.heartbeat staleAfter workerId currentRunId now
  | requeueStale staleAfterSeconds => (q.requeueStale staleAfter staleAfterSeconds now).map Prod.snd

/-- The run a claim returns. -/
def claims (staleAfter : ℤ) (call : QueueCall) (now : Datetime) (q : RunQueue) : Option String :=
  match call with
  | claimNext workerId => (q.claimNext staleAfter workerId now).bind fun result =>
      result.1.map Prod.fst
  | _ => none

end QueueCall

/-- One transaction: a call in one piece, or the transaction with which a stale recovery ends
that was called and made its selection before. -/
inductive Transaction
  | call (call : QueueCall)
  | requeue (requeued : List String) (calledAt : Datetime)
  deriving DecidableEq

namespace Transaction

def exec (staleAfter : ℤ) (tx : Transaction) (now : Datetime) (q : RunQueue) : Option RunQueue :=
  match tx with
  | call c => c.exec staleAfter now q
  | requeue requeued calledAt => (calledAt.addSeconds (-staleAfter)).map fun cutoff =>
      q.requeueSelected requeued now cutoff

def claims (staleAfter : ℤ) (tx : Transaction) (now : Datetime) (q : RunQueue) : Option String :=
  match tx with
  | call c => c.claims staleAfter now q
  | requeue .. => none

/-- The transaction happens at its time: a stale recovery is called before. -/
def inTime (tx : Transaction) (now : Datetime) : Prop :=
  match tx with
  | call _ => True
  | requeue _ calledAt => calledAt ≤ now

instance (tx : Transaction) (now : Datetime) : Decidable (tx.inTime now) :=
  match tx with
  | call _ => inferInstanceAs (Decidable True)
  | requeue _ calledAt => inferInstanceAs (Decidable (calledAt ≤ now))

/-- The recovery with the default timeout. -/
def isRecovery (tx : Transaction) : Prop :=
  match tx with
  | call (.requeueStale staleAfterSeconds) => staleAfterSeconds = none
  | requeue .. => True
  | _ => False

/-- The queue after the transaction, the same where it raises. -/
def apply (staleAfter : ℤ) (tx : Transaction) (now : Datetime) (q : RunQueue) : RunQueue :=
  (tx.exec staleAfter now q).getD q

/-- The transaction takes the run: a claim returns it, or a recovery moves it. -/
def Takes (staleAfter : ℤ) (tx : Transaction) (now : Datetime) (q : RunQueue) (runId : String) :
    Prop :=
  tx.claims staleAfter now q = some runId ∨
    tx.isRecovery ∧ ((tx.apply staleAfter now q).get runId).map QueueItem.status ≠
      (q.get runId).map QueueItem.status

end Transaction

namespace RunQueue

/-- The queue after some transactions, each at its time. -/
def after (staleAfter : ℤ) (q : RunQueue) : List (Datetime × Transaction) → RunQueue
  | [] => q
  | (now, tx) :: rest => (tx.apply staleAfter now q).after staleAfter rest

/-- The runs that claims return, in order. -/
def claimedRuns (staleAfter : ℤ) (q : RunQueue) : List (Datetime × Transaction) → List String
  | [] => []
  | (now, tx) :: rest => (tx.claims staleAfter now q).toList ++
      (tx.apply staleAfter now q).claimedRuns staleAfter rest

def isRunning (q : RunQueue) (runId : String) : Prop :=
  (q.get runId).map QueueItem.status = some .running

instance (q : RunQueue) (runId : String) : Decidable (q.isRunning runId) :=
  inferInstanceAs (Decidable (_ = _))

def attempts (q : RunQueue) (runId : String) : ℕ := (q.get runId).elim 0 QueueItem.attempts

end RunQueue

/-! One transaction. -/
section Step
variable {staleAfter : ℤ} {tx : Transaction} {now : Datetime} {q q' : RunQueue} {r : String}

/-- What a transaction does to the row of a run. -/
inductive RowStep (now : Datetime) (r : String) (q q' : RunQueue) : Option String → Prop
  | same : q'.get r = q.get r → RowStep now r q q' none
  /-- A statement other than a claim: the attempts stay, and the lock goes or is set now. -/
  | written {item : QueueItem} : q'.get r = some item → item.attempts = q.attempts r →
      item.lockedAt = none ∨ item.lockedAt = some now → RowStep now r q q' none
  | claimed {old : QueueItem} {workerId : String} : q.get r = some old →
      q'.get r = some (old.claimed workerId now) → RowStep now r q q' (some r)
  | other {runId : String} : runId ≠ r → q'.get r = q.get r → RowStep now r q q' (some runId)

theorem RowStep.of_map {f : QueueItem → QueueItem} {p : QueueItem → Prop} [DecidablePred p]
    (hget : q'.get r = (q.get r).map fun item => if p item then f item else item)
    (hattempts : ∀ item, (f item).attempts = item.attempts)
    (hlock : ∀ item, (f item).lockedAt = none ∨ (f item).lockedAt = some now) :
    RowStep now r q q' none := by
  cases hrow : q.get r with
  | none =>
    rw [hrow] at hget
    exact .same (hget.trans hrow.symm)
  | some item =>
    rw [hrow, Option.map_some] at hget
    split_ifs at hget with hp
    · refine .written hget ?_ (hlock item)
      rw [hattempts, RunQueue.attempts, hrow]
      rfl
    · exact .same (hget.trans hrow.symm)

theorem rowStep_upsertLease {runId workerId : String}
    (h : q.upsertLease staleAfter runId workerId now = some q') : RowStep now r q q' none :=
  .of_map (p := fun item => r = runId ∧ item.status = .running) (RunQueue.get_upsertLease h)
    (fun _ => rfl) fun _ => Or.inr rfl

theorem rowStep_requeueSelected (requeued : List String) (cutoff : Datetime) :
    RowStep now r q (q.requeueSelected requeued now cutoff) none :=
  .of_map (RunQueue.get_requeueSelected requeued cutoff) (fun _ => rfl) fun _ => Or.inl rfl

theorem rowStep_markTerminal {runId : String} (status : QueueStatus) (error : Option String) :
    RowStep now r q (q.markTerminal runId status error now) none :=
  .of_map (p := fun item => r = runId ∧ item.status ≠ .completed)
    (RunQueue.get_markTerminal status error) (fun _ => rfl) fun _ => Or.inl rfl

theorem rowStep_claimNext {workerId : String} {result : Option (String × QueueItem)}
    (h : q.claimNext staleAfter workerId now = some (result, q')) :
    RowStep now r q q' (result.map Prod.fst) := by
  cases result with
  | none => exact .same (by rw [RunQueue.claimNext_none h])
  | some taken =>
    obtain ⟨runId, item⟩ := taken
    obtain ⟨-, -, old, -, -, hold, -, rfl, hget, -⟩ := RunQueue.claimNext_some h
    have hr := hget r
    rw [Option.map_some]
    by_cases hid : r = runId
    · subst hid
      rw [if_pos rfl] at hr
      exact .claimed hold hr
    · rw [if_neg hid] at hr
      exact .other (Ne.symm hid) hr

theorem rowStep_call {c : QueueCall} (h : c.exec staleAfter now q = some q') :
    RowStep now r q q' (c.claims staleAfter now q) := by
  cases c with
  | enqueue runId priority availableAt =>
    obtain ⟨hget, -⟩ := RunQueue.get_enqueue (r := r) h
    by_cases hid : r = runId
    · subst hid
      rw [if_pos rfl] at hget
      refine .written hget ?_ (Or.inl ?_)
      · unfold RunQueue.attempts
        cases q.get r <;> rfl
      · cases q.get r <;> rfl
    · rw [if_neg hid] at hget
      exact .same hget
  | claimNext workerId =>
    obtain ⟨⟨result, q''⟩, hclaim, rfl⟩ := Option.map_eq_some_iff.mp h
    have hstep := rowStep_claimNext (r := r) hclaim
    have hclaims : (QueueCall.claimNext workerId).claims staleAfter now q = result.map Prod.fst := by
      show ((q.claimNext staleAfter workerId now).bind fun result => result.1.map Prod.fst) = _
      rw [hclaim]
      rfl
    rw [hclaims]
    exact hstep
  | markRunning runId workerId =>
    exact .of_map (p := fun item => r = runId ∧ item.status ≠ .completed)
      (RunQueue.get_markRunning h) (fun _ => rfl) fun _ => Or.inr rfl
  | markCompleted runId => exact Option.some.inj h ▸ rowStep_markTerminal _ _
  | markFailed runId error => exact Option.some.inj h ▸ rowStep_markTerminal _ _
  | markCanceled runId error => exact Option.some.inj h ▸ rowStep_markTerminal _ _
  | cancelPending runId =>
    rw [← Option.some.inj h]
    exact .of_map (p := fun item => r = runId ∧ item.status = .pending) RunQueue.get_cancelPending
      (fun _ => rfl) fun _ => Or.inl rfl
  | heartbeat workerId currentRunId =>
    cases currentRunId with
    | none => exact .same (by rw [← Option.some.inj h])
    | some runId => exact rowStep_upsertLease h
  | requeueStale staleAfterSeconds =>
    obtain ⟨result, hresult, rfl⟩ := Option.map_eq_some_iff.mp h
    obtain ⟨cutoff, -, rfl⟩ := Option.map_eq_some_iff.mp hresult
    exact rowStep_requeueSelected _ _

theorem rowStep_apply (tx : Transaction) :
    RowStep now r q (tx.apply staleAfter now q) (tx.claims staleAfter now q) := by
  unfold Transaction.apply
  cases hexec : tx.exec staleAfter now q with
  | some q' =>
    cases tx with
    | call c => exact rowStep_call hexec
    | requeue requeued calledAt =>
      obtain ⟨cutoff, -, rfl⟩ := Option.map_eq_some_iff.mp hexec
      exact rowStep_requeueSelected _ _
  | none =>
    have hnone : tx.claims staleAfter now q = none := by
      cases tx with
      | call c =>
        cases c with
        | claimNext workerId =>
          have hclaim := Option.map_eq_none_iff.mp hexec
          show ((q.claimNext staleAfter workerId now).bind fun result => result.1.map Prod.fst) = _
          rw [hclaim]
          rfl
        | _ => rfl
      | requeue => rfl
    rw [hnone]
    exact .same rfl

/-- The attempts of a run count its claims. -/
theorem attempts_apply (tx : Transaction) : (tx.apply staleAfter now q).attempts r =
    q.attempts r + (tx.claims staleAfter now q).toList.count r := by
  have hstep : RowStep now r q (tx.apply staleAfter now q) (tx.claims staleAfter now q) :=
    rowStep_apply tx
  generalize tx.claims staleAfter now q = claimed at hstep
  cases hstep with
  | same hget => simp [RunQueue.attempts, hget]
  | written hget hattempts => simp [RunQueue.attempts, hget, hattempts]
  | claimed hold hget => simp [RunQueue.attempts, hget, hold, QueueItem.claimed]
  | other hne hget => simp [RunQueue.attempts, hget, hne]

/-- Where the run is locked, it has been locked since `t`. -/
def RunQueue.LockedSince (q : RunQueue) (r : String) (t : Datetime) : Prop :=
  ∀ item, q.get r = some item → ∀ lockedAt ∈ item.lockedAt, t ≤ lockedAt

theorem lockedSince_apply {t : Datetime} (h : q.LockedSince r t) (hnow : t ≤ now)
    (tx : Transaction) : (tx.apply staleAfter now q).LockedSince r t := by
  have hstep : RowStep now r q (tx.apply staleAfter now q) (tx.claims staleAfter now q) :=
    rowStep_apply tx
  generalize tx.claims staleAfter now q = claimed at hstep
  intro item hitem lockedAt hlock
  cases hstep with
  | same hget => exact h item (hget ▸ hitem) lockedAt hlock
  | written hget hattempts hlocks =>
    rw [hget, Option.some.injEq] at hitem
    subst hitem
    rcases hlocks with hnone | hset
    · rw [hnone] at hlock
      cases hlock
    · rw [hset] at hlock
      cases hlock
      exact hnow
  | claimed hold hget =>
    rw [hget, Option.some.injEq] at hitem
    subst hitem
    cases hlock
    exact hnow
  | other hne hget => exact h item (hget ▸ hitem) lockedAt hlock

/-- A run in a running row is only taken once its lock is stale. -/
theorem stale_of_takes (hrunning : q.isRunning r) (htakes : tx.Takes staleAfter now q r)
    (htime : tx.inTime now) : ∃ item calledAt cutoff, q.get r = some item ∧ calledAt ≤ now ∧
      calledAt.addSeconds (-staleAfter) = some cutoff ∧ ∃ lockedAt ∈ item.lockedAt, lockedAt < cutoff := by
  obtain ⟨item, hitem, hstatus⟩ := Option.map_eq_some_iff.mp hrunning
  have hmoves : ∀ {calledAt cutoff : Datetime} {requeued : List String}, calledAt ≤ now →
      calledAt.addSeconds (-staleAfter) = some cutoff →
      ((q.requeueSelected requeued now cutoff).get r).map QueueItem.status ≠
        (q.get r).map QueueItem.status →
      ∃ item calledAt cutoff, q.get r = some item ∧ calledAt ≤ now ∧
        calledAt.addSeconds (-staleAfter) = some cutoff ∧
        ∃ lockedAt ∈ item.lockedAt, lockedAt < cutoff := by
    intro calledAt cutoff requeued hle hcutoff hmoved
    by_cases hstale : item.isStale cutoff
    · exact ⟨item, calledAt, cutoff, hitem, hle, hcutoff, (QueueItem.isStale_iff.mp hstale).2⟩
    · rw [RunQueue.get_requeueSelected, hitem, Option.map_some, if_neg hstale] at hmoved
      exact absurd rfl hmoved
  rcases htakes with hclaims | ⟨hrecovery, hmoved⟩
  · cases tx with
    | requeue => cases hclaims
    | call c =>
      cases c with
      | claimNext workerId =>
        obtain ⟨⟨result, q'⟩, hclaim, hresult⟩ := Option.bind_eq_some_iff.mp hclaims
        obtain ⟨⟨runId, taken⟩, htaken, hid⟩ := Option.map_eq_some_iff.mp hresult
        dsimp only at htaken hid
        subst hid htaken
        obtain ⟨-, staleBefore, old, -, hstale, hold, heligible, -, -⟩ :=
          RunQueue.claimNext_some hclaim
        rw [hitem, Option.some.injEq] at hold
        subst hold
        rcases heligible.1 with hpending | hlock
        · rw [hstatus] at hpending
          cases hpending
        · exact ⟨item, now, staleBefore, hitem, le_rfl, hstale, (QueueItem.isStale_iff.mp hlock).2⟩
      | _ => cases hclaims
  · cases tx with
    | requeue requeued calledAt =>
      unfold Transaction.apply Transaction.exec at hmoved
      cases hcutoff : calledAt.addSeconds (-staleAfter) with
      | none =>
        simp only [hcutoff] at hmoved
        exact absurd rfl hmoved
      | some cutoff =>
        simp only [hcutoff] at hmoved
        exact hmoves htime hcutoff hmoved
    | call c =>
      cases c with
      | requeueStale staleAfterSeconds =>
        have hdefault : staleAfterSeconds = none := hrecovery
        subst hdefault
        unfold Transaction.apply Transaction.exec QueueCall.exec RunQueue.requeueStale at hmoved
        cases hcutoff : now.addSeconds (-RunQueue.staleTimeout staleAfter none) with
        | none =>
          simp only [hcutoff] at hmoved
          exact absurd rfl hmoved
        | some cutoff =>
          simp only [hcutoff] at hmoved
          exact hmoves le_rfl hcutoff hmoved
      | _ => exact hrecovery.elim

end Step

/-! Any number of transactions. -/
section Runs
variable {staleAfter : ℤ} {q : RunQueue}

theorem attempts_after (steps : List (Datetime × Transaction)) (r : String) :
    (q.after staleAfter steps).attempts r =
      q.attempts r + (q.claimedRuns staleAfter steps).count r := by
  induction steps generalizing q with
  | nil => simp [RunQueue.after, RunQueue.claimedRuns]
  | cons step rest ih =>
    rw [RunQueue.after, RunQueue.claimedRuns, ih, attempts_apply, List.count_append, Nat.add_assoc]

theorem lockedSince_after {r : String} {t : Datetime} (h : q.LockedSince r t)
    {steps : List (Datetime × Transaction)} (htimes : ∀ step ∈ steps, t ≤ step.1) :
    (q.after staleAfter steps).LockedSince r t := by
  induction steps generalizing q with
  | nil => exact h
  | cons step rest ih =>
    exact ih (lockedSince_apply h (htimes step List.mem_cons_self) step.2)
      fun step' hstep' => htimes step' (List.mem_cons_of_mem _ hstep')

end Runs
end Tes
