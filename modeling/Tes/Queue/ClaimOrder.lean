import Tes.Library.IsoTexts
import Tes.Library.Lists
import Tes.Queue.RunQueue

/-! The queue compares times by their texts: the texts are those of the same instants, in the same
order, and a claim takes the first row that may be claimed. -/
namespace Tes
open IsoTime

namespace RunQueue

/-- The text of a datetime in UTC, which a naive datetime is in already. Raises where UTC has no
such year. -/
def formatDatetime (t : WallTime) : Option String := (t.utc 0).map Datetime.isoformat

/-- The datetime of a text, in UTC. A text without an offset is local time. -/
def parseDatetime (localOffset : Datetime → ℤ) (text : String) : Option Datetime :=
  (fromIsoformat text).bind fun t => t.utc (localOffset t.wall)

end RunQueue

namespace QueueItem

/-- A row is pending, or running with a lock from before the stale window, and its time has come. -/
def Claimable (item : QueueItem) (now staleBefore : Datetime) : Prop :=
  (item.status = .pending ∨ item.status = .running ∧
    ∃ lockedAt ∈ item.lockedAt, lockedAt < staleBefore) ∧ item.availableAt ≤ now

/-- Higher priorities first, then older rows, then by run id. -/
def Before (r : String) (item : QueueItem) (r' : String) (item' : QueueItem) : Prop :=
  item'.priority < item.priority ∨ item.priority = item'.priority ∧
    (item.createdAt < item'.createdAt ∨ item.createdAt = item'.createdAt ∧ r < r')

section Order
variable {item item' : QueueItem} {r r' : String} {now staleBefore : Datetime}

theorem isEligible_iff : item.isEligible now staleBefore ↔ item.Claimable now staleBefore := by
  unfold isEligible Claimable
  rw [isStale_iff, Datetime.isoformat_le_iff]

theorem Before.asymm (h : Before r item r' item') : ¬ Before r' item' r item := by
  rintro (hlt | ⟨heq, hlt | ⟨hsame, hlt⟩⟩)
  · rcases h with h | ⟨h, -⟩
    · exact lt_asymm h hlt
    · exact hlt.ne h
  · rcases h with h | ⟨-, h | ⟨h, -⟩⟩
    · exact h.ne heq
    · exact lt_asymm h hlt
    · exact hlt.ne' h
  · rcases h with h | ⟨-, h | ⟨-, h⟩⟩
    · exact h.ne heq
    · exact h.ne' hsame
    · exact lt_asymm h hlt

/-- The keys of claims decide but for the run id. -/
theorem before_of_claimKey_le (h : claimOrder.le item.claimKey item'.claimKey)
    (hr : item.claimKey = item'.claimKey → r < r') : Before r item r' item' := by
  have hle := Prod.Lex.toLex_le_toLex.mp h
  unfold Before
  rcases hle with hlt | ⟨heq, htext⟩
  · exact Or.inl (by omega)
  · have hpriority : item.priority = item'.priority := by omega
    have hcreated : item.createdAt ≤ item'.createdAt := Datetime.isoformat_le_iff.mp htext
    rcases hcreated.lt_or_eq with hlt | hsame
    · exact Or.inr ⟨hpriority, Or.inl hlt⟩
    · have hkey : item.claimKey = item'.claimKey := by
        unfold claimKey
        rw [hpriority, hsame]
      exact Or.inr ⟨hpriority, Or.inr ⟨hsame, hr hkey⟩⟩

end Order
end QueueItem

namespace RunQueue

/-- The row of a run may be claimed, and comes before every other such row. -/
structure FirstClaimable (q : RunQueue) (now staleBefore : Datetime) (runId : String)
    (item : QueueItem) : Prop where
  row : q.get runId = some item
  claimable : item.Claimable now staleBefore
  first : ∀ r other, q.get r = some other → other.Claimable now staleBefore → r ≠ runId →
    QueueItem.Before runId item r other

section Claim
variable {q : RunQueue} {now staleBefore expiresAt : Datetime} {runId workerId : String}
  {item : QueueItem} {staleAfter : ℤ}

theorem mem_eligible : (runId, item) ∈
    (q.runQueue.entries.filter fun e => e.2.isEligible now staleBefore) ↔
      q.get runId = some item ∧ item.Claimable now staleBefore := by
  rw [List.mem_filter, decide_eq_true_iff, QueueItem.isEligible_iff, OrderedMap.mem_entries_iff]
  rfl

theorem nextEligible_first (h : q.nextEligible now staleBefore = some (runId, item)) :
    q.FirstClaimable now staleBefore runId item := by
  have hsorted := q.runQueue.sorted.filter fun e => e.2.isEligible now staleBefore
  obtain ⟨hmem, hfirst⟩ := @Lists.first_of_argmin _ _ QueueItem.claimOrder _ _ _ _ hsorted h
  obtain ⟨hrow, hclaimable⟩ := mem_eligible.mp hmem
  constructor
  · exact hrow
  · exact hclaimable
  · intro r other hother hclaimable' hne
    have hbefore := hfirst (r, other) (mem_eligible.mpr ⟨hother, hclaimable'⟩) fun heq =>
      hne (congrArg Prod.fst heq)
    rcases hbefore with hlt | ⟨heq, hlt⟩
    · have hle := @le_of_lt _ QueueItem.claimOrder.toPreorder _ _ hlt
      exact QueueItem.before_of_claimKey_le hle fun heq =>
        absurd hlt (heq ▸ @lt_irrefl _ QueueItem.claimOrder.toPreorder _)
    · exact QueueItem.before_of_claimKey_le (heq ▸ QueueItem.claimOrder.le_refl _) fun _ => hlt

/-- A claim finds the first row that may be claimed. -/
theorem nextEligible_iff :
    q.nextEligible now staleBefore = some (runId, item) ↔
      q.FirstClaimable now staleBefore runId item := by
  constructor
  · exact nextEligible_first
  · intro h
    cases hnext : q.nextEligible now staleBefore with
    | none =>
      have hempty := List.argmin_eq_none.mp hnext
      have hmem := mem_eligible.mpr ⟨h.row, h.claimable⟩
      rw [hempty] at hmem
      cases hmem
    | some found =>
      obtain ⟨r, other⟩ := found
      have hfound := nextEligible_first hnext
      by_cases hr : r = runId
      · subst hr
        have hitem : other = item := Option.some.inj (hfound.row.symm.trans h.row)
        rw [hitem]
      · have hbefore := h.first r other hfound.row hfound.claimable hr
        have hafter := hfound.first runId item h.row h.claimable (Ne.symm hr)
        exact absurd hafter hbefore.asymm

theorem nextEligible_eq_none : q.nextEligible now staleBefore = none ↔
    ∀ runId item, q.get runId = some item → ¬ item.Claimable now staleBefore := by
  unfold nextEligible
  rw [List.argmin_eq_none, List.eq_nil_iff_forall_not_mem]
  constructor
  · intro h runId item hrow hclaimable
    exact h (runId, item) (mem_eligible.mpr ⟨hrow, hclaimable⟩)
  · rintro h ⟨runId, item⟩ hmem
    obtain ⟨hrow, hclaimable⟩ := mem_eligible.mp hmem
    exact h runId item hrow hclaimable

theorem claimNext_eq (hexpires : now.addSeconds staleAfter = some expiresAt)
    (hstale : now.addSeconds (-staleAfter) = some staleBefore) :
    (q.claimNext staleAfter workerId now).map Prod.fst =
      some ((q.nextEligible now staleBefore).map fun e => (e.1, e.2.claimed workerId now)) := by
  unfold claimNext
  rw [hexpires, hstale]
  dsimp only
  cases q.nextEligible now staleBefore with
  | none => rfl
  | some found => rfl

end Claim

/-- A text of the queue is that of the same instant, texts compare as the instants do, and a claim
returns the first row that may be claimed, or none where there is none. -/
theorem queueTimes_sound {t u : WallTime} {d e now expiresAt staleBefore : Datetime}
    {staleAfter : ℤ} (ht : t.utc 0 = some d) (hu : u.utc 0 = some e)
    (hexpires : now.addSeconds staleAfter = some expiresAt)
    (hstale : now.addSeconds (-staleAfter) = some staleBefore)
    (localOffset : Datetime → ℤ) (q : RunQueue) (workerId : String) :
    (formatDatetime t).bind (parseDatetime localOffset) = some d ∧
    (∃ text ∈ formatDatetime t, ∃ text' ∈ formatDatetime u, (text < text' ↔ d < e)) ∧
    (∀ runId item, (q.claimNext staleAfter workerId now).map Prod.fst = some (some (runId, item)) ↔
      ∃ row, q.FirstClaimable now staleBefore runId row ∧ item = row.claimed workerId now) ∧
    ((q.claimNext staleAfter workerId now).map Prod.fst = some none ↔
      ∀ runId row, q.get runId = some row → ¬ row.Claimable now staleBefore) := by
  have hformat : ∀ {t : WallTime} {d : Datetime}, t.utc 0 = some d →
      formatDatetime t = some d.isoformat := by
    intro t d ht
    unfold formatDatetime
    rw [ht, Option.map_some]
  refine ⟨?_, ?_, ?_, ?_⟩
  · rw [hformat ht, Option.bind_some]
    unfold parseDatetime
    rw [Datetime.fromIsoformat_isoformat, Option.bind_some]
    exact d.shift_zero
  · exact ⟨_, hformat ht, _, hformat hu, Datetime.isoformat_lt_iff⟩
  · intro runId item
    rw [claimNext_eq hexpires hstale]
    constructor
    · intro h
      obtain ⟨⟨r, row⟩, hnext, hclaimed⟩ := Option.map_eq_some_iff.mp (Option.some.inj h)
      obtain ⟨rfl, rfl⟩ := Prod.mk.inj hclaimed
      exact ⟨row, nextEligible_iff.mp hnext, rfl⟩
    · rintro ⟨row, hfirst, rfl⟩
      rw [nextEligible_iff.mpr hfirst, Option.map_some]
  · rw [claimNext_eq hexpires hstale, Option.some_inj, Option.map_eq_none_iff]
    exact nextEligible_eq_none

/-- Noon of the first day of 2024, and ten o'clock. -/
def noon : Datetime := ⟨63839707200000000, by decide⟩
def ten : Datetime := ⟨63839700000000000, by decide⟩

def oneRow : RunQueue := { runQueue := (∅ : Table QueueItem).insert "r" (.inserted 0 ten ten) }

theorem queueTimes_sound_noon :
    (formatDatetime { wall := noon, offset := some 7200000000 }).bind
      (parseDatetime fun _ => 0) = some ten ∧
    (oneRow.claimNext 60 "w" noon).map Prod.fst =
      some (some ("r", (QueueItem.inserted 0 ten ten).claimed "w" noon)) := by
  have hsound := @queueTimes_sound { wall := noon, offset := some 7200000000 } { wall := ten } ten
    ten noon ⟨63839707260000000, by decide⟩ ⟨63839707140000000, by decide⟩ 60 (by decide) (by decide)
    (by decide) (by decide) (fun _ => 0) oneRow "w"
  obtain ⟨hinstant, -, hclaim, -⟩ := hsound
  refine ⟨hinstant, (hclaim _ _).mpr ⟨.inserted 0 ten ten, ?_, rfl⟩⟩
  have hrow : ∀ r, oneRow.get r = if r = "r" then some (.inserted 0 ten ten) else none :=
    fun r => OrderedMap.find?_insert _ _ _ _
  constructor
  · rw [hrow]
    rfl
  · exact ⟨Or.inl rfl, by decide⟩
  · intro r other hother _ hne
    rw [hrow, if_neg hne] at hother
    cases hother

end RunQueue
end Tes
