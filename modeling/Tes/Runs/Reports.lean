import Tes.Library.Json
import Tes.Runs.Tournaments

/-! The ranked report of a tournament. Scores and equities are taken in any linear order. -/
namespace Tes.Reports
open IsoTime Lists

/-- A child of a tournament, as the store links it. -/
structure Link where
  childRunId : String
  childKey : String
  dimensions : Json.Dict := []

/-- The figures of a report and a config. -/
structure Metrics (α : Type) where
  endingEquity : α
  totalPnl : α
  returnStability : α
  maxDrawdown : α
  totalVolume : α
  fillRatio : α
  rejectionRate : α
  finalPositionExposure : α
  score : α

/-- What a report reads of a run record: the metrics are those of its report and config. -/
structure Run (α : Type) where
  runId : String
  status : RunStatus
  error : Option String
  metrics : Metrics α

/-- An entry of a report; a failure has no metrics, and scores zero. -/
structure Row (α : Type) where
  rank : ℕ
  childRunId : String
  childKey : String
  status : RunStatus
  dimensions : Json.Dict
  metrics : Option (Metrics α)
  score : α
  error : Option String

structure Report (α : Type) where
  tournamentId : String
  status : RunStatus
  generatedAt : String
  childCount : ℕ
  completedChildCount : ℕ
  failedChildCount : ℕ
  results : List (Row α)
  failures : List (Row α)

variable {α : Type}

/-- The run record of an id: of two with one id the later counts. -/
def record (runs : List (Run α)) (runId : String) : Option (Run α) :=
  (runs.filter fun run => run.runId = runId).getLast?

section Records
variable {runs runs' : List (Run α)}

/-- Records with one id are the same. -/
def Consistent (runs : List (Run α)) : Prop :=
  ∀ run ∈ runs, ∀ other ∈ runs, run.runId = other.runId → run = other

theorem consistent_of_nodup (h : (runs.map Run.runId).Nodup) : Consistent runs :=
  fun _ hrun _ hother => List.inj_on_of_nodup_map h hrun hother

theorem record_iff (h : Consistent runs) {runId : String} {run : Run α} :
    record runs runId = some run ↔ run ∈ runs ∧ run.runId = runId := by
  have hmem : ∀ {run}, record runs runId = some run → run ∈ runs ∧ run.runId = runId := by
    intro run hlast
    have hfiltered := List.mem_filter.mp (List.mem_of_getLast? hlast)
    exact ⟨hfiltered.1, of_decide_eq_true hfiltered.2⟩
  constructor
  · exact hmem
  · rintro ⟨hrun, hid⟩
    cases hlast : record runs runId with
    | none =>
      have hempty := List.getLast?_eq_none_iff.mp hlast
      have hin : run ∈ runs.filter fun run => run.runId = runId :=
        List.mem_filter.mpr ⟨hrun, decide_eq_true hid⟩
      rw [hempty] at hin
      cases hin
    | some other =>
      obtain ⟨hother, hid'⟩ := hmem hlast
      rw [h run hrun other hother (hid.trans hid'.symm)]

/-- The record of an id does not depend on the order of the records. -/
theorem record_perm (h : Consistent runs) (hperm : runs'.Perm runs) : record runs' = record runs := by
  have h' : Consistent runs' := fun run hrun other hother =>
    h run (hperm.mem_iff.mp hrun) other (hperm.mem_iff.mp hother)
  funext runId
  apply Option.ext
  intro run
  rw [record_iff h', record_iff h, hperm.mem_iff]

end Records

/-- The rows with ranks from a number on. -/
def ranked (start : ℕ) (rows : List (Row α)) : List (Row α) :=
  rows.mapIdx fun i row => { row with rank := start + i }

section Rank
variable {rows : List (Row α)} {start : ℕ}

theorem ranked_cons (row : Row α) :
    ranked start (row :: rows) = { row with rank := start } :: ranked (start + 1) rows := by
  have hnext : ∀ i, start + (i + 1) = start + 1 + i := fun i => by omega
  have hranks : (fun i (row : Row α) => { row with rank := start + (i + 1) }) =
      fun i row => { row with rank := start + 1 + i } := by
    funext i row
    rw [hnext]
  unfold ranked
  rw [List.mapIdx_cons, hranks]
  rfl

/-- What does not read the ranks is as before. -/
theorem map_ranked {β : Type} (f : Row α → β) (hf : ∀ row rank, f { row with rank } = f row) :
    (ranked start rows).map f = rows.map f := by
  induction rows generalizing start with
  | nil => rfl
  | cons row rest ih => rw [ranked_cons, List.map_cons, List.map_cons, hf, ih]

theorem rank_ranked : (ranked start rows).map Row.rank = List.range' start rows.length := by
  induction rows generalizing start with
  | nil => rfl
  | cons row rest ih => rw [ranked_cons, List.map_cons, ih, List.length_cons, List.range'_succ]

theorem length_filter_ranked (status : RunStatus) :
    ((ranked start rows).filter fun row => row.status = status).length =
      (rows.filter fun row => row.status = status).length := by
  have hstatus := @map_ranked _ rows start _ Row.status fun _ _ => rfl
  have hfilter : ∀ rows : List (Row α), (rows.filter fun row => row.status = status).length =
      ((rows.map Row.status).filter fun other => other = status).length := by
    intro rows
    rw [List.filter_map, List.length_map]
    rfl
  rw [hfilter, hfilter, hstatus]

theorem length_ranked : (ranked start rows).length = rows.length := List.length_mapIdx

end Rank

/-- The child that a row is about. -/
def Row.child (row : Row α) : String × String := (row.childKey, row.childRunId)

def Link.child (link : Link) : String × String := (link.childKey, link.childRunId)

/-- The result of a link. -/
def resultOf (runs : List (Run α)) (link : Link) : Option (Row α) :=
  (record runs link.childRunId).bind fun run =>
    if run.status = .completed then some
      { rank := 0, childRunId := run.runId, childKey := link.childKey, status := .completed
        dimensions := link.dimensions, metrics := some run.metrics
        score := run.metrics.score, error := none }
    else none

/-- The run of a link has ended, or is missing. -/
def Terminal (runs : List (Run α)) (link : Link) : Prop :=
  ∀ run ∈ record runs link.childRunId,
    run.status = .completed ∨ run.status = .failed ∨ run.status = .canceled

instance (runs : List (Run α)) (link : Link) : Decidable (Terminal runs link) :=
  decidable_of_iff (((record runs link.childRunId).all fun run =>
    run.status = .completed ∨ run.status = .failed ∨ run.status = .canceled) = true) (by
      unfold Terminal
      cases record runs link.childRunId <;> simp)

theorem terminal_of_missing {runs : List (Run α)} {link : Link}
    (h : record runs link.childRunId = none) : Terminal runs link := by
  intro run hrun
  rw [h] at hrun
  cases hrun

theorem resultOf_some {runs : List (Run α)} {link : Link} {row : Row α}
    (h : resultOf runs link = some row) :
    row.child = link.child ∧ row.status = .completed ∧
      ∃ run, record runs link.childRunId = some run ∧ run.status = .completed := by
  obtain ⟨run, hrun, hrow⟩ := Option.bind_eq_some_iff.mp h
  have hid : run.runId = link.childRunId :=
    of_decide_eq_true (List.mem_filter.mp (List.mem_of_getLast? hrun)).2
  split_ifs at hrow with hstatus
  rw [← Option.some.inj hrow]
  unfold Row.child Link.child
  exact ⟨by rw [hid], rfl, run, hrun, hstatus⟩

variable [Zero α]

def failureResult (link : Link) (status : RunStatus) (error : Option String) : Row α :=
  { rank := 0, childRunId := link.childRunId, childKey := link.childKey, status
    dimensions := link.dimensions, metrics := none, score := 0, error }

/-- What the loop over the links has gathered. -/
structure Tally (α : Type) where
  results : List (Row α) := []
  failures : List (Row α) := []
  completed : ℕ := 0
  failed : ℕ := 0

namespace Tally

def addResult (t : Tally α) (row : Row α) : Tally α :=
  { t with results := t.results ++ [row], completed := t.completed + 1 }

def addFailure (t : Tally α) (row : Row α) (failed : ℕ) : Tally α :=
  { t with failures := t.failures ++ [row], failed := t.failed + failed }

def add (runs : List (Run α)) (t : Tally α) (link : Link) : Tally α :=
  match record runs link.childRunId with
  | none => t.addFailure (failureResult link .failed (some "missing child run")) 1
  | some run =>
    match run.status with
    | .completed => t.addResult
        { rank := 0, childRunId := run.runId, childKey := link.childKey, status := .completed
          dimensions := link.dimensions, metrics := some run.metrics
          score := run.metrics.score, error := none }
    | .failed => t.addFailure (failureResult link .failed run.error) 1
    | .canceled => t.addFailure
        (failureResult link .canceled (some (orText run.error "canceled"))) 0
    | .pending | .running => t

end Tally

def sortedLinks (links : List Link) : List Link :=
  links.insertionSort fun a b => a.childKey ≤ b.childKey

def tally (links : List Link) (runs : List (Run α)) : Tally α :=
  (sortedLinks links).foldl (Tally.add runs) {}

/-- The key of a result: its score, its ending equity, the key of its child. -/
def rankKey (row : Row α) : α ×ₗ α ×ₗ String :=
  toLex (row.score, toLex ((row.metrics.map Metrics.endingEquity).getD 0, row.childKey))

/-- Aggregate the children of a tournament into its ranked report. -/
def buildReport [LinearOrder α] (tournamentId : String) (links : List Link) (runs : List (Run α))
    (now : Datetime) : Report α :=
  let t := tally links runs
  let results := ranked 1 (t.results.insertionSort fun a b => rankKey b ≤ rankKey a)
  let failures := ranked (results.length + 1) t.failures
  let total := links.length
  let terminal :=
    t.completed + t.failed + (failures.filter fun row => row.status = .canceled).length
  let status : RunStatus := if 0 < total ∧ terminal = total then .completed else .running
  { tournamentId
    status := if total = 0 then .failed else status
    generatedAt := now.isoformat
    childCount := total, completedChildCount := t.completed, failedChildCount := t.failed
    results, failures }

/-! The tally in closed form. -/

/-- The failure of a link. -/
def failureOf (runs : List (Run α)) (link : Link) : Option (Row α) :=
  match record runs link.childRunId with
  | none => some (failureResult link .failed (some "missing child run"))
  | some run =>
    if run.status = .failed then some (failureResult link .failed run.error)
    else if run.status = .canceled then
      some (failureResult link .canceled (some (orText run.error "canceled")))
    else none

section Tally
variable {runs : List (Run α)} {link : Link}

theorem Tally.add_eq (t : Tally α) : Tally.add runs t link =
    { results := t.results ++ (resultOf runs link).toList
      failures := t.failures ++ (failureOf runs link).toList
      completed := t.completed + (resultOf runs link).toList.length
      failed := t.failed +
        ((failureOf runs link).toList.filter fun row => row.status = .failed).length } := by
  unfold Tally.add resultOf failureOf
  cases record runs link.childRunId with
  | none => simp [Tally.addFailure, failureResult]
  | some run =>
    cases hstatus : run.status <;>
      simp [hstatus, Tally.addFailure, Tally.addResult, failureResult]

/-- What the loop has gathered after some links. -/
theorem foldl_add (links : List Link) (t : Tally α) : links.foldl (Tally.add runs) t =
    { results := t.results ++ links.filterMap (resultOf runs)
      failures := t.failures ++ links.filterMap (failureOf runs)
      completed := t.completed + (links.filterMap (resultOf runs)).length
      failed := t.failed +
        ((links.filterMap (failureOf runs)).filter fun row => row.status = .failed).length } := by
  induction links generalizing t with
  | nil => simp
  | cons link rest ih =>
    rw [List.foldl_cons, ih, Tally.add_eq, filterMap_cons_append, filterMap_cons_append]
    simp only [List.append_assoc, List.filter_append, List.length_append, Nat.add_assoc]

end Tally

section Order
variable {links links' : List Link} {runs runs' : List (Run α)}

theorem sortedLinks_perm (hkeys : (links.map Link.childKey).Nodup) (hperm : links'.Perm links) :
    sortedLinks links' = sortedLinks links := by
  have hsorted : ∀ links : List Link,
      (sortedLinks links).Pairwise fun a b => a.childKey ≤ b.childKey :=
    pairwise_insertionSort_key Link.childKey fun _ _ => Iff.rfl
  have hlinks : (sortedLinks links).Perm links := List.perm_insertionSort _ _
  have hlinks' : (sortedLinks links').Perm links :=
    (List.perm_insertionSort _ _).trans hperm
  refine List.Perm.eq_of_pairwise ?_ (hsorted links') (hsorted links) (hlinks'.trans hlinks.symm)
  intro a b ha hb hab hba
  exact List.inj_on_of_nodup_map hkeys (hlinks'.mem_iff.mp ha) (hlinks.mem_iff.mp hb)
    (le_antisymm hab hba)

theorem tally_eq : tally links runs =
    { results := (sortedLinks links).filterMap (resultOf runs)
      failures := (sortedLinks links).filterMap (failureOf runs)
      completed := ((sortedLinks links).filterMap (resultOf runs)).length
      failed := (((sortedLinks links).filterMap (failureOf runs)).filter fun row =>
        row.status = .failed).length } := by
  unfold tally
  rw [foldl_add]
  simp

theorem tally_perm (hkeys : (links.map Link.childKey).Nodup) (hruns : Consistent runs)
    (hlinks : links'.Perm links) (hperm : runs'.Perm runs) :
    tally links' runs' = tally links runs := by
  have hrecord := record_perm hruns hperm
  have hresult : resultOf runs' = resultOf runs := by
    funext link
    unfold resultOf
    rw [hrecord]
  have hfailure : failureOf runs' = failureOf runs := by
    funext link
    unfold failureOf
    rw [hrecord]
  rw [tally_eq, tally_eq, sortedLinks_perm hkeys hlinks, hresult, hfailure]

end Order

/-! The children in a report. -/

section Children
variable {links : List Link} {runs : List (Run α)} {link : Link} {row : Row α}

theorem failureOf_some (h : failureOf runs link = some row) :
    row.child = link.child ∧ (row.status = .failed ∨ row.status = .canceled) := by
  unfold failureOf at h
  cases hrecord : record runs link.childRunId with
  | none =>
    rw [hrecord] at h
    rw [← Option.some.inj h]
    exact ⟨rfl, Or.inl rfl⟩
  | some run =>
    rw [hrecord] at h
    dsimp only at h
    split_ifs at h with hfailed hcanceled
    · rw [← Option.some.inj h]
      exact ⟨rfl, Or.inl rfl⟩
    · rw [← Option.some.inj h]
      exact ⟨rfl, Or.inr rfl⟩

theorem terminal_iff :
    Terminal runs link ↔ (resultOf runs link).isSome ∨ (failureOf runs link).isSome := by
  unfold resultOf failureOf
  cases hrecord : record runs link.childRunId with
  | none => simp [terminal_of_missing hrecord]
  | some run =>
    have hterminal : Terminal runs link ↔
        run.status = .completed ∨ run.status = .failed ∨ run.status = .canceled := by
      unfold Terminal
      rw [hrecord]
      simp
    rw [hterminal, Option.bind_some]
    dsimp only
    split_ifs with hcompleted hfailed hcanceled <;> simp [*]

theorem failureOf_eq_none (h : resultOf runs link = some row) : failureOf runs link = none := by
  obtain ⟨-, -, run, hrun, hstatus⟩ := resultOf_some h
  unfold failureOf
  rw [hrun]
  dsimp only
  rw [if_neg (by rw [hstatus]; decide), if_neg (by rw [hstatus]; decide)]

/-- A link gives a row where its run has ended or is missing, and only one. -/
theorem rows_of_link : ((resultOf runs link).toList ++ (failureOf runs link).toList).map Row.child =
    if Terminal runs link then [link.child] else [] := by
  cases hresult : resultOf runs link with
  | some row =>
    rw [failureOf_eq_none hresult, if_pos (terminal_iff.mpr (Or.inl (by rw [hresult]; rfl)))]
    exact congrArg (fun child => [child]) (resultOf_some hresult).1
  | none =>
    cases hfailure : failureOf runs link with
    | some row =>
      rw [if_pos (terminal_iff.mpr (Or.inr (by rw [hfailure]; rfl)))]
      exact congrArg (fun child => [child]) (failureOf_some hfailure).1
    | none =>
      rw [if_neg (by rw [terminal_iff, hresult, hfailure]; simp)]
      rfl

/-- The rows are those of the links whose runs have ended or are missing. -/
theorem children_perm (links : List Link) :
    ((links.filterMap (resultOf runs) ++ links.filterMap (failureOf runs)).map Row.child).Perm
      ((links.filter fun link => Terminal runs link).map Link.child) := by
  induction links with
  | nil => exact .refl _
  | cons link rest ih =>
    have hhead := @rows_of_link _ _ runs link
    have htail : ((link :: rest).filter fun link => Terminal runs link).map Link.child =
        (if Terminal runs link then [link.child] else []) ++
          (rest.filter fun link => Terminal runs link).map Link.child := by
      rw [List.filter_cons]
      by_cases hterminal : Terminal runs link <;> simp [hterminal]
    rw [filterMap_cons_append, filterMap_cons_append, htail, ← hhead, List.map_append, List.map_append, List.map_append,
      List.map_append, List.append_assoc, List.append_assoc]
    rw [List.map_append] at ih
    refine .append_left _ ?_
    refine .trans ?_ (.append_left _ ih)
    rw [← List.append_assoc, ← List.append_assoc]
    exact List.perm_append_comm.append_right _

end Children

section Report
variable [LinearOrder α] {links links' : List Link} {runs runs' : List (Run α)}
  {tournamentId : String} {now : Datetime}

theorem results_eq : (buildReport tournamentId links runs now).results =
    ranked 1 (((sortedLinks links).filterMap (resultOf runs)).insertionSort fun a b =>
      rankKey b ≤ rankKey a) := by
  unfold buildReport
  rw [tally_eq]

theorem failures_eq : (buildReport tournamentId links runs now).failures =
    ranked ((buildReport tournamentId links runs now).results.length + 1)
      ((sortedLinks links).filterMap (failureOf runs)) := by
  unfold buildReport
  rw [tally_eq]

/-- The rows of a report are those of the links whose runs have ended or are missing. -/
theorem report_children : (((buildReport tournamentId links runs now).results ++
    (buildReport tournamentId links runs now).failures).map Row.child).Perm
      ((links.filter fun link => Terminal runs link).map Link.child) := by
  have hlinks : (sortedLinks links).Perm links := List.perm_insertionSort _ _
  have hsorted := List.perm_insertionSort (fun a b : Row α => rankKey b ≤ rankKey a)
    ((sortedLinks links).filterMap (resultOf runs))
  rw [List.map_append, failures_eq, results_eq, map_ranked _ fun _ _ => rfl,
    map_ranked _ fun _ _ => rfl]
  refine ((hsorted.map Row.child).append_right _).trans ?_
  rw [← List.map_append]
  exact (children_perm (sortedLinks links)).trans ((hlinks.filter _).map _)

theorem report_ranks : ((buildReport tournamentId links runs now).results ++
    (buildReport tournamentId links runs now).failures).map Row.rank =
      List.range' 1 ((buildReport tournamentId links runs now).results ++
        (buildReport tournamentId links runs now).failures).length := by
  have hlength : (buildReport tournamentId links runs now).results.length =
      (((sortedLinks links).filterMap (resultOf runs)).insertionSort fun a b =>
        rankKey b ≤ rankKey a).length := by
    rw [results_eq, length_ranked]
  rw [List.map_append, List.length_append, failures_eq, rank_ranked, length_ranked, hlength,
    results_eq, rank_ranked, Nat.add_comm _ 1]
  exact List.range'_append_1

/-- The results are ranked by score, ending equity and child key, the best first. -/
theorem report_sorted (hkeys : (links.map Link.childKey).Nodup) :
    (buildReport tournamentId links runs now).results.Pairwise fun a b =>
      rankKey b < rankKey a := by
  have hterminal : ((links.filter fun link => Terminal runs link).map Link.childKey).Nodup :=
    hkeys.sublist (List.filter_sublist.map _)
  have hchildren := (@report_children _ _ _ links runs tournamentId now).map Prod.fst
  rw [List.map_map, List.map_map] at hchildren
  have hrows := hchildren.nodup_iff.mpr hterminal
  rw [List.map_append] at hrows
  have hdistinct := (List.nodup_append.mp hrows).1
  have hkeyed := pairwise_insertionSort_key (fun row : Row α => OrderDual.toDual (rankKey row))
    (fun _ _ => Iff.rfl) ((sortedLinks links).filterMap (resultOf runs))
  have hmapped : ((buildReport tournamentId links runs now).results.map rankKey).Pairwise
      fun x y => y ≤ x := by
    rw [results_eq, map_ranked rankKey fun _ _ => rfl]
    exact List.pairwise_map.mpr hkeyed
  have hsorted := (List.pairwise_map.mp hdistinct).and (List.pairwise_map.mp hmapped)
  apply hsorted.imp
  intro a b h
  apply lt_of_le_of_ne h.2
  intro heq
  exact h.1 (congrArg (fun key => (ofLex (ofLex key).2).2) heq).symm

/-- A report is complete where every child has ended or is missing, and there is one. -/
theorem report_completed_iff : (buildReport tournamentId links runs now).status = .completed ↔
    links ≠ [] ∧ ∀ link ∈ links, Terminal runs link := by
  have hcount : ((buildReport tournamentId links runs now).results ++
      (buildReport tournamentId links runs now).failures).length =
        (links.filter fun link => Terminal runs link).length := by
    have hperm := (@report_children _ _ _ links runs tournamentId now).length_eq
    rwa [List.length_map, List.length_map] at hperm
  have hfailures : ∀ row ∈ (sortedLinks links).filterMap (failureOf runs),
      row.status = .failed ∨ row.status = .canceled := by
    intro row hrow
    obtain ⟨link, -, hlink⟩ := List.mem_filterMap.mp hrow
    exact (failureOf_some hlink).2
  have hcanceled : (((sortedLinks links).filterMap (failureOf runs)).filter fun row =>
      row.status = .canceled) = ((sortedLinks links).filterMap (failureOf runs)).filter fun row =>
        !decide (row.status = .failed) := by
    apply List.filter_congr
    intro row hrow
    rcases hfailures row hrow with h | h <;> simp [h]
  have hsplit := (((sortedLinks links).filterMap (failureOf runs)).length_eq_length_filter_add
    fun row => decide (row.status = .failed))
  have hterminal : (tally links runs).completed + (tally links runs).failed +
      ((buildReport tournamentId links runs now).failures.filter fun row =>
        row.status = .canceled).length = (links.filter fun link => Terminal runs link).length := by
    rw [← hcount, List.length_append, failures_eq, length_filter_ranked, length_ranked, results_eq,
      length_ranked, List.length_insertionSort, hcanceled, tally_eq]
    dsimp only
    omega
  have hstatus : (buildReport tournamentId links runs now).status =
      if links.length = 0 then .failed
      else if 0 < links.length ∧ (links.filter fun link => Terminal runs link).length =
        links.length then .completed else .running := by
    rw [← hterminal]
    rfl
  rw [hstatus]
  split_ifs with hempty hall
  · rw [List.length_eq_zero_iff.mp hempty]
    simp
  · have hlinks : links ≠ [] := List.ne_nil_of_length_pos hall.1
    have hevery := List.length_filter_eq_length_iff.mp hall.2
    exact iff_of_true rfl ⟨hlinks, fun link hlink => of_decide_eq_true (hevery link hlink)⟩
  · constructor
    · intro h
      cases h
    · rintro ⟨hlinks, hevery⟩
      refine absurd ⟨List.length_pos_of_ne_nil hlinks, ?_⟩ hall
      exact List.length_filter_eq_length_iff.mpr fun link hlink => decide_eq_true (hevery link hlink)

/-- The report does not depend on the order in which links and records arrive, but for the time it
is written at; its rows are ranked from one on, the results the best first; every link whose run has
ended or is missing has one row; and it is complete where every child has ended or is missing. -/
theorem buildReport_orderFree (tournamentId : String) (now now' : Datetime)
    (hkeys : (links.map Link.childKey).Nodup) (hruns : Consistent runs)
    (hlinks : links'.Perm links) (hperm : runs'.Perm runs) :
    buildReport tournamentId links' runs' now' =
      { buildReport tournamentId links runs now with generatedAt := now'.isoformat } ∧
    (let report := buildReport tournamentId links runs now
     (report.results ++ report.failures).map Row.rank =
        List.range' 1 (report.results ++ report.failures).length ∧
      report.results.Pairwise (fun a b => rankKey b < rankKey a) ∧
      ((report.results ++ report.failures).map Row.child).Perm
        ((links.filter fun link => Terminal runs link).map Link.child) ∧
      (report.status = .completed ↔ links ≠ [] ∧ ∀ link ∈ links, Terminal runs link)) := by
  refine ⟨?_, report_ranks, report_sorted hkeys, report_children, report_completed_iff⟩
  unfold buildReport
  rw [tally_perm hkeys hruns hlinks hperm, hlinks.length_eq]

end Report

/-! The report in the store: it agrees with the one that cancellation and aggregation write. -/

/-- The runs of a store, with the metrics of each. -/
def runsOf (store : RunStore) (metrics : String → Metrics α) : List (Run α) :=
  store.entries.map fun e =>
    { runId := e.1, status := e.2.status, error := e.2.error, metrics := metrics e.1 }

def Link.toChildLink (link : Link) : ChildLink :=
  { childRunId := link.childRunId, childKey := link.childKey }

section Store
variable {store : RunStore} {metrics : String → Metrics α} {links : List Link} {link : Link}

omit [Zero α] in
theorem record_runsOf (runId : String) : record (runsOf store metrics) runId =
    (store.getRun runId).map fun run =>
      { runId, status := run.status, error := run.error, metrics := metrics runId } := by
  have hconsistent : Consistent (runsOf store metrics) := by
    apply consistent_of_nodup
    unfold runsOf
    rw [List.map_map]
    exact List.pairwise_map.mpr (store.sorted.imp fun h => h.ne)
  apply Option.ext
  intro run
  rw [record_iff hconsistent]
  unfold runsOf
  rw [List.mem_map, Option.map_eq_some_iff]
  constructor
  · rintro ⟨⟨e, he, rfl⟩, rfl⟩
    exact ⟨e.2, OrderedMap.mem_entries_iff.mp he, rfl⟩
  · rintro ⟨found, hfound, rfl⟩
    exact ⟨⟨(runId, found), OrderedMap.mem_entries_iff.mpr hfound, rfl⟩, rfl⟩

theorem status_rows (status : RunStatus) :
    (((resultOf (runsOf store metrics) link).toList ++
      (failureOf (runsOf store metrics) link).toList).filter fun row => row.status = status).length =
      if (childResult store link.toChildLink).status = status ∧
        (status = .completed ∨ status = .failed ∨ status = .canceled) then 1 else 0 := by
  unfold resultOf failureOf childResult Link.toChildLink
  rw [record_runsOf]
  dsimp only
  cases store.getRun link.childRunId with
  | none => cases status <;> rfl
  | some run => cases hrun : run.status <;> cases status <;> simp [hrun, failureResult]

/-- The rows of a status are as many as the children of that status. -/
theorem length_status_rows {status : RunStatus}
    (hstatus : status = .completed ∨ status = .failed ∨ status = .canceled) :
    ((links.filterMap (resultOf (runsOf store metrics)) ++
      links.filterMap (failureOf (runsOf store metrics))).filter fun row =>
        row.status = status).length =
      (((links.map Link.toChildLink).map (childResult store)).filter fun child =>
        child.status = status).length := by
  induction links with
  | nil => rfl
  | cons link rest ih =>
    have hhead := @status_rows _ _ store metrics link status
    have hrest : ((((link :: rest).map Link.toChildLink).map (childResult store)).filter fun child =>
        child.status = status).length =
        (if (childResult store link.toChildLink).status = status then 1 else 0) +
          (((rest.map Link.toChildLink).map (childResult store)).filter fun child =>
            child.status = status).length := by
      rw [List.map_cons, List.map_cons, List.filter_cons]
      by_cases hchild : (childResult store link.toChildLink).status = status
      · simp [hchild, Nat.add_comm]
      · simp [hchild]
    simp only [hstatus, and_true] at hhead
    rw [hrest, ← hhead, ← ih, filterMap_cons_append, filterMap_cons_append]
    simp only [List.filter_append, List.length_append]
    omega

/-- The report agrees with the one of the store in what it counts and in its status. -/
theorem buildReport_agrees [LinearOrder α] (tournamentId : String) (now : Datetime) :
    (buildReport tournamentId links (runsOf store metrics) now).completedChildCount =
      (Tes.buildReport (links.map Link.toChildLink) store).completedChildCount ∧
    (buildReport tournamentId links (runsOf store metrics) now).failedChildCount =
      (Tes.buildReport (links.map Link.toChildLink) store).failedChildCount ∧
    (buildReport tournamentId links (runsOf store metrics) now).status =
      (Tes.buildReport (links.map Link.toChildLink) store).status := by
  have hperm : (((sortedLinks links).map Link.toChildLink).map (childResult store)).Perm
      (((links.map Link.toChildLink).insertionSort fun a b => a.childKey ≤ b.childKey).map
        (childResult store)) := by
    apply List.Perm.map
    exact ((List.perm_insertionSort _ _).map _).trans (List.perm_insertionSort _ _).symm
  have hcount : ∀ {status : RunStatus}, status = .completed ∨ status = .failed ∨
      status = .canceled → (((sortedLinks links).filterMap (resultOf (runsOf store metrics)) ++
        (sortedLinks links).filterMap (failureOf (runsOf store metrics))).filter fun row =>
          row.status = status).length =
      ((((links.map Link.toChildLink).insertionSort fun a b => a.childKey ≤ b.childKey).map
        (childResult store)).filter fun child => child.status = status).length := by
    intro status hstatus
    rw [length_status_rows hstatus]
    exact (hperm.filter _).length_eq
  have hresult : ∀ row ∈ (sortedLinks links).filterMap (resultOf (runsOf store metrics)),
      row.status = .completed := by
    intro row hrow
    obtain ⟨link, -, hlink⟩ := List.mem_filterMap.mp hrow
    exact (resultOf_some hlink).2.1
  have hfailure : ∀ row ∈ (sortedLinks links).filterMap (failureOf (runsOf store metrics)),
      row.status = .failed ∨ row.status = .canceled := by
    intro row hrow
    obtain ⟨link, -, hlink⟩ := List.mem_filterMap.mp hrow
    exact (failureOf_some hlink).2
  have hcompleted := hcount (Or.inl rfl)
  have hfailed := hcount (Or.inr (Or.inl rfl))
  have hcanceled := hcount (Or.inr (Or.inr rfl))
  rw [List.filter_append, List.filter_eq_self.mpr fun row hrow => decide_eq_true (hresult row hrow),
    List.filter_eq_nil_iff.mpr fun row hrow => by rcases hfailure row hrow with h | h <;> simp [h],
    List.append_nil] at hcompleted
  rw [List.filter_append, List.filter_eq_nil_iff.mpr fun row hrow => by simp [hresult row hrow],
    List.nil_append] at hfailed hcanceled
  have hmerge : ∀ children : List ChildResult, (children.filter fun child =>
      child.status = .failed ∨ child.status = .canceled).filter (fun child =>
        child.status = .canceled) = children.filter fun child => child.status = .canceled := by
    intro children
    rw [List.filter_filter]
    apply List.filter_congr
    intro child _
    by_cases hchild : child.status = .canceled <;> simp [hchild]
  refine ⟨?_, ?_, ?_⟩
  · unfold buildReport Tes.buildReport
    rw [tally_eq]
    exact hcompleted
  · unfold buildReport Tes.buildReport
    rw [tally_eq]
    exact hfailed
  · unfold buildReport Tes.buildReport
    rw [tally_eq]
    dsimp only
    rw [length_filter_ranked, hcompleted, hfailed, hcanceled, hmerge, List.length_map]

end Store

def origin : Datetime := ⟨0, horizon_pos⟩

def metricsOf (equity : ℚ) : Metrics ℚ := ⟨equity, 0, 0, 0, 0, 0, 0, 0, equity⟩

def twoLinks : List Link := [⟨"r1", "seed=1", []⟩, ⟨"r2", "seed=2", []⟩]

/-- One run is complete, one has failed. -/
def twoRuns : List (Run ℚ) :=
  [⟨"r1", .completed, none, metricsOf 100⟩, ⟨"r2", .failed, some "no data", metricsOf 0⟩]

theorem buildReport_orderFree_twoLinks :
    buildReport "t" twoLinks.reverse twoRuns.reverse origin =
      buildReport "t" twoLinks twoRuns origin ∧
    (buildReport "t" twoLinks twoRuns origin).status = .completed := by
  have hruns : Consistent twoRuns := consistent_of_nodup (by decide)
  have hreport := buildReport_orderFree "t" origin origin (by decide) hruns
    (List.reverse_perm twoLinks) (List.reverse_perm twoRuns)
  refine ⟨hreport.1, hreport.2.2.2.2.mpr ⟨by decide, ?_⟩⟩
  decide +kernel

/-- Two records with one id: the report follows the later. -/
theorem not_orderFree_sameId : ¬ ∀ (links : List Link) (runs runs' : List (Run ℚ)),
    (links.map Link.childKey).Nodup → (links.map Link.childRunId).Nodup → runs'.Perm runs →
    buildReport "t" links runs' origin = buildReport "t" links runs origin := by
  intro h
  have hsame := h [⟨"r1", "seed=1", []⟩] [⟨"r1", .completed, none, metricsOf 100⟩,
    ⟨"r1", .failed, some "no data", metricsOf 0⟩] _ (by decide) (by decide) (List.Perm.swap _ _ [])
  have hcount := congrArg Report.completedChildCount hsame
  revert hcount
  decide +kernel

end Tes.Reports
