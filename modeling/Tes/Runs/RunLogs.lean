import Mathlib.Data.List.DropRight
import Mathlib.Data.List.Enum
import Mathlib.Logic.Function.Basic
import Tes.Runs.Payloads

/-! Logs appended by several processes: each call selects the next sequence in one statement and
inserts its row in another. -/
namespace Tes
open Json

/-- A row of `run_logs`. -/
structure RunLog where
  runId : String
  sequence : ℕ
  level : Option String
  message : Option String
  payload : Dict

/-- The first value if it is true, else the second. -/
def firstTruthy (value other : Option Value) : Option Value :=
  if truthy value then value else other

def runLog (runId : String) (sequence : ℕ) (log : Dict) : RunLog where
  runId
  sequence
  level := stringOrNone (firstTruthy (log.get "level") (log.get "category"))
  message := stringOrNone (firstTruthy (log.get "message") (log.get "type"))
  payload := log

def sequencesOf (runLogs : List RunLog) (runId : String) : List ℕ :=
  (runLogs.filter (·.runId = runId)).map RunLog.sequence

/-- `COALESCE(MAX(sequence), -1) + 1`. -/
def nextSequence (runLogs : List RunLog) (runId : String) : ℕ :=
  match (sequencesOf runLogs runId).max? with
  | none => 0
  | some sequence => sequence + 1

/-- The row, unless the table has its primary key. -/
def insertLog (runLogs : List RunLog) (row : RunLog) : Option (List RunLog) :=
  if row.sequence ∈ sequencesOf runLogs row.runId then none else some (runLogs ++ [row])

/-- A call of `append_log` that holds the lock of its process between its two statements. -/
structure LogCall where
  runId : String
  log : Dict
  sequence : ℕ

inductive LogOutcome
  | returned (found : Bool)
  | integrityError
  deriving DecidableEq

/-- A call that is over. -/
structure LogReturn (P : Type) where
  process : P
  runId : String
  log : Dict
  outcome : LogOutcome

/-- The database, with the calls of the processes that use it. -/
structure LogStore (P : Type) where
  runs : List String
  runLogs : List RunLog
  calls : P → Option LogCall
  returns : List (LogReturn P)

/-- A statement of a process. -/
inductive LogStatement (P : Type)
  | select (process : P) (runId : String) (log : Dict)
  | insert (process : P) (runId : String)

namespace LogStatement
variable {P : Type} [DecidableEq P]

/-- The run and the log of a call that the process begins. -/
def begins (p : P) : LogStatement P → Option (String × Dict)
  | select q runId log => if q = p then some (runId, log) else none
  | insert .. => none

end LogStatement

namespace LogStore
variable {P : Type} [DecidableEq P]

/-- Runs without logs, before any call. -/
def initial (runs : List String) : LogStore P where
  runs
  runLogs := []
  calls _ := none
  returns := []

/-- The next statement of a process: it begins no call before the one it is in is over. -/
def step (s : LogStore P) : LogStatement P → Option (LogStore P)
  | .select process runId log =>
    match s.calls process with
    | some _ => none
    | none =>
      if runId ∈ s.runs then
        let call := { runId, log, sequence := nextSequence s.runLogs runId }
        some { s with calls := Function.update s.calls process (some call) }
      else some { s with returns := s.returns ++ [⟨process, runId, log, .returned false⟩] }
  | .insert process runId =>
    match s.calls process with
    | none => none
    | some call =>
      if call.runId = runId then
        let calls := Function.update s.calls process none
        match insertLog s.runLogs (runLog runId call.sequence call.log) with
        | some runLogs =>
          some { s with
            runLogs, calls
            returns := s.returns ++ [⟨process, runId, call.log, .returned true⟩] }
        | none =>
          some { s with
            calls, returns := s.returns ++ [⟨process, runId, call.log, .integrityError⟩] }
      else none

def exec (s : LogStore P) (statements : List (LogStatement P)) : Option (LogStore P) :=
  statements.foldlM step s

/-- Every call that found its run returned `True`, and the rows of a run are the logs of these
calls, numbered in the order of the calls of each process. -/
structure Kept (s : LogStore P) (statements : List (LogStatement P)) : Prop where
  returned : ∀ call ∈ s.returns, call.outcome = .returned (call.runId ∈ s.runs)
  stored : ∀ runId ∈ s.runs, s.runLogs.filter (·.runId = runId) =
    (s.returns.filter (·.runId = runId)).mapIdx fun i call => runLog runId i call.log
  ordered : ∀ p, (s.returns.filter (·.process = p)).map (fun call => (call.runId, call.log)) <+:
    statements.filterMap (·.begins p)

end LogStore

section Rows
variable {P : Type} {s : LogStore P} {runId : String}

def LogStatement.inserts (runId : String) : LogStatement P → Bool
  | .insert _ r => r = runId
  | .select .. => false

/-- The rows of each run are numbered from zero as its calls returned, and no call raised. -/
structure LogStore.Numbered (s : LogStore P) : Prop where
  returned : ∀ call ∈ s.returns, call.outcome = .returned (call.runId ∈ s.runs)
  stored : ∀ runId ∈ s.runs, s.runLogs.filter (·.runId = runId) =
    (s.returns.filter (·.runId = runId)).mapIdx fun i call => runLog runId i call.log

theorem sequencesOf_eq_range (h : s.Numbered) (hrun : runId ∈ s.runs) :
    sequencesOf s.runLogs runId = List.range (sequencesOf s.runLogs runId).length := by
  unfold sequencesOf
  rw [h.stored runId hrun]
  apply List.ext_getElem
  · simp
  · simp [runLog]

theorem max?_range (n : ℕ) : (List.range (n + 1)).max? = some n := by
  rw [List.max?_eq_some_iff]
  constructor
  · exact List.self_mem_range_succ
  · intro m hm
    have hlt := List.mem_range.mp hm
    omega

theorem nextSequence_of_range {runLogs : List RunLog} {n : ℕ}
    (h : sequencesOf runLogs runId = List.range n) : nextSequence runLogs runId = n := by
  unfold nextSequence
  rw [h]
  cases n with
  | zero => rfl
  | succ n => rw [max?_range]

theorem nextSequence_eq (h : s.Numbered) (hrun : runId ∈ s.runs) :
    nextSequence s.runLogs runId = (sequencesOf s.runLogs runId).length :=
  nextSequence_of_range (sequencesOf_eq_range h hrun)

theorem sequencesOf_concat (runLogs : List RunLog) (row : RunLog) (runId : String) :
    sequencesOf (runLogs ++ [row]) runId =
      sequencesOf runLogs runId ++ if row.runId = runId then [row.sequence] else [] := by
  unfold sequencesOf
  rw [List.filter_append, List.map_append]
  by_cases hrow : row.runId = runId <;> simp [hrow]

theorem exists_insert_iff {statements : List (LogStatement P)} :
    (∃ q, .insert q runId ∈ statements) ↔ 0 < statements.countP (·.inserts runId) := by
  rw [List.countP_pos_iff]
  constructor
  · rintro ⟨q, hq⟩
    exact ⟨_, hq, decide_eq_true rfl⟩
  · rintro ⟨statement, hstatement, hinserts⟩
    cases statement with
    | select q r log => cases hinserts
    | insert q r =>
      have hr : r = runId := of_decide_eq_true hinserts
      subst hr
      exact ⟨q, hstatement⟩

end Rows

section Interleavings
variable {P : Type} [DecidableEq P]

/-- The statements after the last one with which the process began a call. -/
def sinceCall (p : P) (statements : List (LogStatement P)) : List (LogStatement P) :=
  statements.rtakeWhile fun statement => (statement.begins p).isNone

/-- Between the two statements of a call, another call inserts a log of the same run. -/
def Overtaken (statements : List (LogStatement P)) : Prop :=
  ∃ done p runId, done ++ [.insert p runId] <+: statements ∧
    ∃ q, .insert q runId ∈ sinceCall p done

variable {s s' : LogStore P} {statements : List (LogStatement P)} {statement : LogStatement P}
  {p : P} {runId : String}

theorem sinceCall_insert (p q : P) (runId : String) :
    sinceCall p (statements ++ [.insert q runId]) =
      sinceCall p statements ++ [.insert q runId] :=
  List.rtakeWhile_concat_pos _ _ _ rfl

theorem sinceCall_select_self (log : Dict) :
    sinceCall p (statements ++ [.select p runId log]) = [] :=
  List.rtakeWhile_concat_neg _ _ _ (by simp [LogStatement.begins])

theorem sinceCall_select_of_ne {q : P} (h : q ≠ p) (log : Dict) :
    sinceCall p (statements ++ [.select q runId log]) =
      sinceCall p statements ++ [.select q runId log] :=
  List.rtakeWhile_concat_pos _ _ _ (by simp [LogStatement.begins, h])

theorem overtaken_concat : Overtaken (statements ++ [statement]) ↔
    Overtaken statements ∨ ∃ p runId, statement = .insert p runId ∧
      ∃ q, .insert q runId ∈ sinceCall p statements := by
  constructor
  · rintro ⟨done, p, runId, hprefix, hsince⟩
    rcases List.prefix_concat_iff.mp hprefix with heq | hprefix
    · obtain ⟨rfl, hlast⟩ := List.append_inj' heq rfl
      exact Or.inr ⟨p, runId, (List.cons.inj hlast).1.symm, hsince⟩
    · exact Or.inl ⟨done, p, runId, hprefix, hsince⟩
  · rintro (⟨done, p, runId, hprefix, hsince⟩ | ⟨p, runId, rfl, hsince⟩)
    · exact ⟨done, p, runId, hprefix.trans (List.prefix_append _ _), hsince⟩
    · exact ⟨statements, p, runId, List.prefix_rfl, hsince⟩

theorem overtaken_select (p : P) (runId : String) (log : Dict) :
    Overtaken (statements ++ [.select p runId log]) ↔ Overtaken statements := by
  rw [overtaken_concat]
  constructor
  · rintro (h | ⟨q, r, heq, -⟩)
    · exact h
    · cases heq
  · exact Or.inl

theorem overtaken_insert (p : P) (runId : String) :
    Overtaken (statements ++ [.insert p runId]) ↔
      Overtaken statements ∨ ∃ q, .insert q runId ∈ sinceCall p statements := by
  rw [overtaken_concat]
  constructor
  · rintro (h | ⟨q, r, heq, hsince⟩)
    · exact Or.inl h
    · cases heq
      exact Or.inr hsince
  · rintro (h | hsince)
    · exact Or.inl h
    · exact Or.inr ⟨p, runId, rfl, hsince⟩

theorem not_overtaken_nil : ¬ Overtaken ([] : List (LogStatement P)) := by
  rintro ⟨done, p, runId, hprefix, -⟩
  exact absurd (List.prefix_nil.mp hprefix) (by simp)

theorem exec_concat : s.exec (statements ++ [statement]) = some s' ↔
    ∃ between, s.exec statements = some between ∧ between.step statement = some s' := by
  unfold LogStore.exec
  rw [List.foldlM_append]
  simp [Option.bind_eq_some_iff]

/-! What a statement can do. -/

/-- The effects of a statement. -/
inductive LogStep (s : LogStore P) : LogStatement P → LogStore P → Prop
  | found {p : P} {runId : String} {log : Dict} (hidle : s.calls p = none) (hrun : runId ∈ s.runs) :
      LogStep s (.select p runId log)
        { s with
          calls := Function.update s.calls p
            (some { runId, log, sequence := nextSequence s.runLogs runId }) }
  | missing {p : P} {runId : String} {log : Dict} (hidle : s.calls p = none)
      (hrun : runId ∉ s.runs) :
      LogStep s (.select p runId log)
        { s with returns := s.returns ++ [⟨p, runId, log, .returned false⟩] }
  | inserted {p : P} {call : LogCall} (hcall : s.calls p = some call)
      (hfree : call.sequence ∉ sequencesOf s.runLogs call.runId) :
      LogStep s (.insert p call.runId)
        { s with
          runLogs := s.runLogs ++ [runLog call.runId call.sequence call.log]
          calls := Function.update s.calls p none
          returns := s.returns ++ [⟨p, call.runId, call.log, .returned true⟩] }
  | collided {p : P} {call : LogCall} (hcall : s.calls p = some call)
      (htaken : call.sequence ∈ sequencesOf s.runLogs call.runId) :
      LogStep s (.insert p call.runId)
        { s with
          calls := Function.update s.calls p none
          returns := s.returns ++ [⟨p, call.runId, call.log, .integrityError⟩] }

theorem logStep_of_step (h : s.step statement = some s') : LogStep s statement s' := by
  cases statement with
  | select p runId log =>
    dsimp only [LogStore.step] at h
    cases hcall : s.calls p with
    | some call => simp [hcall] at h
    | none =>
      rw [hcall] at h
      dsimp only at h
      split_ifs at h with hrun
      · rw [← Option.some.inj h]
        exact .found hcall hrun
      · rw [← Option.some.inj h]
        exact .missing hcall hrun
  | insert p runId =>
    dsimp only [LogStore.step] at h
    cases hcall : s.calls p with
    | none => simp [hcall] at h
    | some call =>
      rw [hcall] at h
      dsimp only [insertLog, runLog] at h
      by_cases hrun : call.runId = runId
      · subst hrun
        rw [if_pos rfl] at h
        split_ifs at h with htaken
        · rw [← Option.some.inj h]
          exact .collided hcall htaken
        · rw [← Option.some.inj h]
          exact .inserted hcall htaken
      · rw [if_neg hrun] at h
        cases h

/-! Each process makes its calls one after another. -/

def callsBy (p : P) (statements : List (LogStatement P)) : List (String × Dict) :=
  statements.filterMap (·.begins p)

def returnsOf (p : P) (s : LogStore P) : List (String × Dict) :=
  (s.returns.filter (·.process = p)).map fun call => (call.runId, call.log)

/-- The call the process is in. -/
def openCall (p : P) (s : LogStore P) : List (String × Dict) :=
  (s.calls p).toList.map fun call => (call.runId, call.log)

theorem callsBy_step (h : LogStep s statement s') (p : P)
    (hs : callsBy p statements = returnsOf p s ++ openCall p s) :
    callsBy p (statements ++ [statement]) = returnsOf p s' ++ openCall p s' := by
  unfold callsBy at hs ⊢
  rw [List.filterMap_append, hs]
  unfold returnsOf openCall
  cases h with
  | @found q runId log hidle hrun =>
    by_cases hq : q = p
    · subst hq
      simp [LogStatement.begins, hidle]
    · simp [LogStatement.begins, hq, Function.update_of_ne (Ne.symm hq)]
  | @missing q runId log hidle hrun =>
    by_cases hq : q = p
    · subst hq
      simp [LogStatement.begins, hidle, List.filter_append]
    · simp [LogStatement.begins, hq, List.filter_append]
  | @inserted q call hcall hfree =>
    by_cases hq : q = p
    · subst hq
      simp [LogStatement.begins, hcall, List.filter_append]
    · simp [LogStatement.begins, hq, Function.update_of_ne (Ne.symm hq), List.filter_append]
  | @collided q call hcall htaken =>
    by_cases hq : q = p
    · subst hq
      simp [LogStatement.begins, hcall, List.filter_append]
    · simp [LogStatement.begins, hq, Function.update_of_ne (Ne.symm hq), List.filter_append]

theorem callsBy_eq {runs : List String} (h : (LogStore.initial runs).exec statements = some s)
    (p : P) : callsBy p statements = returnsOf p s ++ openCall p s := by
  induction statements using List.reverseRecOn generalizing s with
  | nil =>
    rw [← Option.some.inj h]
    rfl
  | append_singleton statements statement ih =>
    obtain ⟨between, hbetween, hstep⟩ := exec_concat.mp h
    exact callsBy_step (logStep_of_step hstep) p (ih hbetween)

/-! What a run without overtaken calls stores. -/

/-- Each call has found its run, and the logs inserted since are those that its sequence misses. -/
def LogStore.Behind (s : LogStore P) (statements : List (LogStatement P)) : Prop :=
  ∀ p call, s.calls p = some call → call.runId ∈ s.runs ∧
    (sequencesOf s.runLogs call.runId).length =
      call.sequence + (sinceCall p statements).countP (·.inserts call.runId)

/-- A call is overtaken exactly if the sequence it has selected is taken. -/
theorem overtaken_iff_taken (hnumbered : s.Numbered) (hbehind : s.Behind statements)
    {call : LogCall} (hcall : s.calls p = some call) :
    (∃ q, .insert q call.runId ∈ sinceCall p statements) ↔
      call.sequence ∈ sequencesOf s.runLogs call.runId := by
  obtain ⟨hrun, hcount⟩ := hbehind p call hcall
  rw [exists_insert_iff, sequencesOf_eq_range hnumbered hrun, List.mem_range]
  omega

theorem numbered_step (h : LogStep s statement s') (hnumbered : s.Numbered)
    (hbehind : s.Behind statements)
    (hfree : ¬ ∃ p runId, statement = .insert p runId ∧ ∃ q, .insert q runId ∈ sinceCall p statements) :
    s'.Numbered := by
  cases h with
  | found hidle hrun => exact ⟨hnumbered.returned, hnumbered.stored⟩
  | @missing q runId log hidle hrun =>
    constructor
    · intro call hcall
      rcases List.mem_append.mp hcall with hcall | hcall
      · exact hnumbered.returned call hcall
      · rw [List.mem_singleton.mp hcall]
        simp [hrun]
    · intro r hr
      have hne : runId ≠ r := fun heq => hrun (heq ▸ hr)
      rw [List.filter_append, List.filter_cons_of_neg (by simpa using hne), List.filter_nil,
        List.append_nil]
      exact hnumbered.stored r hr
  | @inserted q call hcall htaken =>
    obtain ⟨hrun, hcount⟩ := hbehind q call hcall
    constructor
    · intro returned hreturned
      rcases List.mem_append.mp hreturned with hreturned | hreturned
      · exact hnumbered.returned returned hreturned
      · rw [List.mem_singleton.mp hreturned]
        simp [hrun]
    · intro r hr
      have hstored := hnumbered.stored r hr
      rw [List.filter_append, List.filter_append, hstored]
      by_cases heq : call.runId = r
      · subst heq
        have hlast : call.sequence = (s.returns.filter (·.runId = call.runId)).length := by
          have hlength : (sequencesOf s.runLogs call.runId).length =
              (s.returns.filter (·.runId = call.runId)).length := by
            rw [sequencesOf, hstored]
            simp
          rw [sequencesOf_eq_range hnumbered hrun, List.mem_range] at htaken
          omega
        rw [List.filter_cons_of_pos (by simp [runLog]), List.filter_cons_of_pos (by simp),
          List.mapIdx_append]
        simp [runLog, hlast]
      · rw [List.filter_cons_of_neg (by simp [runLog, heq]),
          List.filter_cons_of_neg (by simp [heq])]
        simp
  | @collided q call hcall htaken =>
    exact absurd ⟨q, call.runId, rfl, (overtaken_iff_taken hnumbered hbehind hcall).mpr htaken⟩ hfree

theorem behind_step (h : LogStep s statement s') (hnumbered : s.Numbered)
    (hbehind : s.Behind statements)
    (hfree : ¬ ∃ p runId, statement = .insert p runId ∧ ∃ q, .insert q runId ∈ sinceCall p statements) :
    s'.Behind (statements ++ [statement]) := by
  intro p call hcall
  cases h with
  | @found q runId log hidle hrun =>
    dsimp only at hcall ⊢
    by_cases hq : q = p
    · subst hq
      rw [Function.update_self] at hcall
      rw [← Option.some.inj hcall, sinceCall_select_self, List.countP_nil, Nat.add_zero]
      exact ⟨hrun, (nextSequence_eq hnumbered hrun).symm⟩
    · rw [Function.update_of_ne (Ne.symm hq)] at hcall
      rw [sinceCall_select_of_ne hq, List.countP_append]
      exact hbehind p call hcall
  | @missing q runId log hidle hrun =>
    have hq : q ≠ p := by
      rintro rfl
      rw [hidle] at hcall
      cases hcall
    rw [sinceCall_select_of_ne hq, List.countP_append]
    exact hbehind p call hcall
  | @inserted q done hdone htaken =>
    dsimp only at hcall ⊢
    have hq : p ≠ q := by
      rintro rfl
      rw [Function.update_self] at hcall
      cases hcall
    rw [Function.update_of_ne hq] at hcall
    obtain ⟨hrun, hcount⟩ := hbehind p call hcall
    refine ⟨hrun, ?_⟩
    rw [sequencesOf_concat, sinceCall_insert, List.countP_append, List.length_append, hcount]
    by_cases heq : done.runId = call.runId
    · simp [runLog, heq, LogStatement.inserts, Nat.add_assoc]
    · simp [runLog, heq, LogStatement.inserts]
  | @collided q done hdone htaken =>
    exact absurd ⟨q, done.runId, rfl, (overtaken_iff_taken hnumbered hbehind hdone).mpr htaken⟩ hfree

/-- A call that raised stays among those that are over. -/
theorem returns_step (h : LogStep s statement s') {call : LogReturn P} (hcall : call ∈ s.returns) :
    call ∈ s'.returns := by
  cases h with
  | found hidle hrun => exact hcall
  | missing hidle hrun => exact List.mem_append_left _ hcall
  | inserted hopen hfree => exact List.mem_append_left _ hcall
  | collided hopen htaken => exact List.mem_append_left _ hcall

/-- Without an overtaken call the rows are numbered. -/
theorem exec_numbered {runs : List String} (h : (LogStore.initial runs).exec statements = some s)
    (hfree : ¬ Overtaken statements) : s.Numbered ∧ s.Behind statements := by
  induction statements using List.reverseRecOn generalizing s with
  | nil =>
    rw [← Option.some.inj h]
    constructor
    · exact ⟨fun call hcall => (nomatch hcall), fun runId _ => rfl⟩
    · exact fun p call hcall => nomatch hcall
  | append_singleton statements statement ih =>
    obtain ⟨between, hbetween, hstep⟩ := exec_concat.mp h
    have hstep := logStep_of_step hstep
    rw [overtaken_concat, not_or] at hfree
    obtain ⟨hbefore, hlast⟩ := hfree
    obtain ⟨hnumbered, hbehind⟩ := ih hbetween hbefore
    exact ⟨numbered_step hstep hnumbered hbehind hlast, behind_step hstep hnumbered hbehind hlast⟩

/-- The first overtaken call raises. -/
theorem exec_raises {runs : List String} (h : (LogStore.initial runs).exec statements = some s)
    (hovertaken : Overtaken statements) : ∃ call ∈ s.returns, call.outcome = .integrityError := by
  induction statements using List.reverseRecOn generalizing s with
  | nil => exact absurd hovertaken not_overtaken_nil
  | append_singleton statements statement ih =>
    obtain ⟨between, hbetween, hstep⟩ := exec_concat.mp h
    have hstep := logStep_of_step hstep
    by_cases hbefore : Overtaken statements
    · obtain ⟨call, hcall, herror⟩ := ih hbetween hbefore
      exact ⟨call, returns_step hstep hcall, herror⟩
    · obtain ⟨hnumbered, hbehind⟩ := exec_numbered hbetween hbefore
      obtain ⟨p, runId, rfl, hsince⟩ := (overtaken_concat.mp hovertaken).resolve_left hbefore
      cases hstep with
      | @inserted _ call hcall hfree =>
        exact absurd ((overtaken_iff_taken hnumbered hbehind hcall).mp hsince) hfree
      | @collided _ call hcall htaken =>
        exact ⟨_, List.mem_append_right _ (List.mem_singleton_self _), rfl⟩

/-- The logs are kept exactly where no call is overtaken. -/
theorem logs_kept_iff (runs : List String) (statements : List (LogStatement P)) (s : LogStore P)
    (h : (LogStore.initial runs).exec statements = some s) :
    s.Kept statements ↔ ¬ Overtaken statements := by
  constructor
  · intro hkept hovertaken
    obtain ⟨call, hcall, herror⟩ := exec_raises h hovertaken
    rw [hkept.returned call hcall] at herror
    cases herror
  · intro hfree
    obtain ⟨hnumbered, -⟩ := exec_numbered h hfree
    refine ⟨hnumbered.returned, hnumbered.stored, fun p => ?_⟩
    have hcalls := callsBy_eq h p
    unfold callsBy at hcalls
    rw [hcalls]
    exact List.prefix_append _ _

end Interleavings

/-- Two processes log on a run one after the other. -/
theorem logs_kept_sequential : ∃ s : LogStore ℕ,
    (LogStore.initial ["run"]).exec
      [.select 0 "run" [("message", .str "queued")], .insert 0 "run",
        .select 1 "run" [("message", .str "claimed")], .insert 1 "run"] = some s ∧
    s.Kept
      [.select 0 "run" [("message", .str "queued")], .insert 0 "run",
        .select 1 "run" [("message", .str "claimed")], .insert 1 "run"] := by
  refine ⟨_, rfl, (logs_kept_iff ["run"] _ _ rfl).mpr ?_⟩
  show ¬ Overtaken (((([] ++ [_]) ++ [_]) ++ [_]) ++ [_])
  rw [overtaken_insert, overtaken_select, overtaken_insert, overtaken_select, exists_insert_iff,
    exists_insert_iff]
  rintro ((hnil | hfirst) | hsecond)
  · exact not_overtaken_nil hnil
  · revert hfirst
    decide
  · revert hsecond
    decide

/-- Two processes select the same sequence. -/
theorem logs_not_kept : ∃ s : LogStore ℕ,
    (LogStore.initial ["run"]).exec
      [.select 0 "run" [("message", .str "queued")], .select 1 "run" [("message", .str "claimed")],
        .insert 0 "run", .insert 1 "run"] = some s ∧
    s.runLogs.length = 1 ∧
    ¬ s.Kept
      [.select 0 "run" [("message", .str "queued")], .select 1 "run" [("message", .str "claimed")],
        .insert 0 "run", .insert 1 "run"] := by
  refine ⟨_, rfl, by decide +kernel, fun h => ?_⟩
  have hraised := h.returned ⟨1, "run", [("message", .str "claimed")], .integrityError⟩
    (List.mem_append_right _ (List.mem_singleton_self _))
  cases hraised

end Tes
