import Mathlib.Data.Nat.Log
import Mathlib.Data.Rat.Defs
import Tes.Library.CanonicalJson
import Tes.Library.Lists

/-! Replay verification: the artifacts of two runs are compared by counts, by hashes of their
canonical JSON and by the metrics of their reports. -/
namespace Tes
open Json

namespace ReplayVerifier

/-- `_TIMESTAMP_KEYS`. -/
def timestampKeys : List String :=
  ["timestamp", "created_at", "started_at", "completed_at", "generated_at", "updated_at"]

def normalize (value : Value) : Value := canonical timestampKeys value

/-! Numbers as floats. -/

/-- A double. -/
inductive Double
  | nan
  | infinite (negative : Bool)
  | finite (value : ℚ)
  deriving DecidableEq

/-- `float(n)` raises for an integer beyond the doubles. -/
inductive ReplayError
  | overflowError
  deriving DecidableEq

/-- A natural number rounded to 53 binary digits, ties to even. -/
def roundDigits (n : ℕ) : ℕ :=
  let unit := 2 ^ (n.log2 - 52)
  let quotient := n / unit
  let remainder := n % unit
  if 2 * remainder < unit ∨ 2 * remainder = unit ∧ quotient % 2 = 0 then quotient * unit
  else (quotient + 1) * unit

def intToFloat (n : ℤ) : Except ReplayError Double :=
  if 2 ^ 1024 ≤ roundDigits n.natAbs then .error .overflowError
  else .ok (.finite (n.sign * roundDigits n.natAbs))

/-- A difference of doubles that is not `0.0`. -/
def Double.Differ : Double → Double → Prop
  | .finite x, .finite y => x ≠ y
  | _, _ => True

instance (x y : Double) : Decidable (x.Differ y) :=
  match x, y with
  | .finite x, .finite y => inferInstanceAs (Decidable (x ≠ y))
  | .nan, _ | .infinite _, _ | .finite _, .nan | .finite _, .infinite _ =>
    inferInstanceAs (Decidable True)

/-- The hash function, the JSON encoder and the double that each representation denotes. -/
structure Codec where
  sha256 : String → String
  dumps : Value → String
  ofRepr : String → Double

variable (codec : Codec)

/-- `float(value)` of an `int` or a `float`, which a `bool` is not taken for. -/
def Codec.number (value : Option Value) : Option (Except ReplayError Double) :=
  match value with
  | some (.int n) => some (intToFloat n)
  | some (.float repr) => some (.ok (codec.ofRepr repr))
  | _ => none

/-! Hashes. -/

def Codec.hashValue (value : Value) : String := codec.sha256 (codec.dumps (normalize value))

def Codec.hashStream (items : List Dict) : String :=
  codec.hashValue (.list (items.map fun item => normalize (.dict item)))

def listOf (value : Option Value) : List Dict :=
  match value with
  | some (.list items) => items.filterMap fun item =>
    match item with
    | .dict items => some items
    | _ => none
  | _ => []

def dictOf (value : Option Value) : Dict :=
  match value with
  | some (.dict items) => items
  | _ => []

def step (item : Dict) : Option ℤ :=
  match item.get "step" with
  | some (.int n) => some n
  | _ =>
    match item.get "data" with
    | some (.dict data) =>
      match Dict.get data "step" with
      | some (.int n) => some n
      | _ => none
    | _ => none

def sequenceRow (stream : String) (index : ℕ) (item : Dict) : Value :=
  .dict [("stream", .str stream), ("index", .int index), ("step", (step item).elim .null .int),
    ("type", (item.get "type").getD .null)]

def sequenceNumbers (events snapshots accounts : List Dict) : List Value :=
  events.mapIdx (sequenceRow "event") ++ snapshots.mapIdx (sequenceRow "snapshot") ++
    accounts.mapIdx (sequenceRow "account")

structure EventHashSummary where
  eventHash : String
  snapshotHash : String
  accountHash : String
  reportHash : String
  combinedHash : String
  eventCount : ℕ
  snapshotCount : ℕ
  accountCount : ℕ
  tradeCount : ℕ
  sequenceCount : ℕ
  sequenceHash : String

def isTradeExecuted (event : Dict) : Bool :=
  match event.get "type" with
  | some (.str type) => type = "TradeExecuted"
  | _ => false

/-- The artifacts of a run, as `_list` and `_dict` read them. -/
structure Artifacts where
  events : List Dict
  snapshots : List Dict
  accounts : List Dict
  report : Dict

def artifacts (run : Dict) : Artifacts where
  events := listOf (run.get "events")
  snapshots := listOf (run.get "snapshots")
  accounts := listOf (run.get "accounts")
  report := dictOf (run.get "report")

def Artifacts.sequence (a : Artifacts) : List Value :=
  sequenceNumbers a.events a.snapshots a.accounts

def Codec.hashSummary (a : Artifacts) : EventHashSummary :=
  let eventHash := codec.hashStream a.events
  let snapshotHash := codec.hashStream a.snapshots
  let accountHash := codec.hashStream a.accounts
  let reportHash := codec.hashValue (.dict a.report)
  let sequenceHash := codec.hashValue (.list a.sequence)
  { eventHash, snapshotHash, accountHash, reportHash, sequenceHash
    combinedHash := codec.hashValue (.dict
      [("events", .str eventHash), ("snapshots", .str snapshotHash),
        ("accounts", .str accountHash), ("report", .str reportHash),
        ("sequence", .str sequenceHash)])
    eventCount := a.events.length
    snapshotCount := a.snapshots.length
    accountCount := a.accounts.length
    tradeCount := (a.events.filter isTradeExecuted).length
    sequenceCount := a.sequence.length }

def comparisons (left right : EventHashSummary) : List (String × Bool) :=
  [("event_count", left.eventCount = right.eventCount),
    ("trade_count", left.tradeCount = right.tradeCount),
    ("snapshot_count", left.snapshotCount = right.snapshotCount),
    ("account_count", left.accountCount = right.accountCount),
    ("event_hash", left.eventHash = right.eventHash),
    ("snapshot_hash", left.snapshotHash = right.snapshotHash),
    ("account_hash", left.accountHash = right.accountHash),
    ("report_hash", left.reportHash = right.reportHash),
    ("sequence_numbers", left.sequenceHash = right.sequenceHash)]

/-- Whether two metrics have a delta. -/
def Codec.hasDelta (left right : Option Value) : Except ReplayError Bool :=
  match codec.number left, codec.number right with
  | some left, some right => do
    let right ← right
    let left ← left
    pure (left.Differ right)
  | _, _ => pure false

/-- Those of the keys whose metrics have a delta. -/
def Codec.deltaKeys (left right : Dict) : List String → Except ReplayError (List String)
  | [] => pure []
  | key :: rest => do
    let delta ← codec.hasDelta (left.get key) (right.get key)
    let deltas ← Codec.deltaKeys left right rest
    pure (if delta then key :: deltas else deltas)

/-- The keys of `metric_deltas`. -/
def Codec.metricDeltas (left right : Dict) : Except ReplayError (List String) :=
  codec.deltaKeys left right (((left.keys ++ right.keys).dedup).insertionSort (· ≤ ·))

def sortedFields (comparisons : List (String × Bool)) (value : Bool) : List String :=
  ((comparisons.filter fun item => item.2 = value).map Prod.fst).insertionSort (· ≤ ·)

inductive ReplayVerificationStatus
  | verified
  | mismatch
  | failed
  deriving DecidableEq

/-- What a verification reports, without its time and its first divergent step. -/
structure ReplayVerificationReport where
  runId : String
  status : ReplayVerificationStatus
  matchingFields : List String
  mismatchedFields : List String
  message : String
  originalHashes : EventHashSummary
  replayHashes : Option EventHashSummary
  metricDeltas : List String
  comparisons : List (String × Bool)
  error : Option String

def Codec.verify (runId : String) (original : Dict) (replayed : Option Dict)
    (error : Option String) : Except ReplayError ReplayVerificationReport :=
  let originalHashes := codec.hashSummary (artifacts original)
  match error, replayed with
  | none, some replayed => do
    let replayHashes := codec.hashSummary (artifacts replayed)
    let deltas ← codec.metricDeltas (artifacts original).report (artifacts replayed).report
    let comparisons := comparisons originalHashes replayHashes ++
      if deltas ≠ [] then [("report_metrics", false)] else []
    let mismatched := sortedFields comparisons false
    let status := if mismatched = [] then .verified else .mismatch
    pure
      { runId, status, matchingFields := sortedFields comparisons true
        mismatchedFields := mismatched
        message := if status = .verified then "Replay matched stored artifacts."
          else "Replay diverged from stored artifacts."
        originalHashes, replayHashes := some replayHashes, metricDeltas := deltas, comparisons
        error := none }
  | _, _ => .ok
      { runId, status := .failed, matchingFields := [], mismatchedFields := ["rerun"]
        message := "Replay re-execution failed.", originalHashes, replayHashes := none
        metricDeltas := [], comparisons := [("rerun", false)], error }

inductive RunDiffStatus
  | matching
  | mismatch
  deriving DecidableEq

/-- A metric of `_pnl_divergence`: with a delta of two numbers, `bool`s among them, whether it
is zero. -/
def Codec.pnlDelta (left right : Option Value) : Except ReplayError (Option Bool) :=
  let number : Option Value → Option (Except ReplayError Double)
    | some (.bool b) => some (.ok (.finite (if b then 1 else 0)))
    | value => codec.number value
  match number left, number right with
  | some left, some right => do
    let right ← right
    let left ← left
    pure (some (¬ left.Differ right))
  | _, _ => pure none

/-- The metrics of `_pnl_divergence` that a report has. -/
def Codec.pnlDivergence (left right : Dict) : Except ReplayError (List (String × Option Bool)) :=
  (["realized_pnl", "unrealized_pnl", "ending_equity", "final_equity", "cash_balance"].filter
    fun key => key ∈ left.keys ∨ key ∈ right.keys).mapM fun key => do
      pure (key, ← codec.pnlDelta (left.get key) (right.get key))

/-- The verdict of a diff, with the fields and hashes it rests on. -/
structure RunDiffResult where
  leftRunId : String
  rightRunId : String
  status : RunDiffStatus
  matchingFields : List String
  mismatchedFields : List String
  metricDeltas : List String
  pnlDivergence : List (String × Option Bool)
  leftHashes : EventHashSummary
  rightHashes : EventHashSummary

def Codec.diffRuns (leftRunId rightRunId : String) (left right : Dict) :
    Except ReplayError RunDiffResult := do
  let leftHashes := codec.hashSummary (artifacts left)
  let rightHashes := codec.hashSummary (artifacts right)
  let deltas ← codec.metricDeltas (artifacts left).report (artifacts right).report
  let comparisons := comparisons leftHashes rightHashes ++ [("report_metrics", deltas.isEmpty)]
  let mismatched := sortedFields comparisons false
  let pnlDivergence ← codec.pnlDivergence (artifacts left).report (artifacts right).report
  pure
    { leftRunId, rightRunId, status := if mismatched = [] then .matching else .mismatch
      matchingFields := sortedFields comparisons true, mismatchedFields := mismatched
      metricDeltas := deltas, pnlDivergence, leftHashes, rightHashes }

/-! What is compared. -/

/-- Equal JSON values but for timestamps. -/
abbrev SameValue (v w : Value) : Prop := Same timestampKeys v w

def SameItem (x y : Dict) : Prop := SameValue (.dict x) (.dict y)

/-- The streams agree element by element in order, and so do the reports. -/
structure SameArtifacts (a b : Artifacts) : Prop where
  events : List.Forall₂ SameItem a.events b.events
  snapshots : List.Forall₂ SameItem a.snapshots b.snapshots
  accounts : List.Forall₂ SameItem a.accounts b.accounts
  report : SameItem a.report b.report

/-- Where both reports have a number at a key, both stand for the same finite double. -/
def Codec.NoDelta (left right : Dict) : Prop :=
  ∀ key x y, codec.number (left.get key) = some x → codec.number (right.get key) = some y →
    ∃ value, x = .ok (.finite value) ∧ y = .ok (.finite value)

/-- Two values of different normal forms have different hashes. -/
def Codec.Separates (v w : Value) : Prop :=
  codec.hashValue v = codec.hashValue w → normalize v = normalize w

def streamValue (items : List Dict) : Value :=
  .list (items.map fun item => normalize (.dict item))

/-- The hashes compared do not collide. -/
structure Codec.CollisionFree (a b : Artifacts) : Prop where
  events : codec.Separates (streamValue a.events) (streamValue b.events)
  snapshots : codec.Separates (streamValue a.snapshots) (streamValue b.snapshots)
  accounts : codec.Separates (streamValue a.accounts) (streamValue b.accounts)
  report : codec.Separates (.dict a.report) (.dict b.report)

/-- A hash without collisions of an injective encoding of normal forms separates all values. -/
theorem Codec.collisionFree_of_injective (hsha : Function.Injective codec.sha256)
    (hdumps : ∀ v w, codec.dumps (normalize v) = codec.dumps (normalize w) →
      normalize v = normalize w) (a b : Artifacts) : codec.CollisionFree a b := by
  have hseparates : ∀ v w, codec.Separates v w := fun v w h => hdumps v w (hsha h)
  exact ⟨hseparates _ _, hseparates _ _, hseparates _ _, hseparates _ _⟩

section Comparison
variable {codec} {a b : Artifacts} {x y : Dict}

theorem Codec.hashValue_eq_iff {v w : Value} (h : codec.Separates v w) :
    codec.hashValue v = codec.hashValue w ↔ SameValue v w := by
  rw [SameValue, ← canonical_eq_iff]
  constructor
  · exact h
  · intro heq
    unfold Codec.hashValue normalize
    rw [heq]

theorem sameValue_stream {xs ys : List Dict} :
    SameValue (streamValue xs) (streamValue ys) ↔ List.Forall₂ SameItem xs ys := by
  unfold streamValue
  rw [SameValue, same_list_iff, List.forall₂_map_left_iff, List.forall₂_map_right_iff]
  have hitem : (fun x y : Dict => Same timestampKeys (normalize (.dict x)) (normalize (.dict y))) =
      SameItem := by
    funext x y
    exact propext same_canonical_iff
  rw [hitem]

theorem Codec.hashStream_eq_iff {xs ys : List Dict}
    (h : codec.Separates (streamValue xs) (streamValue ys)) :
    codec.hashStream xs = codec.hashStream ys ↔ List.Forall₂ SameItem xs ys := by
  rw [← sameValue_stream]
  exact codec.hashValue_eq_iff h

/-! What the same artifacts agree in. -/

theorem SameItem.get (h : SameItem x y) {key : String} (hkey : key ∉ timestampKeys) :
    Option.Rel SameValue (x.get key) (y.get key) := same_dict_iff.mp h key hkey

theorem SameItem.isTradeExecuted (h : SameItem x y) : isTradeExecuted x = isTradeExecuted y := by
  have htype := h.get (by decide : "type" ∉ timestampKeys)
  unfold ReplayVerifier.isTradeExecuted
  generalize x.get "type" = v, y.get "type" = w at htype
  cases htype with
  | none => rfl
  | some h => cases h <;> rfl

theorem SameItem.step (h : SameItem x y) : step x = step y := by
  have hstep := h.get (by decide : "step" ∉ timestampKeys)
  have hdata := h.get (by decide : "data" ∉ timestampKeys)
  have hnested : (match x.get "data" with
      | some (.dict data) =>
        match Dict.get data "step" with
        | some (.int n) => some n
        | _ => none
      | _ => none) = (match y.get "data" with
      | some (.dict data) =>
        match Dict.get data "step" with
        | some (.int n) => some n
        | _ => none
      | _ => none : Option ℤ) := by
    generalize x.get "data" = v, y.get "data" = w at hdata
    cases hdata with
    | none => rfl
    | some hvalue =>
      cases hvalue with
      | @dict xs ys hitems =>
        have hinner := hitems "step" (by decide)
        dsimp only [Dict.get]
        generalize xs.lookup "step" = v, ys.lookup "step" = w at hinner
        cases hinner with
        | none => rfl
        | some h => cases h <;> rfl
      | _ => rfl
  unfold ReplayVerifier.step
  generalize x.get "step" = v, y.get "step" = w at hstep
  cases hstep with
  | none => exact hnested
  | some h =>
    cases h with
    | int n => rfl
    | _ => exact hnested

theorem SameItem.sequenceRow (h : SameItem x y) (stream : String) (index : ℕ) :
    SameValue (sequenceRow stream index x) (sequenceRow stream index y) := by
  have htype : SameValue ((x.get "type").getD .null) ((y.get "type").getD .null) := by
    have hrel := h.get (by decide : "type" ∉ timestampKeys)
    generalize x.get "type" = v, y.get "type" = w at hrel
    cases hrel with
    | none => exact same_refl _
    | some h => exact h
  unfold ReplayVerifier.sequenceRow
  rw [h.step]
  refine same_dict_of_items ?_
  exact .cons ⟨rfl, same_refl _⟩ (.cons ⟨rfl, same_refl _⟩ (.cons ⟨rfl, same_refl _⟩
    (.cons ⟨rfl, htype⟩ .nil)))

theorem forall₂_mapIdx {xs ys : List Dict} (h : List.Forall₂ SameItem xs ys)
    {f : ℕ → Dict → Value} (hf : ∀ i x y, SameItem x y → SameValue (f i x) (f i y)) :
    List.Forall₂ SameValue (xs.mapIdx f) (ys.mapIdx f) := by
  induction h generalizing f with
  | nil => exact .nil
  | cons hitem _ ih =>
    rw [List.mapIdx_cons, List.mapIdx_cons]
    exact .cons (hf 0 _ _ hitem) (ih fun i => hf (i + 1))

theorem SameArtifacts.sequence (h : SameArtifacts a b) :
    SameValue (.list a.sequence) (.list b.sequence) := by
  refine .list (List.rel_append (List.rel_append ?_ ?_) ?_)
  · exact forall₂_mapIdx h.events fun i _ _ h => h.sequenceRow _ i
  · exact forall₂_mapIdx h.snapshots fun i _ _ h => h.sequenceRow _ i
  · exact forall₂_mapIdx h.accounts fun i _ _ h => h.sequenceRow _ i

theorem tradeCount_eq {xs ys : List Dict} (h : List.Forall₂ SameItem xs ys) :
    (xs.filter isTradeExecuted).length = (ys.filter isTradeExecuted).length := by
  induction h with
  | nil => rfl
  | cons hitem _ ih =>
    rw [List.filter_cons, List.filter_cons, hitem.isTradeExecuted]
    split
    · rw [List.length_cons, List.length_cons, ih]
    · exact ih

/-- All comparisons of the hashes hold exactly for the same artifacts. -/
theorem comparisons_all_iff (h : codec.CollisionFree a b) :
    (∀ item ∈ comparisons (codec.hashSummary a) (codec.hashSummary b), item.2 = true) ↔
      SameArtifacts a b := by
  constructor
  · intro hall
    simp only [comparisons, List.forall_mem_cons, decide_eq_true_eq] at hall
    obtain ⟨-, -, -, -, hevents, hsnapshots, haccounts, hreport, -⟩ := hall
    exact ⟨(codec.hashStream_eq_iff h.events).mp hevents,
      (codec.hashStream_eq_iff h.snapshots).mp hsnapshots,
      (codec.hashStream_eq_iff h.accounts).mp haccounts, (codec.hashValue_eq_iff h.report).mp hreport⟩
  · intro hsame
    have hsequence : codec.hashValue (.list a.sequence) = codec.hashValue (.list b.sequence) := by
      unfold Codec.hashValue normalize
      rw [(canonical_eq_iff _ _).mpr hsame.sequence]
    simp only [comparisons, List.forall_mem_cons, decide_eq_true_eq]
    exact ⟨hsame.events.length_eq, tradeCount_eq hsame.events, hsame.snapshots.length_eq,
      hsame.accounts.length_eq, (codec.hashStream_eq_iff h.events).mpr hsame.events,
      (codec.hashStream_eq_iff h.snapshots).mpr hsame.snapshots,
      (codec.hashStream_eq_iff h.accounts).mpr hsame.accounts,
      (codec.hashValue_eq_iff h.report).mpr hsame.report, hsequence, by simp⟩

/-! Metric deltas. -/

/-- Two numbers have no delta exactly if they stand for the same finite double. -/
theorem Codec.hasDelta_eq_false {left right : Option Value} :
    codec.hasDelta left right = .ok false ↔
      ∀ x y, codec.number left = some x → codec.number right = some y →
        ∃ value, x = .ok (.finite value) ∧ y = .ok (.finite value) := by
  unfold Codec.hasDelta
  cases codec.number left with
  | none => exact iff_of_true rfl fun x y h => nomatch h
  | some x =>
    cases codec.number right with
    | none => exact iff_of_true rfl fun x y _ h => nomatch h
    | some y =>
      constructor
      · rintro h x' y' ⟨rfl⟩ ⟨rfl⟩
        cases y with
        | error error => cases h
        | ok y =>
          cases x with
          | error error => cases h
          | ok x =>
            have hsame : ¬x.Differ y := of_decide_eq_false (Except.ok.inj h)
            cases x with
            | finite value =>
              cases y with
              | finite value' => exact ⟨value, rfl, by rw [not_not.mp hsame]⟩
              | _ => exact absurd trivial hsame
            | _ => exact absurd trivial hsame
      · intro h
        obtain ⟨value, rfl, rfl⟩ := h x y rfl rfl
        exact congrArg Except.ok (decide_eq_false (not_not.mpr rfl))

theorem Codec.deltaKeys_eq_nil {left right : Dict} {keys : List String} :
    codec.deltaKeys left right keys = .ok [] ↔
      ∀ key ∈ keys, codec.hasDelta (left.get key) (right.get key) = .ok false := by
  induction keys with
  | nil => exact iff_of_true rfl fun key h => nomatch h
  | cons key rest ih =>
    rw [List.forall_mem_cons, ← ih, Codec.deltaKeys]
    cases codec.hasDelta (left.get key) (right.get key) with
    | error error => exact iff_of_false (fun h => nomatch h) fun h => nomatch h.1
    | ok delta =>
      cases codec.deltaKeys left right rest with
      | error error => exact iff_of_false (fun h => nomatch h) fun h => nomatch h.2
      | ok deltas =>
        cases delta with
        | true => exact iff_of_false (fun h => nomatch Except.ok.inj h) fun h => nomatch h.1
        | false => exact (and_iff_right rfl).symm

theorem Codec.metricDeltas_eq_nil {left right : Dict} :
    codec.metricDeltas left right = .ok [] ↔ codec.NoDelta left right := by
  unfold Codec.metricDeltas Codec.NoDelta
  rw [Codec.deltaKeys_eq_nil]
  constructor
  · intro h key
    by_cases hkey : key ∈ left.keys
    · refine Codec.hasDelta_eq_false.mp (h key ?_)
      rw [List.mem_insertionSort, List.mem_dedup]
      exact List.mem_append_left _ hkey
    · have hmissing : left.get key = none := not_not.mp (mt mem_keys_iff.mpr hkey)
      rw [hmissing]
      exact fun x y hx => nomatch hx
  · exact fun h key _ => Codec.hasDelta_eq_false.mpr (h key)

/-- Reports that are the same and have no metric delta have their profits compared. -/
theorem Codec.pnlDivergence_ok {left right : Dict} (hsame : SameItem left right)
    (h : codec.NoDelta left right) : ∃ metrics, codec.pnlDivergence left right = .ok metrics := by
  unfold Codec.pnlDivergence
  refine Lists.exists_mapM_eq_ok.mpr fun key hkey => ?_
  have hlisted : key ∈ ["realized_pnl", "unrealized_pnl", "ending_equity", "final_equity",
      "cash_balance"] := (List.mem_filter.mp hkey).1
  have hcounts : ∀ key ∈ ["realized_pnl", "unrealized_pnl", "ending_equity", "final_equity",
      "cash_balance"], key ∉ timestampKeys := by
    decide
  have hvalues := hsame.get (hcounts key hlisted)
  have hdelta := h key
  have hpnl : ∃ delta, codec.pnlDelta (left.get key) (right.get key) = .ok delta := by
    generalize left.get key = v, right.get key = w at hvalues hdelta
    cases hvalues with
    | none => exact ⟨none, rfl⟩
    | some hvalue =>
      cases hvalue with
      | int n =>
        obtain ⟨value, hvalue, -⟩ := hdelta _ _ rfl rfl
        unfold Codec.pnlDelta
        dsimp only [Codec.number] at hvalue ⊢
        rw [hvalue]
        exact ⟨_, rfl⟩
      | _ => exact ⟨_, rfl⟩
  obtain ⟨delta, hpnl⟩ := hpnl
  refine ⟨(key, delta), ?_⟩
  rw [hpnl]
  rfl

theorem sortedFields_eq_nil {comparisons : List (String × Bool)} :
    sortedFields comparisons false = [] ↔ ∀ item ∈ comparisons, item.2 = true := by
  unfold sortedFields
  rw [← List.length_eq_zero_iff, List.length_insertionSort, List.length_map,
    List.length_eq_zero_iff, List.filter_eq_nil_iff]
  simp

end Comparison

/-! The verdicts. -/

/-- The verification of a rerun without error says that it is verified. -/
def Codec.Verified (runId : String) (original replayed : Dict) : Prop :=
  ∃ report, codec.verify runId original (some replayed) none = .ok report ∧
    report.status = .verified

/-- The diff of two runs says that they match. -/
def Codec.Matching (leftRunId rightRunId : String) (left right : Dict) : Prop :=
  ∃ result, codec.diffRuns leftRunId rightRunId left right = .ok result ∧
    result.status = .matching

section Verdicts
variable {codec} {original replayed : Dict}

/-- A further comparison passes where there is no delta. -/
theorem mismatched_eq_nil {compared metrics : List (String × Bool)} {deltas : List String}
    (h : (∀ item ∈ metrics, item.2 = true) ↔ deltas = []) :
    sortedFields (compared ++ metrics) false = [] ↔
      (∀ item ∈ compared, item.2 = true) ∧ deltas = [] := by
  rw [sortedFields_eq_nil, List.forall_mem_append, h]

theorem Codec.verified_iff (h : codec.CollisionFree (artifacts original) (artifacts replayed))
    (runId : String) : codec.Verified runId original replayed ↔
      SameArtifacts (artifacts original) (artifacts replayed) ∧
        codec.NoDelta (artifacts original).report (artifacts replayed).report := by
  rw [← comparisons_all_iff h, ← Codec.metricDeltas_eq_nil]
  unfold Codec.Verified Codec.verify
  dsimp only
  cases codec.metricDeltas (artifacts original).report (artifacts replayed).report with
  | error error =>
    exact iff_of_false (fun ⟨report, hreport, _⟩ => nomatch hreport) fun h => nomatch h.2
  | ok deltas =>
    have hmetrics : (∀ item ∈ if deltas ≠ [] then [("report_metrics", false)] else [],
        item.2 = true) ↔ deltas = [] := by
      by_cases hdeltas : deltas = [] <;> simp [hdeltas]
    rw [Except.ok.injEq, ← mismatched_eq_nil hmetrics]
    constructor
    · rintro ⟨report, hreport, hstatus⟩
      rw [← Except.ok.inj hreport] at hstatus
      by_contra hmismatched
      rw [if_neg hmismatched] at hstatus
      cases hstatus
    · intro hmismatched
      exact ⟨_, rfl, if_pos hmismatched⟩

theorem Codec.matching_iff (h : codec.CollisionFree (artifacts original) (artifacts replayed))
    (leftRunId rightRunId : String) : codec.Matching leftRunId rightRunId original replayed ↔
      SameArtifacts (artifacts original) (artifacts replayed) ∧
        codec.NoDelta (artifacts original).report (artifacts replayed).report := by
  have hpnl : SameArtifacts (artifacts original) (artifacts replayed) ∧
      codec.NoDelta (artifacts original).report (artifacts replayed).report →
      ∃ metrics, codec.pnlDivergence (artifacts original).report (artifacts replayed).report =
        .ok metrics := fun h => Codec.pnlDivergence_ok h.1.report h.2
  rw [← comparisons_all_iff h, ← Codec.metricDeltas_eq_nil] at hpnl ⊢
  unfold Codec.Matching Codec.diffRuns
  dsimp only
  generalize codec.metricDeltas (artifacts original).report (artifacts replayed).report =
    found at hpnl ⊢
  cases found with
  | error error =>
    exact iff_of_false (fun ⟨result, hresult, _⟩ => nomatch hresult) fun h => nomatch h.2
  | ok deltas =>
    have hmetrics : (∀ item ∈ [("report_metrics", deltas.isEmpty)], item.2 = true) ↔
        deltas = [] := by
      rw [List.forall_mem_singleton, List.isEmpty_iff]
    rw [Except.ok.injEq, ← mismatched_eq_nil hmetrics] at hpnl ⊢
    generalize codec.pnlDivergence (artifacts original).report (artifacts replayed).report =
      pnl at hpnl ⊢
    constructor
    · rintro ⟨result, hresult, hstatus⟩
      cases pnl with
      | error error => cases hresult
      | ok metrics =>
        rw [← Except.ok.inj hresult] at hstatus
        by_contra hmismatched
        rw [if_neg hmismatched] at hstatus
        cases hstatus
    · intro hmismatched
      obtain ⟨metrics, rfl⟩ := hpnl hmismatched
      exact ⟨_, rfl, if_pos hmismatched⟩

end Verdicts

/-- The verdicts agree with one another and are sound, and they are complete exactly where no
metric of the same artifacts has a delta. -/
theorem verdicts_complete_iff (original replayed : Dict) (runId leftRunId rightRunId : String)
    (h : codec.CollisionFree (artifacts original) (artifacts replayed)) :
    (codec.Matching leftRunId rightRunId original replayed ↔
      codec.Verified runId original replayed) ∧
    (codec.Verified runId original replayed →
      SameArtifacts (artifacts original) (artifacts replayed)) ∧
    ((codec.Verified runId original replayed ↔
        SameArtifacts (artifacts original) (artifacts replayed)) ↔
      (SameArtifacts (artifacts original) (artifacts replayed) →
        codec.NoDelta (artifacts original).report (artifacts replayed).report)) := by
  rw [Codec.verified_iff h, Codec.matching_iff h]
  refine ⟨Iff.rfl, And.left, ?_⟩
  constructor
  · exact fun hiff hsame => (hiff.mpr hsame).2
  · exact fun hdelta => ⟨And.left, fun hsame => ⟨hsame, hdelta hsame⟩⟩

/-- The hashes and encodings of a run without streams whose report has at most a profit of 5. -/
def profitCodec : Codec where
  sha256 text :=
    if text = "[]" then "4f53cda18c2baa0c0354bb5f9a3ecbe5ed12ab4d8e11ba873c2f11161202b945"
    else if text = "\x7b\x7d" then "44136fa355b3678a1146ad16f7e8649e94fb4fc21fe77e8310c060f61caaff8a"
    else if text = "\x7b\"realized_pnl\":5\x7d" then
      "0e8db450cf5a93ad8d811d636f32fca88b97704c2bf8faa51b48008489a7b4e4"
    else if text.contains "44136fa355b3678a" then
      "cd104d0ad246f965b33779280f246d71162ed1d7403c0c0ef803f431fe0ba6b3"
    else "e7d3bb70f535d007d1fe123c9ae560d751c0a00912cd32a8f169d384b527a3d5"
  dumps
    | .list _ => "[]"
    | .dict [] => "\x7b\x7d"
    | .dict [_] => "\x7b\"realized_pnl\":5\x7d"
    | .dict items => "\x7b" ++ ",".intercalate (items.map fun item =>
        "\"" ++ item.1 ++ "\":\"" ++ Json.pyStr (fun _ => "") (some item.2) ++ "\"") ++ "\x7d"
    | _ => ""
  ofRepr _ := .nan

/-- Reports of one profit that were generated at different times. -/
theorem verdicts_complete_profit :
    let original : Dict :=
      [("report", .dict [("realized_pnl", .int 5), ("generated_at", .str "09:00")])]
    let replayed : Dict :=
      [("report", .dict [("realized_pnl", .int 5), ("generated_at", .str "09:05")])]
    profitCodec.Verified "run" original replayed ∧
      profitCodec.Matching "run" "rerun" original replayed := by
  intro original replayed
  have hsame : SameArtifacts (artifacts original) (artifacts replayed) :=
    ⟨.nil, .nil, .nil, (canonical_eq_iff _ _).mp rfl⟩
  have hcollisions : profitCodec.CollisionFree (artifacts original) (artifacts replayed) := by
    constructor <;> exact fun _ => rfl
  have hdelta : profitCodec.NoDelta (artifacts original).report (artifacts replayed).report :=
    Codec.metricDeltas_eq_nil.mp (by decide +kernel)
  obtain ⟨hmatching, -, hcomplete⟩ :=
    verdicts_complete_iff profitCodec original replayed "run" "run" "rerun" hcollisions
  have hverified := (hcomplete.mpr fun _ => hdelta).mpr hsame
  exact ⟨hverified, hmatching.mpr hverified⟩

/-- A timestamp that is a number: the reports are the same without it, and have a delta. -/
theorem numeric_timestamp_mismatch :
    let original : Dict := [("report", .dict [("timestamp", .int 1)])]
    let replayed : Dict := [("report", .dict [("timestamp", .int 2)])]
    profitCodec.CollisionFree (artifacts original) (artifacts replayed) ∧
      SameArtifacts (artifacts original) (artifacts replayed) ∧
      ¬ profitCodec.Verified "run" original replayed ∧
      ¬ profitCodec.Matching "run" "rerun" original replayed := by
  intro original replayed
  have hcollisions : profitCodec.CollisionFree (artifacts original) (artifacts replayed) := by
    constructor <;> exact fun _ => rfl
  have hdelta : ¬ profitCodec.NoDelta (artifacts original).report (artifacts replayed).report :=
    mt Codec.metricDeltas_eq_nil.mpr (by decide +kernel)
  refine ⟨hcollisions, ⟨.nil, .nil, .nil, (canonical_eq_iff _ _).mp rfl⟩, ?_, ?_⟩
  · rw [Codec.verified_iff hcollisions]
    exact fun h => hdelta h.2
  · rw [Codec.matching_iff hcollisions]
    exact fun h => hdelta h.2

end ReplayVerifier
end Tes
