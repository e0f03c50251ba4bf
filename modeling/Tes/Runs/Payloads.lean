import Mathlib.Data.Int.ConditionallyCompleteOrder
import Mathlib.Data.List.Sort
import Mathlib.Order.WithBot
import Tes.Library.Json
import Tes.Queue.RunQueue

/-! The payloads of a run in the two stores: one filters them in memory, the other by columns
that it derives when they are stored. -/
namespace Tes
open Json

/-- What `store_result` is given. -/
structure RunPayloads where
  events : List Dict
  snapshots : List Dict
  accounts : List Dict

structure PayloadQuery where
  symbol : Option String := none
  eventType : Option String := none
  accountId : Option String := none
  limit : Option ℤ := none
  offset : ℤ := 0

def stringOrNone : Option Value → Option String
  | some (.str s) => some s
  | _ => none

def intOrNone : Option Value → Option ℤ
  | some (.int n) => some n
  | _ => none

def dictValue (value : Option Value) (key : String) : Option Value :=
  match value with
  | some (.dict items) => Dict.get items key
  | _ => none

/-- The keys of a value that is a dict. -/
def dictKeys : Option Value → List String
  | some (.dict items) => Dict.keys items
  | _ => []

/-! The store in memory. -/
namespace InMemoryStore

def page (items : List Dict) (limit : Option ℤ) (offset : ℤ) : List Dict :=
  let start := (max 0 offset).toNat
  match limit with
  | none => items.drop start
  | some limit => (items.drop start).take (max 0 limit).toNat

def eventSymbol (event : Dict) : Option String :=
  match event.get "data" with
  | some (.dict data) => stringOrNone (Dict.get data "symbol")
  | _ => stringOrNone (event.get "symbol")

def matchesEvent (event : Dict) (symbol eventType : Option String) : Bool :=
  (match eventType with
    | some eventType => stringOrNone (event.get "type") = some eventType
    | none => true) &&
  match symbol with
  | some symbol => eventSymbol event = some symbol
  | none => true

def matchesSymbol (payload : Dict) (symbol : Option String) : Bool :=
  match symbol with
  | none => true
  | some symbol =>
    stringOrNone (payload.get "symbol") = some symbol ∨ symbol ∈ dictKeys (payload.get "symbols")

def matchesAccount (render : Value → String) (payload : Dict) (accountId symbol : Option String) :
    Bool :=
  (match accountId with
    | some accountId => pyStr render (payload.get "account_id") = accountId
    | none => true) &&
  match symbol with
  | some symbol => symbol ∈ dictKeys (payload.get "positions") ∨
      symbol ∈ dictKeys (payload.get "mark_to_market")
  | none => true

def getEvents (p : RunPayloads) (query : PayloadQuery) : List Dict :=
  page (p.events.filter fun event => matchesEvent event query.symbol query.eventType) query.limit
    query.offset

def getSnapshots (p : RunPayloads) (query : PayloadQuery) : List Dict :=
  page (p.snapshots.filter fun snapshot => matchesSymbol snapshot query.symbol) query.limit
    query.offset

def getAccounts (render : Value → String) (p : RunPayloads) (query : PayloadQuery) : List Dict :=
  page (p.accounts.filter fun account =>
    matchesAccount render account query.accountId query.symbol) query.limit query.offset

end InMemoryStore

/-! The store in SQLite. -/
namespace SQLiteStore

/-- A row of `run_events`. Rows are listed by their sequence. -/
structure EventRow where
  eventType : Option String
  symbol : Option String
  step : Option ℤ
  payload : Dict

structure SnapshotRow where
  step : Option ℤ
  symbol : Option String
  payload : Dict

structure AccountRow where
  accountId : Option String
  symbol : Option String
  payload : Dict

structure PayloadRows where
  events : List EventRow
  snapshots : List SnapshotRow
  accounts : List AccountRow

def eventSymbol (event : Dict) : Option String :=
  (stringOrNone (event.get "symbol")).or (stringOrNone (dictValue (event.get "data") "symbol"))

def eventRow (event : Dict) : EventRow :=
  { eventType := stringOrNone (event.get "type"), symbol := eventSymbol event
    step := intOrNone <| if truthy (event.get "step") then event.get "step"
      else dictValue (event.get "data") "step"
    payload := event }

def snapshotRow (snapshot : Dict) : SnapshotRow :=
  { step := intOrNone (snapshot.get "step")
    symbol := match dictKeys (snapshot.get "symbols") with
      | [symbol] => some symbol
      | _ => stringOrNone (snapshot.get "symbol")
    payload := snapshot }

def accountSymbol (account : Dict) : Option String :=
  (stringOrNone (account.get "symbol")).or <|
    match dictKeys (account.get "positions") with
    | [symbol] => some symbol
    | _ => match dictKeys (account.get "mark_to_market") with
      | [symbol] => some symbol
      | _ => none

def accountRow (account : Dict) : AccountRow :=
  { accountId := stringOrNone (account.get "account_id"), symbol := accountSymbol account
    payload := account }

/-- Store the rows of a run; nothing is stored where a step does not fit its column. -/
def storeResult (p : RunPayloads) : Option PayloadRows :=
  let rows : PayloadRows :=
    { events := p.events.map eventRow, snapshots := p.snapshots.map snapshotRow
      accounts := p.accounts.map accountRow }
  if (∀ row ∈ rows.events, ∀ step ∈ row.step, isSqliteInteger step) ∧
      ∀ row ∈ rows.snapshots, ∀ step ∈ row.step, isSqliteInteger step then some rows
  else none

/-- A column has the value that a query asks for. A missing value has none. -/
def isValue (column value : Option String) : Bool :=
  match value with
  | some value => column = some value
  | none => true

/-- The order of a step column: missing steps come first. -/
def stepOrder : Option ℤ → WithBot ℤ
  | none => ⊥
  | some step => step

/-- Page the selected payloads; nothing where the limit or the offset does not fit an integer. -/
def fetchPayloads (payloads : List Dict) (limit : Option ℤ) (offset : ℤ) : Option (List Dict) :=
  match limit with
  | some limit =>
    if isSqliteInteger (max 0 limit) ∧ isSqliteInteger (max 0 offset) then
      some ((payloads.drop (max 0 offset).toNat).take (max 0 limit).toNat)
    else none
  | none =>
    if 0 < offset then
      if isSqliteInteger offset then some (payloads.drop offset.toNat) else none
    else some payloads

def getEvents (rows : PayloadRows) (query : PayloadQuery) : Option (List Dict) :=
  let selected := rows.events.filter fun row =>
    isValue row.symbol query.symbol && isValue row.eventType query.eventType
  fetchPayloads (selected.map EventRow.payload) query.limit query.offset

def getSnapshots (rows : PayloadRows) (query : PayloadQuery) : Option (List Dict) :=
  let selected := rows.snapshots.filter fun row => isValue row.symbol query.symbol
  let ordered := selected.insertionSort fun a b => stepOrder a.step ≤ stepOrder b.step
  fetchPayloads (ordered.map SnapshotRow.payload) query.limit query.offset

def getAccounts (rows : PayloadRows) (query : PayloadQuery) : Option (List Dict) :=
  let selected := rows.accounts.filter fun row =>
    isValue row.accountId query.accountId && isValue row.symbol query.symbol
  fetchPayloads (selected.map AccountRow.payload) query.limit query.offset

end SQLiteStore

/-- Both stores answer a query with the same lists. -/
def AnswerAlike (render : Value → String) (p : RunPayloads) (query : PayloadQuery) : Prop :=
  ∃ rows, SQLiteStore.storeResult p = some rows ∧
    SQLiteStore.getEvents rows query = some (InMemoryStore.getEvents p query) ∧
    SQLiteStore.getSnapshots rows query = some (InMemoryStore.getSnapshots p query) ∧
    SQLiteStore.getAccounts rows query = some (InMemoryStore.getAccounts render p query)

/-- The limit and the offset are integers for SQLite. -/
def PayloadQuery.InRange (query : PayloadQuery) : Prop :=
  (∀ limit ∈ query.limit, limit < 2 ^ 63) ∧ query.offset < 2 ^ 63

/-- The payloads read the same in memory and in their columns. -/
structure RunPayloads.Uniform (p : RunPayloads) : Prop where
  event_steps : ∀ event ∈ p.events, ∀ step ∈ (SQLiteStore.eventRow event).step, isSqliteInteger step
  snapshot_steps : ∀ snapshot ∈ p.snapshots,
    ∀ step ∈ intOrNone (snapshot.get "step"), isSqliteInteger step
  /-- An event that has a symbol beside its data has the same one in its data. -/
  event_symbols : ∀ event ∈ p.events, ∀ data symbol, event.get "data" = some (.dict data) →
    event.get "symbol" = some (.str symbol) → Dict.get data "symbol" = some (.str symbol)
  snapshots_ordered : p.snapshots.Pairwise fun a b =>
    SQLiteStore.stepOrder (intOrNone (a.get "step")) ≤
      SQLiteStore.stepOrder (intOrNone (b.get "step"))
  /-- A snapshot lists at most one symbol, and has no other one beside it. -/
  snapshot_symbols : ∀ snapshot ∈ p.snapshots,
    dictKeys (snapshot.get "symbols") = [] ∨ ∃ key, dictKeys (snapshot.get "symbols") = [key] ∧
      ∀ symbol, snapshot.get "symbol" = some (.str symbol) → symbol = key
  account_ids : ∀ account ∈ p.accounts, ∃ accountId, account.get "account_id" = some (.str accountId)
  /-- The symbols that an account lists are the one that its column gets. -/
  account_symbols : ∀ account ∈ p.accounts, ∀ symbol,
    symbol ∈ dictKeys (account.get "positions") ∨ symbol ∈ dictKeys (account.get "mark_to_market") ↔
      SQLiteStore.accountSymbol account = some symbol

theorem nodup_dictKeys (value : Option Value) : (dictKeys value).Nodup := by
  unfold dictKeys
  split
  · exact List.nodup_dedup _
  · exact List.nodup_nil

theorem stringOrNone_eq_some {value : Option Value} {s : String} :
    stringOrNone value = some s ↔ value = some (.str s) := by
  unfold stringOrNone
  split
  · simp
  · rename_i hother
    simpa using hother s

/-! Paging. -/
section Paging
variable {query : PayloadQuery} {items : List Dict}

theorem fetchPayloads_of_inRange (h : query.InRange) :
    SQLiteStore.fetchPayloads items query.limit query.offset =
      some (InMemoryStore.page items query.limit query.offset) := by
  obtain ⟨hlimit, hoffset⟩ := h
  unfold SQLiteStore.fetchPayloads InMemoryStore.page
  cases hl : query.limit with
  | some limit =>
    have hlimit' := hlimit limit hl
    have hfits : isSqliteInteger (max 0 limit) ∧ isSqliteInteger (max 0 query.offset) := by
      unfold isSqliteInteger
      omega
    exact if_pos hfits
  | none =>
    dsimp only
    split_ifs with hpositive hfits
    · rw [max_eq_right hpositive.le]
    · refine absurd ?_ hfits
      unfold isSqliteInteger
      omega
    · rw [max_eq_left (not_lt.mp hpositive)]
      rfl

theorem fetchPayloads_of_not_inRange (h : ¬query.InRange) :
    SQLiteStore.fetchPayloads items query.limit query.offset = none := by
  unfold SQLiteStore.fetchPayloads
  unfold PayloadQuery.InRange at h
  cases hl : query.limit with
  | some limit =>
    rw [hl] at h
    simp only [Option.mem_def, Option.some.injEq, forall_eq', not_and_or, not_lt] at h
    refine if_neg ?_
    unfold isSqliteInteger
    omega
  | none =>
    rw [hl] at h
    simp only [Option.mem_def, reduceCtorEq, false_implies, implies_true, true_and, not_lt] at h
    dsimp only
    rw [if_pos (by omega), if_neg]
    unfold isSqliteInteger
    omega

theorem page_all : InMemoryStore.page items none 0 = items := rfl

end Paging

/-! The two selections. -/
section Selection
variable {p : RunPayloads} {rows : SQLiteStore.PayloadRows}

theorem storeResult_eq_some : SQLiteStore.storeResult p = some rows ↔
    (∀ event ∈ p.events, ∀ step ∈ (SQLiteStore.eventRow event).step, isSqliteInteger step) ∧
    (∀ snapshot ∈ p.snapshots, ∀ step ∈ intOrNone (snapshot.get "step"), isSqliteInteger step) ∧
    rows = { events := p.events.map SQLiteStore.eventRow
             snapshots := p.snapshots.map SQLiteStore.snapshotRow
             accounts := p.accounts.map SQLiteStore.accountRow } := by
  unfold SQLiteStore.storeResult
  dsimp only
  simp only [List.forall_mem_map]
  split_ifs with hfits
  · rw [Option.some.injEq]
    exact ⟨fun h => ⟨hfits.1, hfits.2, h.symm⟩, fun h => h.2.2.symm⟩
  · exact iff_of_false (fun h => nomatch h) fun h => hfits ⟨h.1, h.2.1⟩

/-- The order in which SQLite lists snapshots. -/
def stepLe (a b : Dict) : Prop :=
  SQLiteStore.stepOrder (intOrNone (a.get "step")) ≤ SQLiteStore.stepOrder (intOrNone (b.get "step"))

instance : DecidableRel stepLe := fun a b => @WithBot.decidableLE ℤ Int.instLEInt Int.decLe
  (SQLiteStore.stepOrder (intOrNone (a.get "step")))
  (SQLiteStore.stepOrder (intOrNone (b.get "step")))

instance : Std.Total stepLe := ⟨fun _ _ => le_total _ _⟩

instance : IsTrans Dict stepLe := ⟨fun _ _ _ => le_trans⟩

theorem getEvents_eq (h : SQLiteStore.storeResult p = some rows) (query : PayloadQuery) :
    SQLiteStore.getEvents rows query = SQLiteStore.fetchPayloads (p.events.filter fun event =>
      SQLiteStore.isValue (SQLiteStore.eventSymbol event) query.symbol &&
        SQLiteStore.isValue (stringOrNone (event.get "type")) query.eventType)
      query.limit query.offset := by
  obtain ⟨-, -, rfl⟩ := storeResult_eq_some.mp h
  unfold SQLiteStore.getEvents
  dsimp only
  rw [List.filter_map, List.map_map]
  congr 1
  exact List.map_id _

theorem getSnapshots_eq (h : SQLiteStore.storeResult p = some rows) (query : PayloadQuery) :
    SQLiteStore.getSnapshots rows query = SQLiteStore.fetchPayloads
      ((p.snapshots.filter fun snapshot => SQLiteStore.isValue
        (SQLiteStore.snapshotRow snapshot).symbol query.symbol).insertionSort stepLe)
      query.limit query.offset := by
  obtain ⟨-, -, rfl⟩ := storeResult_eq_some.mp h
  unfold SQLiteStore.getSnapshots
  dsimp only
  rw [List.map_insertionSort _ stepLe SQLiteStore.SnapshotRow.payload, List.filter_map,
    List.map_map]
  · congr 2
    exact List.map_id _
  · intro a ha b hb
    obtain ⟨snapshot, -, rfl⟩ := List.mem_map.mp (List.mem_filter.mp ha).1
    obtain ⟨snapshot', -, rfl⟩ := List.mem_map.mp (List.mem_filter.mp hb).1
    exact Iff.rfl

theorem getAccounts_eq (h : SQLiteStore.storeResult p = some rows) (query : PayloadQuery) :
    SQLiteStore.getAccounts rows query = SQLiteStore.fetchPayloads (p.accounts.filter fun account =>
      SQLiteStore.isValue (stringOrNone (account.get "account_id")) query.accountId &&
        SQLiteStore.isValue (SQLiteStore.accountSymbol account) query.symbol)
      query.limit query.offset := by
  obtain ⟨-, -, rfl⟩ := storeResult_eq_some.mp h
  unfold SQLiteStore.getAccounts
  dsimp only
  rw [List.filter_map, List.map_map]
  congr 1
  exact List.map_id _

end Selection

/-! When the selections agree. -/
section Agreement
variable {render : Value → String} {p : RunPayloads}

/-- The two event symbols agree where a symbol beside the data is the one in the data. -/
theorem eventSymbol_eq_iff {event : Dict} :
    InMemoryStore.eventSymbol event = SQLiteStore.eventSymbol event ↔
      ∀ data symbol, event.get "data" = some (.dict data) →
        event.get "symbol" = some (.str symbol) → Dict.get data "symbol" = some (.str symbol) := by
  unfold InMemoryStore.eventSymbol SQLiteStore.eventSymbol
  split
  · rename_i data hdata
    rw [hdata]
    show stringOrNone (Dict.get data "symbol") =
      (stringOrNone (event.get "symbol")).or (stringOrNone (Dict.get data "symbol")) ↔ _
    cases hdirect : stringOrNone (event.get "symbol") with
    | none =>
      refine iff_of_true rfl fun data' symbol hdata' hsymbol => ?_
      rw [stringOrNone_eq_some.mpr hsymbol] at hdirect
      cases hdirect
    | some direct =>
      rw [Option.some_or, stringOrNone_eq_some]
      constructor
      · intro hsame data' symbol hdata' hsymbol
        rw [stringOrNone_eq_some.mpr hsymbol, Option.some.injEq] at hdirect
        cases hdata'
        rw [hsame, hdirect]
      · exact fun h => h data direct rfl (stringOrNone_eq_some.mp hdirect)
  · rename_i hother
    have hnone : stringOrNone (dictValue (event.get "data") "symbol") = none := by
      unfold dictValue
      split
      · rename_i items hitems
        exact absurd hitems (hother items)
      · rfl
    rw [hnone, Option.or_none]
    exact iff_of_true rfl fun data symbol hdata => absurd hdata (hother data)

/-- The two symbols of a snapshot agree where it lists no symbol but the one beside. -/
theorem matchesSymbol_iff {snapshot : Dict} :
    (∀ symbol, InMemoryStore.matchesSymbol snapshot (some symbol) =
      SQLiteStore.isValue (SQLiteStore.snapshotRow snapshot).symbol (some symbol)) ↔
      (dictKeys (snapshot.get "symbols") = [] ∨ ∃ key, dictKeys (snapshot.get "symbols") = [key] ∧
        ∀ symbol, snapshot.get "symbol" = some (.str symbol) → symbol = key) := by
  unfold InMemoryStore.matchesSymbol SQLiteStore.isValue SQLiteStore.snapshotRow
  simp only [← stringOrNone_eq_some, decide_eq_decide]
  have hnodup := nodup_dictKeys (snapshot.get "symbols")
  generalize dictKeys (snapshot.get "symbols") = keys at hnodup ⊢
  rcases keys with _ | ⟨key, _ | ⟨key', rest⟩⟩
  · simp
  · simp only [List.mem_singleton, Option.some.injEq, List.cons_ne_self, false_or,
      List.cons.injEq, and_true, exists_eq_left']
    constructor
    · intro h symbol hsymbol
      exact ((h symbol).mp (Or.inl hsymbol)).symm
    · intro h symbol
      constructor
      · rintro (hsymbol | hsymbol)
        · exact (h symbol hsymbol).symm
        · exact hsymbol.symm
      · exact fun hsymbol => Or.inr hsymbol.symm
  · have hne : key ≠ key' := by
      rintro rfl
      exact (List.nodup_cons.mp hnodup).1 List.mem_cons_self
    simp only [reduceCtorEq, List.cons.injEq, and_false, false_and, exists_false, or_self,
      iff_false]
    intro h
    have hkey := (h key).mp (Or.inr List.mem_cons_self)
    have hkey' := (h key').mp (Or.inr (List.mem_cons_of_mem _ List.mem_cons_self))
    exact hne (Option.some.inj (hkey.symm.trans hkey'))

/-- Filters that select the same from a list select each of its elements alike. -/
theorem eq_of_filter_perm {items : List Dict} {f g : Dict → Bool}
    (h : (items.filter f).Perm (items.filter g)) : ∀ item ∈ items, f item = g item := by
  intro item hitem
  have hmem := h.mem_iff (a := item)
  rw [List.mem_filter, List.mem_filter, and_iff_right hitem, and_iff_right hitem] at hmem
  exact Bool.eq_iff_iff.mpr hmem

theorem RunPayloads.Uniform.storeResult (h : p.Uniform) : ∃ rows,
    SQLiteStore.storeResult p = some rows :=
  ⟨_, storeResult_eq_some.mpr ⟨h.event_steps, h.snapshot_steps, rfl⟩⟩

theorem RunPayloads.Uniform.matchesEvent (h : p.Uniform) (query : PayloadQuery) :
    ∀ event ∈ p.events, (SQLiteStore.isValue (SQLiteStore.eventSymbol event) query.symbol &&
        SQLiteStore.isValue (stringOrNone (event.get "type")) query.eventType) =
      InMemoryStore.matchesEvent event query.symbol query.eventType := by
  intro event hevent
  have hsymbol := eventSymbol_eq_iff.mpr (h.event_symbols event hevent)
  unfold InMemoryStore.matchesEvent
  rw [hsymbol, Bool.and_comm]
  rfl

theorem RunPayloads.Uniform.matchesSymbol (h : p.Uniform) (query : PayloadQuery) :
    ∀ snapshot ∈ p.snapshots,
      SQLiteStore.isValue (SQLiteStore.snapshotRow snapshot).symbol query.symbol =
        InMemoryStore.matchesSymbol snapshot query.symbol := by
  intro snapshot hsnapshot
  cases hsymbol : query.symbol with
  | none => rfl
  | some symbol =>
    exact (matchesSymbol_iff.mpr (h.snapshot_symbols snapshot hsnapshot) symbol).symm

theorem RunPayloads.Uniform.matchesAccount (h : p.Uniform) (query : PayloadQuery) :
    ∀ account ∈ p.accounts,
      (SQLiteStore.isValue (stringOrNone (account.get "account_id")) query.accountId &&
        SQLiteStore.isValue (SQLiteStore.accountSymbol account) query.symbol) =
      InMemoryStore.matchesAccount render account query.accountId query.symbol := by
  intro account haccount
  obtain ⟨accountId, hid⟩ := h.account_ids account haccount
  have hsymbols := h.account_symbols account haccount
  unfold InMemoryStore.matchesAccount SQLiteStore.isValue
  rw [hid]
  congr 1
  · cases query.accountId with
    | none => rfl
    | some wanted => exact decide_eq_decide.mpr Option.some_inj
  · cases query.symbol with
    | none => rfl
    | some symbol => exact decide_eq_decide.mpr (hsymbols symbol).symm

/-- Uniform payloads are answered alike. -/
theorem RunPayloads.Uniform.answerAlike (h : p.Uniform) {query : PayloadQuery}
    (hrange : query.InRange) : AnswerAlike render p query := by
  obtain ⟨rows, hrows⟩ := h.storeResult
  refine ⟨rows, hrows, ?_, ?_, ?_⟩
  · rw [getEvents_eq hrows, fetchPayloads_of_inRange hrange,
      List.filter_congr (h.matchesEvent query)]
    rfl
  · have hordered := (h.snapshots_ordered.filter fun snapshot =>
      InMemoryStore.matchesSymbol snapshot query.symbol)
    rw [getSnapshots_eq hrows, fetchPayloads_of_inRange hrange,
      List.filter_congr (h.matchesSymbol query),
      List.Pairwise.insertionSort_eq (r := stepLe) hordered]
    rfl
  · rw [getAccounts_eq hrows, fetchPayloads_of_inRange hrange,
      List.filter_congr (h.matchesAccount query)]
    rfl

/-- A store that answers all queries alike holds uniform payloads. -/
theorem uniform_of_answerAlike (h : ∀ query : PayloadQuery, query.InRange → AnswerAlike render p query) :
    p.Uniform := by
  have hall : ∀ symbol accountId, PayloadQuery.InRange { symbol, accountId } := by
    intro symbol accountId
    constructor
    · exact fun limit hlimit => nomatch hlimit
    · show (0 : ℤ) < 2 ^ 63
      decide
  have hlists : ∀ symbol accountId,
      (p.events.filter fun event =>
        SQLiteStore.isValue (SQLiteStore.eventSymbol event) symbol && true) =
          (p.events.filter fun event => InMemoryStore.matchesEvent event symbol none) ∧
      (p.snapshots.filter fun snapshot => SQLiteStore.isValue
        (SQLiteStore.snapshotRow snapshot).symbol symbol).insertionSort stepLe =
          (p.snapshots.filter fun snapshot => InMemoryStore.matchesSymbol snapshot symbol) ∧
      (p.accounts.filter fun account =>
        SQLiteStore.isValue (stringOrNone (account.get "account_id")) accountId &&
          SQLiteStore.isValue (SQLiteStore.accountSymbol account) symbol) =
          p.accounts.filter fun account =>
            InMemoryStore.matchesAccount render account accountId symbol := by
    intro symbol accountId
    obtain ⟨rows, hrows, hevents, hsnapshots, haccounts⟩ := h _ (hall symbol accountId)
    rw [getEvents_eq hrows, fetchPayloads_of_inRange (hall symbol accountId)] at hevents
    rw [getSnapshots_eq hrows, fetchPayloads_of_inRange (hall symbol accountId)] at hsnapshots
    rw [getAccounts_eq hrows, fetchPayloads_of_inRange (hall symbol accountId)] at haccounts
    exact ⟨Option.some.inj hevents, Option.some.inj hsnapshots, Option.some.inj haccounts⟩
  obtain ⟨rows, hrows, -⟩ := h _ (hall none none)
  obtain ⟨hevents, hsnapshots, -⟩ := storeResult_eq_some.mp hrows
  refine ⟨hevents, hsnapshots, fun event hevent => ?_, ?_, fun snapshot hsnapshot => ?_,
    fun account haccount => ?_, fun account haccount symbol => ?_⟩
  · refine eventSymbol_eq_iff.mp (Option.ext fun symbol => ?_)
    have hmatch := eq_of_filter_perm (.of_eq (hlists (some symbol) none).1) event hevent
    rw [Bool.and_true] at hmatch
    exact (decide_eq_decide.mp hmatch).symm
  · have hsorted := (hlists none none).2.1
    have hfirst : (p.snapshots.filter fun _ => true) = p.snapshots := List.filter_true _
    have horder : p.snapshots.insertionSort stepLe = p.snapshots := by
      rw [← hfirst]
      exact hsorted
    rw [← horder]
    exact List.pairwise_insertionSort stepLe p.snapshots
  · refine matchesSymbol_iff.mp fun symbol => ?_
    have hperm := (List.perm_insertionSort stepLe _).symm.trans
      (.of_eq (hlists (some symbol) none).2.1)
    exact (eq_of_filter_perm hperm snapshot hsnapshot).symm
  · -- A query for the text of the id finds the account in memory.
    let text := pyStr render (account.get "account_id")
    have hmatch := eq_of_filter_perm (.of_eq (hlists none (some text)).2.2) account haccount
    have hmemory : InMemoryStore.matchesAccount render account (some text) none = true := by
      simp [InMemoryStore.matchesAccount, text]
    rw [hmemory] at hmatch
    have hcolumn : stringOrNone (account.get "account_id") = some text :=
      of_decide_eq_true (Bool.and_eq_true_iff.mp hmatch).1
    exact ⟨text, stringOrNone_eq_some.mp hcolumn⟩
  · have hmatch := eq_of_filter_perm (.of_eq (hlists (some symbol) none).2.2) account haccount
    exact (decide_eq_decide.mp hmatch).symm

/-- The stores answer all queries in range alike exactly for uniform payloads, and none other. -/
theorem stores_answer_alike_iff (render : Value → String) (p : RunPayloads) :
    ((∀ query : PayloadQuery, query.InRange → AnswerAlike render p query) ↔ p.Uniform) ∧
      ∀ query : PayloadQuery, ¬query.InRange → ¬AnswerAlike render p query := by
  constructor
  · exact ⟨uniform_of_answerAlike, fun h query hrange => h.answerAlike hrange⟩
  · rintro query hrange ⟨rows, hrows, hevents, -⟩
    rw [getEvents_eq hrows, fetchPayloads_of_not_inRange hrange] at hevents
    cases hevents

/-- An event with a symbol beside its data is found by one store only. -/
theorem event_symbol_not_alike :
    ¬∃ render, AnswerAlike render
      { events := [[("symbol", .str "A"), ("data", .dict [])]], snapshots := [], accounts := [] }
      { symbol := some "A" } := by
  rintro ⟨render, rows, hrows, hevents, -⟩
  obtain ⟨-, -, rfl⟩ := storeResult_eq_some.mp hrows
  have hlengths := congrArg (Option.map List.length) hevents
  revert hlengths
  decide

/-- A snapshot, an event and an account of one symbol are answered alike. -/
theorem stores_answer_alike_single :
    let event : Dict := [("type", .str "trade"), ("data", .dict [("symbol", .str "A")])]
    let snapshot : Dict := [("step", .int 1), ("symbols", .dict [("A", .null)])]
    let account : Dict := [("account_id", .str "x"), ("positions", .dict [("A", .int 5)])]
    AnswerAlike (fun _ => "") { events := [event], snapshots := [snapshot], accounts := [account] }
      { symbol := some "A", accountId := some "x" } := by
  intro event snapshot account
  have hrange : PayloadQuery.InRange { symbol := some "A", accountId := some "x" } := by
    constructor
    · exact fun limit hlimit => nomatch hlimit
    · show (0 : ℤ) < 2 ^ 63
      decide
  refine (stores_answer_alike_iff (fun _ => "") _).1.mpr ?_ _ hrange
  refine ⟨?_, ?_, ?_, List.pairwise_singleton _ _, ?_, ?_, ?_⟩
  · exact List.forall_mem_singleton.mpr (by decide)
  · exact List.forall_mem_singleton.mpr (by decide)
  · refine List.forall_mem_singleton.mpr fun data symbol _ hsymbol => ?_
    have hmissing : event.get "symbol" = none := by decide +kernel
    rw [hmissing] at hsymbol
    cases hsymbol
  · refine List.forall_mem_singleton.mpr (Or.inr ⟨"A", by decide, fun symbol hsymbol => ?_⟩)
    have hmissing : snapshot.get "symbol" = none := rfl
    rw [hmissing] at hsymbol
    cases hsymbol
  · exact List.forall_mem_singleton.mpr ⟨"x", rfl⟩
  · refine List.forall_mem_singleton.mpr fun symbol => ?_
    have hpositions : dictKeys (account.get "positions") = ["A"] := by decide
    have hmarks : dictKeys (account.get "mark_to_market") = [] := by decide
    have hcolumn : SQLiteStore.accountSymbol account = some "A" := by decide
    rw [hpositions, hmarks, hcolumn, List.mem_singleton, Option.some.injEq, eq_comm]
    simp

end Agreement
end Tes
