import Tes.Library.Lists
import Tes.Events.Serialization
import Tes.Runs.Payloads

/-! Queries by symbol: engine events are serialized without the default symbol, and the stores look
for the symbol in what is serialized. -/
namespace Tes
open Json EventModels

/-- `serialize_event`, as the dict that it is. -/
def eventPayload (event : TesEngineEvent) : Dict :=
  [("type", .str event.type), ("data", .dict (dataDict event))]

/-- The events with a symbol are what both stores find under it. -/
def FindsSymbol (p : RunPayloads) (rows : SQLiteStore.PayloadRows) (events : List TesEngineEvent)
    (symbol : String) : Prop :=
  InMemoryStore.getEvents p { symbol := some symbol } =
      (events.filter fun event => event.symbol = symbol).map eventPayload ∧
    SQLiteStore.getEvents rows { symbol := some symbol } =
      some ((events.filter fun event => event.symbol = symbol).map eventPayload)

/-- What the stores find under different symbols, with that of each event among them, is what is
stored. -/
def PartitionBySymbol (p : RunPayloads) (rows : SQLiteStore.PayloadRows)
    (events : List TesEngineEvent) : Prop :=
  ∀ symbols : List String, symbols.Nodup → (∀ event ∈ events, event.symbol ∈ symbols) →
    (symbols.flatMap fun symbol => InMemoryStore.getEvents p { symbol := some symbol }).Perm
        p.events ∧
      (symbols.flatMap fun symbol =>
        (SQLiteStore.getEvents rows { symbol := some symbol }).getD []).Perm p.events

section Symbols
variable {event : TesEngineEvent} {events : List TesEngineEvent} {p : RunPayloads}
  {rows : SQLiteStore.PayloadRows} {symbol : String}

theorem get_filter_key (data : Dict) (key : String) :
    Dict.get (data.filter fun item => item.1 ≠ key) key = none := by
  unfold Dict.get
  rw [List.lookup_eq_none_iff]
  intro item hitem
  have hne : item.1 ≠ key := of_decide_eq_true (List.mem_filter.mp hitem).2
  exact bne_iff_ne.mpr hne.symm

theorem symbol_dataDict (event : TesEngineEvent) : stringOrNone (Dict.get (dataDict event) "symbol") =
    if event.symbol = EventModels.defaultSymbol then none else some event.symbol := by
  unfold dataDict
  split_ifs with hdefault
  · rw [get_filter_key]
    rfl
  · cases event <;> rfl

/-- Both stores take the symbol from the data. -/
theorem eventSymbol_payload (event : TesEngineEvent) :
    InMemoryStore.eventSymbol (eventPayload event) =
        (if event.symbol = EventModels.defaultSymbol then none else some event.symbol) ∧
      SQLiteStore.eventSymbol (eventPayload event) =
        if event.symbol = EventModels.defaultSymbol then none else some event.symbol :=
  ⟨symbol_dataDict event, symbol_dataDict event⟩

/-- What either store finds are the stored events whose symbol it can tell. -/
theorem getEvents_payloads (hstored : p.events = events.map eventPayload)
    (hrows : SQLiteStore.storeResult p = some rows) (symbol : String) :
    InMemoryStore.getEvents p { symbol := some symbol } =
        (events.filter fun event => event.symbol ≠ EventModels.defaultSymbol ∧ event.symbol = symbol).map
          eventPayload ∧
      SQLiteStore.getEvents rows { symbol := some symbol } =
        some (InMemoryStore.getEvents p { symbol := some symbol }) := by
  have hfound : ∀ event : TesEngineEvent,
      (if event.symbol = EventModels.defaultSymbol then none else some event.symbol) = some symbol ↔
        event.symbol ≠ EventModels.defaultSymbol ∧ event.symbol = symbol := by
    intro event
    split_ifs with hdefault
    · exact iff_of_false (fun h => h.elim) fun h => h.1 hdefault
    · rw [Option.some.injEq]
      exact (and_iff_right hdefault).symm
  have hmemory : InMemoryStore.getEvents p { symbol := some symbol } =
      (events.filter fun event => event.symbol ≠ EventModels.defaultSymbol ∧ event.symbol = symbol).map
        eventPayload := by
    unfold InMemoryStore.getEvents InMemoryStore.matchesEvent
    rw [hstored, page_all, List.filter_map]
    refine congrArg (List.map eventPayload) (List.filter_congr fun event _ => ?_)
    dsimp only [Function.comp_apply]
    rw [Bool.true_and, (eventSymbol_payload event).1]
    exact decide_eq_decide.mpr (hfound event)
  have hrange : PayloadQuery.InRange { symbol := some symbol } := by
    constructor
    · intro limit hlimit
      cases hlimit
    · exact pow_pos two_pos 63
  refine ⟨hmemory, ?_⟩
  rw [getEvents_eq hrows, fetchPayloads_of_inRange hrange, page_all, hmemory, hstored,
    List.filter_map]
  refine congrArg some (congrArg (List.map eventPayload) (List.filter_congr fun event _ => ?_))
  dsimp only [Function.comp_apply, SQLiteStore.isValue]
  rw [Bool.and_true, (eventSymbol_payload event).2]
  exact decide_eq_decide.mpr (hfound event)

theorem findsSymbol_iff (hstored : p.events = events.map eventPayload)
    (hrows : SQLiteStore.storeResult p = some rows) :
    FindsSymbol p rows events symbol ↔
      (symbol = EventModels.defaultSymbol → ∀ event ∈ events, event.symbol ≠ EventModels.defaultSymbol) := by
  obtain ⟨hmemory, hsqlite⟩ := getEvents_payloads hstored hrows symbol
  unfold FindsSymbol
  rw [hsqlite, Option.some.injEq, and_self, hmemory]
  constructor
  · rintro hsame rfl event hevent hdefault
    have hfound : eventPayload event ∈
        (events.filter fun event => event.symbol = EventModels.defaultSymbol).map eventPayload :=
      List.mem_map_of_mem (List.mem_filter.mpr ⟨hevent, decide_eq_true hdefault⟩)
    rw [← hsame] at hfound
    obtain ⟨other, hother, -⟩ := List.mem_map.mp hfound
    obtain ⟨hne, heq⟩ := of_decide_eq_true (List.mem_filter.mp hother).2
    exact hne heq
  · intro h
    refine congrArg (List.map eventPayload) (List.filter_congr fun event hevent => ?_)
    refine decide_eq_decide.mpr (and_iff_right_of_imp ?_)
    rintro rfl hdefault
    exact h hdefault event hevent hdefault

theorem partitionBySymbol_iff (hstored : p.events = events.map eventPayload)
    (hrows : SQLiteStore.storeResult p = some rows) :
    PartitionBySymbol p rows events ↔ ∀ event ∈ events, event.symbol ≠ EventModels.defaultSymbol := by
  constructor
  · intro h event hevent hdefault
    have hperm := (h (events.map TesEngineEvent.symbol).dedup (List.nodup_dedup _) fun event hevent =>
      List.mem_dedup.mpr (List.mem_map_of_mem hevent)).1
    have hmem : eventPayload event ∈ p.events := hstored ▸ List.mem_map_of_mem hevent
    obtain ⟨symbol, -, hfound⟩ := List.mem_flatMap.mp (hperm.mem_iff.mpr hmem)
    rw [(getEvents_payloads hstored hrows symbol).1] at hfound
    obtain ⟨other, hother, hsame⟩ := List.mem_map.mp hfound
    have hne := (of_decide_eq_true (List.mem_filter.mp hother).2).1
    -- a payload tells whether the symbol is the default one
    have hsymbol := (eventSymbol_payload other).1
    rw [hsame, (eventSymbol_payload event).1, if_pos hdefault, if_neg hne] at hsymbol
    cases hsymbol
  · intro h symbols hnodup hsymbols
    have hfinds : ∀ symbol, FindsSymbol p rows events symbol := fun symbol =>
      (findsSymbol_iff hstored hrows).mpr fun _ => h
    have hperm : (symbols.flatMap fun symbol =>
        (events.filter fun event => event.symbol = symbol).map eventPayload).Perm p.events := by
      rw [hstored, ← List.map_flatMap]
      exact (Lists.perm_flatMap_filter TesEngineEvent.symbol hnodup hsymbols).map eventPayload
    constructor
    · rwa [funext fun symbol => (hfinds symbol).1]
    · rwa [funext fun symbol => congrArg (Option.getD · []) (hfinds symbol).2]

/-- A query finds the events of its symbol, unless it is for the default symbol and there are such;
and the queries partition what is stored exactly if there are none. -/
theorem symbol_queries_iff (events : List TesEngineEvent) (p : RunPayloads)
    (rows : SQLiteStore.PayloadRows) (hstored : p.events = events.map eventPayload)
    (hrows : SQLiteStore.storeResult p = some rows) :
    (∀ symbol, FindsSymbol p rows events symbol ↔
      (symbol = EventModels.defaultSymbol → ∀ event ∈ events, event.symbol ≠ EventModels.defaultSymbol)) ∧
    (PartitionBySymbol p rows events ↔ ∀ event ∈ events, event.symbol ≠ EventModels.defaultSymbol) :=
  ⟨fun _ => findsSymbol_iff hstored hrows, partitionBySymbol_iff hstored hrows⟩

end Symbols

/-- The trades of two symbols. -/
theorem symbol_queries_twoSymbols :
    let events : List TesEngineEvent := [.orderFilled 1 5 "A", .orderFilled 2 5 "B"]
    let p : RunPayloads := { events := events.map eventPayload, snapshots := [], accounts := [] }
    ∃ rows, SQLiteStore.storeResult p = some rows ∧ FindsSymbol p rows events "A" ∧
      PartitionBySymbol p rows events := by
  intro events p
  have hstored : SQLiteStore.storeResult p = some
      { events := p.events.map SQLiteStore.eventRow, snapshots := [], accounts := [] } := by
    rw [storeResult_eq_some]
    exact ⟨by decide, by decide, rfl⟩
  obtain ⟨hfinds, hpartition⟩ := symbol_queries_iff events p _ rfl hstored
  have hsymbols : ∀ event ∈ events, event.symbol ≠ EventModels.defaultSymbol := by decide
  exact ⟨_, hstored, (hfinds "A").mpr fun _ => hsymbols, hpartition.mpr hsymbols⟩

/-- A fill of the default symbol, which no query finds. -/
theorem not_findsSymbol_default :
    let events : List TesEngineEvent := [.orderFilled 1 5 "DEFAULT"]
    let p : RunPayloads := { events := events.map eventPayload, snapshots := [], accounts := [] }
    ∃ rows, SQLiteStore.storeResult p = some rows ∧ ¬ FindsSymbol p rows events "DEFAULT" := by
  intro events p
  refine ⟨{ events := p.events.map SQLiteStore.eventRow, snapshots := [], accounts := [] },
    ?_, fun h => ?_⟩
  · rw [storeResult_eq_some]
    exact ⟨by decide, by decide, rfl⟩
  · have hnone : InMemoryStore.getEvents p { symbol := some "DEFAULT" } = [] := rfl
    rw [FindsSymbol, hnone] at h
    cases h.1

end Tes
