import Tes.Engine.Runs
import Tes.Library.Registry

/-! The stop orders of the engine as a registry: which operations accept, cancel and trigger stops,
by the pending lists, the ledger and the events. -/
namespace Tes
open MatchingEngine Transition EStateM

/-- What a ledger entry says of a stop order. -/
def AccountLedgerEntry.stopChange (entry : AccountLedgerEntry) : Option (OrderId × RegistryChange) :=
  if entry.reason = "stop_order_accepted" then entry.relatedOrderId.map (·, .added)
  else if entry.reason = "stop_order_canceled" then entry.relatedOrderId.map (·, .dropped)
  else if entry.reason = "stop_order_triggered" then do
    return (← entry.relatedOrderId, .released (← entry.relatedTradeId))
  else none

/-- The stop orders, the pending ids and what the ledger says of them. -/
def MatchingEngine.registry (s : MatchingEngine) : Registry StopOrderState Symbol :=
  ⟨s.stopOrdersById, s.pendingStopIdsBySymbol,
    s.accountLedger.filterMap AccountLedgerEntry.stopChange, s.nextOrderId⟩

/-- The stop that an event accepts. -/
def Event.acceptedStop : Event → Option OrderId
  | .stopOrderAccepted id .. => some id
  | _ => none

/-- The stop that an event triggers, and the order that results. -/
def Event.triggeredStop : Event → Option (OrderId × OrderId)
  | .stopOrderTriggered id resultingOrderId .. => some (id, resultingOrderId)
  | _ => none

def acceptedStops (events : List Event) : List OrderId := events.filterMap Event.acceptedStop

def triggeredStops (events : List Event) : List (OrderId × OrderId) :=
  events.filterMap Event.triggeredStop

/-- No stop is accepted or triggered. -/
def StopFree (events : List Event) : Prop := acceptedStops events = [] ∧ triggeredStops events = []

section Reports
variable {events more : List Event}

theorem acceptedStops_append :
    acceptedStops (events ++ more) = acceptedStops events ++ acceptedStops more :=
  List.filterMap_append

theorem triggeredStops_append :
    triggeredStops (events ++ more) = triggeredStops events ++ triggeredStops more :=
  List.filterMap_append

theorem stopFree_append : StopFree (events ++ more) ↔ StopFree events ∧ StopFree more := by
  rw [StopFree, acceptedStops_append, triggeredStops_append, List.append_eq_nil_iff,
    List.append_eq_nil_iff]
  exact and_and_and_comm

theorem stopFree_iff :
    StopFree events ↔ ∀ e ∈ events, e.acceptedStop = none ∧ e.triggeredStop = none := by
  rw [StopFree, acceptedStops, triggeredStops, List.filterMap_eq_nil_iff, List.filterMap_eq_nil_iff]
  exact ⟨fun h e he => ⟨h.1 e he, h.2 e he⟩, fun h => ⟨fun e he => (h e he).1, fun e he => (h e he).2⟩⟩

theorem StopFree.map {f : Event → Event} (h : StopFree events)
    (hf : ∀ e, (f e).acceptedStop = e.acceptedStop ∧ (f e).triggeredStop = e.triggeredStop) :
    StopFree (events.map f) := by
  rw [stopFree_iff] at h ⊢
  intro e he
  obtain ⟨event, hevent, rfl⟩ := List.mem_map.mp he
  rw [(hf event).1, (hf event).2]
  exact h event hevent

theorem stopFree_topOfBook (book : OrderBook) (symbol : Symbol) (bid ask : Option ℤ) :
    StopFree (book.maybeEmitTopOfBookChange symbol bid ask) := by
  unfold OrderBook.maybeEmitTopOfBookChange
  split_ifs
  · exact ⟨rfl, rfl⟩
  · exact ⟨rfl, rfl⟩

theorem stopFree_fillEvents (t : Taker) (fill : FillResult) : StopFree (fillEvents t fill) := by
  unfold fillEvents
  rw [stopFree_append]
  constructor
  · split
    · exact ⟨rfl, rfl⟩
    · exact ⟨rfl, rfl⟩
  · split_ifs
    · exact ⟨rfl, rfl⟩
    · exact ⟨rfl, rfl⟩

end Reports

namespace MatchingEngine

/-! What leaves the registry alone. -/
section Reads
variable {s s' : MatchingEngine}

theorem registry_of_unfunded (h : s.unfunded = s'.unfunded) : s.registry = s'.registry :=
  congrArg (fun s => s.registry) h

/-- An entry that says nothing of stops. -/
theorem registry_appendLedgerEntry {entry : AccountLedgerEntry} (h : entry.stopChange = none) :
    (s.appendLedgerEntry entry).registry = s.registry := by
  have hsame : ({ entry with sequence := s.nextLedgerSequence } : AccountLedgerEntry).stopChange =
      none := h
  simp [registry, appendLedgerEntry, hsame]

theorem registry_journalFee {a : AccountId} {symbol : Symbol} {fee : ℤ} {id tradeId : OrderId} :
    (s.journalFee a symbol fee id tradeId).registry = s.registry := by
  unfold journalFee
  split_ifs
  · exact registry_appendLedgerEntry (by simp [AccountLedgerEntry.stopChange])
  · rfl

theorem registry_settleFill {t : Taker} {fill : FillResult} {book : OrderBook} :
    (s.settleFill t fill book).registry = s.registry :=
  (registry_of_unfunded (unfunded_settleFill s t fill book)).trans rfl

theorem registry_journalFill {t : Taker} {fill : FillResult} {maker : AccountId} :
    (s.journalFill t fill maker).registry = s.registry := by
  unfold journalFill
  rw [registry_journalFee, registry_journalFee, registry_appendLedgerEntry,
    registry_appendLedgerEntry]
  · simp [AccountLedgerEntry.stopChange]
  · simp [AccountLedgerEntry.stopChange]

theorem registry_restOrder {a : AccountId} {symbol : Symbol} {id : OrderId} {side : Side}
    {price qty : ℤ} {visibility : OrderVisibility} {displayQty : ℤ} :
    (s.restOrder a symbol id side price qty visibility displayQty).registry = s.registry := by
  unfold restOrder
  cases side with
  | bid =>
    dsimp only [reserveBuy]
    rw [registry_appendLedgerEntry (by simp [AccountLedgerEntry.stopChange])]
    rfl
  | ask =>
    dsimp only [reserveSell]
    rw [registry_appendLedgerEntry (by simp [AccountLedgerEntry.stopChange]),
      registry_of_unfunded (unfunded_reserveShort _ _ _ _),
      registry_of_unfunded (unfunded_reserveLong _ _ _ _ _)]
    rfl

theorem registry_settleAuction {symbol : Symbol} {bidId askId : OrderId} {price qty : ℤ} :
    (s.settleAuction symbol bidId askId price qty).registry = s.registry := by
  unfold settleAuction
  dsimp only
  rw [registry_journalFee, registry_journalFee, registry_appendLedgerEntry,
    registry_appendLedgerEntry]
  · exact (registry_of_unfunded (unfunded_auctionReleased s symbol bidId askId price qty)).trans rfl
  · simp [AccountLedgerEntry.stopChange]
  · simp [AccountLedgerEntry.stopChange]

theorem registry_releaseAll {a : AccountId} {symbol : Symbol} {id : OrderId} :
    (s.releaseAll a symbol id).registry = s.registry := by
  have hcash : ∀ s : MatchingEngine, (s.cancelCash a symbol id).registry = s.registry := by
    intro s
    unfold cancelCash
    split
    · rfl
    · change ((s.updateAccount a _).appendLedgerEntry (cancelRelease a symbol id _ _)).registry = _
      rw [registry_appendLedgerEntry (by simp [AccountLedgerEntry.stopChange, cancelRelease])]
      rfl
  have hqty : ∀ s : MatchingEngine, (s.cancelQty a symbol id).registry = s.registry := by
    intro s
    unfold cancelQty
    split
    · rfl
    · change ((s.updateAccount a _).appendLedgerEntry (cancelRelease a symbol id _ _)).registry = _
      rw [registry_appendLedgerEntry (by simp [AccountLedgerEntry.stopChange, cancelRelease])]
      rfl
  have hmargin : ∀ s : MatchingEngine, (s.cancelShortMargin a symbol id).registry = s.registry := by
    intro s
    unfold cancelShortMargin
    split
    · rfl
    · change ((s.updateAccount a _).appendLedgerEntry (cancelRelease a symbol id _ _)).registry = _
      rw [registry_appendLedgerEntry (by simp [AccountLedgerEntry.stopChange, cancelRelease])]
      rfl
  rw [releaseAll, hmargin, hqty, hcash]

theorem registry_cancelResting {a : AccountId} {symbol : Symbol} {id : OrderId} :
    (s.cancelResting a symbol id).registry = s.registry := registry_releaseAll

theorem registry_trackEvents {events : List Event} :
    (s.trackEvents events).registry = s.registry := by
  have hone : ∀ (s : MatchingEngine) (event : Event),
      (s.bumpSequenceNumber event).registry = s.registry := by
    intro s event
    unfold bumpSequenceNumber
    split
    · rfl
    · rfl
  unfold trackEvents
  induction events generalizing s with
  | nil => rfl
  | cons event rest ih => rw [List.foldl_cons, ih, hone]

theorem stopFree_addOrder (book : OrderBook) (order : Order) (visibility : OrderVisibility) :
    StopFree (book.addOrder order visibility).1 := by
  unfold OrderBook.addOrder
  split_ifs
  · exact ⟨rfl, rfl⟩
  · have haccepted : ∀ order, StopFree [OrderBook.acceptedEvent order] := by
      intro order
      unfold OrderBook.acceptedEvent
      split <;> exact ⟨rfl, rfl⟩
    exact stopFree_append.mpr ⟨haccepted _, stopFree_topOfBook _ _ _ _⟩

theorem stopFree_restEvents {symbol : Symbol} {id : OrderId} {side : Side} {price qty : ℤ}
    {visibility : OrderVisibility} {displayQty : ℤ} :
    StopFree (s.restEvents symbol id side price qty visibility displayQty) := by
  have htag : ∀ e, (Event.tagAccepted symbol e).acceptedStop = e.acceptedStop ∧
      (Event.tagAccepted symbol e).triggeredStop = e.triggeredStop := by
    intro e
    cases e <;> exact ⟨rfl, rfl⟩
  unfold restEvents bookAdd
  split
  · exact (stopFree_addOrder _ _ _).map htag
  · exact (stopFree_addOrder _ _ _).map htag
  · exact (stopFree_addOrder _ _ _).map htag

theorem stopFree_cancel (book : OrderBook) (id : OrderId) (symbol : Symbol) :
    StopFree ((book.cancel id).1.map (Event.tagCanceled symbol)) := by
  refine StopFree.map ?_ fun e => by cases e <;> exact ⟨rfl, rfl⟩
  unfold OrderBook.cancel
  split
  · exact ⟨rfl, rfl⟩
  · have hcanceled : StopFree [Event.orderCanceled id defaultSymbol] := ⟨rfl, rfl⟩
    exact stopFree_append.mpr ⟨hcanceled, stopFree_topOfBook _ _ _ _⟩

end Reads

/-- A computation that accepts, cancels and triggers no stop. -/
def Untouched (s : MatchingEngine) (x : Engine (List Event)) : Prop :=
  Outcome x s (fun events s' => s'.registry = s.registry ∧ StopFree events)
    fun _ s' => s'.registry = s.registry

section Entries
variable {s : MatchingEngine} {symbol : Symbol}

theorem untouched_report {event : Event} (haccepted : event.acceptedStop = none)
    (htriggered : event.triggeredStop = none) : s.Untouched (pure [event]) :=
  ⟨rfl, stopFree_iff.mpr fun _ he => List.mem_singleton.mp he ▸ ⟨haccepted, htriggered⟩⟩

theorem assertInvariants_registry (a b : AccountId) :
    Outcome (assertInvariants symbol a b) s (fun _ s' => s' = s) fun _ s' => s' = s := by
  unfold assertInvariants
  simp only [outcome_bind, outcome_get]
  split
  · split_ifs
    · exact rfl
    · exact rfl
    · exact rfl
  · exact rfl

theorem matchLoop_untouched (fuel : ℕ) (t : Taker) :
    Outcome (matchLoop fuel t) s (fun r s' => s'.registry = s.registry ∧ StopFree r.2)
      fun _ s' => s'.registry = s.registry := by
  induction fuel generalizing s t with
  | zero => exact ⟨rfl, rfl, rfl⟩
  | succ fuel ih =>
    rw [matchLoop]
    simp only [outcome_bind, outcome_get]
    cases hnext : s.nextFill t with
    | none => exact ⟨rfl, rfl, rfl⟩
    | some next =>
      obtain ⟨fill, book⟩ := next
      dsimp only
      split_ifs with hband
      · simp only [outcome_bind, outcome_set]
        have hsame : ((s.settleFill t fill book).journalFill t fill
            (s.ownerAccountId fill.makerId)).registry = s.registry :=
          registry_journalFill.trans registry_settleFill
        refine (assertInvariants_registry _ _).mono (fun _ s₁ h₁ => ?_) fun _ s₁ h₁ => ?_
        · subst h₁
          rw [outcome_modify]
          have howner := (read_updateOwner registry (fun _ _ => rfl) _ fill).trans hsame
          refine (ih _).mono (fun r s₂ h₂ => ?_) fun _ s₂ h₂ => h₂.trans howner
          obtain ⟨hregistry, hfree⟩ := h₂
          refine ⟨hregistry.trans howner, ?_⟩
          have htrade : StopFree ([tradeEvent t fill] ++ fillEvents t fill) :=
            stopFree_append.mpr ⟨⟨rfl, rfl⟩, stopFree_fillEvents t fill⟩
          exact stopFree_append.mpr ⟨stopFree_append.mpr ⟨htrade, stopFree_topOfBook _ _ _ _⟩, hfree⟩
        · rw [h₁, hsame]
      · simp only [outcome_bind, outcome_set, outcome_pure]
        exact ⟨registry_settleFill, rfl, rfl⟩

theorem finishEntry_untouched (t : Taker) : s.Untouched (finishEntry t) := by
  unfold Untouched finishEntry
  split_ifs
  · simp only [outcome_bind, outcome_modify, outcome_pure]
    exact ⟨registry_appendLedgerEntry (by simp [AccountLedgerEntry.stopChange]), rfl, rfl⟩
  · simp only [outcome_bind, outcome_get, outcome_set, outcome_pure]
    exact ⟨registry_restOrder, stopFree_restEvents⟩
  · exact ⟨rfl, rfl, rfl⟩

theorem restVisibleOrder_untouched (a : AccountId) (id : OrderId) (side : Side) (price qty : ℤ)
    (visibility : OrderVisibility) (displayQty : ℤ) :
    s.Untouched (restVisibleOrder a symbol id side price qty visibility displayQty) := by
  unfold Untouched restVisibleOrder
  simp only [outcome_bind, outcome_get, outcome_set]
  split_ifs
  · exact ⟨registry_restOrder, stopFree_append.mpr ⟨stopFree_restEvents, rfl, rfl⟩⟩
  · exact ⟨registry_restOrder, stopFree_restEvents⟩

/-- A sequence of computations that leave the registry alone. -/
theorem Untouched.of_same {s' : MatchingEngine} {x : Engine (List Event)} (h : s'.Untouched x)
    (hsame : s'.registry = s.registry) :
    Outcome x s' (fun events s'' => s''.registry = s.registry ∧ StopFree events)
      fun _ s'' => s''.registry = s.registry :=
  h.mono (fun _ _ h => ⟨h.1.trans hsame, h.2⟩) fun _ _ h => h.trans hsame

theorem placeVisible_untouched (a : AccountId) (id : OrderId) (side : Side) (price qty : ℤ)
    (tif : TimeInForce) (visibility : OrderVisibility) (displayQty : ℤ) :
    s.Untouched (placeVisibleOrderWithAccountAndId a symbol id side price qty tif visibility
      displayQty) := by
  have htouch : (s.touchAccount a symbol).registry = s.registry := rfl
  unfold Untouched placeVisibleOrderWithAccountAndId
  simp only [outcome_bind, outcome_get]
  cases s.validateEntry symbol price qty visibility displayQty with
  | some failure => exact ⟨rfl, rfl, rfl⟩
  | none =>
    dsimp only
    cases (s.touchAccount a symbol).validateOrderRisk a symbol side price qty none with
    | some failure =>
      simp only [outcome_bind, outcome_set, outcome_pure]
      exact ⟨registry_appendLedgerEntry (by simp [AccountLedgerEntry.stopChange]), rfl, rfl⟩
    | none =>
      simp only [outcome_bind, outcome_set]
      split_ifs
      · exact (restVisibleOrder_untouched a id side price qty visibility displayQty).of_same htouch
      · exact ⟨htouch, rfl, rfl⟩
      · rw [outcome_bind]
        refine (matchLoop_untouched _ _).mono (fun r s₁ h₁ => ?_) fun _ s₁ h₁ => h₁.trans htouch
        rw [outcome_bind]
        refine (finishEntry_untouched r.1).mono (fun rested s₂ h₂ => ?_)
          fun _ s₂ h₂ => (h₂.trans h₁.1).trans htouch
        exact ⟨(h₂.1.trans h₁.1).trans htouch, stopFree_append.mpr ⟨h₁.2, h₂.2⟩⟩

theorem placeMarket_untouched (a : AccountId) (id : OrderId) (side : Side) (qty : ℤ) :
    s.Untouched (placeMarketOrderWithAccountAndId a symbol id side qty) := by
  unfold Untouched placeMarketOrderWithAccountAndId
  simp only [outcome_bind, outcome_get]
  cases side with
  | bid =>
    dsimp only
    split_ifs <;> first | exact untouched_report rfl rfl | exact placeVisible_untouched _ _ _ _ _ _ _ _
  | ask =>
    dsimp only
    split_ifs <;> first | exact untouched_report rfl rfl | exact placeVisible_untouched _ _ _ _ _ _ _ _

theorem placeChild_untouched (stop : StopOrderState) (id : OrderId) :
    s.Untouched (placeChild stop symbol id) := by
  unfold placeChild
  cases stop.limitPrice with
  | some limit => exact placeVisible_untouched _ _ _ _ _ _ _ _
  | none => exact placeMarket_untouched _ _ _ _

end Entries

/-! What the operations do to the registry. -/

/-- Changes of the stops, one by one. -/
abbrev Registered (s : MatchingEngine) (changes : List (OrderId × RegistryChange))
    (s' : MatchingEngine) : Prop :=
  Path (Registry.Step StopOrderState.symbol) s.registry changes s'.registry

/-- A computation from `s` whose changes, after those made since `start`, are made one by one: its
events tell which stops are triggered, and accept only stops that the ledger has. -/
def Registers (start s : MatchingEngine) (x : Engine (List Event)) : Prop :=
  Outcome x s (fun events s' => ∃ changes, start.Registered changes s' ∧
      triggeredStops events = Registry.releasedIn changes ∧
      ∀ id ∈ acceptedStops events, id ∈ Registry.addedIn s'.registry.history)
    fun _ s' => ∃ changes, start.Registered changes s'

section Operations
variable {s s' : MatchingEngine} {symbol : Symbol} {x : Engine (List Event)}

theorem Registered.of_same (h : s'.registry = s.registry) : s.Registered [] s' := by
  rw [Registered, h]
  exact .refl _

/-- Changes go on from any state with the same stops. -/
theorem Registered.before {s₁ s₂ : MatchingEngine} {changes more : List (OrderId × RegistryChange)}
    (h : s.Registered changes s₁) (hsame : s₂.registry = s₁.registry)
    (h' : s₂.Registered more s') : s.Registered (changes ++ more) s' := by
  rw [Registered, hsame] at h'
  exact h.trans h'

theorem Untouched.registers {start : MatchingEngine} (h : s.Untouched x)
    (hstart : start.Registered [] s) : start.Registers s x :=
  h.mono (fun _ _ h => ⟨[], hstart.before h.1 (.refl _), h.2.2, fun id hid => by
      rw [h.2.1] at hid
      cases hid⟩)
    fun _ _ h => ⟨[], hstart.before h (.refl _)⟩

theorem registry_note {entry : AccountLedgerEntry} (change : OrderId × RegistryChange)
    (h : entry.stopChange = some change) : (s.appendLedgerEntry entry).registry =
      { s.registry with history := s.registry.history ++ [change] } := by
  have hsame : ({ entry with sequence := s.nextLedgerSequence } : AccountLedgerEntry).stopChange =
      some change := h
  simp [registry, appendLedgerEntry, hsame]

theorem registry_triggerStop {id : OrderId} {stop : StopOrderState} :
    (s.triggerStop symbol id stop).registry =
      ⟨s.registry.items.erase id, s.registry.unfile symbol id,
        s.registry.history ++ [(id, .released s.registry.next)], s.registry.next + 1⟩ := by
  unfold triggerStop
  rw [registry_note (id, .released s.nextOrderId) (by simp [AccountLedgerEntry.stopChange])]
  rfl

theorem triggerStop_registered {id : OrderId} {stop : StopOrderState}
    (hstop : s.stopOrdersById.lookup id = some stop) (hsymbol : stop.symbol = symbol) :
    s.Registered [(id, .released s.nextOrderId)] (s.triggerStop symbol id stop) := by
  subst hsymbol
  rw [Registered, registry_triggerStop]
  exact .single (.release hstop)

/-- Triggering stops of a symbol releases them one by one. -/
theorem triggerAll_registers (ready : List OrderId)
    (hready : ∀ id ∈ ready, ∀ stop, s.stopOrdersById.lookup id = some stop → stop.symbol = symbol) :
    Outcome (triggerAll symbol ready) s (fun r s' => ∃ changes, s.Registered changes s' ∧
        triggeredStops r.2 = Registry.releasedIn changes ∧ acceptedStops r.2 = [])
      fun _ s' => ∃ changes, s.Registered changes s' := by
  induction ready generalizing s with
  | nil => exact ⟨[], .refl _, rfl, rfl⟩
  | cons id ready ih =>
    rw [triggerAll]
    simp only [outcome_bind, outcome_get]
    cases hstop : s.stopOrdersById.lookup id with
    | none => exact ih fun id' hid' => hready id' (List.mem_cons_of_mem _ hid')
    | some stop =>
      simp only [outcome_bind, outcome_set]
      have htrigger := triggerStop_registered hstop (hready id List.mem_cons_self stop hstop)
      refine (placeChild_untouched stop s.nextOrderId).mono (fun child s₁ h₁ => ?_) fun _ s₁ h₁ => ?_
      · obtain ⟨hchild, hfree⟩ := h₁
        have hstops : s₁.stopOrdersById = s.stopOrdersById.erase id :=
          congrArg Registry.items (hchild.trans registry_triggerStop)
        have hlater : ∀ id' ∈ ready, ∀ stop', s₁.stopOrdersById.lookup id' = some stop' →
            stop'.symbol = symbol := by
          intro id' hid' stop' hstop'
          rw [hstops, Finmap.lookup_erase_ite] at hstop'
          split_ifs at hstop'
          exact hready id' (List.mem_cons_of_mem _ hid') stop' hstop'
        refine (ih hlater).mono (fun r s₂ h₂ => ?_) fun _ s₂ h₂ => ?_
        · obtain ⟨changes, hpath, htriggered, haccepted⟩ := h₂
          refine ⟨_, htrigger.before hchild hpath, ?_, ?_⟩
          · change triggeredStops ([s.triggeredEvent symbol id stop] ++ child ++ r.2) = _
            rw [triggeredStops_append, triggeredStops_append, hfree.2, htriggered,
              Registry.releasedIn_append]
            rfl
          · change acceptedStops ([s.triggeredEvent symbol id stop] ++ child ++ r.2) = _
            rw [acceptedStops_append, acceptedStops_append, hfree.1, haccepted]
            rfl
        · obtain ⟨changes, hpath⟩ := h₂
          exact ⟨_, htrigger.before hchild hpath⟩
      · exact ⟨_, htrigger.before h₁ (.of_same rfl)⟩

/-- The invariants of the stops. -/
def StopsSound (s : MatchingEngine) : Prop :=
  s.registry.Accounted ∧ s.registry.Filed StopOrderState.symbol

theorem Registered.sound {changes : List (OrderId × RegistryChange)} (h : s.Registered changes s')
    (hs : s.StopsSound) : s'.StopsSound := Registry.path_sound h hs.1 hs.2

/-- The ready stops are pending stops of the symbol. -/
theorem StopsSound.ready (hs : s.StopsSound) {current : ℤ} :
    ∀ id ∈ s.readyStops symbol current, ∃ stop, s.stopOrdersById.lookup id = some stop ∧
      stop.symbol = symbol := by
  intro id hid
  unfold readyStops at hid
  rw [(List.perm_insertionSort _ _).mem_iff, List.mem_filter] at hid
  exact (hs.2.iff symbol id).mp hid.1

theorem cascade_registers (fuel : ℕ) (hs : s.StopsSound) :
    Outcome (cascade symbol fuel) s (fun events s' => ∃ changes, s.Registered changes s' ∧
        triggeredStops events = Registry.releasedIn changes ∧ acceptedStops events = [])
      fun _ s' => ∃ changes, s.Registered changes s' := by
  induction fuel generalizing s with
  | zero => exact ⟨[], .refl _, rfl, rfl⟩
  | succ fuel ih =>
    rw [cascade]
    simp only [outcome_bind, outcome_get]
    cases s.triggerPrice symbol with
    | none => exact ⟨[], .refl _, rfl, rfl⟩
    | some current =>
      dsimp only
      split_ifs with hnone
      · exact ⟨[], .refl _, rfl, rfl⟩
      · rw [outcome_bind]
        have hready : ∀ id ∈ s.readyStops symbol current, ∀ stop,
            s.stopOrdersById.lookup id = some stop → stop.symbol = symbol := by
          intro id hid stop hstop
          obtain ⟨stop', hstop', hsymbol⟩ := hs.ready id hid
          rw [hstop] at hstop'
          cases hstop'
          exact hsymbol
        refine (triggerAll_registers _ hready).mono (fun r s₁ h₁ => ?_) fun _ _ h => h
        obtain ⟨changes, hpath, htriggered, haccepted⟩ := h₁
        split_ifs
        · rw [outcome_bind]
          refine (ih (hpath.sound hs)).mono (fun more s₂ h₂ => ?_) fun _ s₂ h₂ => ?_
          · obtain ⟨changes', hpath', htriggered', haccepted'⟩ := h₂
            refine ⟨_, hpath.trans hpath', ?_, ?_⟩
            · rw [triggeredStops_append, Registry.releasedIn_append, htriggered, htriggered']
            · rw [acceptedStops_append, haccepted, haccepted']
              rfl
          · obtain ⟨changes', hpath'⟩ := h₂
            exact ⟨_, hpath.trans hpath'⟩
        · exact ⟨changes, hpath, htriggered, haccepted⟩

theorem evaluateStopOrders_registers (hs : s.StopsSound) :
    Outcome (evaluateStopOrders symbol) s (fun events s' => ∃ changes, s.Registered changes s' ∧
        triggeredStops events = Registry.releasedIn changes ∧ acceptedStops events = [])
      fun _ s' => ∃ changes, s.Registered changes s' := by
  unfold evaluateStopOrders
  simp only [outcome_bind, outcome_get]
  split_ifs
  · exact ⟨[], .refl _, rfl, rfl⟩
  · exact cascade_registers _ hs

theorem followEntry_registers {start : MatchingEngine} (hs : start.StopsSound)
    (h : start.Registers s x) : start.Registers s (followEntry symbol x) := by
  unfold Registers followEntry
  rw [outcome_bind]
  refine h.mono (fun events s₁ h₁ => ?_) fun _ _ h => h
  obtain ⟨changes, hpath, htriggered, haccepted⟩ := h₁
  rw [outcome_bind]
  refine (evaluateStopOrders_registers (hpath.sound hs)).mono (fun more s₂ h₂ => ?_)
    fun _ s₂ h₂ => ?_
  · obtain ⟨changes', hpath', htriggered', haccepted'⟩ := h₂
    simp only [outcome_bind, outcome_modify, outcome_pure]
    refine ⟨_, hpath.trans (hpath'.before registry_trackEvents (.refl _)), ?_, ?_⟩
    · rw [triggeredStops_append, List.append_nil, Registry.releasedIn_append, htriggered, htriggered']
    · rw [acceptedStops_append, haccepted', List.append_nil, registry_trackEvents,
        Registry.path_history hpath', Registry.addedIn_append]
      exact fun id hid => List.mem_append_left _ (haccepted id hid)
  · obtain ⟨changes', hpath'⟩ := h₂
    exact ⟨_, hpath.trans hpath'⟩

/-- An operation that takes an id for its entry. -/
theorem numbered_registers {entry : OrderId → Engine (List Event)} (hs : s.StopsSound)
    (h : s.Registers s.allocated (entry s.nextOrderId)) :
    s.Registers s (do
      let id ← takeOrderId
      followEntry symbol (entry id)) := by
  unfold Registers takeOrderId
  simp only [outcome_bind, outcome_get, outcome_set, outcome_pure]
  exact followEntry_registers hs h

theorem allocated_registered : s.Registered [] s.allocated := .single (.skip _)

theorem placeStop_registers (a : AccountId) (side : Side) (stopPrice qty : ℤ)
    (limitPrice : Option ℤ) : s.Registers s.allocated
      (placeStopOrderWithAccountAndId a symbol s.nextOrderId side stopPrice qty limitPrice) := by
  have hreport : ∀ (s' : MatchingEngine) {event : Event}, s'.registry = s.allocated.registry →
      StopFree [event] → ∃ changes, s.Registered changes s' ∧
        triggeredStops [event] = Registry.releasedIn changes ∧
        ∀ id ∈ acceptedStops [event], id ∈ Registry.addedIn s'.registry.history := by
    intro s' event hsame hfree
    refine ⟨[], allocated_registered.before hsame (.refl _), hfree.2, fun id hid => ?_⟩
    rw [hfree.1] at hid
    cases hid
  unfold Registers placeStopOrderWithAccountAndId
  simp only [outcome_bind, outcome_get]
  split_ifs
  · exact hreport _ rfl ⟨rfl, rfl⟩
  · cases (s.allocated.touchAccount a symbol).validateMarketControl symbol
        (limitPrice.getD stopPrice) with
    | some failure => exact hreport _ rfl ⟨rfl, rfl⟩
    | none =>
      dsimp only
      cases (s.allocated.touchAccount a symbol).validateOrderRisk a symbol side
          (limitPrice.getD stopPrice) qty none with
      | some failure =>
        exact hreport _ (registry_appendLedgerEntry (by simp [AccountLedgerEntry.stopChange]))
          ⟨rfl, rfl⟩
      | none =>
        simp only [outcome_bind, outcome_set, outcome_pure]
        have hadd : s.Registered [(s.nextOrderId, .added)]
            ((((s.allocated.touchAccount a symbol).addStop ⟨a, symbol, side, stopPrice, qty,
              limitPrice, s.nextOrderId⟩)).appendLedgerEntry
                { accountId := a, symbol, reason := "stop_order_accepted",
                  relatedOrderId := some s.nextOrderId }) := by
          rw [Registered, registry_note (s.nextOrderId, .added)
            (by simp [AccountLedgerEntry.stopChange])]
          exact .single (.add s.registry ⟨a, symbol, side, stopPrice, qty, limitPrice, s.nextOrderId⟩)
        refine ⟨_, hadd, rfl, fun id hid => ?_⟩
        rw [Registry.path_history hadd, Registry.addedIn_append]
        exact List.mem_append_right _ hid
  · exact hreport _ rfl ⟨rfl, rfl⟩

theorem cancel_registers (a : AccountId) (id : OrderId) : s.Registers s (cancel a id) := by
  unfold Registers cancel
  simp only [outcome_bind, outcome_get]
  cases hstop : s.stopOrdersById.lookup id with
  | some stop =>
    dsimp only
    split_ifs
    · exact ⟨[], .refl _, rfl, by simp [acceptedStops, Event.acceptedStop]⟩
    · simp only [outcome_bind, outcome_set, outcome_pure]
      refine ⟨[(id, .dropped)], ?_, rfl, by simp [acceptedStops, Event.acceptedStop]⟩
      rw [Registered, registry_trackEvents, registry_note (id, .dropped)
        (by simp [AccountLedgerEntry.stopChange])]
      exact .single (.drop hstop)
  | none =>
    dsimp only
    cases s.orderOwnershipById.lookup id with
    | none => exact ⟨[], .refl _, rfl, by simp [acceptedStops, Event.acceptedStop]⟩
    | some owner =>
      dsimp only
      split_ifs
      · exact ⟨[], .refl _, rfl, by simp [acceptedStops, Event.acceptedStop]⟩
      · exact ⟨[], .refl _, rfl, by simp [acceptedStops, Event.acceptedStop]⟩
      · simp only [outcome_bind, outcome_set, outcome_pure]
        have hfree := stopFree_cancel (s.bookFor owner.symbol) id owner.symbol
        exact ⟨[], .of_same (registry_trackEvents.trans registry_cancelResting), hfree.2,
          fun id' hid' => by
            rw [hfree.1] at hid'
            cases hid'⟩

theorem replaceOrder_registers (a : AccountId) (id : OrderId) (newPrice newQty : ℤ) :
    s.Registers s (replaceOrder a id newPrice newQty) := by
  unfold Registers replaceOrder
  simp only [outcome_bind, outcome_get]
  cases s.orderOwnershipById.lookup id with
  | none => exact (untouched_report rfl rfl).registers (.refl _)
  | some owner =>
    dsimp only
    split_ifs
    · exact (untouched_report rfl rfl).registers (.refl _)
    · cases s.validateReplace owner newPrice newQty with
      | some failure => exact (untouched_report rfl rfl).registers (.refl _)
      | none =>
        dsimp only
        cases s.validateOrderRisk a owner.symbol owner.side newPrice newQty (some id) with
        | some failure =>
          simp only [outcome_bind, outcome_set]
          exact (untouched_report rfl rfl).registers (.of_same
            (registry_appendLedgerEntry (by simp [AccountLedgerEntry.stopChange])))
        | none =>
          simp only [outcome_bind, outcome_set]
          have hreleased : (s.replaceReleased a owner.symbol id).registry = s.registry :=
            registry_appendLedgerEntry (by simp [AccountLedgerEntry.stopChange])
          refine (cancel_registers a id).mono (fun events s₁ h₁ => ?_) fun _ s₁ h₁ => ?_
          · obtain ⟨changes, hpath, htriggered, haccepted⟩ := h₁
            have hpath := (Registered.of_same hreleased).before rfl hpath
            refine (placeVisible_untouched _ _ _ _ _ _ _ _).mono (fun replacement s₂ h₂ => ?_)
              fun _ s₂ h₂ => ⟨_, hpath.before h₂ (.refl _)⟩
            simp only [outcome_modify, outcome_pure]
            refine ⟨_, hpath.before (registry_trackEvents.trans h₂.1) (.refl _), ?_, ?_⟩
            · rw [triggeredStops_append, h₂.2.2, htriggered]
              simp
            · rw [acceptedStops_append, h₂.2.1, registry_trackEvents, h₂.1, List.append_nil]
              exact haccepted
          · obtain ⟨changes, hpath⟩ := h₁
            exact ⟨_, (Registered.of_same hreleased).before rfl hpath⟩

theorem replaceStop_registers {a : AccountId} {id : OrderId} {stop : StopOrderState}
    {newStopPrice newQty : ℤ} {newLimitPrice : Option ℤ} {reason : String} (hs : s.StopsSound)
    (hstop : s.stopOrdersById.lookup id = some stop)
    (hreason : ∀ entry : AccountLedgerEntry, entry.reason = reason → entry.stopChange = none) :
    s.Registers s (replaceStop a id stop newStopPrice newQty newLimitPrice reason) := by
  unfold Registers replaceStop
  simp only [outcome_bind, outcome_get]
  split_ifs
  · exact (untouched_report rfl rfl).registers (.refl _)
  · cases s.validateOrderRisk a stop.symbol stop.side (newLimitPrice.getD newStopPrice) newQty none with
    | some failure =>
      simp only [outcome_bind, outcome_set]
      exact (untouched_report rfl rfl).registers
        (.of_same (registry_appendLedgerEntry (hreason _ rfl)))
    | none =>
      simp only [outcome_bind, outcome_set]
      refine followEntry_registers hs ⟨[], ?_, rfl, fun id' hid' => ?_⟩
      · exact .single (.update hstop rfl)
      · rw [List.mem_singleton.mp hid']
        exact hs.1.mem_addedIn hstop
  · exact (untouched_report rfl rfl).registers (.refl _)

theorem replaceStopLimitOrder_registers (hs : s.StopsSound) (a : AccountId) (id : OrderId)
    (newStopPrice newLimitPrice newQty : ℤ) :
    s.Registers s (replaceStopLimitOrder a id newStopPrice newLimitPrice newQty) := by
  unfold Registers replaceStopLimitOrder
  simp only [outcome_bind, outcome_get]
  cases hstop : s.stopOrdersById.lookup id with
  | none => exact (untouched_report rfl rfl).registers (.refl _)
  | some stop =>
    dsimp only
    split_ifs
    · exact (untouched_report rfl rfl).registers (.refl _)
    · exact replaceStop_registers hs hstop fun _ h => by simp [AccountLedgerEntry.stopChange, h]

theorem replaceStopOrder_registers (hs : s.StopsSound) (a : AccountId) (id : OrderId)
    (newStopPrice newQty : ℤ) :
    s.Registers s (replaceStopOrder a id newStopPrice newQty) := by
  unfold Registers replaceStopOrder
  simp only [outcome_bind, outcome_get]
  cases hstop : s.stopOrdersById.lookup id with
  | none => exact (untouched_report rfl rfl).registers (.refl _)
  | some stop =>
    dsimp only
    split_ifs
    · exact (untouched_report rfl rfl).registers (.refl _)
    · cases stop.limitPrice with
      | some limit => exact replaceStopLimitOrder_registers hs a id newStopPrice limit newQty
      | none =>
        exact replaceStop_registers hs hstop fun _ h => by simp [AccountLedgerEntry.stopChange, h]

theorem settleAuctionTrade_untouched (bidId askId : OrderId) (price qty : ℤ) :
    s.Untouched (settleAuctionTrade symbol bidId askId price qty) := by
  unfold Untouched settleAuctionTrade
  simp only [outcome_bind, outcome_get, outcome_set]
  have hsettled : (((s.settleAuction symbol bidId askId price qty).reduceOwner bidId qty).reduceOwner
      askId qty).registry = s.registry := by
    rw [read_reduceOwner registry fun _ _ => rfl, read_reduceOwner registry fun _ _ => rfl,
      registry_settleAuction]
  refine (assertInvariants_registry _ _).mono (fun _ s₁ h₁ => ?_) fun _ s₁ h₁ => ?_
  · rw [outcome_pure, h₁]
    exact ⟨hsettled, rfl, rfl⟩
  · rw [h₁, hsettled]

theorem auctionLoop_untouched (price : ℤ) (fuel : ℕ) (remaining : ℤ) :
    Outcome (auctionLoop symbol price fuel remaining) s
      (fun r s' => s'.registry = s.registry ∧ StopFree r.2) fun _ s' => s'.registry = s.registry := by
  induction fuel generalizing s remaining with
  | zero => exact ⟨rfl, rfl, rfl⟩
  | succ fuel ih =>
    rw [auctionLoop]
    simp only [outcome_bind, outcome_get]
    cases nextAuctionQty (s.bookFor symbol) price remaining with
    | none => exact ⟨rfl, rfl, rfl⟩
    | some traded =>
      dsimp only
      obtain ⟨bid, book⟩ := auctionFill (s.bookFor symbol) .bid price traded
      dsimp only
      obtain ⟨ask, book'⟩ := auctionFill book .ask price traded
      simp only [outcome_bind, outcome_set]
      have hset : (s.setBook symbol book').registry = s.registry := rfl
      cases bid with
      | none => exact ⟨hset, rfl, rfl⟩
      | some bid =>
        cases ask with
        | none => exact ⟨hset, rfl, rfl⟩
        | some ask =>
          simp only [outcome_bind]
          refine (settleAuctionTrade_untouched _ _ _ _).mono (fun trade s₁ h₁ => ?_)
            fun _ s₁ h₁ => h₁.trans hset
          refine (ih _).mono (fun r s₂ h₂ => ?_) fun _ s₂ h₂ => (h₂.trans h₁.1).trans hset
          exact ⟨(h₂.1.trans h₁.1).trans hset, stopFree_append.mpr ⟨h₁.2, h₂.2⟩⟩

theorem uncross_untouched : s.Untouched (uncross symbol) := by
  unfold Untouched uncross
  simp only [outcome_bind, outcome_get]
  cases (s.computeAuctionIndicative symbol).price with
  | none => exact ⟨rfl, rfl, rfl⟩
  | some price =>
    dsimp only
    split_ifs
    · exact ⟨rfl, rfl, rfl⟩
    · rw [outcome_bind]
      refine (auctionLoop_untouched _ _ _).mono (fun r s₁ h₁ => ?_) fun _ s₁ h₁ => h₁
      obtain ⟨remaining, trades⟩ := r
      have hended : s₁.Untouched (endAuction symbol) := by
        unfold Untouched endAuction
        simp only [outcome_bind, outcome_get]
        split_ifs
        · exact ⟨rfl, rfl, rfl⟩
        · exact ⟨rfl, rfl, rfl⟩
      simp only [outcome_bind, outcome_get]
      refine hended.mono (fun ended s₂ h₂ => ?_) fun _ s₂ h₂ => h₂.trans h₁.1
      simp only [outcome_modify, outcome_pure]
      refine ⟨registry_trackEvents.trans (h₂.1.trans h₁.1), ?_⟩
      have htrades : StopFree (.auctionUncross symbol price
          ((s.computeAuctionIndicative symbol).qty - remaining)
          (s₁.computeAuctionIndicative symbol).imbalance :: trades) := h₁.2
      exact stopFree_append.mpr ⟨stopFree_append.mpr ⟨htrades, stopFree_topOfBook _ _ _ _⟩, h₂.2⟩
    · exact ⟨rfl, rfl, rfl⟩

end Operations

end MatchingEngine

theorem Op.exec_registers {s : MatchingEngine} (op : Op) (hs : s.StopsSound) :
    s.Registers s op.exec := by
  by_cases hsetting : op.isSetting
  · have hread : ∀ s : MatchingEngine, s.registry = s.unset.registry := fun _ => rfl
    refine Untouched.registers ?_ (.refl _)
    refine (Op.exec_setting hsetting s).with_eq.mono (fun events s' h => ?_) fun _ s' h => ?_
    · obtain ⟨hexec, hsame, -⟩ := h
      have hcontrols := (Op.exec_controls hsetting s).returns hexec
      refine ⟨by rw [hread, hsame, ← hread], stopFree_iff.mpr fun e he => ?_⟩
      obtain ⟨hcontrol, -⟩ := hcontrols e he
      cases e <;> first | exact ⟨rfl, rfl⟩ | exact hcontrol.elim
    · rw [h.2.1]
  cases op with
  | placeLimitOrder a symbol side price qty tif =>
    exact numbered_registers hs ((placeVisible_untouched _ _ _ _ _ _ _ _).registers allocated_registered)
  | placeHiddenOrder a symbol side price qty =>
    exact numbered_registers hs ((placeVisible_untouched _ _ _ _ _ _ _ _).registers allocated_registered)
  | placeIcebergOrder a symbol side price totalQty displayQty =>
    exact numbered_registers hs ((placeVisible_untouched _ _ _ _ _ _ _ _).registers allocated_registered)
  | placeMarketOrder a symbol side qty =>
    exact numbered_registers hs ((placeMarket_untouched _ _ _ _).registers allocated_registered)
  | placeStopOrder a symbol side stopPrice qty =>
    exact numbered_registers hs (placeStop_registers _ _ _ _ _)
  | placeStopLimitOrder a symbol side stopPrice limitPrice qty =>
    exact numbered_registers hs (placeStop_registers _ _ _ _ _)
  | cancel a id => exact cancel_registers a id
  | replaceOrder a id newPrice newQty => exact replaceOrder_registers a id newPrice newQty
  | replaceStopOrder a id newStopPrice newQty =>
    exact replaceStopOrder_registers hs a id newStopPrice newQty
  | replaceStopLimitOrder a id newStopPrice newLimitPrice newQty =>
    exact replaceStopLimitOrder_registers hs a id newStopPrice newLimitPrice newQty
  | uncross symbol => exact uncross_untouched.registers (.refl _)
  | setAccountState a symbol cash qty =>
    exact Untouched.registers ⟨rfl, rfl, rfl⟩ (.refl _)
  | _ => exact absurd trivial hsetting

end Tes
