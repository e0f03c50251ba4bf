import Tes.Engine.Runs

/-! Sequence numbers: nothing moves them but the tracking of events, and an operation tracks
just the events it returns. -/
namespace Tes
open MatchingEngine EStateM

namespace MatchingEngine

/-- The sequence numbers after an event. -/
def bump (m : Finmap fun _ : Symbol => ℕ) (event : Event) : Finmap fun _ : Symbol => ℕ :=
  match sequencedSymbol event with
  | some symbol => m.insert symbol (m.valueD symbol 0 + 1)
  | none => m

/-- The sequence numbers after some events. -/
def advance (m : Finmap fun _ : Symbol => ℕ) (events : List Event) : Finmap fun _ : Symbol => ℕ :=
  events.foldl bump m

theorem sequences_bumpSequenceNumber (s : MatchingEngine) (event : Event) :
    (s.bumpSequenceNumber event).sequenceNumbersBySymbol = bump s.sequenceNumbersBySymbol event := by
  unfold bumpSequenceNumber bump
  cases sequencedSymbol event <;> rfl

theorem sequences_trackEvents (s : MatchingEngine) (events : List Event) :
    (s.trackEvents events).sequenceNumbersBySymbol = advance s.sequenceNumbersBySymbol events := by
  unfold trackEvents advance
  induction events generalizing s with
  | nil => rfl
  | cons event rest ih =>
    rw [List.foldl_cons, List.foldl_cons, ih, sequences_bumpSequenceNumber]

theorem advance_append (m : Finmap fun _ : Symbol => ℕ) (events more : List Event) :
    advance m (events ++ more) = advance (advance m events) more := List.foldl_append

theorem advance_of_not {m : Finmap fun _ : Symbol => ℕ} {events : List Event}
    (h : ∀ e ∈ events, sequencedSymbol e = none) : advance m events = m := by
  unfold advance
  induction events with
  | nil => rfl
  | cons event rest ih =>
    have hevent : bump m event = m := by
      unfold bump
      rw [h event List.mem_cons_self]
    rw [List.foldl_cons, hevent]
    exact ih fun e he => h e (List.mem_cons_of_mem _ he)

theorem valueD_bump (m : Finmap fun _ : Symbol => ℕ) (event : Event) (symbol : Symbol) :
    (bump m event).valueD symbol 0 =
      m.valueD symbol 0 + if sequencedSymbol event = some symbol then 1 else 0 := by
  unfold bump
  cases hevent : sequencedSymbol event with
  | none => simp
  | some other =>
    dsimp only
    rw [Finmap.valueD_insert]
    by_cases heq : symbol = other
    · rw [if_pos heq, if_pos (by rw [heq]), heq]
    · rw [if_neg heq, if_neg fun h => heq (Option.some.inj h).symm, add_zero]

/-- Each event of the symbol that counts adds one. -/
theorem valueD_advance (m : Finmap fun _ : Symbol => ℕ) (events : List Event) (symbol : Symbol) :
    (advance m events).valueD symbol 0 =
      m.valueD symbol 0 + events.countP fun e => sequencedSymbol e = some symbol := by
  unfold advance
  induction events generalizing m with
  | nil => rfl
  | cons event rest ih =>
    rw [List.foldl_cons, ih, valueD_bump, List.countP_cons]
    simp only [decide_eq_true_eq]
    omega

/-! What does not track leaves the numbers as they are. -/

@[simp] theorem sequences_setMark (s : MatchingEngine) (symbol : Symbol) (price : ℤ) :
    (s.setMark symbol price).sequenceNumbersBySymbol = s.sequenceNumbersBySymbol := rfl

@[simp] theorem sequences_appendLedgerEntry (s : MatchingEngine) (entry : AccountLedgerEntry) :
    (s.appendLedgerEntry entry).sequenceNumbersBySymbol = s.sequenceNumbersBySymbol := rfl

@[simp] theorem sequences_journalFee (s : MatchingEngine) (a : AccountId) (symbol : Symbol) (fee : ℤ)
    (id other : OrderId) :
    (s.journalFee a symbol fee id other).sequenceNumbersBySymbol = s.sequenceNumbersBySymbol := by
  unfold journalFee
  split <;> rfl

@[simp] theorem sequences_journalFill (s : MatchingEngine) (t : Taker) (fill : FillResult)
    (maker : AccountId) :
    (s.journalFill t fill maker).sequenceNumbersBySymbol = s.sequenceNumbersBySymbol := by
  simp [journalFill]

@[simp] theorem sequences_settleFill (s : MatchingEngine) (t : Taker) (fill : FillResult)
    (book : OrderBook) :
    (s.settleFill t fill book).sequenceNumbersBySymbol = s.sequenceNumbersBySymbol :=
  (sequences_of_unfunded (unfunded_settleFill s t fill book)).trans rfl

@[simp] theorem sequences_updateOwner (s : MatchingEngine) (fill : FillResult) :
    (s.updateOwner fill).sequenceNumbersBySymbol = s.sequenceNumbersBySymbol :=
  read_updateOwner MatchingEngine.sequenceNumbersBySymbol (fun _ _ => rfl) s fill

@[simp] theorem sequences_reduceOwner (s : MatchingEngine) (id : OrderId) (qty : ℤ) :
    (s.reduceOwner id qty).sequenceNumbersBySymbol = s.sequenceNumbersBySymbol :=
  read_reduceOwner MatchingEngine.sequenceNumbersBySymbol (fun _ _ => rfl) s id qty

@[simp] theorem sequences_restOrder (s : MatchingEngine) (a : AccountId) (symbol : Symbol)
    (id : OrderId) (side : Side) (price qty : ℤ) (visibility : OrderVisibility) (displayQty : ℤ) :
    (s.restOrder a symbol id side price qty visibility displayQty).sequenceNumbersBySymbol =
      s.sequenceNumbersBySymbol := by
  unfold restOrder
  cases side with
  | bid => rfl
  | ask =>
    unfold reserveSell reserveShort reserveLong
    dsimp only
    split_ifs <;> rfl

@[simp] theorem sequences_settleAuction (s : MatchingEngine) (symbol : Symbol)
    (bidId askId : OrderId) (price qty : ℤ) :
    (s.settleAuction symbol bidId askId price qty).sequenceNumbersBySymbol =
      s.sequenceNumbersBySymbol := by
  have hreleased := sequences_of_unfunded (unfunded_auctionReleased s symbol bidId askId price qty)
  unfold settleAuction
  simp only [sequences_journalFee, sequences_appendLedgerEntry]
  exact hreleased

@[simp] theorem sequences_cancelResting (s : MatchingEngine) (a : AccountId) (symbol : Symbol)
    (id : OrderId) :
    (s.cancelResting a symbol id).sequenceNumbersBySymbol = s.sequenceNumbersBySymbol := by
  have hcash : ∀ s : MatchingEngine, (s.cancelCash a symbol id).sequenceNumbersBySymbol =
      s.sequenceNumbersBySymbol := fun s => by
    unfold cancelCash
    split <;> rfl
  have hqty : ∀ s : MatchingEngine, (s.cancelQty a symbol id).sequenceNumbersBySymbol =
      s.sequenceNumbersBySymbol := fun s => by
    unfold cancelQty
    split <;> rfl
  have hshort : ∀ s : MatchingEngine, (s.cancelShortMargin a symbol id).sequenceNumbersBySymbol =
      s.sequenceNumbersBySymbol := fun s => by
    unfold cancelShortMargin
    split <;> rfl
  unfold cancelResting releaseAll
  dsimp only
  rw [hshort, hqty, hcash]
  rfl

/-- The computation leaves the sequence numbers alone. -/
def Unsequenced {α : Type} (x : Engine α) (s : MatchingEngine) : Prop :=
  Outcome x s (fun _ s' => s'.sequenceNumbersBySymbol = s.sequenceNumbersBySymbol)
    fun _ s' => s'.sequenceNumbersBySymbol = s.sequenceNumbersBySymbol

/-- One that goes on from a state with the same numbers. -/
theorem Unsequenced.from {α : Type} {x : Engine α} {s s' : MatchingEngine} (h : Unsequenced x s')
    (hs : s'.sequenceNumbersBySymbol = s.sequenceNumbersBySymbol) :
    Outcome x s' (fun _ s'' => s''.sequenceNumbersBySymbol = s.sequenceNumbersBySymbol)
      fun _ s'' => s''.sequenceNumbersBySymbol = s.sequenceNumbersBySymbol :=
  h.mono (fun _ _ h => h.trans hs) fun _ _ h => h.trans hs

theorem Unsequenced.bind {α β : Type} {x : Engine α} {f : α → Engine β} {s : MatchingEngine}
    (hx : Unsequenced x s) (hf : ∀ a s', s'.sequenceNumbersBySymbol = s.sequenceNumbersBySymbol →
      Unsequenced (f a) s') : Unsequenced (x >>= f) s :=
  outcome_bind.mpr (hx.mono (fun a s' h => (hf a s' h).from h) fun _ _ h => h)

theorem unsequenced_assert (s : MatchingEngine) (symbol : Symbol) (a b : AccountId) :
    Unsequenced (assertInvariants symbol a b) s := by
  unfold Unsequenced assertInvariants
  simp only [outcome_bind, outcome_get]
  split
  · split_ifs <;> rfl
  · rfl

theorem unsequenced_matchLoop (fuel : ℕ) (s : MatchingEngine) (t : Taker) :
    Unsequenced (matchLoop fuel t) s := by
  induction fuel generalizing s t with
  | zero => rfl
  | succ fuel ih =>
    unfold Unsequenced
    rw [matchLoop]
    simp only [outcome_bind, outcome_get]
    cases s.nextFill t with
    | none => rfl
    | some next =>
      obtain ⟨fill, book⟩ := next
      dsimp only
      split_ifs
      · simp only [outcome_bind, outcome_set]
        refine ((unsequenced_assert _ _ _ _).from (by simp)).mono (fun _ s₁ h => ?_) fun _ _ h => h
        simp only [outcome_modify]
        exact ((ih _ _).from (by simpa using h)).mono (fun _ _ h => h) fun _ _ h => h
      · simp only [outcome_bind, outcome_set, outcome_pure]
        exact sequences_settleFill _ _ _ _

theorem unsequenced_restVisibleOrder (s : MatchingEngine) (a : AccountId) (symbol : Symbol)
    (id : OrderId) (side : Side) (price qty : ℤ) (visibility : OrderVisibility) (displayQty : ℤ) :
    Unsequenced (restVisibleOrder a symbol id side price qty visibility displayQty) s := by
  unfold Unsequenced restVisibleOrder
  simp only [outcome_bind, outcome_get, outcome_set]
  split_ifs <;> simp

theorem unsequenced_finishEntry (s : MatchingEngine) (t : Taker) :
    Unsequenced (finishEntry t) s := by
  unfold Unsequenced finishEntry
  split_ifs
  · simp only [outcome_bind, outcome_modify, outcome_pure]
    rfl
  · simp only [outcome_bind, outcome_get, outcome_set, outcome_pure]
    exact sequences_restOrder _ _ _ _ _ _ _ _ _
  · rfl

theorem unsequenced_placeVisible (s : MatchingEngine) (a : AccountId) (symbol : Symbol)
    (id : OrderId) (side : Side) (price qty : ℤ) (tif : TimeInForce) (visibility : OrderVisibility)
    (displayQty : ℤ) : Unsequenced (placeVisibleOrderWithAccountAndId a symbol id side price qty tif
      visibility displayQty) s := by
  unfold Unsequenced placeVisibleOrderWithAccountAndId
  simp only [outcome_bind, outcome_get]
  split
  · rfl
  split
  · simp only [outcome_bind, outcome_set, outcome_pure]
    rfl
  simp only [outcome_bind, outcome_set]
  have htouch : (s.touchAccount a symbol).sequenceNumbersBySymbol = s.sequenceNumbersBySymbol := rfl
  split_ifs
  · exact (unsequenced_restVisibleOrder _ _ _ _ _ _ _ _ _).from htouch
  · exact htouch
  · rw [outcome_bind]
    refine ((unsequenced_matchLoop _ _ _).from htouch).mono (fun r s₁ h => ?_) fun _ _ h => h
    obtain ⟨taker, events⟩ := r
    simp only [outcome_bind]
    exact ((unsequenced_finishEntry _ _).from h).mono (fun _ _ h => h) fun _ _ h => h

theorem unsequenced_placeMarket (s : MatchingEngine) (a : AccountId) (symbol : Symbol)
    (id : OrderId) (side : Side) (qty : ℤ) :
    Unsequenced (placeMarketOrderWithAccountAndId a symbol id side qty) s := by
  unfold Unsequenced placeMarketOrderWithAccountAndId
  simp only [outcome_bind, outcome_get]
  cases side <;>
  · dsimp only
    split
    · rfl
    split
    · rfl
    split
    · rfl
    split
    · rfl
    exact unsequenced_placeVisible _ _ _ _ _ _ _ _ _ _

theorem unsequenced_placeStop (s : MatchingEngine) (a : AccountId) (symbol : Symbol)
    (id : OrderId) (side : Side) (stopPrice qty : ℤ) (limitPrice : Option ℤ) :
    Unsequenced (placeStopOrderWithAccountAndId a symbol id side stopPrice qty limitPrice) s := by
  unfold Unsequenced placeStopOrderWithAccountAndId
  simp only [outcome_bind, outcome_get]
  split
  · rfl
  split
  · rfl
  split
  · simp only [outcome_bind, outcome_set, outcome_pure]
    rfl
  split
  · simp only [outcome_bind, outcome_set, outcome_pure]
    rfl
  · simp only [outcome_bind, outcome_set, outcome_pure]
    rfl

theorem unsequenced_placeChild (s : MatchingEngine) (stop : StopOrderState) (symbol : Symbol)
    (id : OrderId) : Unsequenced (placeChild stop symbol id) s := by
  unfold placeChild
  split
  · exact unsequenced_placeVisible _ _ _ _ _ _ _ _ _ _
  · exact unsequenced_placeMarket _ _ _ _ _ _

theorem unsequenced_triggerAll (s : MatchingEngine) (symbol : Symbol) (ready : List OrderId) :
    Unsequenced (triggerAll symbol ready) s := by
  induction ready generalizing s with
  | nil => rfl
  | cons id ready ih =>
    unfold Unsequenced
    rw [triggerAll]
    simp only [outcome_bind, outcome_get]
    cases s.stopOrdersById.lookup id with
    | none => exact ih s
    | some stop =>
      simp only [outcome_bind, outcome_set]
      have htrigger : (s.triggerStop symbol id stop).sequenceNumbersBySymbol =
          s.sequenceNumbersBySymbol := rfl
      refine ((unsequenced_placeChild _ _ _ _).from htrigger).mono (fun _ s₁ h => ?_) fun _ _ h => h
      exact ((ih s₁).from h).mono (fun _ _ h => h) fun _ _ h => h

theorem unsequenced_cascade (fuel : ℕ) (s : MatchingEngine) (symbol : Symbol) :
    Unsequenced (cascade symbol fuel) s := by
  induction fuel generalizing s with
  | zero => rfl
  | succ fuel ih =>
    unfold Unsequenced
    rw [cascade]
    simp only [outcome_bind, outcome_get]
    split
    · rfl
    split_ifs
    · rfl
    · rw [outcome_bind]
      refine (unsequenced_triggerAll _ _ _).mono (fun r s₁ h => ?_) fun _ _ h => h
      obtain ⟨traded, events⟩ := r
      cases traded with
      | false => exact h
      | true =>
        simp only [if_true, outcome_bind]
        exact ((ih s₁).from h).mono (fun _ _ h => h) fun _ _ h => h

theorem unsequenced_evaluate (s : MatchingEngine) (symbol : Symbol) :
    Unsequenced (evaluateStopOrders symbol) s := by
  unfold Unsequenced evaluateStopOrders
  simp only [outcome_bind, outcome_get]
  split_ifs
  · rfl
  · exact unsequenced_cascade _ _ _

theorem unsequenced_auctionLoop (fuel : ℕ) (s : MatchingEngine) (symbol : Symbol)
    (price remaining : ℤ) : Unsequenced (auctionLoop symbol price fuel remaining) s := by
  induction fuel generalizing s remaining with
  | zero => rfl
  | succ fuel ih =>
    unfold Unsequenced
    rw [auctionLoop]
    simp only [outcome_bind, outcome_get]
    split
    · rfl
    simp only [outcome_bind, outcome_set]
    split
    · simp only [settleAuctionTrade, outcome_bind, outcome_get, outcome_set]
      refine ((unsequenced_assert _ _ _ _).from (by simp; rfl)).mono (fun _ s₁ h => ?_) fun _ _ h => h
      simp only [outcome_pure]
      exact ((ih s₁ _).from h).mono (fun _ _ h => h) fun _ _ h => h
    · rfl

/-- Where it returns, the sequence numbers have advanced by just the events it returns. -/
def Sequenced (x : Engine (List Event)) (s : MatchingEngine) : Prop :=
  Outcome x s (fun events s' => s'.sequenceNumbersBySymbol = advance s.sequenceNumbersBySymbol events)
    fun _ s' => ∃ events, s'.sequenceNumbersBySymbol = advance s.sequenceNumbersBySymbol events

/-- A report that does not count. -/
theorem advance_report {s s' : MatchingEngine} {event : Event} (h : sequencedSymbol event = none)
    (hs : s'.sequenceNumbersBySymbol = s.sequenceNumbersBySymbol) :
    s'.sequenceNumbersBySymbol = advance s.sequenceNumbersBySymbol [event] := by
  rw [hs, advance_of_not fun e he => by rw [List.mem_singleton.mp he, h]]

theorem sequenced_followEntry {s₀ s : MatchingEngine} {symbol : Symbol} {entry : Engine (List Event)}
    (hs : s.sequenceNumbersBySymbol = s₀.sequenceNumbersBySymbol) (hentry : Unsequenced entry s) :
    Outcome (followEntry symbol entry) s
      (fun events s' => s'.sequenceNumbersBySymbol = advance s₀.sequenceNumbersBySymbol events)
      fun _ s' => ∃ events, s'.sequenceNumbersBySymbol = advance s₀.sequenceNumbersBySymbol events := by
  unfold followEntry
  rw [outcome_bind]
  refine (hentry.from hs).mono (fun events s₁ h => ?_) fun _ s' h => ⟨[], h⟩
  rw [outcome_bind]
  refine ((unsequenced_evaluate s₁ symbol).from h).mono (fun triggered s₂ h => ?_)
    fun _ s' h => ⟨[], h⟩
  simp only [outcome_bind, outcome_modify, outcome_pure]
  rw [sequences_trackEvents, h]

theorem sequenced_numbered {s : MatchingEngine} {symbol : Symbol}
    {entry : OrderId → Engine (List Event)} (hentry : ∀ id s, Unsequenced (entry id) s) :
    Sequenced (do
      let id ← takeOrderId
      followEntry symbol (entry id)) s := by
  unfold Sequenced takeOrderId
  simp only [outcome_bind, outcome_get, outcome_set, outcome_pure]
  exact sequenced_followEntry rfl (hentry _ _)

theorem sequenced_cancel (s : MatchingEngine) (a : AccountId) (id : OrderId) :
    Sequenced (cancel a id) s := by
  unfold Sequenced cancel
  simp only [outcome_bind, outcome_get]
  split
  · split_ifs
    · exact advance_report rfl rfl
    · simp only [outcome_bind, outcome_set, outcome_pure]
      exact sequences_trackEvents _ _
  split
  · exact advance_report rfl rfl
  split_ifs
  · exact advance_report rfl rfl
  · exact advance_report rfl rfl
  · simp only [outcome_bind, outcome_set, outcome_pure]
    rw [sequences_trackEvents, sequences_cancelResting]

theorem sequenced_replaceOrder (s : MatchingEngine) (a : AccountId) (id : OrderId)
    (newPrice newQty : ℤ) : Sequenced (replaceOrder a id newPrice newQty) s := by
  unfold Sequenced replaceOrder
  simp only [outcome_bind, outcome_get]
  split
  · exact advance_report rfl rfl
  split_ifs
  · exact advance_report rfl rfl
  split
  · exact advance_report rfl rfl
  split
  · simp only [outcome_bind, outcome_set, outcome_pure]
    exact advance_report rfl rfl
  · simp only [outcome_bind, outcome_set]
    refine (sequenced_cancel _ a id).mono (fun events s₁ hcancel => ?_) fun _ _ h => h
    refine (unsequenced_placeVisible s₁ _ _ _ _ _ _ _ _ _).mono (fun replacement s₂ hplace => ?_)
      fun _ _ h => ⟨events, h.trans hcancel⟩
    simp only [outcome_modify, outcome_pure]
    rw [sequences_trackEvents, hplace, hcancel, advance_append]
    rfl

theorem sequenced_replaceStop (s : MatchingEngine) (a : AccountId) (id : OrderId)
    (stop : StopOrderState) (newStopPrice newQty : ℤ) (newLimitPrice : Option ℤ) (reason : String) :
    Sequenced (replaceStop a id stop newStopPrice newQty newLimitPrice reason) s := by
  unfold Sequenced replaceStop
  simp only [outcome_bind, outcome_get]
  split
  · exact advance_report rfl rfl
  split
  · exact advance_report rfl rfl
  split
  · simp only [outcome_bind, outcome_set, outcome_pure]
    exact advance_report rfl rfl
  · simp only [outcome_bind, outcome_set]
    exact sequenced_followEntry rfl rfl

theorem sequenced_replaceStopLimit (s : MatchingEngine) (a : AccountId) (id : OrderId)
    (newStopPrice newLimitPrice newQty : ℤ) :
    Sequenced (replaceStopLimitOrder a id newStopPrice newLimitPrice newQty) s := by
  unfold Sequenced replaceStopLimitOrder
  simp only [outcome_bind, outcome_get]
  split
  · exact advance_report rfl rfl
  split_ifs
  · exact advance_report rfl rfl
  · exact sequenced_replaceStop _ _ _ _ _ _ _ _

theorem sequenced_replaceStopOrder (s : MatchingEngine) (a : AccountId) (id : OrderId)
    (newStopPrice newQty : ℤ) : Sequenced (replaceStopOrder a id newStopPrice newQty) s := by
  unfold Sequenced replaceStopOrder
  simp only [outcome_bind, outcome_get]
  split
  · exact advance_report rfl rfl
  split_ifs
  · exact advance_report rfl rfl
  split
  · exact sequenced_replaceStopLimit _ _ _ _ _ _
  · exact sequenced_replaceStop _ _ _ _ _ _ _ _

theorem sequenced_uncross (s : MatchingEngine) (symbol : Symbol) :
    Sequenced (uncross symbol) s := by
  unfold Sequenced uncross
  simp only [outcome_bind, outcome_get]
  split
  · exact advance_report rfl rfl
  split
  · exact advance_report rfl rfl
  split
  · simp only [outcome_bind, outcome_set, outcome_pure]
    rw [advance_of_not (by simp [circuitBreakerEvents, sequencedSymbol])]
    rfl
  · rw [outcome_bind]
    refine (unsequenced_auctionLoop _ _ _ _ _).mono (fun r s₁ h => ?_) fun _ s' h => ⟨[], h⟩
    obtain ⟨remaining, trades⟩ := r
    simp only [outcome_bind, outcome_get, endAuction]
    split_ifs
    · simp only [outcome_bind, outcome_set, outcome_pure, outcome_modify]
      rw [sequences_trackEvents, h]
    · simp only [outcome_pure, outcome_modify]
      rw [sequences_trackEvents, h]

theorem sequenced_setting {op : Op} (h : op.isSetting) (s : MatchingEngine) :
    Sequenced op.exec s := by
  have hquiet := Op.exec_setting h s
  have hevents := Op.exec_controls h s
  unfold Sequenced Outcome at *
  cases hexec : op.exec s with
  | ok events s' =>
    rw [hexec] at hquiet hevents
    have hsame : _ = s.unset.sequenceNumbersBySymbol :=
      congrArg MatchingEngine.sequenceNumbersBySymbol hquiet.1
    refine hsame.trans (advance_of_not fun e he => ?_).symm
    have hcontrol := (hevents e he).1
    cases e <;> first | rfl | exact hcontrol.elim
  | error e s' =>
    rw [hexec] at hquiet
    exact ⟨[], by rw [hquiet.1]; rfl⟩

end MatchingEngine

theorem Op.exec_sequenced (op : Op) (s : MatchingEngine) : Sequenced op.exec s := by
  cases op with
  | placeLimitOrder a symbol side price qty tif =>
    exact sequenced_numbered fun id s => unsequenced_placeVisible s a symbol id side price qty tif _ _
  | placeHiddenOrder a symbol side price qty =>
    exact sequenced_numbered fun id s => unsequenced_placeVisible s a symbol id side price qty _ _ _
  | placeIcebergOrder a symbol side price totalQty displayQty =>
    exact sequenced_numbered fun id s =>
      unsequenced_placeVisible s a symbol id side price totalQty _ _ displayQty
  | placeMarketOrder a symbol side qty =>
    exact sequenced_numbered fun id s => unsequenced_placeMarket s a symbol id side qty
  | placeStopOrder a symbol side stopPrice qty =>
    exact sequenced_numbered fun id s => unsequenced_placeStop s a symbol id side stopPrice qty none
  | placeStopLimitOrder a symbol side stopPrice limitPrice qty =>
    exact sequenced_numbered fun id s =>
      unsequenced_placeStop s a symbol id side stopPrice qty (some limitPrice)
  | cancel a id => exact sequenced_cancel s a id
  | replaceOrder a id newPrice newQty => exact sequenced_replaceOrder s a id newPrice newQty
  | replaceStopOrder a id newStopPrice newQty =>
    exact sequenced_replaceStopOrder s a id newStopPrice newQty
  | replaceStopLimitOrder a id newStopPrice newLimitPrice newQty =>
    exact sequenced_replaceStopLimit s a id newStopPrice newLimitPrice newQty
  | uncross symbol => exact sequenced_uncross s symbol
  | setAccountState a symbol cash qty => exact rfl
  | _ => refine sequenced_setting ?_ s; trivial

end Tes
