import Tes.Engine.StopRegistry
import Tes.Market.Halts
import Tes.Market.Immediate

/-! The order ids that operations take and that their events name: an order that a stop becomes
takes an id that no event before it names. -/
namespace Tes
open OrderBook MatchingEngine Transition EStateM

/-- The order ids that an event is about. The id of a rejected cancel is the caller's. -/
def Event.orderIds : Event → List OrderId
  | .orderAccepted id .. | .hiddenOrderAccepted id .. | .icebergOrderAccepted id ..
  | .orderCanceled id _ | .orderPartiallyFilled id .. | .orderFilled id .. | .orderExpired id _
  | .stopOrderAccepted id .. => [id]
  | .icebergReplenished clip => [clip.id]
  | .tradeExecuted takerId makerId .. => [takerId, makerId]
  | .stopOrderTriggered id resultingOrderId .. => [id, resultingOrderId]
  | _ => []

/-- All order ids of some events are below a bound. -/
def IdsBelow (bound : OrderId) (events : List Event) : Prop :=
  ∀ e ∈ events, ∀ id ∈ e.orderIds, id < bound

/-- No order id of the first event is that of an order that the second one makes, or a later one. -/
def Before (e e' : Event) : Prop := ∀ p, e'.triggeredStop = some p → ∀ id ∈ e.orderIds, id < p.2

section Ids
variable {bound bound' : OrderId} {events more : List Event} {s s' : MatchingEngine} {symbol : Symbol}

theorem idsBelow_append :
    IdsBelow bound (events ++ more) ↔ IdsBelow bound events ∧ IdsBelow bound more :=
  List.forall_mem_append

theorem idsBelow_cons {e : Event} :
    IdsBelow bound (e :: events) ↔ (∀ id ∈ e.orderIds, id < bound) ∧ IdsBelow bound events :=
  List.forall_mem_cons

theorem IdsBelow.mono (h : IdsBelow bound events) (hle : bound ≤ bound') : IdsBelow bound' events :=
  fun e he id hid => (h e he id hid).trans_le hle

theorem idsBelow_of_no_ids (h : ∀ e ∈ events, e.orderIds = []) : IdsBelow bound events := by
  intro e he id hid
  rw [h e he] at hid
  cases hid

theorem idsBelow_topOfBook (book : OrderBook) (symbol : Symbol) (bid ask : Option ℤ) :
    IdsBelow bound (book.maybeEmitTopOfBookChange symbol bid ask) := by
  unfold OrderBook.maybeEmitTopOfBookChange
  split_ifs
  · exact idsBelow_of_no_ids (by simp [Event.orderIds])
  · exact idsBelow_of_no_ids (by simp)

theorem idsBelow_map {f : Event → Event} (h : IdsBelow bound events)
    (hf : ∀ e, (f e).orderIds = e.orderIds) : IdsBelow bound (events.map f) := by
  intro e he
  obtain ⟨event, hevent, rfl⟩ := List.mem_map.mp he
  rw [hf]
  exact h event hevent

theorem idsBelow_restedEvents {t : Taker} (hid : t.id < bound) : IdsBelow bound (t.restedEvents s) := by
  have hadd : ∀ (book : OrderBook) (order : Order) (visibility : OrderVisibility), order.id < bound →
      IdsBelow bound (book.addOrder order visibility).1 := by
    intro book order visibility hlt
    unfold addOrder
    split_ifs
    · exact idsBelow_of_no_ids (by simp)
    · have haccepted : IdsBelow bound [acceptedEvent (arrange order visibility)] := by
        intro e he id hid
        rw [List.mem_singleton.mp he, acceptedEvent] at hid
        split at hid <;> simpa [Event.orderIds, List.mem_singleton.mp hid] using hlt
      exact idsBelow_append.mpr ⟨haccepted, idsBelow_topOfBook _ _ _ _⟩
  have htag : ∀ e, (Event.tagAccepted t.symbol e).orderIds = e.orderIds := fun e => by cases e <;> rfl
  unfold Taker.restedEvents restEvents bookAdd
  split
  · exact idsBelow_map (hadd _ _ _ hid) htag
  · exact idsBelow_map (hadd _ _ _ hid) htag
  · exact idsBelow_map (hadd _ _ _ hid) htag

/-- The events of a fill name the taker and an order of the book. -/
theorem idsBelow_fill {t : Taker} {fill : FillResult} {book : OrderBook} (hs : s.Sound {})
    (hid : t.id < s.nextOrderId) (hnext : s.nextFill t = some (fill, book)) :
    IdsBelow s.nextOrderId (tradeEvent t fill :: s.fillReport t fill book) := by
  obtain ⟨maker, rest, hfill, -⟩ := nextFill_some (hs.book t.symbol) hnext
  have hrests : s.Rests t.symbol maker.id := by
    rw [Rests, hfill.found]
    exact Option.some_ne_none _
  have hmaker := hs.rests_lt hrests
  have htrade : ∀ id ∈ (tradeEvent t fill).orderIds, id < s.nextOrderId := by
    intro id hmem
    rcases List.mem_cons.mp hmem with rfl | hmem
    · exact hid
    · rw [List.mem_singleton.mp hmem, hfill.makerId]
      exact hmaker
  have hclip : ∀ clip ∈ fill.replenished, clip.id = maker.id := by
    intro clip hclip
    rw [hfill.result] at hclip
    simp only [fillResult, Option.mem_def] at hclip
    split_ifs at hclip
    cases hclip
    simp only [replenishedEvent, renewClip, takeFrom]
    split_ifs
    · rfl
    · rfl
  have hevents : IdsBelow s.nextOrderId (fillEvents t fill) := by
    refine idsBelow_append.mpr ⟨?_, ?_⟩
    · cases hreplenished : fill.replenished with
      | none => exact idsBelow_of_no_ids (by simp)
      | some clip =>
        refine idsBelow_cons.mpr ⟨fun id hmem => ?_, idsBelow_of_no_ids (by simp)⟩
        rw [List.mem_singleton.mp hmem]
        exact (hclip clip hreplenished).symm ▸ hmaker
    · split_ifs
      · exact idsBelow_cons.mpr ⟨by simpa [Event.orderIds] using hid, idsBelow_of_no_ids (by simp)⟩
      · exact idsBelow_cons.mpr ⟨by simpa [Event.orderIds] using hid, idsBelow_of_no_ids (by simp)⟩
  exact idsBelow_cons.mpr ⟨htrade, idsBelow_append.mpr ⟨hevents, idsBelow_topOfBook _ _ _ _⟩⟩

theorem nextOrderId_filled {t : Taker} {fill : FillResult} {book : OrderBook} :
    (s.filled t fill book).nextOrderId = s.nextOrderId := by
  have hread := read_updateOwner registry (fun _ _ => rfl) (s.journaled t fill book) fill
  exact congrArg Registry.next ((hread.trans registry_journalFill).trans registry_settleFill)

theorem Matches.ids {t t' : Taker} (hs : s.Sound {}) (hid : t.id < s.nextOrderId)
    (h : Matches s t events s' t') : IdsBelow s.nextOrderId events := by
  induction h with
  | done => exact idsBelow_of_no_ids (by simp)
  | breach hnext =>
    obtain ⟨htrade, -⟩ := idsBelow_cons.mp (idsBelow_fill hs hid hnext)
    exact idsBelow_cons.mpr ⟨htrade, idsBelow_of_no_ids (by simp [circuitBreakerEvents, Event.orderIds])⟩
  | fill hnext _ _ _ ih =>
    have hrest := ih ((narrows_filled hs hnext).sound hs) (nextOrderId_filled.symm ▸ hid)
    rw [nextOrderId_filled] at hrest
    exact idsBelow_append.mpr ⟨idsBelow_fill hs hid hnext, hrest⟩

theorem Finishes.ids {t : Taker} (hid : t.id < bound) (h : Finishes s t events s') :
    IdsBelow bound events := by
  cases h with
  | rest => exact idsBelow_restedEvents hid
  | expire =>
    exact idsBelow_cons.mpr ⟨by simpa [Event.orderIds] using hid, idsBelow_of_no_ids (by simp)⟩
  | done => exact idsBelow_of_no_ids (by simp)

/-- What an order entry reports of ids, and where it leaves the stops. -/
theorem placeVisible_ids {t : Taker} (hs : s.Sound {})
    (hfree : s.Claimable t.accountId t.symbol t.id) :
    Outcome (placeVisibleOrderWithAccountAndId t.accountId t.symbol t.id t.side t.price t.remaining
      t.tif t.visibility t.displayQty) s (fun events _ => IdsBelow s.nextOrderId events)
      fun _ _ => True := by
  have hnone : ∀ {event : Event}, event.orderIds = [] → IdsBelow s.nextOrderId [event] :=
    fun h => idsBelow_of_no_ids (by simpa using h)
  unfold placeVisibleOrderWithAccountAndId
  simp only [outcome_bind, outcome_get]
  cases hvalid : s.validateEntry t.symbol t.price t.remaining t.visibility t.displayQty with
  | some failure => exact hnone rfl
  | none =>
    dsimp only
    cases (s.touchAccount t.accountId t.symbol).validateOrderRisk t.accountId t.symbol t.side t.price
        t.remaining none with
    | some failure =>
      simp only [outcome_bind, outcome_set, outcome_pure]
      exact hnone rfl
    | none =>
      simp only [outcome_bind, outcome_set]
      have hs' := (Narrows.of_frame hs (frame_touchAccount s t.accountId t.symbol) id).sound hs
      split_ifs
      · unfold restVisibleOrder
        simp only [outcome_bind, outcome_get, outcome_set]
        have hrested := idsBelow_restedEvents (s := s.touchAccount t.accountId t.symbol) hfree.lt
        split_ifs
        · exact idsBelow_append.mpr ⟨hrested, hnone rfl⟩
        · exact hrested
      · exact idsBelow_cons.mpr ⟨by simpa [Event.orderIds] using hfree.lt, idsBelow_of_no_ids (by simp)⟩
      · rw [outcome_bind]
        refine (matchLoop_matches (hs'.book _) (by simp)).mono (fun r s₁ hmatches => ?_)
          fun _ _ _ => trivial
        rw [outcome_bind]
        refine (finishEntry_finishes s₁ r.1).mono (fun rested s₂ hfinishes => ?_) fun _ _ h => h.elim
        have hmatched := hmatches.ids hs' hfree.lt
        refine idsBelow_append.mpr ⟨hmatched, hfinishes.ids ?_⟩
        rw [hmatches.id_eq.1]
        exact hfree.lt

theorem placeMarket_ids {a : AccountId} {id : OrderId} {side : Side} {qty : ℤ} (hs : s.Sound {})
    (hfree : s.Claimable a symbol id) :
    Outcome (placeMarketOrderWithAccountAndId a symbol id side qty) s
      (fun events _ => IdsBelow s.nextOrderId events) fun _ _ => True := by
  have hnone : ∀ {event : Event}, event.orderIds = [] → IdsBelow s.nextOrderId [event] :=
    fun h => idsBelow_of_no_ids (by simpa using h)
  have hplace := fun limit => placeVisible_ids (t := limitTaker a symbol id side limit qty .ioc) hs hfree
  unfold placeMarketOrderWithAccountAndId
  simp only [outcome_bind, outcome_get]
  cases side with
  | bid =>
    dsimp only
    split_ifs <;> first | exact hnone rfl | exact hplace _
  | ask =>
    dsimp only
    split_ifs <;> first | exact hnone rfl | exact hplace _

theorem placeChild_ids {stop : StopOrderState} {id : OrderId} (hs : s.Sound {})
    (hfree : s.Claimable stop.accountId symbol id) :
    Outcome (placeChild stop symbol id) s (fun events _ => IdsBelow s.nextOrderId events)
      fun _ _ => True := by
  unfold placeChild
  cases stop.limitPrice with
  | some limit =>
    exact placeVisible_ids (t := limitTaker stop.accountId symbol id stop.side limit stop.qty .gtc)
      hs hfree
  | none => exact placeMarket_ids hs hfree

end Ids

/-! The numbers that a computation takes. -/

/-- Some events and the ids taken for them: the ids that the events name were taken before they
returned, and an order that a stop becomes takes an id that nothing before it names. -/
structure TakesIds (s : MatchingEngine) (events : List Event) (s' : MatchingEngine) : Prop where
  next : s.nextOrderId ≤ s'.nextOrderId
  below : IdsBelow s'.nextOrderId events
  fresh : ∀ p ∈ triggeredStops events, s.nextOrderId ≤ p.2 ∧ p.1 < p.2
  ordered : events.Pairwise Before

section TakenIds
variable {s s' s'' : MatchingEngine} {symbol : Symbol} {events more : List Event}
  {x : Engine (List Event)}

theorem mem_triggeredStops {e : Event} {p : OrderId × OrderId} (he : e ∈ events)
    (hp : e.triggeredStop = some p) : p ∈ triggeredStops events :=
  List.mem_filterMap.mpr ⟨e, he, hp⟩

theorem TakesIds.refl (s : MatchingEngine) : TakesIds s [] s :=
  ⟨le_rfl, idsBelow_of_no_ids (by simp), fun _ h => (List.not_mem_nil h).elim, .nil⟩

theorem TakesIds.trans (h : TakesIds s events s') (h' : TakesIds s' more s'') :
    TakesIds s (events ++ more) s'' where
  next := h.next.trans h'.next
  below := idsBelow_append.mpr ⟨h.below.mono h'.next, h'.below⟩
  fresh p hp := by
    rw [triggeredStops_append] at hp
    rcases List.mem_append.mp hp with hp | hp
    · exact h.fresh p hp
    · obtain ⟨hfresh, habove⟩ := h'.fresh p hp
      exact ⟨h.next.trans hfresh, habove⟩
  ordered := by
    rw [List.pairwise_append]
    refine ⟨h.ordered, h'.ordered, fun e he e' he' p hp id hid => ?_⟩
    exact (h.below e he id hid).trans_le (h'.fresh p (mem_triggeredStops he' hp)).1

/-- Events that trigger no stop. -/
theorem TakesIds.of_none (hnext : s.nextOrderId ≤ s'.nextOrderId)
    (hbelow : IdsBelow s'.nextOrderId events) (hnone : triggeredStops events = []) :
    TakesIds s events s' := by
  refine ⟨hnext, hbelow, fun p hp => ?_, List.pairwise_of_forall_mem_list ?_⟩
  · rw [hnone] at hp
    cases hp
  · intro e _ e' he' p hp
    have hmem := mem_triggeredStops he' hp
    rw [hnone] at hmem
    cases hmem

/-- The numbers and the steps of a computation that touches no stop. -/
theorem takesIds_of_ids (hids : Outcome x s (fun events _ => IdsBelow s.nextOrderId events)
      fun _ _ => True) (hfree : s.Untouched x) :
    Outcome x s (fun events s' => TakesIds s events s') fun _ _ => True := by
  refine (hids.and (hfree.mono (fun _ _ h => h) fun _ _ _ => trivial)).mono
    (fun events s' h => ?_) fun _ _ _ => trivial
  obtain ⟨hbelow, hsame, hnone⟩ := h
  have hnext : s'.nextOrderId = s.nextOrderId := congrArg Registry.next hsame
  exact .of_none hnext.ge (hnext.symm ▸ hbelow) hnone.2

theorem triggerStop_takesIds {id : OrderId} {stop : StopOrderState} (hs : s.Sound {})
    (hstop : s.stopOrdersById.lookup id = some stop) :
    TakesIds s [s.triggeredEvent symbol id stop] (s.triggerStop symbol id stop) := by
  have hnext := congrArg Registry.next (@registry_triggerStop s symbol id stop)
  change (s.triggerStop symbol id stop).nextOrderId = s.nextOrderId + 1 at hnext
  have hlt := hs.stop_lt hstop
  refine ⟨by rw [hnext]; exact Nat.le_succ _, ?_, ?_, List.pairwise_singleton _ _⟩
  · rw [hnext]
    refine idsBelow_cons.mpr ⟨fun id' hid' => ?_, idsBelow_of_no_ids (by simp)⟩
    rcases List.mem_cons.mp hid' with rfl | hid'
    · exact hlt.trans (Nat.lt_succ_self _)
    · rw [List.mem_singleton.mp hid']
      exact Nat.lt_succ_self _
  · intro p hp
    rw [List.mem_singleton.mp (show p ∈ [(id, s.nextOrderId)] from hp)]
    exact ⟨le_rfl, hlt⟩

theorem triggerAll_takesIds {ready : List OrderId} (hs : s.Sound {})
    (hready : ∀ id ∈ ready, ∀ stop, s.stopOrdersById.lookup id = some stop → stop.symbol = symbol) :
    Outcome (triggerAll symbol ready) s (fun r s' => TakesIds s r.2 s' ∧ s'.Sound {})
      fun _ _ => True := by
  induction ready generalizing s with
  | nil => exact ⟨.refl s, hs⟩
  | cons id ready ih =>
    rw [triggerAll]
    simp only [outcome_bind, outcome_get]
    cases hstop : s.stopOrdersById.lookup id with
    | none => exact ih hs fun id' hid' => hready id' (List.mem_cons_of_mem _ hid')
    | some stop =>
      simp only [outcome_bind, outcome_set]
      have hsymbol := hready id List.mem_cons_self stop hstop
      have htrigger : TakesIds s _ (s.triggerStop symbol id stop) := triggerStop_takesIds hs hstop
      have hsteps : Step {} symbol s [s.triggeredEvent symbol id stop] []
        (s.triggerStop symbol id stop) := .trigger hstop hsymbol
      have hs₁ := hsteps.sound hs
      have hfree := hs.free_triggered hstop hsymbol
      have hchild := takesIds_of_ids (placeChild_ids hs₁ hfree) (placeChild_untouched stop s.nextOrderId)
      have hentering := placeChild_entering hs₁ trivial hfree
      refine (hchild.and (hentering.mono (fun _ _ h => h) fun _ _ _ => trivial)).mono
        (fun child s₂ h₂ => ?_) fun _ _ _ => trivial
      obtain ⟨hnumbered, hplaced⟩ := h₂
      have hs₂ := (hplaced.mono Adding.placing).sound_adding hs₁
      have hstops : s₂.stopOrdersById = s.stopOrdersById.erase id := hplaced.reads aside_stops
      refine (ih hs₂ fun id' hid' stop' hstop' => ?_).mono (fun r s₃ hrest => ?_) fun _ _ _ => trivial
      · rw [hstops, Finmap.lookup_erase_ite] at hstop'
        split_ifs at hstop'
        exact hready id' (List.mem_cons_of_mem _ hid') stop' hstop'
      · exact ⟨(htrigger.trans hnumbered).trans hrest.1, hrest.2⟩

theorem cascade_takesIds {fuel : ℕ} (hs : s.Sound {}) :
    Outcome (cascade symbol fuel) s (fun events s' => TakesIds s events s') fun _ _ => True := by
  induction fuel generalizing s with
  | zero => exact .refl s
  | succ fuel ih =>
    rw [cascade]
    simp only [outcome_bind, outcome_get]
    cases s.triggerPrice symbol with
    | none => exact .refl s
    | some current =>
      dsimp only
      split_ifs with hnone
      · exact .refl s
      · rw [outcome_bind]
        refine (triggerAll_takesIds hs hs.readyStops).mono (fun r s₁ h₁ => ?_) fun _ _ _ => trivial
        obtain ⟨hnumbered, hs₁⟩ := h₁
        split_ifs
        · rw [outcome_bind]
          exact (ih hs₁).mono (fun more s₂ h₂ => hnumbered.trans h₂)
            fun _ _ _ => trivial
        · exact hnumbered

theorem evaluateStopOrders_takesIds (hs : s.Sound {}) :
    Outcome (evaluateStopOrders symbol) s (fun events s' => TakesIds s events s') fun _ _ => True := by
  unfold evaluateStopOrders
  simp only [outcome_bind, outcome_get]
  split_ifs
  · exact .refl s
  · exact cascade_takesIds hs

/-- An entry that has numbered its events since `start`, and the stops it triggers. -/
theorem followEntry_takesIds {start : MatchingEngine}
    (h : Outcome x s (fun events s' => TakesIds start events s' ∧ s'.Sound {}) fun _ _ => True) :
    Outcome (followEntry symbol x) s (fun events s' => TakesIds start events s')
      fun _ _ => True := by
  unfold followEntry
  rw [outcome_bind]
  refine h.mono (fun events s₁ h₁ => ?_) fun _ _ _ => trivial
  obtain ⟨hnumbered, hs₁⟩ := h₁
  rw [outcome_bind]
  refine (evaluateStopOrders_takesIds hs₁).mono (fun more s₂ h₂ => ?_) fun _ _ _ => trivial
  simp only [outcome_bind, outcome_modify, outcome_pure]
  have hall := hnumbered.trans h₂
  have htrack : ∀ events, (s₂.trackEvents events).nextOrderId = s₂.nextOrderId :=
    fun _ => congrArg Registry.next registry_trackEvents
  exact ⟨hall.next.trans_eq (htrack _).symm, by rw [htrack]; exact hall.below, hall.fresh, hall.ordered⟩

/-- Reports that name no id. -/
theorem TakesIds.of_no_ids (hnext : s.nextOrderId ≤ s'.nextOrderId)
    (hids : ∀ e ∈ events, e.orderIds = []) : TakesIds s events s' := by
  refine .of_none hnext (idsBelow_of_no_ids hids) (List.filterMap_eq_nil_iff.mpr fun e he => ?_)
  have hnone := hids e he
  cases e <;> first | rfl | cases hnone

theorem TakesIds.report {event : Event} (hids : event.orderIds = [])
    (hnext : s.nextOrderId ≤ s'.nextOrderId) : TakesIds s [event] s' :=
  .of_no_ids hnext (by simpa using hids)

/-- Later bookkeeping takes no number. -/
theorem TakesIds.same (h : TakesIds s events s') (hsame : s''.nextOrderId = s'.nextOrderId) :
    TakesIds s events s'' :=
  ⟨h.next.trans_eq hsame.symm, by rw [hsame]; exact h.below, h.fresh, h.ordered⟩

/-- An entry under the next id, and the stops it triggers. -/
theorem entry_takesIds {entry : OrderId → Engine (List Event)} {made : List Entry}
    (hs : s.Sound {})
    (hentry : Outcome (entry s.nextOrderId) s.allocated
      (fun events s' => TakesIds s.allocated events s') fun _ _ => True)
    (hsteps : Building {} symbol s.allocated made (entry s.nextOrderId)) :
    Outcome (do
      let id ← takeOrderId
      followEntry symbol (entry id)) s (fun events s' => TakesIds s events s') fun _ _ => True := by
  have hallocated : TakesIds s [] s.allocated := .of_no_ids (Nat.le_succ _) (by simp)
  unfold takeOrderId
  simp only [outcome_bind, outcome_get, outcome_set, outcome_pure]
  refine followEntry_takesIds ?_
  refine (hentry.and (hsteps.mono (fun _ _ h => h) fun _ _ _ => trivial)).mono
    (fun events s' h => ?_) fun _ _ _ => trivial
  exact ⟨hallocated.trans h.1, h.2.sound_adding hs.allocated⟩

theorem placeStop_takesIds {a : AccountId} {id : OrderId} {side : Side} {stopPrice qty : ℤ}
    {limitPrice : Option ℤ} (hid : id < s.nextOrderId) :
    Outcome (placeStopOrderWithAccountAndId a symbol id side stopPrice qty limitPrice) s
      (fun events s' => TakesIds s events s') fun _ _ => True := by
  unfold placeStopOrderWithAccountAndId
  simp only [outcome_bind, outcome_get]
  split_ifs
  · exact .report rfl le_rfl
  · cases (s.touchAccount a symbol).validateMarketControl symbol (limitPrice.getD stopPrice) with
    | some failure => exact .report rfl le_rfl
    | none =>
      dsimp only
      cases (s.touchAccount a symbol).validateOrderRisk a symbol side (limitPrice.getD stopPrice) qty
          none with
      | some failure => exact .report rfl le_rfl
      | none =>
        simp only [outcome_bind, outcome_set, outcome_pure]
        refine .of_none le_rfl (idsBelow_cons.mpr ⟨fun id' hid' => ?_, idsBelow_of_no_ids (by simp)⟩) rfl
        rw [List.mem_singleton.mp hid']
        exact hid
  · exact .report rfl le_rfl

theorem idsBelow_cancel {book : OrderBook} {id bound : OrderId} (hid : id < bound) :
    IdsBelow bound ((book.cancel id).1.map (Event.tagCanceled symbol)) := by
  refine idsBelow_map ?_ fun e => by cases e <;> rfl
  unfold OrderBook.cancel
  split
  · exact idsBelow_of_no_ids (by simp)
  · refine idsBelow_cons.mpr ⟨fun id' hid' => ?_, idsBelow_topOfBook _ _ _ _⟩
    rw [List.mem_singleton.mp hid']
    exact hid

theorem cancel_takesIds {a : AccountId} {id : OrderId} (hs : s.Sound {}) :
    Outcome (MatchingEngine.cancel a id) s (fun events s' => TakesIds s events s')
      fun _ _ => True := by
  have htrack : ∀ (s₁ : MatchingEngine) (events : List Event),
      (s₁.trackEvents events).nextOrderId = s₁.nextOrderId :=
    fun _ _ => congrArg Registry.next registry_trackEvents
  unfold MatchingEngine.cancel
  simp only [outcome_bind, outcome_get]
  cases hstop : s.stopOrdersById.lookup id with
  | some stop =>
    dsimp only
    split_ifs
    · exact .report rfl le_rfl
    · simp only [outcome_bind, outcome_set, outcome_pure]
      refine TakesIds.same (.of_none le_rfl ?_ rfl) (htrack _ _)
      refine idsBelow_cons.mpr ⟨fun id' hid' => ?_, idsBelow_of_no_ids (by simp)⟩
      rw [List.mem_singleton.mp hid']
      exact hs.stop_lt hstop
  | none =>
    dsimp only
    cases howner : s.orderOwnershipById.lookup id with
    | none => exact .report rfl le_rfl
    | some owner =>
      dsimp only
      split_ifs
      · exact .report rfl le_rfl
      · exact .report rfl le_rfl
      · simp only [outcome_bind, outcome_set, outcome_pure]
        have hnext : (s.cancelResting a owner.symbol id).nextOrderId = s.nextOrderId :=
          congrArg Registry.next registry_cancelResting
        refine TakesIds.same (.of_none hnext.ge ?_ (stopFree_cancel _ _ _).2) (htrack _ _)
        rw [hnext]
        exact idsBelow_cancel (hs.owner_lt howner)

theorem replaceOrder_takesIds {a : AccountId} {id : OrderId} {newPrice newQty : ℤ}
    (hs : s.Sound {}) : Outcome (replaceOrder a id newPrice newQty) s
      (fun events s' => TakesIds s events s') fun _ _ => True := by
  unfold replaceOrder
  simp only [outcome_bind, outcome_get]
  cases howner : s.orderOwnershipById.lookup id with
  | none => exact .report rfl le_rfl
  | some owner =>
    dsimp only
    split_ifs with hwrong
    · exact .report rfl le_rfl
    · cases s.validateReplace owner newPrice newQty with
      | some failure => exact .report rfl le_rfl
      | none =>
        dsimp only
        cases s.validateOrderRisk a owner.symbol owner.side newPrice newQty (some id) with
        | some failure => exact .report rfl le_rfl
        | none =>
          simp only [outcome_bind, outcome_set]
          have hrecord : Step {} owner.symbol s [] [] (s.replaceReleased a owner.symbol id) :=
            .placing (.audit s ⟨rfl, rfl, rfl, rfl, rfl⟩)
          have hs₁ := hrecord.sound hs
          have hcancel := (cancel_takesIds hs₁).and
            ((cancel_steps hs₁ a id).mono (fun _ _ h => h) fun _ _ h => h.elim)
          refine hcancel.mono (fun events s₂ h₂ => ?_) fun _ _ _ => trivial
          obtain ⟨hcanceled, hsteps, hfree⟩ := h₂
          have hchild := takesIds_of_ids
            (placeVisible_ids (t := limitTaker a owner.symbol id owner.side newPrice newQty .gtc)
              (hsteps.sound hs₁) (hfree owner howner (not_not.mp hwrong)))
            (placeVisible_untouched _ _ _ _ _ _ _ _)
          refine hchild.mono (fun replacement s₃ h₃ => ?_) fun _ _ _ => trivial
          simp only [outcome_modify, outcome_pure]
          have hrecorded : TakesIds s [] (s.replaceReleased a owner.symbol id) :=
            .of_no_ids le_rfl (by simp)
          exact (hrecorded.trans (hcanceled.trans h₃)).same (congrArg Registry.next registry_trackEvents)

theorem replaceStop_takesIds {a : AccountId} {id : OrderId} {stop : StopOrderState}
    {newStopPrice newQty : ℤ} {newLimitPrice : Option ℤ} {reason : String} (hs : s.Sound {})
    (hstop : s.stopOrdersById.lookup id = some stop) :
    Outcome (replaceStop a id stop newStopPrice newQty newLimitPrice reason) s
      (fun events s' => TakesIds s events s') fun _ _ => True := by
  unfold replaceStop
  simp only [outcome_bind, outcome_get]
  split_ifs
  · exact .report rfl le_rfl
  · cases s.validateOrderRisk a stop.symbol stop.side (newLimitPrice.getD newStopPrice) newQty none with
    | some failure => exact .report rfl le_rfl
    | none =>
      simp only [outcome_bind, outcome_set]
      have hreplaced : Step {} stop.symbol s _ []
          (s.withReplacedStop id stop newStopPrice newQty newLimitPrice) := .replaceStop hstop rfl
      refine followEntry_takesIds (outcome_pure.mpr ⟨.of_none le_rfl ?_ rfl, hreplaced.sound hs⟩)
      have hone : ∀ id' ∈ [id], id' < s.nextOrderId := fun id' hid' => by
        rw [List.mem_singleton.mp hid']
        exact hs.stop_lt hstop
      exact idsBelow_cons.mpr ⟨hone, idsBelow_cons.mpr ⟨hone, idsBelow_of_no_ids (by simp)⟩⟩
  · exact .report rfl le_rfl

theorem replaceStopLimitOrder_takesIds {a : AccountId} {id : OrderId}
    {newStopPrice newLimitPrice newQty : ℤ} (hs : s.Sound {}) :
    Outcome (replaceStopLimitOrder a id newStopPrice newLimitPrice newQty) s
      (fun events s' => TakesIds s events s') fun _ _ => True := by
  unfold replaceStopLimitOrder
  simp only [outcome_bind, outcome_get]
  cases hstop : s.stopOrdersById.lookup id with
  | none => exact .report rfl le_rfl
  | some stop =>
    dsimp only
    split_ifs
    · exact .report rfl le_rfl
    · exact replaceStop_takesIds hs hstop

theorem replaceStopOrder_takesIds {a : AccountId} {id : OrderId} {newStopPrice newQty : ℤ}
    (hs : s.Sound {}) : Outcome (replaceStopOrder a id newStopPrice newQty) s
      (fun events s' => TakesIds s events s') fun _ _ => True := by
  unfold replaceStopOrder
  simp only [outcome_bind, outcome_get]
  cases hstop : s.stopOrdersById.lookup id with
  | none => exact .report rfl le_rfl
  | some stop =>
    dsimp only
    split_ifs
    · exact .report rfl le_rfl
    · cases stop.limitPrice with
      | some limit => exact replaceStopLimitOrder_takesIds hs
      | none => exact replaceStop_takesIds hs hstop

/-- The trades of an auction name orders of the book. -/
theorem Crosses.ids {price remaining remaining' : ℤ} {steps : List (OrderBook × ℤ)}
    (h : Crosses symbol price s remaining events steps s' remaining') (hs : s.Sound {}) :
    IdsBelow s.nextOrderId events ∧ s'.nextOrderId = s.nextOrderId := by
  induction h with
  | refl => exact ⟨idsBelow_of_no_ids (by simp), rfl⟩
  | @trade s s' remaining traded remaining' bid ask book book' events steps hqty hbid hask _ ih =>
    have hn := @narrows_auctionTraded _ s hs symbol price _ _ _ _ _ hbid hask
    obtain ⟨hrest, hnext⟩ := ih (hn.sound hs)
    have hsame : (s.auctionTraded symbol price traded bid.makerId ask.makerId book').nextOrderId =
        s.nextOrderId := by
      refine congrArg Registry.next (?_ : MatchingEngine.registry _ = s.registry)
      rw [auctionTraded, read_reduceOwner registry fun _ _ => rfl,
        read_reduceOwner registry fun _ _ => rfl, registry_settleAuction]
      rfl
    rw [hsame] at hrest hnext
    obtain ⟨maker, rest, hfill, -⟩ := fillBestAtOrBetter_some (hs.book symbol) hbid
    obtain ⟨maker', rest', hfill', -⟩ := fillBestAtOrBetter_some hfill.wellFormed_after hask
    have hbidRests : s.Rests symbol bid.makerId := by
      rw [Rests, hfill.makerId, hfill.found]
      exact Option.some_ne_none _
    have haskRests : s.Rests symbol ask.makerId := by
      refine rests_of_fill hfill.toFillStep ?_
      rw [hfill'.makerId, hfill'.found]
      exact Option.some_ne_none _
    refine ⟨idsBelow_append.mpr ⟨?_, hrest⟩, hnext⟩
    intro e he id hid
    simp only [auctionTradeEvents, List.mem_cons, List.not_mem_nil, or_false] at he
    have hboth : id = bid.makerId ∨ id = ask.makerId := by
      rcases he with rfl | rfl | rfl
      · simpa [Event.orderIds] using hid
      · exact .inl (by simpa [Event.orderIds] using hid)
      · exact .inr (by simpa [Event.orderIds] using hid)
    rcases hboth with rfl | rfl
    · exact hs.rests_lt hbidRests
    · exact hs.rests_lt haskRests

theorem uncross_ids (hs : s.Sound {}) :
    Outcome (uncross symbol) s (fun events _ => IdsBelow s.nextOrderId events)
      fun _ _ => True := by
  have hnone : ∀ {event : Event}, event.orderIds = [] → IdsBelow s.nextOrderId [event] :=
    fun h => idsBelow_of_no_ids (by simpa using h)
  unfold uncross
  simp only [outcome_bind, outcome_get]
  cases (s.computeAuctionIndicative symbol).price with
  | none => exact hnone rfl
  | some price =>
    dsimp only
    split_ifs
    · exact hnone rfl
    · rw [outcome_bind]
      have hloop := @auctionLoop_crosses _ symbol price _ _ s hs
        (Int.self_le_toNat (s.computeAuctionIndicative symbol).qty)
      refine hloop.mono (fun r s₁ h₁ => ?_) fun _ _ _ => trivial
      obtain ⟨htrades, -⟩ := h₁.1.ids hs
      have hended : Outcome (endAuction symbol) s₁ (fun events _ => IdsBelow s.nextOrderId events)
          fun _ _ => True := by
        unfold endAuction
        simp only [outcome_bind, outcome_get]
        split_ifs
        · exact hnone rfl
        · exact idsBelow_of_no_ids (by simp)
      simp only [outcome_bind, outcome_get]
      refine hended.mono (fun ended s₂ h₂ => ?_) fun _ _ _ => trivial
      simp only [outcome_modify, outcome_pure]
      exact idsBelow_append.mpr ⟨idsBelow_append.mpr ⟨idsBelow_cons.mpr
        ⟨by simp [Event.orderIds], htrades⟩, idsBelow_topOfBook _ _ _ _⟩, h₂⟩
    · simp only [outcome_bind, outcome_set, outcome_pure]
      exact idsBelow_of_no_ids (by simp [circuitBreakerEvents, Event.orderIds])

end TakenIds

/-- Every operation takes new ids for the orders that stops become. -/
theorem Op.exec_takesIds {s : MatchingEngine} (op : Op) (hs : s.Sound {}) :
    Outcome op.exec s (fun events s' => TakesIds s events s') fun _ _ => True := by
  have hs' := hs.allocated
  have hfree := fun a symbol => hs.free_next a symbol
  have howner : s.allocated.orderOwnershipById.lookup s.nextOrderId = none :=
    Option.eq_none_iff_forall_ne_some.mpr fun _ h => lt_irrefl _ (hs.owner_lt h)
  by_cases hsetting : op.isSetting
  · refine ((Op.exec_setting hsetting s).mono (fun _ _ h => h) fun _ _ _ => trivial).and
      (Op.exec_controls hsetting s) |>.mono (fun events s' h => ?_) fun _ _ _ => trivial
    obtain ⟨⟨hsame, -⟩, hcontrol⟩ := h
    have hnext : s'.nextOrderId = s.nextOrderId := congrArg (fun s => s.nextOrderId) hsame
    refine .of_no_ids hnext.ge fun e he => ?_
    obtain ⟨hcontrol, -⟩ := hcontrol e he
    cases e <;> first | rfl | exact hcontrol.elim
  cases op with
  | placeLimitOrder a symbol side price qty tif =>
    exact entry_takesIds hs (takesIds_of_ids (placeVisible_ids
      (t := limitTaker a symbol s.nextOrderId side price qty tif) hs' (hfree a symbol))
      (placeVisible_untouched _ _ _ _ _ _ _ _)) (placeVisible_entering
      (t := limitTaker a symbol s.nextOrderId side price qty tif) hs' trivial (hfree a symbol)).building
  | placeHiddenOrder a symbol side price qty =>
    exact entry_takesIds hs (takesIds_of_ids (placeVisible_ids
      (t := ⟨a, symbol, s.nextOrderId, side, price, qty, .gtc, .hidden, 0⟩) hs' (hfree a symbol))
      (placeVisible_untouched _ _ _ _ _ _ _ _)) (placeVisible_entering
      (t := ⟨a, symbol, s.nextOrderId, side, price, qty, .gtc, .hidden, 0⟩) hs' trivial
      (hfree a symbol)).building
  | placeIcebergOrder a symbol side price totalQty displayQty =>
    exact entry_takesIds hs (takesIds_of_ids (placeVisible_ids
      (t := ⟨a, symbol, s.nextOrderId, side, price, totalQty, .gtc, .iceberg, displayQty⟩) hs'
      (hfree a symbol)) (placeVisible_untouched _ _ _ _ _ _ _ _)) (placeVisible_entering
      (t := ⟨a, symbol, s.nextOrderId, side, price, totalQty, .gtc, .iceberg, displayQty⟩) hs' trivial
      (hfree a symbol)).building
  | placeMarketOrder a symbol side qty =>
    exact entry_takesIds hs (takesIds_of_ids (placeMarket_ids hs' (hfree a symbol))
      (placeMarket_untouched _ _ _ _)) (placeMarket_entering hs' trivial (hfree a symbol)).building
  | placeStopOrder a symbol side stopPrice qty =>
    exact entry_takesIds hs (placeStop_takesIds (Nat.lt_succ_self _))
      (placeStop_building trivial (hfree a symbol).toFree howner)
  | placeStopLimitOrder a symbol side stopPrice limitPrice qty =>
    exact entry_takesIds hs (placeStop_takesIds (Nat.lt_succ_self _))
      (placeStop_building trivial (hfree a symbol).toFree howner)
  | cancel a id => exact cancel_takesIds hs
  | replaceOrder a id newPrice newQty => exact replaceOrder_takesIds hs
  | replaceStopOrder a id newStopPrice newQty => exact replaceStopOrder_takesIds hs
  | replaceStopLimitOrder a id newStopPrice newLimitPrice newQty =>
    exact replaceStopLimitOrder_takesIds hs
  | uncross symbol => exact takesIds_of_ids (uncross_ids hs) uncross_untouched
  | setAccountState a symbol cash qty => exact .of_no_ids le_rfl (by simp)
  | _ => exact absurd trivial hsetting

end Tes
