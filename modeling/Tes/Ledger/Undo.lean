import Tes.Ledger.Changes
import Tes.Ledger.Leverage
import Tes.Ledger.Rejections

/-! Cancelling an order that has only come to rest gives back all that resting it took. -/
namespace Tes
open OrderBook MatchingEngine EStateM
namespace MatchingEngine

/-- The engine is as it was, apart from fresh ids, the journal, default entries of books and
accounts, and the top-up of account 0. -/
structure Restored (s s' : MatchingEngine) : Prop where
  books : ∀ symbol, s'.bookFor symbol = s.bookFor symbol
  owners : s'.orderOwnershipById = s.orderOwnershipById
  stops : s'.stopOrdersById = s.stopOrdersById
  pending : s'.pendingStopIdsBySymbol = s.pendingStopIdsBySymbol
  reservedCash : s'.reservedCashByOrderId = s.reservedCashByOrderId
  reservedQty : s'.reservedQtyByOrderId = s.reservedQtyByOrderId
  reservedShortMargin : s'.reservedShortMarginByOrderId = s.reservedShortMarginByOrderId
  marks : s'.latestMarkBySymbol = s.latestMarkBySymbol
  phases : s'.tradingPhasesBySymbol = s.tradingPhasesBySymbol
  haltReasons : s'.haltReasonsBySymbol = s.haltReasonsBySymbol
  bands : s'.priceBandsBySymbol = s.priceBandsBySymbol
  feeModel : s'.feeModel = s.feeModel
  riskConfigs : s'.riskConfigs = s.riskConfigs
  account : ∀ a, (s.account a).Agrees (a = defaultAccountId) (s'.account a)

section Restored
variable {G : Guard} {s s' s'' : MatchingEngine} {t : Taker} {a : AccountId} {symbol : Symbol}
  {id : OrderId}

theorem LeftAlone.restored (h : s.LeftAlone s') (h' : s'.Restored s'') : s.Restored s'' where
  books symbol := (h'.books symbol).trans (by rw [bookFor, bookFor, h.books])
  owners := h'.owners.trans h.owners
  stops := h'.stops.trans h.stops
  pending := h'.pending.trans h.pending
  reservedCash := h'.reservedCash.trans h.reservedCash
  reservedQty := h'.reservedQty.trans h.reservedQty
  reservedShortMargin := h'.reservedShortMargin.trans h.reservedShortMargin
  marks := h'.marks.trans h.marks
  phases := h'.phases.trans h.phases
  haltReasons := h'.haltReasons.trans h.haltReasons
  bands := h'.bands.trans h.bands
  feeModel := h'.feeModel.trans h.feeModel
  riskConfigs := h'.riskConfigs.trans h.riskConfigs
  account a := (h.account a).trans (h'.account a)

/-- The journal is no part of what is restored. -/
theorem Restored.of_unjournaled (h : s.Restored s') (hjournal : s''.unjournaled = s'.unjournaled) :
    s.Restored s'' := by
  have hsame : s.Restored s'.unjournaled := { h with }
  rw [← hjournal] at hsame
  exact { hsame with }

/-- Which entry a cancel writes to the journal does not bear on the rest. -/
theorem unjournaled_cancelResting (hjournal : s'.unjournaled = s.unjournaled) :
    (s'.cancelResting a symbol id).unjournaled = (s.cancelResting a symbol id).unjournaled := by
  have hself : ∀ s : MatchingEngine, (s.cancelResting a symbol id).unjournaled =
      (s.unjournaled.cancelResting a symbol id).unjournaled := fun s => by
    unfold cancelResting releaseAll cancelShortMargin cancelQty cancelCash
    cases hcash : s.reservedCashByOrderId.lookup id <;>
      cases hqty : s.reservedQtyByOrderId.lookup id <;>
        cases hshort : s.reservedShortMarginByOrderId.lookup id <;>
          simp [setBook, unjournaled, updateAccount, appendLedgerEntry, account, bookFor, hcash, hqty,
            hshort]
  rw [hself s', hself s, hjournal]

/-! One order that rests and is cancelled. -/

/-- The book takes the order in, and gives it out again. -/
theorem bookFor_cancelResting_rested (hs : s.Sound G) (hadmits : s.Admits t) (symbol : Symbol) :
    ((t.rested s).cancelResting t.accountId t.symbol t.id).bookFor symbol = s.bookFor symbol := by
  obtain ⟨hflight, hpos⟩ := hadmits.inFlight
  have hindex : (s.bookFor t.symbol).orderIndex.lookup t.id = none :=
    (hs.book t.symbol).findOrder_eq_none.mp (not_not.mp (hflight.free.rests t.symbol))
  rw [bookFor_cancelResting]
  split_ifs with hsymbol
  · have hid : t.order.id = t.id := by simp [Taker.order]
    rw [hsymbol, bookFor_rested, if_pos rfl, hadmits.added hs, ← hid]
    refine cancel_insertOrder (hs.book _) (order_placed hflight.valid hpos hadmits.not_refused) ?_
    rw [hid, hindex]
  · rw [bookFor_rested, if_neg hsymbol]

theorem Unreserved.lookup (h : s.Unreserved id) (kind : ReserveKind) :
    (s.reserves kind).lookup id = none := by
  cases kind
  · exact h.1
  · exact h.2.1
  · exact h.2.2

/-- What the order has reserved is all that the cancel releases. -/
theorem reserved_cancelResting_rested (hrested : s.Rested (t.rested s) t)
    (hcancelled : (t.rested s).Cancelled s' t.id
      ⟨t.accountId, t.symbol, t.side, t.price, t.remaining, t.visibility, t.displayQty⟩)
    (hunreserved : s.Unreserved t.id) (kind : ReserveKind) (a : AccountId) (symbol : Symbol) :
    (s'.account a).reserved symbol kind = (s.account a).reserved symbol kind := by
  have hnone : (s.reserves kind).lookup t.id = none := hunreserved.lookup kind
  have hsets := hrested.sets kind
  have hentry : (t.rested s).reserveOf kind t.id = t.reserve s kind := by
    rcases hsets.entry with hset | ⟨hzero, hsame⟩
    · exact hset
    · rw [reserveOf, Finmap.valueD, hsame, hnone, hzero]
      rfl
  rw [(hcancelled.shifts kind).reserved, hsets.reserved, hentry]
  split_ifs <;> omega

/-- No entry for the order is left, and no other entry has changed. -/
theorem reserves_cancelResting_rested (hrested : s.Rested (t.rested s) t)
    (hcancelled : (t.rested s).Cancelled s' t.id
      ⟨t.accountId, t.symbol, t.side, t.price, t.remaining, t.visibility, t.displayQty⟩)
    (hunreserved : s.Unreserved t.id) (kind : ReserveKind) : s'.reserves kind = s.reserves kind := by
  refine Finmap.ext_lookup fun id => ?_
  by_cases hid : id = t.id
  · rw [hid, hcancelled.cleared kind, hunreserved.lookup kind]
  · rw [(hcancelled.shifts kind).others id hid, (hrested.sets kind).others id hid]

/-- Resting and cancelling write only books, owners, accounts, reserves and the journal. -/
theorem reads_cancelResting_rested {α : Type} (f : MatchingEngine → α)
    (hframe : ∀ {s s' : MatchingEngine}, s.frame = s'.frame → f s = f s')
    (hbooks : ∀ (s : MatchingEngine) books, f { s with books } = f s)
    (howners : ∀ s owners, f { s with orderOwnershipById := owners } = f s) :
    f ((t.rested s).cancelResting t.accountId t.symbol t.id) = f s := by
  rw [hframe (frame_cancelResting _ _ _ _)]
  refine (howners { t.rested s with books := _ } _).trans ((hbooks (t.rested s) _).trans ?_)
  rw [Taker.rested, hframe (frame_restOrder _ _ _ _ _ _ _ _ _)]
  exact (howners { s with books := _ } _).trans (hbooks s _)

theorem restored_cancelResting (hs : s.Sound {}) (hadmits : s.Admits t)
    (hunowned : s.orderOwnershipById.lookup t.id = none) :
    s.Restored ((t.rested s).cancelResting t.accountId t.symbol t.id) := by
  obtain ⟨hflight, hpos⟩ := hadmits.inFlight
  have hunreserved := hadmits.free.unreserved hunowned
  have hrested := rested_rested hs hflight hpos
  have howner := (owners_rested s t t.id).trans (if_pos rfl)
  have hrests : (t.rested s).Rests t.symbol t.id := by
    have hresting := hrested.resting t.symbol t.id
    rw [if_pos ⟨rfl, rfl, hadmits.not_refused⟩] at hresting
    rw [Rests, ← MatchingEngine.resting, hresting]
    exact Option.some_ne_none _
  have hcancelled := cancelResting_cancelled (hs.rested hflight trivial hpos) howner hrests
  have hreserves := reserves_cancelResting_rested hrested hcancelled hunreserved
  have hreserved := reserved_cancelResting_rested hrested hcancelled hunreserved
  refine ⟨bookFor_cancelResting_rested hs hadmits, Finmap.ext_lookup fun id => ?_, ?_, ?_,
    hreserves .cash, hreserves .qty, hreserves .shortMargin, ?_, ?_, ?_, ?_, ?_, ?_, fun a => ?_⟩
  · rw [hcancelled.owners]
    split_ifs with hid
    · rw [hid, hunowned]
    · rw [hrested.owners, if_neg hid]
  · exact reads_cancelResting_rested _ stops_of_frame (fun _ _ => rfl) fun _ _ => rfl
  · exact reads_cancelResting_rested _ pendingStops_of_frame (fun _ _ => rfl) fun _ _ => rfl
  · exact (marks_releaseAll _ _ _ _).trans (marks_rested s t)
  · exact reads_cancelResting_rested _ phases_of_frame (fun _ _ => rfl) fun _ _ => rfl
  · exact reads_cancelResting_rested haltReasonsBySymbol
      (fun h => congrArg (fun s => s.haltReasonsBySymbol) h) (fun _ _ => rfl) fun _ _ => rfl
  · exact reads_cancelResting_rested _ bands_of_frame (fun _ _ => rfl) fun _ _ => rfl
  · exact reads_cancelResting_rested _ feeModel_of_frame (fun _ _ => rfl) fun _ _ => rfl
  · exact reads_cancelResting_rested _ riskConfigs_of_frame (fun _ _ => rfl) fun _ _ => rfl
  · have hsame := (hrested.holdings.trans hcancelled.holdings) a
    refine ⟨Or.inl hsame.cash, fun symbol => Or.inl (hsame.position symbol), ?_, ?_, ?_,
      fun symbol => ?_, fun symbol => ?_, hsame.realized⟩
    · exact hreserved .cash a t.symbol
    · exact hreserved .qty a
    · exact hreserved .shortMargin a t.symbol
    · rw [AccountSnapshot.averageCost, AccountSnapshot.averageCost, hsame.averageCost]
    · rw [AccountSnapshot.realizedPnlOf, AccountSnapshot.realizedPnlOf, hsame.realizedBySymbol]

end Restored
end MatchingEngine

theorem Op.order_id {op : Op} {s : MatchingEngine} {t : Taker} (h : op.order s = some t) :
    t.id = s.nextOrderId := by
  cases op <;> first | cases h; rfl | cases h

/-- The owner of a resting order gets it cancelled. -/
theorem cancel_owned {s : MatchingEngine} (hs : s.Sound {}) {id : OrderId} {owner : OrderOwnership}
    (howner : s.orderOwnershipById.lookup id = some owner) (hrests : s.Rests owner.symbol id) :
    Outcome (MatchingEngine.cancel owner.accountId id) s (fun events s' =>
      events = ((s.bookFor owner.symbol).cancel id).1.map (Event.tagCanceled owner.symbol) ∧
        s' = (s.cancelResting owner.accountId owner.symbol id).trackEvents events)
      fun _ _ => False := by
  have hstop : s.stopOrdersById.lookup id = none :=
    Option.eq_none_iff_forall_ne_some.mpr fun stop hstop => by
      have hunowned := hs.stop_owner hstop
      rw [howner] at hunowned
      cases hunowned
  have hcanceled : ((s.bookFor owner.symbol).cancel id).1 ≠ [] := fun hempty =>
    hrests ((rests_of_cancel (hs.book owner.symbol)).mp hempty)
  unfold MatchingEngine.cancel
  simp only [outcome_bind, outcome_get, hstop, howner]
  rw [if_neg (not_not.mpr rfl), if_neg hcanceled]
  simp only [outcome_bind, outcome_set, outcome_pure, and_self]

section Operation
variable {s s' : MatchingEngine} {op : Op} {t : Taker} {events : List Event}

/-- Whatever limit, hidden or iceberg order only comes to rest, cancelling it undoes that: books,
owners, reserves and accounts are what they were. -/
theorem OnlyRests.cancel_restores (h : Reachable s) (hrests : OnlyRests op t s events s') :
    Outcome (Op.cancel t.accountId t.id).exec s' (fun _ s'' => s.Restored s'') fun _ _ => False := by
  obtain ⟨hs, hadmits, rfl⟩ := hrests.rested h
  obtain ⟨hflight, hpos⟩ := hadmits.inFlight
  have htrack := unjournaled_trackEvents (t.rested (s.allocated.touched t)) events
  have hs' := (Narrows.of_frame (hs.rested hflight trivial hpos) (frame_of_unjournaled htrack)
    fun hid => hid.of_unjournaled htrack).sound (hs.rested hflight trivial hpos)
  have hunowned : s.orderOwnershipById.lookup t.id = none := by
    refine Option.eq_none_iff_forall_ne_some.mpr fun owner howner => lt_irrefl s.nextOrderId ?_
    rw [Op.order_id hrests.order] at howner
    exact h.sound.owner_lt howner
  have hrestored := restored_cancelResting hs hadmits hunowned
  have hbefore : s.LeftAlone (s.allocated.touched t) :=
    (leftAlone_allocated s).trans (leftAlone_touchAccount s.allocated t.accountId t.symbol)
  have howner : ((t.rested (s.allocated.touched t)).trackEvents events).orderOwnershipById.lookup
      t.id = some ⟨t.accountId, t.symbol, t.side, t.price, t.remaining, t.visibility,
        t.displayQty⟩ := by
    rw [owners_of_frame (frame_of_unjournaled htrack), owners_rested, if_pos rfl]
  refine (cancel_owned hs' howner ?_).mono (fun more s'' hcanceled => ?_) fun _ _ h => h
  · have hresting := (rested_rested hs hflight hpos).resting t.symbol t.id
    rw [if_pos ⟨rfl, rfl, hadmits.not_refused⟩] at hresting
    rw [Rests, bookFor_of_frame (frame_of_unjournaled htrack), ← MatchingEngine.resting, hresting]
    exact Option.some_ne_none _
  · rw [hcanceled.2]
    refine hbefore.restored (hrestored.of_unjournaled ?_)
    rw [unjournaled_trackEvents, unjournaled_cancelResting htrack]

/-! A sale in the opening auction that its account covers in part. -/

def shortSeller : List Op :=
  [.setAccountState 1 "X" 100000 12,
    .setAccountRiskConfig 1 { mode := .margin, allowShortSelling := true, maxLeverage := 4 },
    .setTradingPhase "X" .openingAuction]

def sellBeyondPosition : Op := .placeIcebergOrder 1 "X" .ask 100 20 5

def icebergBeyondPosition : Taker where
  accountId := 1
  symbol := "X"
  id := 1
  side := .ask
  price := 100
  remaining := 20
  tif := .gtc
  visibility := .iceberg
  displayQty := 5

theorem onlyRests_beyondPosition :
    OnlyRests sellBeyondPosition icebergBeyondPosition (fresh.applyAll shortSeller)
      [.icebergOrderAccepted 1 .ask 100 20 5 15 5 "X", .topOfBook none (some 100) "X",
        .indicativePriceUpdated "X" none 0 0]
      (sellBeyondPosition.apply (fresh.applyAll shortSeller)) where
  order := by decide +kernel
  returns := Op.exec_of_returned (by decide +kernel)
  accepted := ⟨_, List.mem_cons_self, rfl⟩
  quiet := by simp [Event.rests, isTrade, Event.isTrigger]

theorem cancel_restores_beyondPosition :
    Outcome (Op.cancel 1 1).exec (sellBeyondPosition.apply (fresh.applyAll shortSeller))
      (fun _ s => (fresh.applyAll shortSeller).Restored s) fun _ _ => False :=
  OnlyRests.cancel_restores (t := icebergBeyondPosition) (reachable_applyAll shortSeller)
    onlyRests_beyondPosition

end Operation
end Tes
