import Tes.Engine.Operations

/-! What the steps of the engine leave alone. A frame blanks the parts of the state that a
group of steps writes; two states with equal frames agree on everything else. -/
namespace Tes
namespace MatchingEngine

/-- The state without its journal: ledger and sequence numbers. -/
def unjournaled (s : MatchingEngine) : MatchingEngine :=
  { s with accountLedger := [], nextLedgerSequence := 0, sequenceNumbersBySymbol := ∅ }

/-- The state without its journal, accounts, reserves and marks. -/
def frame (s : MatchingEngine) : MatchingEngine :=
  { s.unjournaled with
    accounts := ∅, reservedCashByOrderId := ∅, reservedQtyByOrderId := ∅,
    reservedShortMarginByOrderId := ∅, latestMarkBySymbol := ∅ }

/-- The state without accounts and reserves. -/
def unfunded (s : MatchingEngine) : MatchingEngine :=
  { s with
    accounts := ∅, reservedCashByOrderId := ∅, reservedQtyByOrderId := ∅,
    reservedShortMarginByOrderId := ∅ }

/-- Accounts and reserves. -/
structure Money where
  accounts : Finmap fun _ : AccountId => AccountSnapshot
  reservedCash : Finmap fun _ : OrderId => ℤ
  reservedQty : Finmap fun _ : OrderId => ℤ
  reservedShortMargin : Finmap fun _ : OrderId => ℤ

def money (s : MatchingEngine) : Money :=
  ⟨s.accounts, s.reservedCashByOrderId, s.reservedQtyByOrderId, s.reservedShortMarginByOrderId⟩

/-! Reading a field through an equality of frames. -/
section Read
variable {s s' : MatchingEngine}

theorem frame_of_unjournaled (h : s.unjournaled = s'.unjournaled) : s.frame = s'.frame := by
  have hs : ∀ s : MatchingEngine, s.frame = s.unjournaled.frame := fun _ => rfl
  rw [hs s, hs s', h]

theorem frame_of_unfunded (h : s.unfunded = s'.unfunded) : s.frame = s'.frame := by
  have hs : ∀ s : MatchingEngine, s.frame = s.unfunded.frame := fun _ => rfl
  rw [hs s, hs s', h]

theorem sequences_of_unfunded (h : s.unfunded = s'.unfunded) :
    s.sequenceNumbersBySymbol = s'.sequenceNumbersBySymbol :=
  congrArg (fun s => s.sequenceNumbersBySymbol) h

theorem marks_of_unfunded (h : s.unfunded = s'.unfunded) :
    s.latestMarkBySymbol = s'.latestMarkBySymbol :=
  congrArg (fun s => s.latestMarkBySymbol) h

theorem money_of_unjournaled (h : s.unjournaled = s'.unjournaled) : s.money = s'.money := by
  have hs : ∀ s : MatchingEngine, s.money = s.unjournaled.money := fun _ => rfl
  rw [hs s, hs s', h]

theorem books_of_frame (h : s.frame = s'.frame) : s.books = s'.books :=
  congrArg (fun s => s.books) h

theorem bookFor_of_frame (h : s.frame = s'.frame) (symbol : Symbol) :
    s.bookFor symbol = s'.bookFor symbol := by
  rw [bookFor, bookFor, books_of_frame h]

theorem nextOrderId_of_frame (h : s.frame = s'.frame) : s.nextOrderId = s'.nextOrderId :=
  congrArg (fun s => s.nextOrderId) h

theorem owners_of_frame (h : s.frame = s'.frame) :
    s.orderOwnershipById = s'.orderOwnershipById :=
  congrArg (fun s => s.orderOwnershipById) h

theorem stops_of_frame (h : s.frame = s'.frame) : s.stopOrdersById = s'.stopOrdersById :=
  congrArg (fun s => s.stopOrdersById) h

theorem pendingStops_of_frame (h : s.frame = s'.frame) :
    s.pendingStopIdsBySymbol = s'.pendingStopIdsBySymbol :=
  congrArg (fun s => s.pendingStopIdsBySymbol) h

theorem feeModel_of_frame (h : s.frame = s'.frame) : s.feeModel = s'.feeModel :=
  congrArg (fun s => s.feeModel) h

theorem riskConfigs_of_frame (h : s.frame = s'.frame) : s.riskConfigs = s'.riskConfigs :=
  congrArg (fun s => s.riskConfigs) h

theorem phases_of_frame (h : s.frame = s'.frame) :
    s.tradingPhasesBySymbol = s'.tradingPhasesBySymbol :=
  congrArg (fun s => s.tradingPhasesBySymbol) h

theorem bands_of_frame (h : s.frame = s'.frame) :
    s.priceBandsBySymbol = s'.priceBandsBySymbol :=
  congrArg (fun s => s.priceBandsBySymbol) h

theorem priceInBand_of_frame (h : s.frame = s'.frame) (symbol : Symbol) (price : ℤ) :
    s.priceInBand symbol price ↔ s'.priceInBand symbol price := by
  unfold priceInBand
  rw [bands_of_frame h]

theorem accounts_of_money (h : s.money = s'.money) : s.accounts = s'.accounts :=
  congrArg Money.accounts h

theorem account_of_money (h : s.money = s'.money) (a : AccountId) :
    s.account a = s'.account a := by
  rw [account, account, accounts_of_money h]

end Read

/-! Frames of the building blocks. -/

@[simp] theorem frame_updateAccount (s : MatchingEngine) (a : AccountId)
    (f : AccountSnapshot → AccountSnapshot) : (s.updateAccount a f).frame = s.frame := rfl

@[simp] theorem frame_appendLedgerEntry (s : MatchingEngine) (entry : AccountLedgerEntry) :
    (s.appendLedgerEntry entry).frame = s.frame := rfl

@[simp] theorem frame_setMark (s : MatchingEngine) (symbol : Symbol) (price : ℤ) :
    (s.setMark symbol price).frame = s.frame := rfl

@[simp] theorem frame_touchAccount (s : MatchingEngine) (a : AccountId) (symbol : Symbol) :
    (s.touchAccount a symbol).frame = s.frame := rfl

@[simp] theorem frame_exchange (s : MatchingEngine) (symbol : Symbol) (side : Side)
    (price qty : ℤ) (a b : AccountId) : (s.exchange symbol side price qty a b).frame = s.frame :=
  rfl

@[simp] theorem unfunded_releaseQty (s : MatchingEngine) (a : AccountId) (symbol : Symbol)
    (id : OrderId) (qty : ℤ) : (s.releaseQty a symbol id qty).unfunded = s.unfunded := by
  unfold releaseQty
  split <;> rfl

@[simp] theorem unfunded_releaseCash (s : MatchingEngine) (a : AccountId) (id : OrderId)
    (qty before : ℤ) : (s.releaseCash a id qty before).unfunded = s.unfunded := by
  unfold releaseCash
  split <;> rfl

@[simp] theorem unfunded_releaseShortMargin (s : MatchingEngine) (a : AccountId) (id : OrderId)
    (qty before : ℤ) : (s.releaseShortMargin a id qty before).unfunded = s.unfunded := by
  unfold releaseShortMargin
  split <;> rfl

@[simp] theorem unjournaled_appendLedgerEntry (s : MatchingEngine) (entry : AccountLedgerEntry) :
    (s.appendLedgerEntry entry).unjournaled = s.unjournaled := rfl

@[simp] theorem unjournaled_journalFee (s : MatchingEngine) (a : AccountId) (symbol : Symbol)
    (fee : ℤ) (id other : OrderId) :
    (s.journalFee a symbol fee id other).unjournaled = s.unjournaled := by
  unfold journalFee
  split <;> rfl

@[simp] theorem unjournaled_journalFill (s : MatchingEngine) (t : Taker) (fill : FillResult)
    (maker : AccountId) : (s.journalFill t fill maker).unjournaled = s.unjournaled := by
  unfold journalFill
  rw [unjournaled_journalFee, unjournaled_journalFee, unjournaled_appendLedgerEntry,
    unjournaled_appendLedgerEntry]

theorem unjournaled_trackEvents (s : MatchingEngine) (events : List Event) :
    (s.trackEvents events).unjournaled = s.unjournaled := by
  unfold trackEvents
  induction events generalizing s with
  | nil => rfl
  | cons event rest ih =>
    rw [List.foldl_cons, ih]
    unfold bumpSequenceNumber
    split <;> rfl

/-- A fill writes its book and the mark; the rest is money. -/
theorem unfunded_settleFill (s : MatchingEngine) (t : Taker) (fill : FillResult) (book : OrderBook) :
    (s.settleFill t fill book).unfunded =
      ((s.setBook t.symbol book).setMark t.symbol fill.price).unfunded := by
  have hmark : ∀ {s s' : MatchingEngine}, s.unfunded = s'.unfunded →
      (s.setMark t.symbol fill.price).unfunded = (s'.setMark t.symbol fill.price).unfunded :=
    fun h => congrArg (fun s : MatchingEngine => s.setMark t.symbol fill.price) h
  unfold settleFill
  refine hmark ?_
  cases t.side with
  | bid =>
    dsimp only
    rw [unfunded_releaseShortMargin, unfunded_releaseQty]
    rfl
  | ask =>
    dsimp only
    rw [unfunded_releaseCash]
    rfl

theorem frame_settleFill (s : MatchingEngine) (t : Taker) (fill : FillResult) (book : OrderBook) :
    (s.settleFill t fill book).frame = (s.setBook t.symbol book).frame :=
  (frame_of_unfunded (unfunded_settleFill s t fill book)).trans rfl

@[simp] theorem unfunded_reserveLong (s : MatchingEngine) (a : AccountId) (symbol : Symbol)
    (id : OrderId) (reserve : ℤ) : (s.reserveLong a symbol id reserve).unfunded = s.unfunded := by
  unfold reserveLong
  split <;> rfl

@[simp] theorem unfunded_reserveShort (s : MatchingEngine) (a : AccountId) (id : OrderId)
    (reserve : ℤ) : (s.reserveShort a id reserve).unfunded = s.unfunded := by
  unfold reserveShort
  split <;> rfl

theorem frame_reserveBuy (s : MatchingEngine) (a : AccountId) (symbol : Symbol) (id : OrderId)
    (price qty : ℤ) : (s.reserveBuy a symbol id price qty).frame = s.frame := rfl

theorem frame_reserveSell (s : MatchingEngine) (a : AccountId) (symbol : Symbol) (id : OrderId)
    (price qty : ℤ) : (s.reserveSell a symbol id price qty).frame = s.frame := by
  unfold reserveSell
  rw [frame_appendLedgerEntry, frame_of_unfunded (unfunded_reserveShort _ _ _ _),
    frame_of_unfunded (unfunded_reserveLong _ _ _ _ _), frame_updateAccount]

/-- The state after an order is handed to the book and its owner recorded. -/
def owned (s : MatchingEngine) (a : AccountId) (symbol : Symbol) (id : OrderId) (side : Side)
    (price qty : ℤ) (visibility : OrderVisibility) (displayQty : ℤ) : MatchingEngine :=
  { s.setBook symbol (bookAdd (s.bookFor symbol) id side price qty visibility displayQty).2 with
    orderOwnershipById := s.orderOwnershipById.insert id
      { accountId := a, symbol, side, price, qty, visibility, displayQty } }

theorem frame_restOrder (s : MatchingEngine) (a : AccountId) (symbol : Symbol) (id : OrderId)
    (side : Side) (price qty : ℤ) (visibility : OrderVisibility) (displayQty : ℤ) :
    (s.restOrder a symbol id side price qty visibility displayQty).frame =
      (s.owned a symbol id side price qty visibility displayQty).frame := by
  unfold restOrder
  cases side with
  | bid => exact frame_reserveBuy _ _ _ _ _ _
  | ask => exact frame_reserveSell _ _ _ _ _ _

/-- The state of an auction trade before it goes on the ledger. -/
def auctionReleased (s : MatchingEngine) (symbol : Symbol) (bidId askId : OrderId)
    (price qty : ℤ) : MatchingEngine :=
  ((((s.exchange symbol .bid price qty (s.ownerAccountId bidId)
    (s.ownerAccountId askId)).releaseCash (s.ownerAccountId bidId) bidId qty
      (s.ownedQty bidId qty)).releaseQty (s.ownerAccountId askId) symbol askId
        qty).releaseShortMargin (s.ownerAccountId askId) askId qty
          (s.ownedQty askId qty)).setMark symbol price

theorem unfunded_auctionReleased (s : MatchingEngine) (symbol : Symbol) (bidId askId : OrderId)
    (price qty : ℤ) :
    (s.auctionReleased symbol bidId askId price qty).unfunded = (s.setMark symbol price).unfunded := by
  have hmark : ∀ {s s' : MatchingEngine}, s.unfunded = s'.unfunded →
      (s.setMark symbol price).unfunded = (s'.setMark symbol price).unfunded :=
    fun h => congrArg (fun s : MatchingEngine => s.setMark symbol price) h
  refine hmark ?_
  rw [unfunded_releaseShortMargin, unfunded_releaseQty, unfunded_releaseCash]
  rfl

theorem unjournaled_settleAuction (s : MatchingEngine) (symbol : Symbol) (bidId askId : OrderId)
    (price qty : ℤ) : (s.settleAuction symbol bidId askId price qty).unjournaled =
      (s.auctionReleased symbol bidId askId price qty).unjournaled := by
  unfold settleAuction
  dsimp only
  rw [unjournaled_journalFee, unjournaled_journalFee, unjournaled_appendLedgerEntry,
    unjournaled_appendLedgerEntry]
  rfl

theorem frame_settleAuction (s : MatchingEngine) (symbol : Symbol) (bidId askId : OrderId)
    (price qty : ℤ) : (s.settleAuction symbol bidId askId price qty).frame = s.frame := by
  rw [frame_of_unjournaled (unjournaled_settleAuction _ _ _ _ _ _),
    frame_of_unfunded (unfunded_auctionReleased _ _ _ _ _ _)]
  rfl

theorem frame_releaseAll (s : MatchingEngine) (a : AccountId) (symbol : Symbol) (id : OrderId) :
    (s.releaseAll a symbol id).frame = s.frame := by
  have hcash : ∀ s : MatchingEngine, (s.cancelCash a symbol id).frame = s.frame := fun s => by
    unfold cancelCash
    split <;> rfl
  have hqty : ∀ s : MatchingEngine, (s.cancelQty a symbol id).frame = s.frame := fun s => by
    unfold cancelQty
    split <;> rfl
  have hshort : ∀ s : MatchingEngine, (s.cancelShortMargin a symbol id).frame = s.frame := fun s => by
    unfold cancelShortMargin
    split <;> rfl
  rw [releaseAll, hshort, hqty, hcash]

/-- A cancel takes the order out of its book and out of the owners' records. -/
theorem frame_cancelResting (s : MatchingEngine) (a : AccountId) (symbol : Symbol) (id : OrderId) :
    (s.cancelResting a symbol id).frame =
      frame { s with
        books := s.books.insert symbol ((s.bookFor symbol).cancel id).2
        orderOwnershipById := s.orderOwnershipById.erase id } := by
  have hreleased := frame_releaseAll (s.setBook symbol ((s.bookFor symbol).cancel id).2) a symbol id
  have howners := owners_of_frame hreleased
  unfold cancelResting
  dsimp only
  rw [howners]
  exact congrArg (fun r : MatchingEngine =>
    { r with orderOwnershipById := s.orderOwnershipById.erase id }) hreleased

/-! Orders for which nothing is reserved. -/

/-- Nothing is reserved for the order. -/
def Unreserved (s : MatchingEngine) (id : OrderId) : Prop :=
  s.reservedCashByOrderId.lookup id = none ∧ s.reservedQtyByOrderId.lookup id = none ∧
    s.reservedShortMarginByOrderId.lookup id = none

section Unreserved
variable {s s' : MatchingEngine} {id : OrderId}

theorem Unreserved.of_money (h : s.Unreserved id) (hmoney : s'.money = s.money) :
    s'.Unreserved id := by
  have hcash : s'.reservedCashByOrderId = s.reservedCashByOrderId :=
    congrArg Money.reservedCash hmoney
  have hqty : s'.reservedQtyByOrderId = s.reservedQtyByOrderId := congrArg Money.reservedQty hmoney
  have hshort : s'.reservedShortMarginByOrderId = s.reservedShortMarginByOrderId :=
    congrArg Money.reservedShortMargin hmoney
  unfold Unreserved
  rw [hcash, hqty, hshort]
  exact h

theorem Unreserved.of_unjournaled (h : s.Unreserved id) (hs : s'.unjournaled = s.unjournaled) :
    s'.Unreserved id := by
  have hmoney : s'.unjournaled.money = s.unjournaled.money := congrArg money hs
  exact h.of_money hmoney

/-- A release writes only where something is reserved. -/
theorem lookup_reduceEntry_none {m : Finmap fun _ : OrderId => ℤ} {id id' : OrderId}
    {reserved : ℤ} (left : ℤ) (hsome : m.lookup id = some reserved) (h : m.lookup id' = none) :
    (reduceEntry m id left).lookup id' = none := by
  have hid : id' ≠ id := by
    rintro rfl
    rw [h] at hsome
    cases hsome
  unfold reduceEntry
  split_ifs
  · rwa [Finmap.lookup_erase_ne hid]
  · rwa [Finmap.lookup_insert_of_ne _ hid]

theorem Unreserved.releaseQty (h : s.Unreserved id) (a : AccountId) (symbol : Symbol)
    (id' : OrderId) (qty : ℤ) : (s.releaseQty a symbol id' qty).Unreserved id := by
  unfold MatchingEngine.releaseQty
  split
  · exact h
  · rename_i reserved hsome
    exact ⟨h.1, lookup_reduceEntry_none _ hsome h.2.1, h.2.2⟩

theorem Unreserved.releaseCash (h : s.Unreserved id) (a : AccountId) (id' : OrderId)
    (qty before : ℤ) : (s.releaseCash a id' qty before).Unreserved id := by
  unfold MatchingEngine.releaseCash
  split
  · exact h
  · rename_i reserved hsome
    exact ⟨lookup_reduceEntry_none _ hsome h.1, h.2⟩

theorem Unreserved.releaseShortMargin (h : s.Unreserved id) (a : AccountId) (id' : OrderId)
    (qty before : ℤ) : (s.releaseShortMargin a id' qty before).Unreserved id := by
  unfold MatchingEngine.releaseShortMargin
  split
  · exact h
  · rename_i reserved hsome
    exact ⟨h.1, h.2.1, lookup_reduceEntry_none _ hsome h.2.2⟩

theorem Unreserved.settleFill (h : s.Unreserved id) (t : Taker) (fill : FillResult)
    (book : OrderBook) : (s.settleFill t fill book).Unreserved id := by
  have hpaid : ∀ side, ((s.setBook t.symbol book).exchange t.symbol side fill.price fill.qty
      t.accountId (s.ownerAccountId fill.makerId)).Unreserved id := fun _ => h
  unfold MatchingEngine.settleFill
  cases t.side with
  | bid =>
    exact ((hpaid .bid).releaseQty (s.ownerAccountId fill.makerId) t.symbol fill.makerId
      fill.qty).releaseShortMargin (s.ownerAccountId fill.makerId) fill.makerId fill.qty
      (s.ownedQty fill.makerId fill.qty)
  | ask =>
    exact (hpaid .ask).releaseCash (s.ownerAccountId fill.makerId) fill.makerId fill.qty
      (s.ownedQty fill.makerId fill.qty)

theorem Unreserved.settleAuction (h : s.Unreserved id) (symbol : Symbol) (bidId askId : OrderId)
    (price qty : ℤ) : (s.settleAuction symbol bidId askId price qty).Unreserved id := by
  have hpaid : (s.exchange symbol .bid price qty (s.ownerAccountId bidId)
      (s.ownerAccountId askId)).Unreserved id := h
  have hreleased := ((hpaid.releaseCash (s.ownerAccountId bidId) bidId qty
    (s.ownedQty bidId qty)).releaseQty (s.ownerAccountId askId) symbol askId
    qty).releaseShortMargin (s.ownerAccountId askId) askId qty (s.ownedQty askId qty)
  unfold MatchingEngine.settleAuction
  refine Unreserved.of_unjournaled ?_
    ((unjournaled_journalFee _ _ _ _ _ _).trans (unjournaled_journalFee _ _ _ _ _ _))
  exact hreleased

/-- What is released of an order is gone; of the others, all is left. -/
theorem unreserved_releaseAll (s : MatchingEngine) (a : AccountId) (symbol : Symbol)
    (id : OrderId) : (s.releaseAll a symbol id).Unreserved id ∧
      ∀ id', s.Unreserved id' → (s.releaseAll a symbol id).Unreserved id' := by
  have herase : ∀ {m : Finmap fun _ : OrderId => ℤ} {id' : OrderId}, m.lookup id' = none →
      (m.erase id).lookup id' = none := fun {m id'} h => by
    rw [Finmap.lookup_erase_ite]
    split_ifs
    · rfl
    · exact h
  have hcash : (s.cancelCash a symbol id).reservedCashByOrderId.lookup id = none ∧
      ∀ id', s.Unreserved id' → (s.cancelCash a symbol id).Unreserved id' := by
    unfold cancelCash
    split
    · rename_i hnone
      exact ⟨hnone, fun _ h => h⟩
    · exact ⟨Finmap.lookup_erase _ _, fun _ h => ⟨herase h.1, h.2⟩⟩
  have hqty : ∀ s : MatchingEngine, (s.cancelQty a symbol id).reservedQtyByOrderId.lookup id = none ∧
      (s.cancelQty a symbol id).reservedCashByOrderId = s.reservedCashByOrderId ∧
      ∀ id', s.Unreserved id' → (s.cancelQty a symbol id).Unreserved id' := fun s => by
    unfold cancelQty
    split
    · rename_i hnone
      exact ⟨hnone, rfl, fun _ h => h⟩
    · exact ⟨Finmap.lookup_erase _ _, rfl, fun _ h => ⟨h.1, herase h.2.1, h.2.2⟩⟩
  have hshort : ∀ s : MatchingEngine,
      (s.cancelShortMargin a symbol id).reservedShortMarginByOrderId.lookup id = none ∧
      (s.cancelShortMargin a symbol id).reservedCashByOrderId = s.reservedCashByOrderId ∧
      (s.cancelShortMargin a symbol id).reservedQtyByOrderId = s.reservedQtyByOrderId ∧
      ∀ id', s.Unreserved id' → (s.cancelShortMargin a symbol id).Unreserved id' := fun s => by
    unfold cancelShortMargin
    split
    · rename_i hnone
      exact ⟨hnone, rfl, rfl, fun _ h => h⟩
    · exact ⟨Finmap.lookup_erase _ _, rfl, rfl, fun _ h => ⟨h.1, h.2.1, herase h.2.2⟩⟩
  obtain ⟨hqtyNone, hqtyCash, hqtyKeeps⟩ := hqty (s.cancelCash a symbol id)
  obtain ⟨hshortNone, hshortCash, hshortQty, hshortKeeps⟩ :=
    hshort ((s.cancelCash a symbol id).cancelQty a symbol id)
  refine ⟨⟨?_, ?_, hshortNone⟩, fun id' h => hshortKeeps id' (hqtyKeeps id' (hcash.2 id' h))⟩
  · rw [releaseAll, hshortCash, hqtyCash]
    exact hcash.1
  · rw [releaseAll, hshortQty]
    exact hqtyNone

/-- Resting an order reserves for that order only. -/
theorem Unreserved.restOrder (h : s.Unreserved id) {a : AccountId} {symbol : Symbol}
    {id' : OrderId} (hid : id ≠ id') (side : Side) (price qty : ℤ) (visibility : OrderVisibility)
    (displayQty : ℤ) :
    (s.restOrder a symbol id' side price qty visibility displayQty).Unreserved id := by
  have hinsert : ∀ {m : Finmap fun _ : OrderId => ℤ} {left : ℤ}, m.lookup id = none →
      (m.insert id' left).lookup id = none := fun {m left} h => by
    rwa [Finmap.lookup_insert_of_ne _ hid]
  have howned : (s.owned a symbol id' side price qty visibility displayQty).Unreserved id := h
  have hlong : ∀ {s : MatchingEngine} (left : ℤ), s.Unreserved id →
      (s.reserveLong a symbol id' left).Unreserved id := fun left h => by
    unfold reserveLong
    split_ifs
    · exact ⟨h.1, hinsert h.2.1, h.2.2⟩
    · exact h
  have hshort : ∀ {s : MatchingEngine} (left : ℤ), s.Unreserved id →
      (s.reserveShort a id' left).Unreserved id := fun left h => by
    unfold reserveShort
    split_ifs
    · exact ⟨h.1, h.2.1, hinsert h.2.2⟩
    · exact h
  unfold MatchingEngine.restOrder
  cases side with
  | bid => exact ⟨hinsert howned.1, howned.2⟩
  | ask => exact hshort _ (hlong _ howned)

end Unreserved

/-! Only the owners change; `f` reads anything else. -/

theorem read_updateOwner {α : Type} (f : MatchingEngine → α)
    (hf : ∀ s owners, f { s with orderOwnershipById := owners } = f s) (s : MatchingEngine)
    (fill : FillResult) : f (s.updateOwner fill) = f s := by
  unfold updateOwner
  split
  · rfl
  · exact hf _ _

theorem read_reduceOwner {α : Type} (f : MatchingEngine → α)
    (hf : ∀ s owners, f { s with orderOwnershipById := owners } = f s) (s : MatchingEngine)
    (id : OrderId) (qty : ℤ) : f (s.reduceOwner id qty) = f s := by
  unfold reduceOwner
  split
  · rfl
  · exact hf _ _

end MatchingEngine
end Tes
