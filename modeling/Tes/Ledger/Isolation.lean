import Tes.Engine.Sequences
import Tes.Ledger.Trades

/-! Symbols do not interfere: what an operation on one symbol leaves alone of another. -/
namespace Tes
open OrderBook MatchingEngine EStateM

/-- Two records of an account that agree on a symbol. -/
structure AccountSnapshot.SameOn (symbol : Symbol) (a b : AccountSnapshot) : Prop where
  position : b.position symbol = a.position symbol
  averageCost : b.averageCost symbol = a.averageCost symbol
  realized : b.realizedPnlOf symbol = a.realizedPnlOf symbol
  reservedQty : b.reservedQty symbol = a.reservedQty symbol

namespace AccountSnapshot
variable {symbol other : Symbol} {a b c : AccountSnapshot}

theorem SameOn.refl (symbol : Symbol) (a : AccountSnapshot) : a.SameOn symbol a :=
  ⟨rfl, rfl, rfl, rfl⟩

theorem SameOn.trans (h : a.SameOn symbol b) (h' : b.SameOn symbol c) : a.SameOn symbol c :=
  ⟨h'.position.trans h.position, h'.averageCost.trans h.averageCost, h'.realized.trans h.realized,
    h'.reservedQty.trans h.reservedQty⟩

theorem SameHoldings.sameOn (h : a.SameHoldings b) (hqty : b.reservedQty symbol = a.reservedQty symbol) :
    a.SameOn symbol b where
  position := h.position symbol
  averageCost := by rw [AccountSnapshot.averageCost, AccountSnapshot.averageCost, h.averageCost]
  realized := by rw [realizedPnlOf, realizedPnlOf, h.realizedBySymbol]
  reservedQty := hqty

/-- A settlement moves nothing on any other symbol. -/
theorem sameOn_settle (hne : symbol ≠ other) (account : AccountSnapshot) (side : Side)
    (price qty fee : ℤ) : account.SameOn symbol (account.settle other side price qty fee) := by
  unfold settle applyPositionAccounting
  constructor
  · unfold position
    dsimp only
    rw [Finmap.valueD_insert, if_neg hne]
  · unfold averageCost
    dsimp only
    rw [Finmap.valueD_insert, if_neg hne]
  · unfold realizedPnlOf
    dsimp only
    rw [Finmap.valueD_insert, if_neg hne]
  · rfl

end AccountSnapshot

namespace MatchingEngine

/-- The order rests on the symbol, or its owner's record names it. -/
def OrderOf (s : MatchingEngine) (symbol : Symbol) (id : OrderId) : Prop :=
  s.Rests symbol id ∨ ∃ owner, s.orderOwnershipById.lookup id = some owner ∧ owner.symbol = symbol

/-- From `s` to `s'` nothing changes on the symbol. -/
structure Isolates (symbol : Symbol) (s s' : MatchingEngine) : Prop where
  book : s'.bookFor symbol = s.bookFor symbol
  pending : s'.pendingStopIds symbol = s.pendingStopIds symbol
  stops : ∀ id stop, stop.symbol = symbol →
    (s'.stopOrdersById.lookup id = some stop ↔ s.stopOrdersById.lookup id = some stop)
  sequence : s'.sequenceNumbersBySymbol.valueD symbol 0 = s.sequenceNumbersBySymbol.valueD symbol 0
  mark : s'.latestMarkBySymbol.lookup symbol = s.latestMarkBySymbol.lookup symbol
  phase : s'.tradingPhase symbol = s.tradingPhase symbol
  haltReason : s'.haltReasonsBySymbol.lookup symbol = s.haltReasonsBySymbol.lookup symbol
  band : s'.priceBandsBySymbol.lookup symbol = s.priceBandsBySymbol.lookup symbol
  owners : ∀ id owner, owner.symbol = symbol →
    (s'.orderOwnershipById.lookup id = some owner ↔ s.orderOwnershipById.lookup id = some owner)
  reserves : ∀ kind id, s.OrderOf symbol id →
    (s'.reserves kind).lookup id = (s.reserves kind).lookup id
  account : ∀ a, (s.account a).SameOn symbol (s'.account a)

variable {G : Guard} {symbol other : Symbol} {s s' s'' : MatchingEngine} {events : List Event}
  {entries : List Entry}

theorem Isolates.refl (symbol : Symbol) (s : MatchingEngine) : s.Isolates symbol s :=
  ⟨rfl, rfl, fun _ _ _ => Iff.rfl, rfl, rfl, rfl, rfl, rfl, fun _ _ _ => Iff.rfl, fun _ _ _ => rfl,
    fun _ => .refl _ _⟩

theorem Isolates.orderOf_iff (h : s.Isolates symbol s') {id : OrderId} :
    s'.OrderOf symbol id ↔ s.OrderOf symbol id := by
  unfold OrderOf Rests
  rw [h.book]
  refine or_congr_right (exists_congr fun owner => ?_)
  exact and_congr_left fun howner => h.owners id owner howner

theorem Isolates.trans (h : s.Isolates symbol s') (h' : s'.Isolates symbol s'') :
    s.Isolates symbol s'' where
  book := h'.book.trans h.book
  pending := h'.pending.trans h.pending
  stops id stop hstop := (h'.stops id stop hstop).trans (h.stops id stop hstop)
  sequence := h'.sequence.trans h.sequence
  mark := h'.mark.trans h.mark
  phase := h'.phase.trans h.phase
  haltReason := h'.haltReason.trans h.haltReason
  band := h'.band.trans h.band
  owners id owner howner := (h'.owners id owner howner).trans (h.owners id owner howner)
  reserves kind id hid := (h'.reserves kind id (h.orderOf_iff.mpr hid)).trans (h.reserves kind id hid)
  account a := (h.account a).trans (h'.account a)

/-- Steps that move money and leave the rest alone. -/
theorem Isolates.of_frame (hframe : s'.frame = s.frame)
    (hsequence : s'.sequenceNumbersBySymbol = s.sequenceNumbersBySymbol)
    (hmark : s'.latestMarkBySymbol.lookup symbol = s.latestMarkBySymbol.lookup symbol)
    (hreserves : ∀ kind id, s.OrderOf symbol id →
      (s'.reserves kind).lookup id = (s.reserves kind).lookup id)
    (haccount : ∀ a, (s.account a).SameOn symbol (s'.account a)) : s.Isolates symbol s' where
  book := bookFor_of_frame hframe symbol
  pending := by unfold pendingStopIds; rw [pendingStops_of_frame hframe]
  stops _ _ _ := by rw [stops_of_frame hframe]
  sequence := by rw [hsequence]
  mark := hmark
  phase := by unfold tradingPhase; rw [phases_of_frame hframe]
  haltReason := by
    have hreasons : s'.frame.haltReasonsBySymbol = s.frame.haltReasonsBySymbol :=
      congrArg MatchingEngine.haltReasonsBySymbol hframe
    exact congrArg (Finmap.lookup symbol) hreasons
  band := by rw [bands_of_frame hframe]
  owners _ _ _ := by rw [owners_of_frame hframe]
  reserves := hreserves
  account := haccount

theorem Isolates.of_unjournaled (hjournal : s'.unjournaled = s.unjournaled)
    (hsequence : s'.sequenceNumbersBySymbol = s.sequenceNumbersBySymbol) : s.Isolates symbol s' := by
  have hmoney := money_of_unjournaled hjournal
  have hmarks : s'.unjournaled.latestMarkBySymbol = s.unjournaled.latestMarkBySymbol :=
    congrArg MatchingEngine.latestMarkBySymbol hjournal
  refine .of_frame (frame_of_unjournaled hjournal) hsequence ?_ (fun kind id _ => ?_) fun a => ?_
  · exact congrArg (Finmap.lookup symbol) hmarks
  · rw [(Still.of_money (frame_of_unjournaled hjournal) hmoney).entries]
  · rw [account_of_money hmoney]
    exact .refl _ _

theorem isolates_setBook (hne : symbol ≠ other) (s : MatchingEngine) (book : OrderBook) :
    s.Isolates symbol (s.setBook other book) :=
  { Isolates.refl symbol s with
    book := by rw [bookFor_setBook, if_neg hne]
    reserves := fun kind id _ => by cases kind <;> rfl }

theorem isolates_exchange (hne : symbol ≠ other) (s : MatchingEngine) (side : Side) (price qty : ℤ)
    (a b : AccountId) : s.Isolates symbol (s.exchange other side price qty a b) := by
  refine .of_frame rfl rfl rfl (fun kind id _ => by cases kind <;> rfl) fun c => ?_
  rw [account_exchange]
  dsimp only
  split_ifs
  · exact (AccountSnapshot.sameOn_settle hne _ _ _ _ _).trans
      (AccountSnapshot.sameOn_settle hne _ _ _ _ _)
  · exact AccountSnapshot.sameOn_settle hne _ _ _ _ _
  · exact AccountSnapshot.sameOn_settle hne _ _ _ _ _
  · exact .refl _ _

theorem isolates_touchAccount (hne : symbol ≠ other) (s : MatchingEngine) (a : AccountId) :
    s.Isolates symbol (s.touchAccount a other) := by
  refine .of_frame rfl rfl rfl (fun kind id _ => by cases kind <;> rfl) fun b => ?_
  rw [touchAccount, account_updateAccount]
  split_ifs
  · refine ⟨?_, rfl, rfl, rfl⟩
    unfold AccountSnapshot.position
    dsimp only
    rw [Finmap.valueD_insert, if_neg hne]
  · exact .refl _ _
  · exact .refl _ _

/-- Money that moves for an order of another symbol. -/
theorem isolates_moves {a : AccountId} {id : OrderId} {delta : ReserveKind → ℤ}
    (h : s.Moves s' a other id delta) (hne : symbol ≠ other) (hid : ¬ s.OrderOf symbol id)
    (hsequence : s'.sequenceNumbersBySymbol = s.sequenceNumbersBySymbol)
    (hmark : s'.latestMarkBySymbol.lookup symbol = s.latestMarkBySymbol.lookup symbol) :
    s.Isolates symbol s' := by
  refine .of_frame h.frame hsequence hmark (fun kind id' hid' => ?_) fun b => ?_
  · exact h.others kind id' fun heq => hid (heq ▸ hid')
  · have hqty := h.reserved .qty b symbol
    rw [if_neg fun hcase => hne (hcase.2 rfl), add_zero] at hqty
    exact (h.holdings b).sameOn hqty

/-- An owner's record of another symbol. -/
theorem isolates_owner (s : MatchingEngine) {owners : Finmap fun _ : OrderId => OrderOwnership}
    (id : OrderId) (hothers : ∀ id', id' ≠ id →
      owners.lookup id' = s.orderOwnershipById.lookup id')
    (hnew : ∀ owner, owners.lookup id = some owner → owner.symbol ≠ symbol)
    (hold : ∀ owner, s.orderOwnershipById.lookup id = some owner → owner.symbol ≠ symbol) :
    s.Isolates symbol { s with orderOwnershipById := owners } := by
  refine { Isolates.refl symbol s with
    owners := fun id' owner howner => ?_, reserves := fun kind _ _ => by cases kind <;> rfl }
  by_cases hid : id' = id
  · subst hid
    exact iff_of_false (fun h => hnew owner h howner) fun h => hold owner h howner
  · dsimp only
    rw [hothers id' hid]

/-- A tracked event of another symbol. -/
theorem isolates_trackEvents (hne : symbol ≠ other) (s : MatchingEngine) {events : List Event}
    (hevents : ∀ e ∈ events, e.symbol = other) : s.Isolates symbol (s.trackEvents events) := by
  have hcount : events.countP (fun e => sequencedSymbol e = some symbol) = 0 := by
    refine List.countP_eq_zero.mpr fun e he hcounted => ?_
    have hsymbol : e.symbol = symbol := by
      have := of_decide_eq_true hcounted
      cases e <;> simp_all [sequencedSymbol, Event.symbol]
    exact hne (hsymbol.symm.trans (hevents e he))
  have hquiet : s.Isolates symbol { s.trackEvents events with
      sequenceNumbersBySymbol := s.sequenceNumbersBySymbol } :=
    .of_unjournaled (unjournaled_trackEvents s events) rfl
  refine { hquiet with
    sequence := by rw [sequences_trackEvents, valueD_advance, hcount, add_zero]
    reserves := fun kind id hid => ?_ }
  have hsame := hquiet.reserves kind id hid
  cases kind <;> exact hsame

/-- An order that may trade or take an id on another symbol is not of this one. -/
theorem not_orderOf_rests (hs : s.Sound G) (hne : symbol ≠ other) {id : OrderId}
    (h : s.Rests other id) : ¬ s.OrderOf symbol id := by
  rintro (hrests | ⟨owner, howner, hsymbol⟩)
  · exact hne (hs.rests_unique hrests h)
  · exact hne (hsymbol.symm.trans (hs.owner_symbol howner h))

theorem not_orderOf_free (hne : symbol ≠ other) {id : OrderId} (h : s.Free other id) :
    ¬ s.OrderOf symbol id := by
  rintro (hrests | ⟨owner, howner, hsymbol⟩)
  · exact h.rests symbol hrests
  · exact hne (hsymbol.symm.trans (h.owner owner howner))

/-- A fill's maker rests on the taker's symbol. -/
theorem maker_rests (hs : s.Sound G) {t : Taker} {fill : FillResult} {book : OrderBook}
    (hnext : s.nextFill t = some (fill, book)) : s.Rests t.symbol fill.makerId := by
  obtain ⟨maker, rest, hfill, -⟩ := nextFill_some (hs.book t.symbol) hnext
  unfold Rests
  rw [hfill.makerId, hfill.found]
  exact Option.some_ne_none _

theorem orderOf_setBook (hne : symbol ≠ other) (book : OrderBook) {id : OrderId}
    (h : ¬ s.OrderOf symbol id) : ¬ (s.setBook other book).OrderOf symbol id := by
  unfold OrderOf Rests
  rw [bookFor_setBook, if_neg hne]
  exact h

theorem orderOf_of_frame (hframe : s'.frame = s.frame) {id : OrderId} (h : ¬ s.OrderOf symbol id) :
    ¬ s'.OrderOf symbol id := by
  unfold OrderOf Rests
  rw [bookFor_of_frame hframe, owners_of_frame hframe]
  exact h

theorem marks_settleFill (s : MatchingEngine) (t : Taker) (fill : FillResult) (book : OrderBook) :
    (s.settleFill t fill book).latestMarkBySymbol =
      s.latestMarkBySymbol.insert t.symbol (fill.price : ℚ) :=
  (marks_of_unfunded (unfunded_settleFill s t fill book)).trans rfl

theorem isolates_paid (hne : symbol ≠ other) {t : Taker} (ht : t.symbol = other) (fill : FillResult)
    (book : OrderBook) : s.Isolates symbol (s.paid t fill book) := by
  subst ht
  exact (isolates_setBook hne s book).trans (isolates_exchange hne _ _ _ _ _ _)

theorem isolates_settleFill (hs : s.Sound G) (hne : symbol ≠ other) {t : Taker}
    (ht : t.symbol = other) {fill : FillResult} {book : OrderBook}
    (hnext : s.nextFill t = some (fill, book)) : s.Isolates symbol (s.settleFill t fill book) := by
  subst ht
  refine (isolates_paid hne rfl fill book).trans ?_
  have hfree := settleFill_frees s t (nextFill_qty_pos hs hnext).le book
  refine isolates_moves hfree.toMoves hne ?_ ?_ ?_
  · exact orderOf_of_frame rfl (orderOf_setBook hne _ (not_orderOf_rests hs hne (maker_rests hs hnext)))
  · exact (sequences_settleFill s t fill book).trans rfl
  · rw [marks_settleFill, Finmap.lookup_insert_of_ne _ hne]
    rfl

theorem isolates_journaled (hs : s.Sound G) (hne : symbol ≠ other) {t : Taker}
    (ht : t.symbol = other) {fill : FillResult} {book : OrderBook}
    (hnext : s.nextFill t = some (fill, book)) : s.Isolates symbol (s.journaled t fill book) :=
  (isolates_settleFill hs hne ht hnext).trans
    (.of_unjournaled (unjournaled_journalFill _ _ _ _) (sequences_journalFill _ _ _ _))

/-- A record of another symbol that shrinks or goes. -/
theorem isolates_reduced {id : OrderId} {owner owner' : OrderOwnership} {gone : Prop} [Decidable gone]
    (howner : s.orderOwnershipById.lookup id = some owner) (hsame : owner'.symbol = owner.symbol)
    (h : ¬ s.OrderOf symbol id) :
    s.Isolates symbol { s with
      orderOwnershipById := if gone then s.orderOwnershipById.erase id
        else s.orderOwnershipById.insert id owner' } := by
  have hold : owner.symbol ≠ symbol := fun heq => h (Or.inr ⟨owner, howner, heq⟩)
  refine isolates_owner s id (fun id' hid => ?_) (fun other hother => ?_) fun other hother => ?_
  · split_ifs
    · exact Finmap.lookup_erase_ne hid
    · exact Finmap.lookup_insert_of_ne _ hid
  · split_ifs at hother
    · rw [Finmap.lookup_erase] at hother
      cases hother
    · rw [Finmap.lookup_insert] at hother
      cases hother
      rwa [hsame]
  · rw [howner] at hother
    cases hother
    exact hold

theorem isolates_updateOwner (fill : FillResult) (h : ¬ s.OrderOf symbol fill.makerId) :
    s.Isolates symbol (s.updateOwner fill) := by
  unfold updateOwner
  split
  · exact .refl _ _
  · rename_i owner howner
    exact isolates_reduced howner rfl h

theorem isolates_reduceOwner (id : OrderId) (qty : ℤ) (h : ¬ s.OrderOf symbol id) :
    s.Isolates symbol (s.reduceOwner id qty) := by
  unfold reduceOwner
  split
  · exact .refl _ _
  · rename_i owner howner
    exact isolates_reduced howner rfl h

theorem marks_rested (s : MatchingEngine) (t : Taker) :
    (t.rested s).latestMarkBySymbol = s.latestMarkBySymbol := by
  have hsell : ∀ s : MatchingEngine, (s.reserveSell t.accountId t.symbol t.id t.price
      t.remaining).latestMarkBySymbol = s.latestMarkBySymbol := fun s => by
    have hunfunded := unfunded_reserveShort ((s.updateAccount t.accountId fun account =>
      account.openSymbol t.symbol).reserveLong t.accountId t.symbol t.id ((s.updateAccount t.accountId
        fun account => account.openSymbol t.symbol).longReserveOf t.accountId t.symbol t.remaining))
      t.accountId t.id
    unfold reserveSell
    exact (marks_of_unfunded (hunfunded _)).trans (marks_of_unfunded (unfunded_reserveLong _ _ _ _ _))
  unfold Taker.rested restOrder
  cases t.side with
  | bid => rfl
  | ask => exact hsell _

theorem marks_releaseAll (s : MatchingEngine) (a : AccountId) (other : Symbol) (id : OrderId) :
    (s.releaseAll a other id).latestMarkBySymbol = s.latestMarkBySymbol := by
  have hcash : ∀ s : MatchingEngine, (s.cancelCash a other id).latestMarkBySymbol =
      s.latestMarkBySymbol := fun s => by
    unfold cancelCash
    split <;> rfl
  have hqty : ∀ s : MatchingEngine, (s.cancelQty a other id).latestMarkBySymbol =
      s.latestMarkBySymbol := fun s => by
    unfold cancelQty
    split <;> rfl
  have hshort : ∀ s : MatchingEngine, (s.cancelShortMargin a other id).latestMarkBySymbol =
      s.latestMarkBySymbol := fun s => by
    unfold cancelShortMargin
    split <;> rfl
  rw [releaseAll, hshort, hqty, hcash]

theorem isolates_rested (hne : symbol ≠ other) {t : Taker} (ht : t.symbol = other)
    (hfree : s.Free other t.id) (hqty : 0 ≤ t.remaining) : s.Isolates symbol (t.rested s) := by
  subst ht
  have hnot := not_orderOf_free hne hfree
  have howned : s.Isolates symbol (t.ownedIn s) := by
    refine (isolates_setBook hne s _).trans (isolates_owner _ t.id (fun id' hid => ?_)
      (fun owner howner => ?_) fun owner howner => ?_)
    · exact Finmap.lookup_insert_of_ne _ hid
    · rw [Finmap.lookup_insert] at howner
      cases howner
      exact Ne.symm hne
    · exact fun heq => hnot (Or.inr ⟨owner, howner, heq⟩)
  have hsets : ∀ kind, s.Sets (t.rested s) kind t.accountId t.symbol t.id (t.reserve s kind) :=
    fun kind => rested_sets hqty kind
  have hmoney : (t.ownedIn s).Isolates symbol (t.rested s) := by
    refine .of_frame (frame_restOrder _ _ _ _ _ _ _ _ _) ?_ ?_ (fun kind id' hid' => ?_) fun b => ?_
    · exact sequences_restOrder _ _ _ _ _ _ _ _ _
    · exact congrArg (Finmap.lookup symbol) (marks_rested s t)
    · have hid : id' ≠ t.id := fun heq => by
        subst heq
        rcases hid' with hrests | ⟨owner, howner, hsymbol⟩
        · have hsame : s.Rests symbol t.id := by
            unfold Rests at hrests ⊢
            rwa [howned.book] at hrests
          exact hnot (Or.inl hsame)
        · exact hnot (Or.inr ⟨owner, (howned.owners _ owner hsymbol).mp howner, hsymbol⟩)
      rw [(hsets kind).others id' hid]
      cases kind <;> rfl
    · have hqty := (hsets .qty).reserved b symbol
      rw [if_neg fun hcase => hne (hcase.2 rfl), add_zero] at hqty
      exact (rested_sameHoldings t s b).sameOn hqty
  exact howned.trans hmoney

theorem isolates_cancelResting (hs : s.Sound G) (hne : symbol ≠ other) {id : OrderId}
    (hrests : s.Rests other id) (a : AccountId) : s.Isolates symbol (s.cancelResting a other id) := by
  have hnot := not_orderOf_rests hs hne hrests
  have hbook := isolates_setBook hne s ((s.bookFor other).cancel id).2
  have hreleases := ((s.setBook other ((s.bookFor other).cancel id).2).releaseAll_releases a other id).1
  have hframe := hreleases.frame
  have hreleased : (s.setBook other ((s.bookFor other).cancel id).2).Isolates symbol
      ((s.setBook other ((s.bookFor other).cancel id).2).releaseAll a other id) :=
    isolates_moves hreleases.toMoves hne (orderOf_setBook hne _ hnot) (sequences_cancelResting s a other id)
      (congrArg (Finmap.lookup symbol) (marks_releaseAll _ a other id))
  refine hbook.trans (hreleased.trans (isolates_owner _ id (fun id' hid => ?_)
    (fun owner howner => ?_) fun owner howner => ?_))
  · exact Finmap.lookup_erase_ne hid
  · rw [Finmap.lookup_erase] at howner
    cases howner
  · rw [owners_of_frame hframe] at howner
    exact fun heq => hnot (Or.inr ⟨owner, howner, heq⟩)

/-- Stop orders of another symbol. -/
theorem isolates_withStops (s : MatchingEngine) {stops : Finmap fun _ : OrderId => StopOrderState}
    {pending : Finmap fun _ : Symbol => List OrderId} (id : OrderId)
    (hothers : ∀ id', id' ≠ id → stops.lookup id' = s.stopOrdersById.lookup id')
    (hnew : ∀ stop, stops.lookup id = some stop → stop.symbol ≠ symbol)
    (hold : ∀ stop, s.stopOrdersById.lookup id = some stop → stop.symbol ≠ symbol)
    (hpending : pending.valueD symbol [] = s.pendingStopIds symbol) :
    s.Isolates symbol (s.withStops stops pending) := by
  refine { Isolates.refl symbol s with
    pending := hpending, stops := fun id' stop hstop => ?_
    reserves := fun kind _ _ => by cases kind <;> rfl }
  by_cases hid : id' = id
  · subst hid
    exact iff_of_false (fun h => hnew stop h hstop) fun h => hold stop h hstop
  · unfold withStops
    dsimp only
    rw [hothers id' hid]

theorem isolates_dropStop (hne : symbol ≠ other) {id : OrderId} {stop : StopOrderState}
    (hstop : s.stopOrdersById.lookup id = some stop) (hsymbol : stop.symbol = other) :
    s.Isolates symbol (s.dropStop other id) := by
  refine isolates_withStops s id (fun id' hid => Finmap.lookup_erase_ne hid)
    (fun stop' h => ?_) (fun stop' h => ?_) ?_
  · rw [Finmap.lookup_erase] at h
    cases h
  · rw [hstop] at h
    cases h
    exact hsymbol ▸ Ne.symm hne
  · rw [Finmap.valueD_insert, if_neg hne]
    rfl

theorem isolates_addStop (hne : symbol ≠ other) {stop : StopOrderState} (hsymbol : stop.symbol = other)
    (hfree : s.Free other stop.sequence) : s.Isolates symbol (s.addStop stop) := by
  refine isolates_withStops s stop.sequence (fun id' hid => Finmap.lookup_insert_of_ne _ hid)
    (fun stop' h => ?_) (fun stop' h => ?_) ?_
  · rw [Finmap.lookup_insert] at h
    cases h
    exact hsymbol ▸ Ne.symm hne
  · rw [hfree.stop] at h
    cases h
  · rw [Finmap.valueD_insert, if_neg (hsymbol ▸ hne)]
    rfl

theorem isolates_withReplacedStop (hne : symbol ≠ other) {id : OrderId} {stop : StopOrderState}
    (hstop : s.stopOrdersById.lookup id = some stop) (hsymbol : stop.symbol = other)
    (newStopPrice newQty : ℤ) (newLimitPrice : Option ℤ) :
    s.Isolates symbol (s.withReplacedStop id stop newStopPrice newQty newLimitPrice) := by
  have hold : stop.symbol ≠ symbol := hsymbol ▸ Ne.symm hne
  refine isolates_withStops s id (fun id' hid => Finmap.lookup_insert_of_ne _ hid)
    (fun stop' h => ?_) (fun stop' h => ?_) rfl
  · rw [Finmap.lookup_insert] at h
    cases h
    exact hold
  · rw [hstop] at h
    cases h
    exact hold

theorem isolates_withHalt (hne : symbol ≠ other) (s : MatchingEngine) (reason : String) :
    s.Isolates symbol (s.withHalt other reason) :=
  { Isolates.refl symbol s with
    phase := by
      unfold tradingPhase withHalt
      dsimp only
      rw [Finmap.valueD_insert, if_neg hne]
    haltReason := Finmap.lookup_insert_of_ne _ hne
    reserves := fun kind _ _ => by cases kind <;> rfl }

theorem isolates_auctionEnded (hne : symbol ≠ other) (s : MatchingEngine) :
    s.Isolates symbol (s.auctionEnded other) :=
  { Isolates.refl symbol s with
    phase := by
      unfold tradingPhase auctionEnded
      dsimp only
      rw [Finmap.valueD_insert, if_neg hne]
    reserves := fun kind _ _ => by cases kind <;> rfl }

theorem isolates_allocated (symbol : Symbol) (s : MatchingEngine) : s.Isolates symbol s.allocated :=
  { Isolates.refl symbol s with reserves := fun kind _ _ => by cases kind <;> rfl }

theorem isolates_triggerStop (hne : symbol ≠ other) {id : OrderId} {stop : StopOrderState}
    (hstop : s.stopOrdersById.lookup id = some stop) (hsymbol : stop.symbol = other) :
    s.Isolates symbol (s.triggerStop other id stop) :=
  ((isolates_dropStop hne hstop hsymbol).trans (isolates_allocated symbol _)).trans
    (.of_unjournaled rfl rfl)

theorem isolates_auctionTraded (hs : s.Sound G) (hne : symbol ≠ other) {price qty : ℤ}
    {bid ask : FillResult} {book book' : OrderBook} (hqty : 0 ≤ qty)
    (hbid : (s.bookFor other).fillBestAtOrBetter .bid price qty = some (bid, book))
    (hask : book.fillBestAtOrBetter .ask price qty = some (ask, book')) :
    s.Isolates symbol (s.auctionTraded other price qty bid.makerId ask.makerId book') := by
  obtain ⟨maker, rest, hfill, -⟩ := fillBestAtOrBetter_some (hs.book other) hbid
  obtain ⟨maker', rest', hfill', -⟩ := fillBestAtOrBetter_some hfill.wellFormed_after hask
  have hrests : s.Rests other bid.makerId := by
    unfold Rests
    rw [hfill.makerId, hfill.found]
    exact Option.some_ne_none _
  have hrests' : s.Rests other ask.makerId := by
    have hfound : book.findOrder ask.makerId ≠ none := by
      rw [hfill'.makerId, hfill'.found]
      exact Option.some_ne_none _
    exact rests_of_fill hfill.toFillStep hfound
  have hnot := orderOf_setBook hne book' (not_orderOf_rests hs hne hrests)
  have hnot' := orderOf_setBook hne book' (not_orderOf_rests hs hne hrests')
  obtain ⟨hfirst, hsecond⟩ := (s.setBook other book').settleAuction_frees other bid.makerId
    ask.makerId price hqty
  have hpaid := (isolates_setBook hne s book').trans (isolates_exchange hne (s.setBook other book') .bid
    price qty ((s.setBook other book').ownerAccountId bid.makerId)
    ((s.setBook other book').ownerAccountId ask.makerId))
  have hcash := unfunded_releaseCash ((s.setBook other book').exchange other .bid price qty
    ((s.setBook other book').ownerAccountId bid.makerId)
    ((s.setBook other book').ownerAccountId ask.makerId))
    ((s.setBook other book').ownerAccountId bid.makerId) bid.makerId qty
    ((s.setBook other book').ownedQty bid.makerId qty)
  have hreleased := isolates_moves hfirst.toMoves hne (orderOf_of_frame rfl hnot)
    (sequences_of_unfunded hcash) (congrArg (Finmap.lookup symbol) (marks_of_unfunded hcash))
  have hmarks : ((s.setBook other book').settleAuction other bid.makerId ask.makerId price
      qty).latestMarkBySymbol = s.latestMarkBySymbol.insert other (price : ℚ) := by
    have hjournal : _ = ((s.setBook other book').auctionReleased other bid.makerId ask.makerId price
        qty).unjournaled.latestMarkBySymbol := congrArg MatchingEngine.latestMarkBySymbol
      (unjournaled_settleAuction (s.setBook other book') other bid.makerId ask.makerId price qty)
    exact hjournal.trans (marks_of_unfunded (unfunded_auctionReleased _ _ _ _ _ _))
  have hbidFrame : ((s.setBook other book').bidReleased other bid.makerId ask.makerId price qty).frame =
      (s.setBook other book').frame := hfirst.frame
  have hsettled := isolates_moves hsecond.toMoves hne (orderOf_of_frame hbidFrame hnot')
    (by
      rw [sequences_settleAuction]
      exact (sequences_of_unfunded hcash).symm)
    (by
      rw [hmarks, Finmap.lookup_insert_of_ne _ hne]
      exact (congrArg (Finmap.lookup symbol) (marks_of_unfunded hcash)).symm)
  have hframe := frame_settleAuction (s.setBook other book') other bid.makerId ask.makerId price qty
  have hboth := (hpaid.trans hreleased).trans hsettled
  have hreduced := isolates_reduceOwner bid.makerId qty (orderOf_of_frame hframe hnot)
  refine (hboth.trans hreduced).trans (isolates_reduceOwner ask.makerId qty fun h => ?_)
  exact orderOf_of_frame hframe hnot' (hreduced.orderOf_iff.mp h)

end MatchingEngine

/-! Steps on another symbol. -/
section Steps
variable {G : Guard} {symbol other : Symbol} {s s' : MatchingEngine} {events : List Event}
  {entries : List Entry}

theorem Matches.isolates {t t' : Taker} (h : Matches s t events s' t') (hs : s.Sound G)
    (hne : symbol ≠ t.symbol) : s.Isolates symbol s' := by
  induction h with
  | done => exact .refl _ _
  | breach hnext =>
    exact (isolates_settleFill hs hne rfl hnext).trans (isolates_withHalt hne _ _)
  | @fill s s' t t' fill book events hnext hband hhold _ ih =>
    have hjournaled := isolates_journaled hs hne rfl hnext
    have hnot : ¬ (s.journaled t fill book).OrderOf symbol fill.makerId := fun h =>
      not_orderOf_rests hs hne (maker_rests hs hnext) (hjournaled.orderOf_iff.mp h)
    have hfilled := hjournaled.trans (isolates_updateOwner fill hnot)
    exact hfilled.trans (ih ((narrows_filled hs hnext).sound hs) hne)

theorem Fails.isolates {t : Taker} (h : Fails s t s') (hs : s.Sound G) (hne : symbol ≠ t.symbol) :
    s.Isolates symbol s' := by
  induction h with
  | abort hnext => exact isolates_journaled hs hne rfl hnext
  | @fill s s' t fill book hnext hband hhold _ ih =>
    have hjournaled := isolates_journaled hs hne rfl hnext
    have hnot : ¬ (s.journaled t fill book).OrderOf symbol fill.makerId := fun h =>
      not_orderOf_rests hs hne (maker_rests hs hnext) (hjournaled.orderOf_iff.mp h)
    have hfilled := hjournaled.trans (isolates_updateOwner fill hnot)
    exact hfilled.trans (ih ((narrows_filled hs hnext).sound hs) hne)

theorem Finishes.isolates {t : Taker} (h : Finishes s t events s') (hflight : s.InFlight t)
    (hne : symbol ≠ t.symbol) : s.Isolates symbol s' := by
  cases h with
  | rest => exact isolates_rested hne rfl hflight.free hflight.remaining
  | expire => exact .of_unjournaled rfl rfl
  | done => exact .refl _ _

theorem Crosses.isolates {price qty remaining : ℤ} {steps : List (OrderBook × ℤ)}
    (h : Crosses other price s qty events steps s' remaining) (hs : s.Sound G) (hne : symbol ≠ other) :
    s.Isolates symbol s' := by
  induction h with
  | refl => exact .refl _ _
  | @trade s s' remaining traded remaining' bid ask book book' events steps hqty hbid hask _ ih =>
    have hpos := (nextAuctionQty_some (hs.book other) hqty).1
    exact (isolates_auctionTraded hs hne hpos.le hbid hask).trans
      (ih ((narrows_auctionTraded hs hbid hask).sound hs))

theorem Placing.isolates (h : Placing G other s events entries s') (hs : s.Sound G)
    (hne : symbol ≠ other) : s.Isolates symbol s' := by
  cases h with
  | touch => exact isolates_touchAccount hne s _
  | report => exact .refl _ _
  | audit => exact .of_unjournaled rfl rfl
  | restAuction hsymbol hadmits =>
    subst hsymbol
    exact isolates_rested hne rfl hadmits.inFlight.1.free hadmits.inFlight.2.le
  | @enter s' _ t t' _ _ hsymbol hadmits haccount hphase hfok hmatches hfinishes =>
    subst hsymbol
    have hopen : s.Sound G.open := hs.of_guard (fun _ ha => ha) fun _ ha => ha
    have hflight := (hmatches.path (G := G.open)).invariant (I := Config.Sound G.open) Tick.sound
      ⟨hopen, hadmits.inFlight.1, haccount⟩
    exact (hmatches.isolates hs hne).trans
      (hfinishes.isolates hflight.2.1 (hmatches.symbol_eq ▸ hne))

/-- A step on one symbol leaves every other alone. -/
theorem Step.isolates (h : Step G other s events entries s') (hs : s.Sound G) (hne : symbol ≠ other) :
    s.Isolates symbol s' := by
  cases h with
  | placing h => exact h.isolates hs hne
  | allocate => exact isolates_allocated symbol s
  | track hevents => exact isolates_trackEvents hne s hevents
  | cancel howner hsymbol hrests => exact isolates_cancelResting hs hne hrests _
  | addStop hsymbol haccount hfree howner => exact isolates_addStop hne hsymbol hfree
  | dropStop hstop hsymbol => exact isolates_dropStop hne hstop hsymbol
  | replaceStop hstop hsymbol => exact isolates_withReplacedStop hne hstop hsymbol _ _ _
  | trigger hstop hsymbol => exact isolates_triggerStop hne hstop hsymbol
  | haltAuction => exact isolates_withHalt hne s _
  | cross hauction hcrosses => exact hcrosses.isolates hs hne
  | endAuction => exact isolates_auctionEnded hne s

theorem Steps.isolates (h : Steps (Step G other) s events entries s') (hs : s.Sound G)
    (hne : symbol ≠ other) : s.Isolates symbol s' := by
  induction h with
  | refl => exact .refl _ _
  | step hr _ ih => exact (hr.isolates hs hne).trans (ih (hr.sound hs))

theorem Broken.isolates (h : Broken G other s entries s') (hs : s.Sound G) (hne : symbol ≠ other) :
    s.Isolates symbol s' := by
  obtain ⟨events, s₁, made, more, hsteps, hbreaks, rfl⟩ := h
  refine (hsteps.isolates hs hne).trans ?_
  have hs₁ := hsteps.sound hs
  cases hbreaks with
  | entry hsymbol hadmits haccount hphase hfok hfails => exact hfails.isolates hs₁ (hsymbol ▸ hne)
  | auction hauction hcrosses => exact hcrosses.isolates hs₁ hne

end Steps

/-- A setting of one symbol leaves every other alone. -/
theorem Op.isolates_setting {op : Op} {symbol : Symbol} {s : MatchingEngine} (h : op.isSetting)
    (hne : symbol ≠ op.symbol s) :
    Outcome op.exec s (fun _ s' => s.Isolates symbol s') fun _ s' => s.Isolates symbol s' := by
  cases op with
  | setFeeModel model =>
    simp only [Op.exec, MatchingEngine.setFeeModel]
    split_ifs
    · exact .refl _ _
    · exact .refl _ _
    · exact { Isolates.refl symbol s with reserves := fun kind _ _ => by cases kind <;> rfl }
  | setAccountRiskConfig a config =>
    simp only [Op.exec, MatchingEngine.setAccountRiskConfig]
    split_ifs
    · exact .refl _ _
    · exact .refl _ _
    · exact { Isolates.refl symbol s with reserves := fun kind _ _ => by cases kind <;> rfl }
  | haltSymbol other reason => exact isolates_withHalt hne s reason
  | resumeSymbol other =>
    have hresumed : s.Isolates symbol { s with
        tradingPhasesBySymbol := s.tradingPhasesBySymbol.insert other .continuous
        haltReasonsBySymbol := s.haltReasonsBySymbol.erase other } :=
      { isolates_auctionEnded hne s with
        haltReason := Finmap.lookup_erase_ne hne
        reserves := fun kind _ _ => by cases kind <;> rfl }
    simp only [Op.exec, MatchingEngine.resumeSymbol, outcome_bind, outcome_get, outcome_set]
    split_ifs
    · exact hresumed
    · exact hresumed
  | setPriceBands other lower upper =>
    simp only [Op.exec, MatchingEngine.setPriceBands]
    split
    · exact .refl _ _
    · exact { Isolates.refl symbol s with
        band := Finmap.lookup_insert_of_ne _ hne
        reserves := fun kind _ _ => by cases kind <;> rfl }
  | clearPriceBands other =>
    exact { Isolates.refl symbol s with
      band := Finmap.lookup_erase_ne hne
      reserves := fun kind _ _ => by cases kind <;> rfl }
  | setTradingPhase other phase =>
    have hphase : s.Isolates symbol (s.withPhase other phase) :=
      { Isolates.refl symbol s with
        phase := by
          unfold tradingPhase withPhase
          dsimp only
          rw [Finmap.valueD_insert]
          exact if_neg hne
        haltReason := by
          unfold withPhase
          dsimp only
          split_ifs
          · exact Finmap.lookup_erase_ne hne
          · rfl
          · exact Finmap.lookup_insert_of_ne _ hne
        reserves := fun kind _ _ => by cases kind <;> rfl }
    exact hphase
  | _ => exact absurd h id

theorem Op.isolates_setAccountState {symbol other : Symbol} (hne : symbol ≠ other)
    (s : MatchingEngine) (a : AccountId) (cash qty : ℤ) :
    s.Isolates symbol (s.updateAccount a fun account => account.withState other cash qty) := by
  refine .of_frame rfl rfl rfl (fun kind id _ => by cases kind <;> rfl) fun b => ?_
  rw [account_updateAccount]
  split_ifs
  · refine ⟨?_, rfl, rfl, rfl⟩
    unfold AccountSnapshot.position AccountSnapshot.withState
    dsimp only
    rw [Finmap.valueD_insert, if_neg hne]
  · exact .refl _ _

/-- An operation leaves every symbol alone but its own, whether it returns or throws, and the
events it returns are of its own. -/
theorem Op.exec_isolates {s : MatchingEngine} (h : Reachable s) (op : Op) :
    Outcome op.exec s
      (fun events s' => (∀ e ∈ events, e.symbol = op.symbol s) ∧
        ∀ symbol, symbol ≠ op.symbol s → s.Isolates symbol s')
      fun _ s' => ∀ symbol, symbol ≠ op.symbol s → s.Isolates symbol s' := by
  have hs := h.sound
  by_cases hsetting : op.isSetting
  · have hevents := Op.exec_controls hsetting s
    have hstate := fun (symbol : Symbol) (hne : symbol ≠ op.symbol s) =>
      Op.isolates_setting hsetting hne
    unfold Outcome at *
    cases hexec : op.exec s with
    | ok events s' =>
      rw [hexec] at hevents
      simp only [hexec] at hstate
      exact ⟨fun e he => (hevents e he).2, hstate⟩
    | error e s' =>
      simp only [hexec] at hstate
      exact hstate
  · by_cases hstate : ∃ a symbol cash qty, op = .setAccountState a symbol cash qty
    · obtain ⟨a, other, cash, qty, rfl⟩ := hstate
      exact ⟨by simp, fun symbol hne => Op.isolates_setAccountState hne s a cash qty⟩
    · push Not at hstate
      exact (Op.exec_steps hs (fun _ _ => trivial) (fun _ _ _ => trivial) (fun _ _ => trivial)
        hsetting hstate).mono
        (fun _ _ hsteps => ⟨hsteps.tagged, fun symbol hne => hsteps.isolates hs hne⟩)
        fun _ _ hbroken symbol hne => hbroken.isolates hs hne

/-- Bids on two symbols, one of which the next order trades with. -/
def twoBids : List Op :=
  [.setAccountState 1 "X" 5000 0, .setAccountState 2 "X" 0 5, .placeLimitOrder 1 "Y" .bid 90 5 .gtc,
    .placeLimitOrder 1 "X" .bid 100 3 .gtc]

theorem exec_isolates_twoBids :
    Outcome (Op.placeLimitOrder 2 "X" .ask 100 5 .gtc).exec (fresh.applyAll twoBids)
      (fun events s' => (∀ e ∈ events, e.symbol = "X") ∧
        ∀ symbol, symbol ≠ "X" → (fresh.applyAll twoBids).Isolates symbol s')
      fun _ s' => ∀ symbol, symbol ≠ "X" → (fresh.applyAll twoBids).Isolates symbol s' := by
  have hreach := reachable_applyAll twoBids
  exact Op.exec_isolates hreach (.placeLimitOrder 2 "X" .ask 100 5 .gtc)

end Tes
