import Tes.Engine.Ticks

/-! What every tick keeps: well-formed books, and ids that name one order. -/
namespace Tes
open OrderBook Flight

namespace MatchingEngine

theorem bookFor_setBook (s : MatchingEngine) (symbol symbol' : Symbol) (book : OrderBook) :
    (s.setBook symbol book).bookFor symbol' =
      if symbol' = symbol then book else s.bookFor symbol' :=
  Finmap.valueD_insert _ _ _ _ _

theorem bookFor_cancelResting (s : MatchingEngine) (a : AccountId) (symbol symbol' : Symbol)
    (id : OrderId) : (s.cancelResting a symbol id).bookFor symbol' =
      if symbol' = symbol then ((s.bookFor symbol).cancel id).2 else s.bookFor symbol' := by
  rw [bookFor_of_frame (frame_cancelResting s a symbol id), ← bookFor_setBook]
  rfl

/-! The next fill of a taker. -/
section NextFill
variable {s : MatchingEngine} {t : Taker}

theorem nextFill_some {fill : FillResult} {book : OrderBook}
    (hb : (s.bookFor t.symbol).WellFormed) (h : s.nextFill t = some (fill, book)) :
    ∃ maker rest, BestFill (s.bookFor t.symbol) book t.side.opposite t.remaining fill maker rest ∧
      crosses t.side t.price maker.price := by
  unfold nextFill at h
  split_ifs at h with hpos
  rw [hb.bestMatchPrice_eq] at h
  cases hbest : (s.bookFor t.symbol).bestPrice t.side.opposite with
  | none => simp [hbest] at h
  | some price =>
    rw [hbest, Option.filter_some] at h
    split_ifs at h with hcross
    · simp only [decide_eq_true_eq] at hcross
      simp only [if_pos hcross] at h
      obtain ⟨maker, rest, hfill, hprice⟩ := fillBest_some hb h
      rw [hbest, Option.some.injEq] at hprice
      exact ⟨maker, rest, hfill, hprice ▸ hcross⟩

theorem nextFill_eq_none (hb : (s.bookFor t.symbol).WellFormed) : s.nextFill t = none ↔
    t.remaining ≤ 0 ∨ (s.bookFor t.symbol).executableQty t.side t.price = 0 := by
  unfold nextFill
  split_ifs with hpos
  · rw [← hb.bestMatchPrice_eq_none, hb.bestMatchPrice_eq]
    cases hbest : (s.bookFor t.symbol).bestPrice t.side.opposite with
    | none => simp
    | some price =>
      rw [Option.filter_some]
      split_ifs with hcross
      · simp only [decide_eq_true_eq] at hcross
        have := hb.fillBest_ne_none hpos hbest
        simp only [if_pos hcross]
        constructor
        · exact fun h => absurd h this
        · rintro (h | h)
          · omega
          · cases h
      · simp
  · simp only [true_iff]
    exact Or.inl (by omega)

end NextFill
end MatchingEngine

/-! Resting an order. -/

/-- The order the book would rest. -/
def Taker.order (t : Taker) : Order :=
  arrange { id := t.id, side := t.side, price := t.price, qty := t.remaining,
            displayQty := t.displayQty } t.visibility

/-- The clip of the remainder is larger than the remainder, which the book turns away. -/
def Taker.refused (t : Taker) : Prop := t.visibility = .iceberg ∧ t.remaining < t.displayQty

instance (t : Taker) : Decidable t.refused := inferInstanceAs (Decidable (_ ∧ _))

/-- The terms of an order that validation has let through. -/
structure Taker.Valid (t : Taker) : Prop where
  price : 0 ≤ t.price
  display : t.visibility = .iceberg → 0 < t.displayQty

namespace MatchingEngine

/-- What the book makes of the remainder. -/
def addRemainder (book : OrderBook) (t : Taker) : List Event × OrderBook :=
  bookAdd book t.id t.side t.price t.remaining t.visibility t.displayQty

theorem addRemainder_eq {book : OrderBook} {t : Taker} (hvalid : t.Valid)
    (hpos : 0 < t.remaining) (hfree : book.orderIndex.lookup t.id = none) :
    addRemainder book t =
      if t.refused then ([], book)
      else (acceptedEvent t.order ::
        (book.insertOrder t.order).maybeEmitTopOfBookChange defaultSymbol book.bestBid
          book.bestAsk, book.insertOrder t.order) := by
  have hindex : t.id ∉ book.orderIndex := Finmap.lookup_eq_none.mp hfree
  obtain ⟨hprice, hdisplay⟩ := hvalid
  obtain ⟨a, symbol, id, side, price, qty, tif, visibility, displayQty⟩ := t
  dsimp only at *
  unfold addRemainder bookAdd Taker.order Taker.refused
  cases visibility with
  | displayed =>
    have hrefuse : ¬ book.refuses ⟨id, side, price, qty, .displayed, 0, 0, 0⟩ .displayed := by
      simp [refuses, hprice, hpos, hindex]
    simp only [addLimitOrder, addOrder, if_neg hrefuse]
    simp [arrange]
  | hidden =>
    have hrefuse : ¬ book.refuses ⟨id, side, price, qty, .displayed, 0, 0, 0⟩ .hidden := by
      simp [refuses, hprice, hpos, hindex]
    simp only [addHiddenOrder, addOrder, if_neg hrefuse]
    simp [arrange]
  | iceberg =>
    have hrefuse : book.refuses ⟨id, side, price, qty, .iceberg, qty, displayQty, 0⟩ .iceberg ↔
        qty < displayQty := by
      simp [refuses, hprice, hpos, hindex, hdisplay rfl]
    simp only [addIcebergOrder, addOrder, hrefuse]
    split_ifs with h h' h'
    · rfl
    · exact absurd ⟨trivial, h⟩ h'
    · exact absurd h'.2 h
    · rfl

theorem order_placed {t : Taker} (hvalid : t.Valid) (hpos : 0 < t.remaining)
    (hrefused : ¬ t.refused) :
    t.order.Placed t.order.side t.order.price (queueKind t.order.visibility) := by
  unfold Taker.order
  rw [arrange_side, arrange_price, arrange_visibility]
  exact arrange_placed hpos fun hv =>
    ⟨hvalid.display hv, not_lt.mp fun hlt => hrefused ⟨hv, hlt⟩⟩

theorem bookFor_rested (s : MatchingEngine) (t : Taker) (symbol : Symbol) :
    (t.rested s).bookFor symbol =
      if symbol = t.symbol then (addRemainder (s.bookFor t.symbol) t).2 else s.bookFor symbol := by
  rw [Taker.rested, bookFor_of_frame (frame_restOrder _ _ _ _ _ _ _ _ _)]
  exact bookFor_setBook _ _ _ _

theorem owners_rested (s : MatchingEngine) (t : Taker) (id : OrderId) :
    (t.rested s).orderOwnershipById.lookup id =
      if id = t.id then
        some ⟨t.accountId, t.symbol, t.side, t.price, t.remaining, t.visibility, t.displayQty⟩
      else s.orderOwnershipById.lookup id := by
  rw [Taker.rested, owners_of_frame (frame_restOrder _ _ _ _ _ _ _ _ _)]
  exact Finmap.lookup_insert_ite _ _ _ _

end MatchingEngine

open MatchingEngine

/-- Books are well formed; an id names at most one order, resting or stop. -/
structure MatchingEngine.Sound (G : Guard) (s : MatchingEngine) : Prop where
  book : ∀ symbol, (s.bookFor symbol).WellFormed
  rests_lt : ∀ {symbol id}, s.Rests symbol id → id < s.nextOrderId
  rests_unique : ∀ {symbol symbol' id}, s.Rests symbol id → s.Rests symbol' id → symbol = symbol'
  owner_lt : ∀ {id owner}, s.orderOwnershipById.lookup id = some owner → id < s.nextOrderId
  owner_symbol : ∀ {id owner symbol}, s.orderOwnershipById.lookup id = some owner →
    s.Rests symbol id → owner.symbol = symbol
  owner_account : ∀ {id owner}, s.orderOwnershipById.lookup id = some owner →
    G.owner owner.accountId
  stop_lt : ∀ {id stop}, s.stopOrdersById.lookup id = some stop → id < s.nextOrderId
  stop_account : ∀ {id stop}, s.stopOrdersById.lookup id = some stop → G.account stop.accountId
  stop_rests : ∀ {id stop}, s.stopOrdersById.lookup id = some stop → ∀ symbol, ¬ s.Rests symbol id
  stop_owner : ∀ {id stop}, s.stopOrdersById.lookup id = some stop →
    s.orderOwnershipById.lookup id = none
  unreserved : ∀ {id}, s.nextOrderId ≤ id → s.Unreserved id
  pending : ∀ {symbol id}, id ∈ s.pendingStopIds symbol →
    ∃ stop, s.stopOrdersById.lookup id = some stop ∧ stop.symbol = symbol

/-- What holds of an order on its way. -/
structure MatchingEngine.InFlight (s : MatchingEngine) (t : Taker) : Prop where
  free : s.Free t.symbol t.id
  valid : t.Valid
  remaining : 0 ≤ t.remaining

def Config.Sound (G : Guard) (c : Config) : Prop :=
  c.engine.Sound G ∧ match c.flight with
    | idle => True
    | matching t | matched t => c.engine.InFlight t ∧ G.account t.accountId

/-- An order entry that passes validation has valid terms. -/
theorem MatchingEngine.Admits.inFlight {s : MatchingEngine} {t : Taker} (h : s.Admits t) :
    s.InFlight t ∧ 0 < t.remaining := by
  have hvalid := h.valid
  unfold validateEntry at hvalid
  split_ifs at hvalid with hprice hqty hdisplay
  refine ⟨⟨h.free.toFree, ⟨hprice, fun hv => ?_⟩, hqty.le⟩, hqty⟩
  by_contra hbad
  exact hdisplay ⟨hv, Or.inl hbad⟩

/-! A state with the same ids, or fewer. -/

/-- Nothing new is resting, owned, stopped or reserved. -/
structure MatchingEngine.Narrows (s s' : MatchingEngine) : Prop where
  book : ∀ symbol, (s'.bookFor symbol).WellFormed
  rests : ∀ {symbol id}, s'.Rests symbol id → s.Rests symbol id
  owner : ∀ {id owner'}, s'.orderOwnershipById.lookup id = some owner' →
    ∃ owner, s.orderOwnershipById.lookup id = some owner ∧ owner'.symbol = owner.symbol ∧
      owner'.accountId = owner.accountId
  stops : s'.stopOrdersById = s.stopOrdersById
  nextOrderId : s.nextOrderId ≤ s'.nextOrderId
  unreserved : ∀ {id}, s.Unreserved id → s'.Unreserved id
  pending : s'.pendingStopIdsBySymbol = s.pendingStopIdsBySymbol

namespace MatchingEngine.Narrows
variable {G : Guard} {s s' : MatchingEngine}

theorem sound (h : s.Narrows s') (hs : s.Sound G) : s'.Sound G where
  book := h.book
  rests_lt hr := Nat.lt_of_lt_of_le (hs.rests_lt (h.rests hr)) h.nextOrderId
  rests_unique hr hr' := hs.rests_unique (h.rests hr) (h.rests hr')
  owner_lt ho := by
    obtain ⟨owner, howner, -⟩ := h.owner ho
    exact Nat.lt_of_lt_of_le (hs.owner_lt howner) h.nextOrderId
  owner_symbol ho hr := by
    obtain ⟨owner, howner, hsymbol, -⟩ := h.owner ho
    exact hsymbol.trans (hs.owner_symbol howner (h.rests hr))
  owner_account ho := by
    obtain ⟨owner, howner, -, haccount⟩ := h.owner ho
    exact haccount ▸ hs.owner_account howner
  stop_lt hstop := Nat.lt_of_lt_of_le (hs.stop_lt (h.stops ▸ hstop)) h.nextOrderId
  stop_account hstop := hs.stop_account (h.stops ▸ hstop)
  stop_rests hstop symbol hr := hs.stop_rests (h.stops ▸ hstop) symbol (h.rests hr)
  stop_owner {id stop} hstop := by
    have hnone := hs.stop_owner (h.stops ▸ hstop)
    refine Option.eq_none_iff_forall_ne_some.mpr fun owner ho => ?_
    obtain ⟨owner', howner, -⟩ := h.owner ho
    rw [hnone] at howner
    cases howner
  unreserved hid := h.unreserved (hs.unreserved (h.nextOrderId.trans hid))
  pending hid := by
    rw [h.stops]
    unfold pendingStopIds at hid
    rw [h.pending] at hid
    exact hs.pending hid

theorem free (h : s.Narrows s') {symbol : Symbol} {id : OrderId} (hf : s.Free symbol id) :
    s'.Free symbol id where
  lt := Nat.lt_of_lt_of_le hf.lt h.nextOrderId
  stop := h.stops ▸ hf.stop
  rests symbol hr := hf.rests symbol (h.rests hr)
  owner owner ho := by
    obtain ⟨owner', howner, hsymbol, -⟩ := h.owner ho
    exact hsymbol.trans (hf.owner owner' howner)

theorem of_frame (hs : s.Sound G) (h : s'.frame = s.frame)
    (hreserves : ∀ {id}, s.Unreserved id → s'.Unreserved id) : s.Narrows s' where
  book symbol := bookFor_of_frame h symbol ▸ hs.book symbol
  rests hr := by unfold Rests at *; rwa [bookFor_of_frame h] at hr
  owner ho := ⟨_, owners_of_frame h ▸ ho, rfl, rfl⟩
  stops := stops_of_frame h
  nextOrderId := (nextOrderId_of_frame h).ge
  unreserved := hreserves
  pending := pendingStops_of_frame h

end MatchingEngine.Narrows

namespace MatchingEngine

theorem owners_updateOwner {s : MatchingEngine} {fill : FillResult} {id : OrderId}
    {owner' : OrderOwnership}
    (h : (s.updateOwner fill).orderOwnershipById.lookup id = some owner') :
    ∃ owner, s.orderOwnershipById.lookup id = some owner ∧ owner'.symbol = owner.symbol ∧
      owner'.accountId = owner.accountId := by
  unfold updateOwner at h
  split at h
  · exact ⟨owner', h, rfl, rfl⟩
  · rename_i owner howner
    dsimp only at h
    split_ifs at h with hfilled
    · rw [Finmap.lookup_erase_ite] at h
      split_ifs at h
      exact ⟨owner', h, rfl, rfl⟩
    · rw [Finmap.lookup_insert_ite] at h
      split_ifs at h with hid
      · cases h
        exact ⟨owner, hid ▸ howner, rfl, rfl⟩
      · exact ⟨owner', h, rfl, rfl⟩

theorem owners_reduceOwner {s : MatchingEngine} {id id' : OrderId} {qty : ℤ}
    {owner' : OrderOwnership}
    (h : (s.reduceOwner id qty).orderOwnershipById.lookup id' = some owner') :
    ∃ owner, s.orderOwnershipById.lookup id' = some owner ∧ owner'.symbol = owner.symbol ∧
      owner'.accountId = owner.accountId := by
  unfold reduceOwner at h
  split at h
  · exact ⟨owner', h, rfl, rfl⟩
  · rename_i owner howner
    dsimp only at h
    split_ifs at h with hzero
    · rw [Finmap.lookup_erase_ite] at h
      split_ifs at h
      exact ⟨owner', h, rfl, rfl⟩
    · rw [Finmap.lookup_insert_ite] at h
      split_ifs at h with hid
      · cases h
        exact ⟨owner, hid ▸ howner, rfl, rfl⟩
      · exact ⟨owner', h, rfl, rfl⟩

/-- A fill in a book leaves nothing new resting. -/
theorem rests_of_fill {book book' : OrderBook} {side : Side} {qty : ℤ} {fill : FillResult}
    {maker : Order} {rest : List Order} (h : FillStep book book' side qty fill maker rest)
    {id : OrderId} (hid : book'.findOrder id ≠ none) : book.findOrder id ≠ none := by
  rw [h.findOrder_after] at hid
  split_ifs at hid with he
  · rw [he, h.found]
    simp
  · exact hid

theorem narrows_setBook {G : Guard} {s s' : MatchingEngine} (hs : s.Sound G) {symbol : Symbol}
    {book : OrderBook} (hb : book.WellFormed)
    (hrests : ∀ id, book.findOrder id ≠ none → (s.bookFor symbol).findOrder id ≠ none)
    (hframe : s'.frame = (s.setBook symbol book).frame)
    (hreserves : ∀ {id}, s.Unreserved id → s'.Unreserved id) : s.Narrows s' where
  book symbol' := by
    rw [bookFor_of_frame hframe, bookFor_setBook]
    split_ifs
    · exact hb
    · exact hs.book symbol'
  rests {symbol' id} hr := by
    unfold Rests at *
    rw [bookFor_of_frame hframe, bookFor_setBook] at hr
    split_ifs at hr with h
    · exact h ▸ hrests id hr
    · exact hr
  owner ho := ⟨_, (congrArg (Finmap.lookup _) (owners_of_frame hframe)).symm.trans ho, rfl, rfl⟩
  stops := (stops_of_frame hframe).trans rfl
  nextOrderId := (nextOrderId_of_frame hframe).ge
  unreserved := hreserves
  pending := (pendingStops_of_frame hframe).trans rfl

/-- A change that leaves books, stops and ids alone and adds no owner. -/
theorem Narrows.controls {s s' s'' : MatchingEngine} (h : s.Narrows s')
    (hbooks : s''.books = s'.books)
    (howners : ∀ {id owner''}, s''.orderOwnershipById.lookup id = some owner'' →
      ∃ owner', s'.orderOwnershipById.lookup id = some owner' ∧ owner''.symbol = owner'.symbol ∧
        owner''.accountId = owner'.accountId)
    (hstops : s''.stopOrdersById = s'.stopOrdersById) (hnext : s''.nextOrderId = s'.nextOrderId)
    (hmoney : s''.money = s'.money)
    (hpending : s''.pendingStopIdsBySymbol = s'.pendingStopIdsBySymbol) : s.Narrows s'' where
  book symbol := by rw [bookFor, hbooks]; exact h.book symbol
  rests hr := h.rests (by unfold Rests bookFor at *; rwa [hbooks] at hr)
  owner ho := by
    obtain ⟨owner', howner', hsymbol', haccount'⟩ := howners ho
    obtain ⟨owner, howner, hsymbol, haccount⟩ := h.owner howner'
    exact ⟨owner, howner, hsymbol'.trans hsymbol, haccount'.trans haccount⟩
  stops := hstops.trans h.stops
  nextOrderId := hnext ▸ h.nextOrderId
  unreserved hid := (h.unreserved hid).of_money hmoney
  pending := hpending.trans h.pending

theorem narrows_updateOwner {s s' : MatchingEngine} (fill : FillResult) (h : s.Narrows s') :
    s.Narrows (s'.updateOwner fill) :=
  h.controls (read_updateOwner MatchingEngine.books (fun _ _ => rfl) s' fill) owners_updateOwner
    (read_updateOwner MatchingEngine.stopOrdersById (fun _ _ => rfl) s' fill)
    (read_updateOwner MatchingEngine.nextOrderId (fun _ _ => rfl) s' fill)
    (read_updateOwner money (fun _ _ => rfl) s' fill)
    (read_updateOwner MatchingEngine.pendingStopIdsBySymbol (fun _ _ => rfl) s' fill)

theorem narrows_reduceOwner {s s' : MatchingEngine} (id : OrderId) (qty : ℤ) (h : s.Narrows s') :
    s.Narrows (s'.reduceOwner id qty) :=
  h.controls (read_reduceOwner MatchingEngine.books (fun _ _ => rfl) s' id qty) owners_reduceOwner
    (read_reduceOwner MatchingEngine.stopOrdersById (fun _ _ => rfl) s' id qty)
    (read_reduceOwner MatchingEngine.nextOrderId (fun _ _ => rfl) s' id qty)
    (read_reduceOwner money (fun _ _ => rfl) s' id qty)
    (read_reduceOwner MatchingEngine.pendingStopIdsBySymbol (fun _ _ => rfl) s' id qty)

theorem bookFor_auctionTraded (s : MatchingEngine) (symbol symbol' : Symbol)
    (price traded : ℤ) (bidId askId : OrderId) (book : OrderBook) :
    (s.auctionTraded symbol price traded bidId askId book).bookFor symbol' =
      if symbol' = symbol then book else s.bookFor symbol' := by
  have hbooks : (s.auctionTraded symbol price traded bidId askId book).books =
      (s.setBook symbol book).books := by
    unfold auctionTraded
    rw [read_reduceOwner MatchingEngine.books fun _ _ => rfl,
      read_reduceOwner MatchingEngine.books fun _ _ => rfl]
    exact books_of_frame (frame_settleAuction _ _ _ _ _ _)
  rw [bookFor, hbooks, ← bookFor, bookFor_setBook]

theorem frame_journaled (s : MatchingEngine) (t : Taker) (fill : FillResult) (book : OrderBook) :
    (s.journaled t fill book).frame = (s.setBook t.symbol book).frame := by
  rw [journaled, frame_of_unjournaled (unjournaled_journalFill _ _ _ _), frame_settleFill]

theorem narrows_fill {G : Guard} {s : MatchingEngine} (hs : s.Sound G) {t : Taker}
    {fill : FillResult} {book : OrderBook} (h : s.nextFill t = some (fill, book))
    {s' : MatchingEngine} (hframe : s'.frame = (s.setBook t.symbol book).frame)
    (hreserves : ∀ {id}, s.Unreserved id → s'.Unreserved id) : s.Narrows s' := by
  obtain ⟨maker, rest, hfill, -⟩ := nextFill_some (hs.book t.symbol) h
  exact narrows_setBook hs hfill.wellFormed_after
    (fun id hid => rests_of_fill hfill.toFillStep hid) hframe hreserves

theorem narrows_journaled {G : Guard} {s : MatchingEngine} (hs : s.Sound G) {t : Taker}
    {fill : FillResult} {book : OrderBook} (h : s.nextFill t = some (fill, book)) :
    s.Narrows (s.journaled t fill book) :=
  narrows_fill hs h (frame_journaled s t fill book) fun hid =>
    (hid.settleFill t fill book).of_unjournaled (unjournaled_journalFill _ _ _ _)

theorem narrows_filled {G : Guard} {s : MatchingEngine} (hs : s.Sound G) {t : Taker}
    {fill : FillResult} {book : OrderBook} (h : s.nextFill t = some (fill, book)) :
    s.Narrows (s.filled t fill book) :=
  narrows_updateOwner fill (narrows_journaled hs h)

theorem narrows_breached {G : Guard} {s : MatchingEngine} (hs : s.Sound G) {t : Taker}
    {fill : FillResult} {book : OrderBook} (h : s.nextFill t = some (fill, book)) :
    s.Narrows (s.breached t fill book) :=
  (narrows_fill hs h (frame_settleFill _ _ _ _) fun hid => hid.settleFill t fill book).controls rfl
    (fun ho => ⟨_, ho, rfl, rfl⟩) rfl rfl rfl rfl

theorem InFlight.after {G : Guard} {s s' : MatchingEngine} (hs : s.Sound G) {t : Taker}
    (hflight : s.InFlight t) {fill : FillResult} {book : OrderBook}
    (h : s.nextFill t = some (fill, book)) (hn : s.Narrows s') : s'.InFlight (t.after fill) := by
  obtain ⟨maker, rest, hfill, -⟩ := nextFill_some (hs.book t.symbol) h
  have hle := hfill.fill_qty_le
  exact ⟨hn.free hflight.free, ⟨hflight.valid.price, hflight.valid.display⟩,
    by unfold Taker.after; dsimp only; omega⟩

theorem addRemainder_wellFormed {book : OrderBook} (hb : book.WellFormed) {t : Taker}
    (hvalid : t.Valid) (hpos : 0 < t.remaining) (hfree : book.findOrder t.id = none) :
    (addRemainder book t).2.WellFormed := by
  have hindex := hb.findOrder_eq_none.mp hfree
  rw [addRemainder_eq hvalid hpos hindex]
  split_ifs with hrefused
  · exact hb
  · exact hb.insertOrder (order_placed hvalid hpos hrefused) (by rwa [Taker.order, arrange_id])

theorem findOrder_addRemainder {book : OrderBook} (hb : book.WellFormed) {t : Taker}
    (hvalid : t.Valid) (hpos : 0 < t.remaining) (hfree : book.findOrder t.id = none)
    (id : OrderId) :
    (addRemainder book t).2.findOrder id =
      if id = t.id ∧ ¬ t.refused then some t.order else book.findOrder id := by
  have hindex := hb.findOrder_eq_none.mp hfree
  rw [addRemainder_eq hvalid hpos hindex]
  by_cases hrefused : t.refused
  · rw [if_pos hrefused, if_neg fun h => h.2 hrefused]
  · rw [if_neg hrefused, findOrder_insertOrder hb (order_placed hvalid hpos hrefused)
      (by rwa [Taker.order, arrange_id])]
    simp only [Taker.order, arrange_id, hrefused, not_false_eq_true, and_true]

theorem Sound.rested {G : Guard} {s : MatchingEngine} (hs : s.Sound G) {t : Taker}
    (hflight : s.InFlight t) (haccount : G.account t.accountId) (hpos : 0 < t.remaining) :
    (t.rested s).Sound G := by
  have hframe : (t.rested s).frame = _ := frame_restOrder _ _ _ _ _ _ _ _ _
  have hnext : (t.rested s).nextOrderId = s.nextOrderId :=
    (nextOrderId_of_frame hframe).trans rfl
  have hstops : (t.rested s).stopOrdersById = s.stopOrdersById :=
    (stops_of_frame hframe).trans rfl
  have hfree : (s.bookFor t.symbol).findOrder t.id = none :=
    not_not.mp (hflight.free.rests t.symbol)
  have hrests : ∀ {symbol id}, (t.rested s).Rests symbol id →
      s.Rests symbol id ∨ symbol = t.symbol ∧ id = t.id := by
    intro symbol id hr
    unfold Rests at *
    rw [bookFor_rested] at hr
    split_ifs at hr with hsymbol
    · rw [findOrder_addRemainder (hs.book _) hflight.valid hpos hfree] at hr
      split_ifs at hr with hid
      · exact Or.inr ⟨hsymbol, hid.1⟩
      · exact Or.inl (hsymbol ▸ hr)
    · exact Or.inl hr
  have hnot : ∀ {symbol}, ¬ s.Rests symbol t.id := hflight.free.rests _
  refine ⟨fun symbol => ?_, fun hr => ?_, fun hr hr' => ?_, fun ho => ?_, fun ho hr => ?_,
    fun ho => ?_,
    fun hstop => hnext ▸ hs.stop_lt (hstops ▸ hstop),
    fun hstop => hs.stop_account (hstops ▸ hstop), fun {id stop} hstop symbol hr => ?_,
    fun {id stop} hstop => ?_, fun {id} hid => ?_, fun {symbol id} hid => ?_⟩
  · rw [bookFor_rested]
    split_ifs
    · exact addRemainder_wellFormed (hs.book _) hflight.valid hpos hfree
    · exact hs.book symbol
  · rw [hnext]
    rcases hrests hr with h | h
    · exact hs.rests_lt h
    · exact h.2 ▸ hflight.free.lt
  · rcases hrests hr with h | h <;> rcases hrests hr' with h' | h'
    · exact hs.rests_unique h h'
    · exact absurd (h'.2 ▸ h) hnot
    · exact absurd (h.2 ▸ h') hnot
    · exact h.1.trans h'.1.symm
  · rw [hnext]
    rw [owners_rested] at ho
    split_ifs at ho with hid
    · exact hid ▸ hflight.free.lt
    · exact hs.owner_lt ho
  · rw [owners_rested] at ho
    rcases hrests hr with h | h
    · rw [if_neg fun hid => hnot (hid ▸ h)] at ho
      exact hs.owner_symbol ho h
    · rw [if_pos h.2] at ho
      cases ho
      exact h.1.symm
  · rw [owners_rested] at ho
    split_ifs at ho with hid
    · cases ho
      exact G.owns _ haccount
    · exact hs.owner_account ho
  · rw [hstops] at hstop
    rcases hrests hr with h | h
    · exact hs.stop_rests hstop symbol h
    · rw [h.2, hflight.free.stop] at hstop
      cases hstop
  · rw [hstops] at hstop
    have hid : id ≠ t.id := by
      rintro rfl
      rw [hflight.free.stop] at hstop
      cases hstop
    rw [owners_rested, if_neg hid]
    exact hs.stop_owner hstop
  · rw [hnext] at hid
    exact (hs.unreserved hid).restOrder (Nat.ne_of_gt (Nat.lt_of_lt_of_le hflight.free.lt hid)) _ _ _
      _ _
  · have hpending : (t.rested s).pendingStopIdsBySymbol = s.pendingStopIdsBySymbol :=
      (pendingStops_of_frame hframe).trans rfl
    rw [hstops]
    unfold pendingStopIds at hid
    rw [hpending] at hid
    exact hs.pending hid

theorem narrows_cancelResting {G : Guard} {s : MatchingEngine} (hs : s.Sound G) {a : AccountId}
    {symbol : Symbol} {id : OrderId} (hr : s.Rests symbol id) :
    s.Narrows (s.cancelResting a symbol id) := by
  obtain ⟨order, horder⟩ := Option.ne_none_iff_exists'.mp hr
  have hreleased : s.Narrows ((s.setBook symbol ((s.bookFor symbol).cancel id).2).releaseAll
      a symbol id) := by
    refine narrows_setBook hs ((hs.book symbol).cancel horder) (fun id' hid' => ?_)
      (frame_releaseAll _ _ _ _) fun hid => (unreserved_releaseAll _ a symbol id).2 _ hid
    rw [findOrder_cancel (hs.book symbol) horder] at hid'
    split_ifs at hid'
    · exact absurd rfl hid'
    · exact hid'
  refine ⟨hreleased.book, hreleased.rests, fun {id' owner'} ho => ?_, hreleased.stops,
    hreleased.nextOrderId, hreleased.unreserved, hreleased.pending⟩
  unfold cancelResting at ho
  dsimp only at ho
  rw [Finmap.lookup_erase_ite] at ho
  split_ifs at ho
  exact hreleased.owner ho

/-- The two fills of an auction trade, the second in the book the first leaves behind. -/
theorem narrows_auctionTraded {G : Guard} {s : MatchingEngine} (hs : s.Sound G) {symbol : Symbol}
    {price traded : ℤ} {bid ask : FillResult} {book book' : OrderBook}
    (hbid : (s.bookFor symbol).fillBestAtOrBetter .bid price traded = some (bid, book))
    (hask : book.fillBestAtOrBetter .ask price traded = some (ask, book')) :
    s.Narrows (s.auctionTraded symbol price traded bid.makerId ask.makerId book') := by
  obtain ⟨maker, rest, hfill, -⟩ := fillBestAtOrBetter_some (hs.book symbol) hbid
  obtain ⟨maker', rest', hfill', -⟩ := fillBestAtOrBetter_some hfill.wellFormed_after hask
  refine narrows_reduceOwner _ _ (narrows_reduceOwner _ _ ?_)
  exact narrows_setBook hs hfill'.wellFormed_after
    (fun id hid => rests_of_fill hfill.toFillStep (rests_of_fill hfill'.toFillStep hid))
    (frame_settleAuction _ _ _ _ _ _) fun hid => Unreserved.settleAuction
      (s := s.setBook symbol book') hid symbol bid.makerId ask.makerId price traded

end MatchingEngine

/-- A tick keeps the books well formed and the ids apart. -/
theorem Tick.sound {G : Guard} {c c' : Config} {events : List Event} (hc : c.Sound G)
    (h : Tick G c events c') : c'.Sound G := by
  obtain ⟨hs, hflight⟩ := hc
  cases h with
  | @record s s' flight events hjournal hinert =>
    have hn := Narrows.of_frame hs (frame_of_unjournaled hjournal) fun hid =>
      hid.of_unjournaled hjournal
    refine ⟨hn.sound hs, ?_⟩
    cases flight with
    | idle => trivial
    | matching t =>
      exact ⟨⟨hn.free hflight.1.free, hflight.1.valid, hflight.1.remaining⟩, hflight.2⟩
    | matched t =>
      exact ⟨⟨hn.free hflight.1.free, hflight.1.valid, hflight.1.remaining⟩, hflight.2⟩
  | allocate s =>
    have hn : s.Narrows s.allocated :=
      ⟨hs.book, id, fun ho => ⟨_, ho, rfl, rfl⟩, rfl, Nat.le_succ _, id, rfl⟩
    exact ⟨hn.sound hs, trivial⟩
  | touch s symbol ha =>
    exact ⟨(Narrows.of_frame hs (frame_touchAccount _ _ _) id).sound hs, trivial⟩
  | stops hevents hstops hpending =>
    refine ⟨⟨hs.book, hs.rests_lt, hs.rests_unique, hs.owner_lt, hs.owner_symbol,
      hs.owner_account, ?_, ?_, ?_, ?_, hs.unreserved, hpending _ _⟩,
      trivial⟩
    · intro id stop hstop
      rcases (hstops id stop hstop).2 with hold | hnew
      · obtain ⟨old, hold⟩ := Option.ne_none_iff_exists'.mp hold
        exact hs.stop_lt hold
      · exact hnew.1
    · exact fun hstop => (hstops _ _ hstop).1
    · intro id stop hstop
      rcases (hstops id stop hstop).2 with hold | hnew
      · obtain ⟨old, hold⟩ := Option.ne_none_iff_exists'.mp hold
        exact hs.stop_rests hold
      · exact hnew.2.2
    · intro id stop hstop
      rcases (hstops id stop hstop).2 with hold | hnew
      · obtain ⟨old, hold⟩ := Option.ne_none_iff_exists'.mp hold
        exact hs.stop_owner hold
      · exact hnew.2.1
  | enter hadmits haccount hentry hphase hfok => exact ⟨hs, hadmits.inFlight.1, haccount⟩
  | fill hnext hband hhold hinert =>
    have hn := narrows_filled hs hnext
    exact ⟨hn.sound hs, hflight.1.after hs hnext hn, hflight.2⟩
  | breach hnext hband hinert =>
    have hn := narrows_breached hs hnext
    exact ⟨hn.sound hs, hflight.1.after hs hnext hn, hflight.2⟩
  | finish hnext => exact ⟨hs, hflight⟩
  | rest hpos htif => exact ⟨hs.rested hflight.1 hflight.2 hpos, trivial⟩
  | drop hleft => exact ⟨hs, trivial⟩
  | restAuction hadmits haccount hentry hphase =>
    exact ⟨hs.rested hadmits.inFlight.1 haccount hadmits.inFlight.2, trivial⟩
  | cancel howner hrests => exact ⟨(narrows_cancelResting hs hrests).sound hs, trivial⟩
  | auctionTrade hqty hguard hbid hask =>
    exact ⟨(narrows_auctionTraded hs hbid hask).sound hs, trivial⟩
  | @endAuction s symbol hphase =>
    have hn : s.Narrows (s.auctionEnded symbol) :=
      (Narrows.of_frame hs rfl id).controls rfl (fun ho => ⟨_, ho, rfl, rfl⟩) rfl rfl rfl rfl
    exact ⟨hn.sound hs, trivial⟩
  | halt s symbol reason =>
    have hn : s.Narrows (s.withHalt symbol reason) :=
      (Narrows.of_frame hs rfl id).controls rfl (fun ho => ⟨_, ho, rfl, rfl⟩) rfl rfl rfl rfl
    exact ⟨hn.sound hs, trivial⟩

/-- So does an operation that throws. -/
theorem Config.AbortsTo.sound {G : Guard} {c : Config} {s' : MatchingEngine} (hc : c.Sound G)
    (h : c.AbortsTo s') : s'.Sound G := by
  obtain ⟨s, flight⟩ := c
  cases flight with
  | idle => exact h.1 ▸ hc.1
  | matching t =>
    obtain ⟨fill, book, hnext, -, -, rfl⟩ := h
    exact (narrows_journaled hc.1 hnext).sound hc.1
  | matched t => exact h.elim

end Tes
