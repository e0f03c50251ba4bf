import Tes.Library.Priority
import Tes.Market.FillOrKill

/-! Continuous matching serves the opposite side of the book by price, visibility and time. -/
namespace Tes
open OrderBook MatchingEngine EStateM Priority

/-! The documented priority, in its own words. -/
namespace Documented

/-- What an order shows, or hides. -/
def available (maker : Order) : ℤ :=
  match maker.visibility with
  | .displayed => maker.qty
  | .iceberg => maker.qty
  | .hidden => maker.reserveQty

/-- A spent order leaves its queue, a spent clip is renewed at the back of it, and any other order
keeps its place. -/
def requeue (maker : Order) (rest : List Order) (traded : ℤ) : List Order :=
  match maker.visibility with
  | .displayed =>
    if traded < maker.qty then { maker with qty := maker.qty - traded } :: rest else rest
  | .hidden =>
    if traded < maker.reserveQty then
      { maker with reserveQty := maker.reserveQty - traded } :: rest
    else rest
  | .iceberg =>
    if traded < maker.qty then { maker with qty := maker.qty - traded } :: rest
    else if 0 < maker.reserveQty then
      rest ++ [{ maker with
        qty := min maker.displayQty maker.reserveQty
        reserveQty := maker.reserveQty - min maker.displayQty maker.reserveQty }]
    else rest

/-- Better prices first, and at a price displayed orders before icebergs before hidden ones. -/
def rules (side : Side) : Rules ℤ QueueKind Order where
  better := side.before
  sooner := QueueKind.before
  available := available
  requeue := requeue

end Documented

instance : Std.Trichotomous QueueKind.before where
  trichotomous a b hab hba := by
    cases a <;> cases b <;> simp_all [QueueKind.before]

instance (side : Side) : Std.Trichotomous (Documented.rules side).better :=
  inferInstanceAs (Std.Trichotomous side.before)

instance (side : Side) : Std.Trichotomous (Documented.rules side).sooner :=
  inferInstanceAs (Std.Trichotomous QueueKind.before)

section Step
variable {book book' : OrderBook} {side : Side} {qty : ℤ} {fill : FillResult} {maker : Order}
  {rest : List Order}

theorem documented_available (maker : Order) : Documented.available maker = available maker := by
  unfold Documented.available available availableQty
  cases maker.visibility <;> rfl

theorem documented_requeue (hm : maker.WellFormed) {traded : ℤ} (hle : traded ≤ available maker) :
    Documented.requeue maker rest traded = queueAfter maker rest traded := by
  unfold Order.WellFormed at hm
  unfold available availableQty at hle
  unfold Documented.requeue queueAfter
  cases hv : maker.visibility with
  | displayed =>
    simp [hv, queueKind, takeFrom, totalRemainingQty, clipSpent] at hm hle ⊢
    split_ifs with hleft hzero hzero
    · omega
    · rfl
    · rfl
    · omega
  | hidden =>
    simp [hv, queueKind, takeFrom, totalRemainingQty, clipSpent] at hm hle ⊢
    split_ifs with hleft hzero hzero
    · omega
    · rfl
    · rfl
    · omega
  | iceberg =>
    simp [hv, queueKind, takeFrom, totalRemainingQty, clipSpent, renewClip] at hm hle ⊢
    by_cases hleft : traded < maker.qty
    · rw [if_pos hleft, if_neg (by omega), if_neg (by omega)]
    · have hspent : traded = maker.qty := by omega
      rw [if_neg hleft, hspent]
      by_cases hreserve : 0 < maker.reserveQty
      · rw [if_pos hreserve, if_neg (by omega), if_pos (by omega)]
      · rw [if_neg hreserve, if_pos (by omega)]

/-- The next fill is against the front order of the documented priority. -/
theorem OrderBook.BestFill.front_order (h : BestFill book book' side qty fill maker rest) :
    Front (Documented.rules side) (book.queueAt side) maker.price (queueKind maker.visibility)
      maker rest where
  queue := h.front
  best := by
    intro other hbetter kind
    by_contra hne
    obtain ⟨order, horder⟩ := List.exists_mem_of_ne_nil _ hne
    have hprice := (h.wellFormed.placed horder).price
    have hbest := h.best order (mem_sideOrders.mpr ⟨other, kind, horder⟩)
    rw [hprice] at hbest
    rcases hbest with rfl | hworse
    · exact Std.Irrefl.irrefl (r := side.before) _ hbetter
    · exact Std.Asymm.asymm (r := side.before) _ _ hbetter hworse
  first := h.first

theorem OrderBook.BestFill.queues_after (h : BestFill book book' side qty fill maker rest) :
    book'.queueAt side = replaced (book.queueAt side) maker.price (queueKind maker.visibility)
      (Documented.requeue maker rest (min qty (Documented.available maker))) := by
  have hqty := h.fill_qty
  rw [documented_available, documented_requeue h.placed.wellFormed (min_le_right _ _), ← hqty]
  funext price kind
  rw [h.queueAt_after, replaced]
  simp only [true_and]

/-- A fill on one side leaves the other alone. -/
theorem queueAt_insertOrder_opposite (book : OrderBook) {order : Order}
    (hside : order.side = side.opposite) : (book.insertOrder order).queueAt side = book.queueAt side := by
  have hne : side ≠ order.side := by
    rw [hside]
    cases side <;> simp [Side.opposite]
  funext price kind
  rw [insertOrder_eq, queueAt_withQueue, if_neg fun h => hne h.1]

end Step

/-- The makers, prices and quantities of the trades that the order takes. -/
def tradesOf (id : OrderId) (events : List Event) : List (OrderId × ℤ × ℤ) :=
  events.filterMap fun
    | .tradeExecuted takerId makerId _ price qty _ =>
      if takerId = id then some (makerId, price, qty) else none
    | _ => none

theorem tradesOf_of_untraded {id : OrderId} {events : List Event}
    (h : ∀ e ∈ events, isTrade e = false) : tradesOf id events = [] := by
  unfold tradesOf
  rw [List.filterMap_eq_nil_iff]
  intro e he
  have hplain := h e he
  cases e with
  | tradeExecuted => cases hplain
  | _ => rfl

/-- A service as a trade. -/
def traded (service : Service ℤ Order) : OrderId × ℤ × ℤ :=
  (service.item.id, service.place, service.qty)

/-- The trades that the documented priority gives the order, all of them. -/
structure Documented.Matching (t : Taker) (book : OrderBook) (services : List (Service ℤ Order))
    (queues : Queues ℤ QueueKind Order) (remaining : ℤ) : Prop where
  serves : Serves (Documented.rules t.side.opposite) (crosses t.side t.price)
    (book.queueAt t.side.opposite) t.remaining services queues remaining
  complete : Over (crosses t.side t.price) queues remaining

/-- The order has matched by the documented priority: its trades are services in that order, and
they are all there are unless the last one is outside the price band. -/
structure Taker.FollowsPriority (t : Taker) (book : OrderBook) (inBand : ℤ → Prop)
    (events : List Event) (book' : OrderBook) (remaining : ℤ)
    (services : List (Service ℤ Order)) : Prop where
  serves : Serves (Documented.rules t.side.opposite) (crosses t.side t.price)
    (book.queueAt t.side.opposite) t.remaining services (book'.queueAt t.side.opposite) remaining
  trades : tradesOf t.id events = services.map traded
  ends : Over (crosses t.side t.price) (book'.queueAt t.side.opposite) remaining ∨
    ∃ service ∈ services.getLast?, ¬ inBand service.place

section Loop
variable {G : Guard} {s s' : MatchingEngine} {t t' : Taker} {events : List Event}

theorem tradesOf_append (id : OrderId) (events more : List Event) :
    tradesOf id (events ++ more) = tradesOf id events ++ tradesOf id more :=
  List.filterMap_append

theorem tradesOf_trade (t : Taker) (fill : FillResult) (report : List Event)
    (hreport : ∀ e ∈ report, e.inert) (more : List Event) :
    tradesOf t.id (tradeEvent t fill :: report ++ more) =
      (fill.makerId, fill.price, fill.qty) :: tradesOf t.id more := by
  rw [List.cons_append, ← List.singleton_append, tradesOf_append, tradesOf_append,
    tradesOf_of_untraded fun e he => (hreport e he).not_trade, List.nil_append]
  simp [tradesOf, tradeEvent]

/-- The engine's search ends where nothing acceptable waits. -/
theorem exhausted_of_executableQty {book : OrderBook} (hb : book.WellFormed)
    (h : book.executableQty t.side t.price = 0) :
    Exhausted (crosses t.side t.price) (book.queueAt t.side.opposite) := by
  intro price hcross kind
  by_contra hne
  obtain ⟨order, horder⟩ := List.exists_mem_of_ne_nil _ hne
  have hnone := hb.executableQty_eq_zero.mp h order (mem_sideOrders.mpr ⟨price, kind, horder⟩)
  rw [(hb.placed horder).price] at hnone
  exact hnone hcross

/-- One fill is one service. -/
theorem serves_fill {book book' : OrderBook} {fill : FillResult} {maker : Order}
    {rest : List Order} {queues : Queues ℤ QueueKind Order} {remaining : ℤ}
    {services : List (Service ℤ Order)}
    (hfill : BestFill book book' t.side.opposite t.remaining fill maker rest)
    (hcross : crosses t.side t.price maker.price)
    (hmore : Serves (Documented.rules t.side.opposite) (crosses t.side t.price)
      (book'.queueAt t.side.opposite) (t.remaining - fill.qty) services queues remaining) :
    Serves (Documented.rules t.side.opposite) (crosses t.side t.price)
      (book.queueAt t.side.opposite) t.remaining
      (⟨maker, maker.price, fill.qty⟩ :: services) queues remaining := by
  have hqty : fill.qty = min t.remaining (Documented.available maker) := by
    rw [documented_available, hfill.fill_qty]
  rw [hfill.queues_after] at hmore
  rw [hqty] at hmore ⊢
  exact .serve hfill.qty_pos hcross hfill.front_order hmore

theorem Matches.followsPriority (hs : s.Sound G) (h : Matches s t events s' t') :
    ∃ services, t.FollowsPriority (s.bookFor t.symbol) (s.priceInBand t.symbol) events
      (s'.bookFor t.symbol) t'.remaining services := by
  induction h with
  | @done s t hnext =>
    refine ⟨[], .refl _ _, rfl, Or.inl ?_⟩
    rcases (nextFill_eq_none (hs.book _)).mp hnext with hmet | hnone
    · exact Or.inl hmet
    · exact Or.inr (exhausted_of_executableQty (hs.book _) hnone)
  | @breach s t fill book hnext hband =>
    obtain ⟨maker, rest, hfill, hcross⟩ := nextFill_some (hs.book t.symbol) hnext
    refine ⟨[⟨maker, maker.price, fill.qty⟩], ?_, ?_, Or.inr ⟨_, rfl, hfill.price ▸ hband⟩⟩
    · rw [bookFor_breached, if_pos rfl]
      exact serves_fill hfill hcross (.refl _ _)
    · have htrades := tradesOf_trade t fill
        (circuitBreakerEvents t.symbol fill.price "TradePriceBandBreach") (by
          simp [circuitBreakerEvents, Event.inert]) []
      rw [List.append_nil] at htrades
      rw [htrades, hfill.price, hfill.makerId]
      rfl
  | @fill s s' t t' fill book events hnext hband hhold _ ih =>
    obtain ⟨maker, rest, hfill, hcross⟩ := nextFill_some (hs.book t.symbol) hnext
    have hbook : (s.filled t fill book).bookFor t.symbol = book := by
      rw [bookFor_filled, if_pos rfl]
    obtain ⟨services, hserves, htrades, hends⟩ := ih ((narrows_filled hs hnext).sound hs)
    have hbands : ∀ price, (s.filled t fill book).priceInBand t.symbol price ↔
        s.priceInBand t.symbol price := by
      intro price
      have hsettings := ((sameSettings_setBook s t.symbol book).trans
        (.of_frame (frame_journaled s t fill book))).trans (sameSettings_updateOwner _ fill)
      unfold priceInBand
      rw [filled, hsettings.bands]
    refine ⟨⟨maker, maker.price, fill.qty⟩ :: services, ?_, ?_, ?_⟩
    · have hmore := hserves
      change Serves (Documented.rules t.side.opposite) (crosses t.side t.price)
        (((s.filled t fill book).bookFor t.symbol).queueAt t.side.opposite)
        (t.remaining - fill.qty) _ _ _ at hmore
      rw [hbook] at hmore
      exact serves_fill hfill hcross hmore
    · rw [tradesOf_trade t fill _ inert_fillReport, List.map_cons, traded, hfill.makerId, hfill.price]
      exact congrArg _ htrades
    · rcases hends with hover | ⟨service, hlast, hout⟩
      · exact Or.inl hover
      · refine Or.inr ⟨service, ?_, fun hin => hout ((hbands _).mpr hin)⟩
        rw [List.getLast?_cons, hlast]
        rfl

theorem Matches.side_eq (h : Matches s t events s' t') : t'.side = t.side := by
  induction h with
  | done => rfl
  | breach => rfl
  | fill _ _ _ _ ih => exact ih

/-- What finishes an entry leaves the other side of the book alone. -/
theorem Finishes.queueAt_opposite {rested : List Event} (hs : s.Sound G) (hflight : s.InFlight t)
    (h : Finishes s t rested s') :
    (s'.bookFor t.symbol).queueAt t.side.opposite = (s.bookFor t.symbol).queueAt t.side.opposite ∧
      tradesOf t.id rested = [] := by
  cases h with
  | rest hpos htif =>
    have hnone : (s.bookFor t.symbol).findOrder t.id = none := not_not.mp (hflight.free.rests t.symbol)
    have hindex := (hs.book t.symbol).findOrder_eq_none.mp hnone
    have ht : t.order.side = t.side.opposite.opposite := by
      unfold Taker.order
      rw [arrange_side, Side.opposite_opposite]
    refine ⟨?_, tradesOf_of_untraded restedEvents_not_trade⟩
    rw [bookFor_rested, if_pos rfl, addRemainder_eq hflight.valid hpos hindex]
    split_ifs with hrefused
    · rfl
    · exact queueAt_insertOrder_opposite _ ht
  | expire hpos htif => exact ⟨rfl, rfl⟩
  | done hdone => exact ⟨rfl, rfl⟩

end Loop

/-! Order entry. -/
section Entry
variable {G : Guard} {s s' : MatchingEngine} {t : Taker} {events : List Event}

/-- A pending order matches, and then rests, expires or is used up. -/
theorem placing_followsPriority {t' : Taker} {s'' : MatchingEngine} {rested : List Event}
    (hs : s.Sound G) (hflight : s.InFlight t) (hmatches : Matches s t events s' t')
    (hfinishes : Finishes s' t' rested s'') :
    ∃ services, t.FollowsPriority (s.bookFor t.symbol) (s.priceInBand t.symbol) (events ++ rested)
      (s''.bookFor t.symbol) t'.remaining services := by
  obtain ⟨services, hserves, htrades, hends⟩ := hmatches.followsPriority hs
  have hsame := hfinishes.queueAt_opposite ((hmatches.narrows hs).sound hs)
    (hmatches.inFlight hs hflight)
  rw [hmatches.symbol_eq, hmatches.id_eq.1, hmatches.side_eq] at hsame
  refine ⟨services, ?_, ?_, ?_⟩
  · rw [hsame.1]
    exact hserves
  · rw [tradesOf_append, hsame.2, List.append_nil, htrades]
  · rw [hsame.1]
    exact hends

theorem Taker.FollowsPriority.isPrefix {book book' : OrderBook} {inBand : ℤ → Prop}
    {remaining remaining' : ℤ} {services all : List (Service ℤ Order)}
    {queues : Queues ℤ QueueKind Order}
    (h : t.FollowsPriority book inBand events book' remaining services)
    (hall : Documented.Matching t book all queues remaining') :
    tradesOf t.id events <+: all.map traded := by
  rw [h.trades]
  exact (h.serves.isPrefix hall.serves hall.complete).map traded

/-- An order that is let in trades by the documented priority, and as far as that goes unless its
last trade is outside the price band; one that is not let in leaves the books alone. -/
def Taker.EntersByPriority (t : Taker) (s : MatchingEngine) (events : List Event)
    (s' : MatchingEngine) : Prop :=
  if s.allocated.entries t = [] then tradesOf t.id events = [] ∧ s'.books = s.books
  else ∃ remaining services,
    t.FollowsPriority (s.bookFor t.symbol) (s.priceInBand t.symbol) events (s'.bookFor t.symbol)
      remaining services ∧
    ∀ {all queues left}, Documented.Matching t (s.bookFor t.symbol) all queues left →
      tradesOf t.id events <+: all.map traded

end Entry

/-- The trades of an order entry, unless it throws. -/
def entryTrades (id : OrderId) (entry : Engine (List Event)) (s : MatchingEngine) :
    Option (List (OrderId × ℤ × ℤ)) :=
  match entry s with
  | .ok events _ => some (tradesOf id events)
  | .error _ _ => none

end Tes
