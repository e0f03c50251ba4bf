import Tes.Book.Queues
import Tes.Ledger.Funding
import Tes.Market.Indicative

/-! The uncross of a book of displayed orders: it trades the indicative volume in priority and
leaves no bid that meets an ask. -/
namespace Tes
open OrderBook MatchingEngine CallAuction EStateM

structure AuctionTrade where
  bidId : OrderId
  askId : OrderId
  qty : ℤ
  deriving DecidableEq

namespace AuctionTrade

def event (price : ℤ) (symbol : Symbol) (trade : AuctionTrade) : Event :=
  .tradeExecuted trade.bidId trade.askId .bid price trade.qty symbol

/-- What the trade takes from its bid. -/
def bidFill (trade : AuctionTrade) : OrderId × ℤ := (trade.bidId, trade.qty)

def askFill (trade : AuctionTrade) : OrderId × ℤ := (trade.askId, trade.qty)

end AuctionTrade

/-! One fill. -/
section Fill
variable {book book' : OrderBook} {side : Side} {qty : ℤ} {fill : FillResult} {maker : Order}
  {rest : List Order} {ok : ℤ → Prop}

theorem OrderBook.BestFill.allDisplayed_after (h : BestFill book book' side qty fill maker rest)
    (hdisplayed : book.AllDisplayed) : book'.AllDisplayed := by
  have hmaker := hdisplayed side maker (h.wellFormed.mem_sideOrders.mpr ⟨h.found, h.placed.side⟩)
  obtain ⟨others, hbefore, hafter⟩ := h.sideOrders_after hmaker
  intro side' order horder
  by_cases hside : side' = side
  · subst hside
    rw [hafter] at horder
    rcases List.mem_append.mp horder with hsurvivor | hothers
    · rw [Option.mem_toList] at hsurvivor
      rw [(survivor_some hsurvivor).visibility, hmaker]
    · exact hdisplayed side' order (by rw [hbefore]; exact List.mem_cons_of_mem _ hothers)
  · have hopposite : side' = side.opposite := by cases side <;> cases side' <;> simp_all
    rw [hopposite, h.sideOrders_opposite] at horder
    exact hdisplayed _ order horder

/-- A fill serves the first order of its side. -/
theorem OrderBook.BestFill.served (h : BestFill book book' side qty fill maker rest)
    (hdisplayed : book.AllDisplayed) (hok : ok maker.price) {fills : List (OrderId × ℤ)}
    {left : List (OrderId × ℤ × ℤ)} (hrest : Served ok (book'.queued side) fills left) :
    Served ok (book.queued side) ((fill.makerId, fill.qty) :: fills) left := by
  have hmaker := hdisplayed side maker (h.wellFormed.mem_sideOrders.mpr ⟨h.found, h.placed.side⟩)
  obtain ⟨others, hbefore, hafter⟩ := h.sideOrders_after hmaker
  have hid : fill.makerId = maker.id := by rw [h.result]; rfl
  unfold queued at hrest ⊢
  rw [hafter, List.map_append] at hrest
  rw [hbefore, List.map_cons, hid]
  cases hsurvivor : survivor maker fill.qty with
  | none =>
    rw [hsurvivor] at hrest
    have htotal := survivor_eq_none.mp hsurvivor
    rw [htotal]
    exact .whole hok (htotal ▸ h.fill_qty_pos) hrest
  | some order =>
    rw [hsurvivor] at hrest
    have hsame := survivor_some hsurvivor
    have hne : fill.qty ≠ totalRemainingQty maker := fun heq => by
      rw [survivor_eq_none.mpr heq] at hsurvivor
      cases hsurvivor
    have hlt : fill.qty < totalRemainingQty maker := lt_of_le_of_ne h.fill_qty_le_total hne
    refine .part hok h.fill_qty_pos hlt ?_
    rw [← hsame.id, ← hsame.price, ← hsame.total]
    exact hrest

end Fill

/-! The auction loop. -/
section Loop
variable {symbol : Symbol} {price remaining remaining' : ℤ} {s s' : MatchingEngine}
  {events : List Event} {steps : List (OrderBook × ℤ)}

/-- What trades of an auction do to the two sides. -/
structure Crossing (price : ℤ) (before after : OrderBook) (trades : List AuctionTrade) : Prop where
  wellFormed : after.WellFormed
  displayed : after.AllDisplayed
  bids : Served (price ≤ ·) (before.queued .bid) (trades.map AuctionTrade.bidFill) (after.queued .bid)
  asks : Served (· ≤ price) (before.queued .ask) (trades.map AuctionTrade.askFill) (after.queued .ask)

theorem queued_opposite {book book' : OrderBook} {side : Side} {qty : ℤ} {fill : FillResult}
    {maker : Order} {rest : List Order} (h : BestFill book book' side qty fill maker rest) :
    book'.queued side.opposite = book.queued side.opposite := by
  unfold queued
  rw [h.sideOrders_opposite]

/-- The fill of a side takes the whole quantity of the trade. -/
theorem auctionFill_qty {book book' : OrderBook} (hdisplayed : book.AllDisplayed) {side : Side}
    {traded : ℤ} {fill : FillResult} {maker : Order} {rest : List Order}
    (h : BestFill book book' side traded fill maker rest) {first : OrderBook}
    (hfirst : first.WellFormed) (hsame : book.sideOrders side = first.sideOrders side)
    (hqty : nextAuctionQty first price remaining = some traded) : fill.qty = traded := by
  have hmaker := hdisplayed side maker (h.wellFormed.mem_sideOrders.mpr ⟨h.found, h.placed.side⟩)
  have hhead : (first.sideOrders side).head? = some maker := hsame ▸ h.head
  have hle := nextAuctionQty_le_front hfirst hqty hhead (by rw [hmaker]; decide)
  rw [h.fill_qty, min_eq_left hle]

theorem Crosses.crossing (h : Crosses symbol price s remaining events steps s' remaining')
    (hb : (s.bookFor symbol).WellFormed) (hdisplayed : (s.bookFor symbol).AllDisplayed) :
    ∃ trades : List AuctionTrade,
      Crossing price (s.bookFor symbol) (s'.bookFor symbol) trades ∧
      events.filter (isTrade ·) = trades.map (AuctionTrade.event price symbol) ∧
      remaining = (trades.map AuctionTrade.qty).sum + remaining' ∧
      (0 ≤ remaining → 0 ≤ remaining') := by
  induction h with
  | refl s remaining => exact ⟨[], ⟨hb, hdisplayed, .done _, .done _⟩, rfl, by simp, id⟩
  | @trade s s' remaining traded remaining' bid ask book book' events steps hqty hbid hask _ ih =>
    obtain ⟨bidMaker, bidRest, hbidFill, hbidPrice⟩ := fillBestAtOrBetter_some hb hbid
    have hbook := hbidFill.wellFormed_after
    have hbookDisplayed := hbidFill.allDisplayed_after hdisplayed
    obtain ⟨askMaker, askRest, haskFill, haskPrice⟩ := fillBestAtOrBetter_some hbook hask
    have hafter : (s.auctionTraded symbol price traded bid.makerId ask.makerId book').bookFor symbol =
        book' := by
      rw [bookFor_auctionTraded, if_pos rfl]
    rw [hafter] at ih
    obtain ⟨trades, hcrossing, hevents, hsum, hnonneg⟩ :=
      ih haskFill.wellFormed_after (haskFill.allDisplayed_after hbookDisplayed)
    have hbidQty : bid.qty = traded := auctionFill_qty hdisplayed hbidFill hb rfl hqty
    have haskQty : ask.qty = traded := auctionFill_qty hbookDisplayed haskFill hb
      hbidFill.sideOrders_opposite hqty
    obtain ⟨-, hle, -⟩ := nextAuctionQty_some hb hqty
    refine ⟨⟨bid.makerId, ask.makerId, traded⟩ :: trades, ⟨hcrossing.wellFormed, hcrossing.displayed,
      ?_, ?_⟩, ?_, ?_, fun _ => hnonneg (by omega)⟩
    · have hbids := hcrossing.bids
      rw [show book'.queued .bid = book.queued .bid from queued_opposite haskFill] at hbids
      have hserved := hbidFill.served hdisplayed hbidPrice hbids
      rw [hbidQty] at hserved
      exact hserved
    · have hserved := haskFill.served hbookDisplayed haskPrice hcrossing.asks
      rw [haskQty, show book.queued .ask = (s.bookFor symbol).queued .ask from
        queued_opposite hbidFill] at hserved
      exact hserved
    · rw [List.filter_append, hevents]
      rfl
    · rw [List.map_cons, List.sum_cons]
      dsimp only
      omega

/-- The best displayed price is the price of a first order. -/
theorem exists_of_bestDisplayed {book : OrderBook} (hb : book.WellFormed) {side : Side} {best : ℤ}
    (h : bestDisplayedPrice (book.levels side) = some best) :
    ∃ order ∈ book.queued side, order.2.1 = best := by
  obtain ⟨⟨price, level⟩, he, rfl⟩ := Option.map_eq_some_iff.mp h
  obtain ⟨hfind, -, -⟩ := OrderedMap.findFirst_some he
  have hmem := OrderedMap.mem_entries_iff.mpr hfind
  have hne : level.orders ≠ [] := by
    have hnonempty := (hb.level hfind).nonempty
    simpa [Level.isEmpty] using hnonempty
  obtain ⟨order, horder⟩ := List.exists_mem_of_ne_nil _ hne
  exact ⟨_, List.mem_map_of_mem (List.mem_flatMap.mpr ⟨_, hmem, horder⟩),
    hb.level_prices hmem order horder⟩

/-- Where orders at a price or better are left on both sides, the loop goes on. -/
theorem nextAuctionQty_ne_none {book : OrderBook} (hb : book.WellFormed)
    (hdisplayed : book.AllDisplayed) (hpos : 0 < remaining)
    (hbids : ∃ bid ∈ (book.queued .bid).map Prod.snd, price ≤ bid.1)
    (hasks : ∃ ask ∈ (book.queued .ask).map Prod.snd, ask.1 ≤ price) :
    nextAuctionQty book price remaining ≠ none := by
  have hfront : ∀ side, book.sideOrders side ≠ [] → ∃ order, (book.sideOrders side).head? = some order ∧
      bestDisplayedPrice (book.levels side) = some order.price ∧
      book.frontOfLevel side order.price = some order := by
    intro side hne
    obtain ⟨order, rest, horders⟩ := List.exists_cons_of_ne_nil hne
    have hhead : (book.sideOrders side).head? = some order := by rw [horders]; rfl
    have hvisible := hdisplayed side order (List.mem_of_mem_head? hhead)
    exact ⟨order, hhead, hb.front_of_head hhead (by rw [hvisible]; decide)⟩
  have hbest : ∀ side order other, (book.sideOrders side).head? = some order →
      other ∈ book.sideOrders side → ¬ side.before other.price order.price := by
    intro side order other hhead hother
    obtain ⟨rest, horders⟩ := List.head?_eq_some_iff.mp hhead
    have hsorted := hb.queued_sorted side
    unfold queued at hsorted
    rw [horders] at hother hsorted
    rcases List.mem_cons.mp hother with rfl | hother
    · exact irrefl_of side.before _
    · exact (List.pairwise_cons.mp hsorted).1 _ (List.mem_map_of_mem hother)
  simp only [queued, List.map_map, List.mem_map] at hbids hasks
  obtain ⟨_, ⟨bid, hbid, rfl⟩, hbidPrice⟩ := hbids
  obtain ⟨_, ⟨ask, hask, rfl⟩, haskPrice⟩ := hasks
  obtain ⟨bidOrder, hbidHead, hbestBid, hbidFront⟩ := hfront .bid (List.ne_nil_of_mem hbid)
  obtain ⟨askOrder, haskHead, hbestAsk, haskFront⟩ := hfront .ask (List.ne_nil_of_mem hask)
  have hbidLe : ¬ bidOrder.price < bid.price := hbest .bid bidOrder bid hbidHead hbid
  have haskLe : ¬ ask.price < askOrder.price := hbest .ask askOrder ask haskHead hask
  dsimp only [Function.comp_apply] at hbidPrice haskPrice
  unfold nextAuctionQty
  rw [show book.bestBid = some bidOrder.price from hbestBid,
    show book.bestAsk = some askOrder.price from hbestAsk]
  simp only [Option.bind_eq_bind, Option.bind_some, hbidFront, haskFront]
  rw [if_neg (by omega)]
  exact Option.some_ne_none _

end Loop

/-! The whole uncross. -/

/-- The uncross at the price trades the indicative volume and clears the book. -/
def MatchingEngine.Clears (s : MatchingEngine) (symbol : Symbol) (price : ℤ) (events : List Event)
    (s' : MatchingEngine) : Prop :=
  ∃ trades : List AuctionTrade,
    events.filter (isTrade ·) = trades.map (AuctionTrade.event price symbol) ∧
    (trades.map AuctionTrade.qty).sum = (s.computeAuctionIndicative symbol).qty ∧
    Served (price ≤ ·) ((s.bookFor symbol).queued .bid) (trades.map AuctionTrade.bidFill)
      ((s'.bookFor symbol).queued .bid) ∧
    Served (· ≤ price) ((s.bookFor symbol).queued .ask) (trades.map AuctionTrade.askFill)
      ((s'.bookFor symbol).queued .ask) ∧
    ∀ bid ∈ (s'.bookFor symbol).bestBid, ∀ ask ∈ (s'.bookFor symbol).bestAsk, bid < ask

/-- An account has reserved less than nothing. -/
def MatchingEngine.HasNegativeReserve (s : MatchingEngine) (symbol : Symbol) (a : AccountId) : Prop :=
  (s.account a).reservedCash < 0 ∨ (s.account a).reservedShortMargin < 0 ∨
    (s.account a).reservedQty symbol < 0

section Clear
variable {symbol : Symbol} {price : ℤ} {s s' : MatchingEngine} {events : List Event}

theorem hasNegativeReserve_of_not_hold {a b : AccountId} (ha : s.accounts.lookup a ≠ none)
    (hb : s.accounts.lookup b ≠ none) (h : ¬ s.InvariantsHold symbol a b) :
    ∃ a, s.HasNegativeReserve symbol a := by
  by_contra hnone
  have hnonneg : ∀ a, 0 ≤ (s.account a).reservedCash ∧ 0 ≤ (s.account a).reservedShortMargin ∧
      0 ≤ (s.account a).reservedQty symbol := fun a => by
    have hnot := not_exists.mp hnone a
    unfold HasNegativeReserve at hnot
    omega
  exact h ⟨⟨ha, hb⟩, ⟨(hnonneg a).1, (hnonneg b).1⟩, ⟨(hnonneg a).2.1, (hnonneg b).2.1⟩,
    (hnonneg a).2.2, (hnonneg b).2.2⟩

theorem volumeAt_eq (hb : (s.bookFor symbol).WellFormed)
    (hdisplayed : (s.bookFor symbol).AllDisplayed) (p : ℤ) :
    s.volumeAt symbol p = volume (((s.bookFor symbol).queued .bid).map Prod.snd)
      (((s.bookFor symbol).queued .ask).map Prod.snd) p := by
  unfold volumeAt volume demand supply
  rw [hdisplayed.sum_shown hb .bid fun q => p ≤ q, hdisplayed.sum_shown hb .ask fun q => q ≤ p]

/-- The loop executes the whole volume. -/
theorem Crossing.remaining_eq_zero {before after : OrderBook} {trades : List AuctionTrade}
    {remaining : ℤ} (h : Crossing price before after trades)
    (hvolume : volume ((before.queued .bid).map Prod.snd) ((before.queued .ask).map Prod.snd) price =
      (trades.map AuctionTrade.qty).sum + remaining) (hnonneg : 0 ≤ remaining)
    (hdone : nextAuctionQty after price remaining = none) : remaining = 0 := by
  by_contra hne
  have hpos : 0 < remaining := lt_of_le_of_ne hnonneg (Ne.symm hne)
  have hbids := h.bids.demand_eq fun p hp => hp
  have hasks : supply ((before.queued .ask).map Prod.snd) price =
      ((trades.map AuctionTrade.askFill).map Prod.snd).sum +
        supply ((after.queued .ask).map Prod.snd) price :=
    Served.demand_eq (α := ℤᵒᵈ) h.asks fun p hp => hp
  have hbidSum : (trades.map AuctionTrade.bidFill).map Prod.snd = trades.map AuctionTrade.qty := by
    rw [List.map_map]
    rfl
  have haskSum : (trades.map AuctionTrade.askFill).map Prod.snd = trades.map AuctionTrade.qty := by
    rw [List.map_map]
    rfl
  rw [hbidSum] at hbids
  rw [haskSum] at hasks
  unfold volume at hvolume
  have hpositive : ∀ side, ∀ order ∈ (after.queued side).map Prod.snd, 0 < order.2 := by
    intro side order horder
    obtain ⟨other, hother, rfl⟩ := List.mem_map.mp horder
    exact h.wellFormed.queued_pos other hother
  exact nextAuctionQty_ne_none h.wellFormed h.displayed hpos
    ((demand_pos_iff (hpositive .bid)).mp (by omega))
    ((supply_pos_iff (hpositive .ask)).mp (by omega)) hdone

/-- Trades of the whole volume leave no bid that meets an ask. -/
theorem Crossing.uncrossed {before after : OrderBook} {trades : List AuctionTrade}
    (h : Crossing price before after trades) (hb : before.WellFormed)
    (hmost : ∀ p, volume ((before.queued .bid).map Prod.snd) ((before.queued .ask).map Prod.snd) p ≤
      (trades.map AuctionTrade.qty).sum) :
    ∀ bid ∈ after.bestBid, ∀ ask ∈ after.bestAsk, bid < ask := by
  intro bid hbid ask hask
  obtain ⟨bidOrder, hbidOrder, rfl⟩ := exists_of_bestDisplayed h.wellFormed hbid
  obtain ⟨askOrder, haskOrder, rfl⟩ := exists_of_bestDisplayed h.wellFormed hask
  have hbidSorted : Sorted (before.queued .bid) :=
    (hb.queued_sorted .bid).imp fun hnot => not_lt.mp hnot
  have haskSorted : Sorted (α := ℤᵒᵈ) (before.queued .ask) :=
    (hb.queued_sorted .ask).imp fun hnot => not_lt.mp hnot
  refine CallAuction.uncrossed h.bids h.asks hbidSorted haskSorted hb.queued_pos hb.queued_pos ?_
    (fun p => ?_) hbidOrder haskOrder
  · rw [List.map_map, List.map_map]
    rfl
  · rw [List.map_map]
    exact hmost p

theorem not_trade_report {s₁ : MatchingEngine} {ended : List Event} {bid ask : Option ℤ}
    (hended : ∀ e ∈ ended, isTrade e = false) :
    (s₁.maybeEmitTopOfBookChange symbol bid ask ++ ended).filter (isTrade ·) = [] := by
  refine List.filter_eq_nil_iff.mpr fun e he => ?_
  rcases List.mem_append.mp he with he | he
  · rw [inert_topOfBook e he |>.not_trade]
    exact Bool.false_ne_true
  · rw [hended e he]
    exact Bool.false_ne_true

/-- The uncross of displayed orders at a price in band trades the indicative volume in priority
and clears the book, unless an account is left with less than nothing reserved. -/
theorem uncross_outcome (hs : s.Sound {}) (hdisplayed : (s.bookFor symbol).AllDisplayed)
    (hprice : (s.computeAuctionIndicative symbol).price = some price)
    (hband : s.priceInBand symbol price) :
    Outcome (uncross symbol) s (s.Clears symbol price) fun _ s' => ∃ a, s'.HasNegativeReserve symbol a := by
  have hb := hs.book symbol
  obtain ⟨-, hoptimal⟩ := s.indicative_optimal symbol
  obtain ⟨hmost, hqty, -⟩ := hoptimal price hprice
  obtain ⟨hbest, -⟩ := mem_argmax_of_price hprice
  have hpos : 0 < s.volumeAt symbol price := (mem_tradeablePrices.mp (List.argmax_mem hbest)).2
  unfold uncross
  simp only [outcome_bind, outcome_get, hprice]
  rw [if_neg (by omega), if_neg (not_not.mpr hband), outcome_bind]
  refine (auctionLoop_crosses hs (by omega)).mono (fun r s₁ hloop => ?_) fun e s₁ hbroken => ?_
  · obtain ⟨remaining, events⟩ := r
    obtain ⟨hcrosses, hdone⟩ := hloop
    obtain ⟨trades, hcrossing, hevents, hsum, hnonneg⟩ := hcrosses.crossing hb hdisplayed
    have hzero : remaining = 0 := hcrossing.remaining_eq_zero
      (by rw [← volumeAt_eq hb hdisplayed, ← hqty, hsum]) (hnonneg (by omega)) hdone
    have hclears : ∀ s₂ ended, s₂.bookFor symbol = s₁.bookFor symbol →
        (∀ e ∈ ended, isTrade e = false) → s.Clears symbol price
          (.auctionUncross symbol price ((s.computeAuctionIndicative symbol).qty - remaining)
            (s₁.computeAuctionIndicative symbol).imbalance :: events ++
            s₁.maybeEmitTopOfBookChange symbol (s.bookFor symbol).bestBid (s.bookFor symbol).bestAsk ++
            ended) s₂ := by
      intro s₂ ended hbook hended
      refine ⟨trades, ?_, by omega, ?_, ?_, ?_⟩
      · rw [List.append_assoc, List.filter_append, not_trade_report hended, List.append_nil,
          List.filter_cons_of_neg (by simp [isTrade]), hevents]
      · rw [hbook]
        exact hcrossing.bids
      · rw [hbook]
        exact hcrossing.asks
      · rw [hbook]
        refine hcrossing.uncrossed hb fun p => ?_
        rw [← volumeAt_eq hb hdisplayed]
        have hle := hmost.2 ⟨p, rfl⟩
        omega
    have hbook : ∀ (s₂ : MatchingEngine) (all : List Event), s₂.books = s₁.books →
        (s₂.trackEvents all).bookFor symbol = s₁.bookFor symbol := fun s₂ all hbooks => by
      rw [bookFor_of_frame (frame_of_unjournaled (unjournaled_trackEvents s₂ all)), bookFor, hbooks,
        ← bookFor]
    unfold endAuction
    simp only [outcome_bind, outcome_get]
    split_ifs with hphase
    · simp only [outcome_set, outcome_bind, outcome_modify, outcome_pure]
      exact hclears _ _ (hbook _ _ rfl) (by simp [isTrade])
    · simp only [outcome_modify, outcome_pure]
      exact hclears _ _ (hbook _ _ rfl) (by simp)
  · obtain ⟨-, -, -, a, b, -, -, ha, hb, hnot⟩ := hbroken
    exact hasNegativeReserve_of_not_hold ha hb hnot

end Clear

/-- Bids of 3 and 4 at 101 and 100 against an offer of 5 at 99, called together. -/
def crossedAuction : List Op :=
  [.setAccountState 1 "X" 0 10, .setAccountState 2 "X" 5000 0,
    .setTradingPhase "X" .openingAuction, .placeLimitOrder 2 "X" .bid 100 4 .gtc,
    .placeLimitOrder 2 "X" .bid 101 3 .gtc, .placeLimitOrder 1 "X" .ask 99 5 .gtc]

/-- An account with a negative margin requirement has two bids in the auction. -/
def overdrawnAuction : List Op :=
  [.setAccountState 1 "X" 0 10, .setAccountState 2 "X" 5000 0,
    .setAccountRiskConfig 2
      { mode := .margin, maxLeverage := 2, initialMarginRequirement := 1 / 2,
        initialMarginRequirementBySymbol := Finmap.singleton "X" (-1) },
    .setTradingPhase "X" .openingAuction, .placeLimitOrder 2 "X" .bid 100 5 .gtc,
    .placeLimitOrder 2 "X" .bid 90 5 .gtc, .placeLimitOrder 1 "X" .ask 100 5 .gtc]

end Tes
