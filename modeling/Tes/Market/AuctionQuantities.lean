import Tes.Market.Replacement

/-! An auction takes out of the book what its trades say, where both orders of each trade can fill
it, and less where one of them cannot. -/
namespace Tes
open OrderBook MatchingEngine EStateM

namespace OrderBook

/-- No hidden order rests in the book. -/
def AllVisible (book : OrderBook) : Prop :=
  ∀ order ∈ book.sideOrders .bid ++ book.sideOrders .ask, order.visibility ≠ .hidden

instance (book : OrderBook) : Decidable book.AllVisible :=
  inferInstanceAs (Decidable (∀ order ∈ _, _))

theorem WellFormed.allVisible_iff {book : OrderBook} (hb : book.WellFormed) :
    book.AllVisible ↔ ∀ id order, book.findOrder id = some order → order.visibility ≠ .hidden := by
  constructor
  · intro h id order hfound
    obtain ⟨-, rfl⟩ := hb.findOrder_iff.mp hfound
    apply h
    rw [List.mem_append, hb.mem_sideOrders, hb.mem_sideOrders]
    cases hside : order.side with
    | bid => exact Or.inl ⟨hfound, rfl⟩
    | ask => exact Or.inr ⟨hfound, rfl⟩
  · intro h order horder
    rw [List.mem_append, hb.mem_sideOrders, hb.mem_sideOrders] at horder
    rcases horder with horder | horder
    · exact h _ _ horder.1
    · exact h _ _ horder.1

theorem AllVisible.after {book book' : OrderBook} {side : Side} {qty : ℤ} {fill : FillResult}
    {maker : Order} {rest : List Order} (h : book.AllVisible)
    (hfill : FillStep book book' side qty fill maker rest) : book'.AllVisible := by
  rw [hfill.wellFormed_after.allVisible_iff]
  rw [hfill.wellFormed.allVisible_iff] at h
  intro id order hfound
  rw [hfill.findOrder_after] at hfound
  split_ifs at hfound
  · rw [(survivor_some hfound).visibility]
    exact h _ _ hfill.found
  · exact h _ _ hfound

theorem AllVisible.aligned {book : OrderBook} (h : book.AllVisible) (hb : book.WellFormed)
    {price remaining traded : ℤ} (hqty : nextAuctionQty book price remaining = some traded) :
    book.Aligned traded := by
  constructor
  · intro order horder
    apply nextAuctionQty_le_front hb hqty horder
    exact h _ (List.mem_append_left _ (List.mem_of_mem_head? horder))
  · intro order horder
    apply nextAuctionQty_le_front hb hqty horder
    exact h _ (List.mem_append_right _ (List.mem_of_mem_head? horder))

theorem AllVisible.auctionSteps {book : OrderBook} (h : book.AllVisible) (hb : book.WellFormed)
    (price : ℤ) (fuel : ℕ) (remaining : ℤ) :
    ∀ step ∈ MatchingEngine.auctionSteps price fuel book remaining, step.1.Aligned step.2 := by
  induction fuel generalizing book remaining with
  | zero => simp [MatchingEngine.auctionSteps]
  | succ fuel ih =>
    rw [MatchingEngine.auctionSteps]
    cases hqty : nextAuctionQty book price remaining with
    | none => simp
    | some traded =>
      obtain ⟨bid, book₁, ask, book₂, hbid, hask⟩ := auction_fills hb hqty
      obtain ⟨bidOrder, rest, hbidFill, -⟩ := fillBestAtOrBetter_some hb hbid
      obtain ⟨askOrder, rest', haskFill, -⟩ := fillBestAtOrBetter_some hbidFill.wellFormed_after hask
      intro step hstep
      have hbook₁ : (auctionFill book .bid price traded).2 = book₁ := by rw [auctionFill, hbid]
      have hbook₂ : (auctionFill book₁ .ask price traded).2 = book₂ := by rw [auctionFill, hask]
      dsimp only at hstep
      rw [hbook₁, hbook₂] at hstep
      rcases List.mem_cons.mp hstep with rfl | hstep
      · exact h.aligned hb hqty
      · exact ih ((h.after hbidFill.toFillStep).after haskFill.toFillStep) haskFill.wellFormed_after
          _ _ hstep

/-- What an order still has in the book. -/
def quantity (book : OrderBook) (id : OrderId) : ℤ := (book.findOrder id).elim 0 totalRemainingQty

theorem FillStep.quantity_after {book book' : OrderBook} {side : Side} {qty : ℤ} {fill : FillResult}
    {maker : Order} {rest : List Order} (h : FillStep book book' side qty fill maker rest)
    (id : OrderId) :
    book'.quantity id = book.quantity id - if fill.makerId = id then fill.qty else 0 := by
  unfold quantity
  rw [h.findOrder_after, h.makerId]
  by_cases hid : maker.id = id
  · subst hid
    rw [if_pos rfl, if_pos rfl, h.found, survivor_total, Option.elim_some]
  · rw [if_neg fun heq => hid heq.symm, if_neg hid, sub_zero]

end OrderBook

/-- What the event takes from an order, as taker or as maker. -/
def Event.tradedOf (id : OrderId) : Event → ℤ
  | .tradeExecuted takerId makerId _ _ qty _ =>
    (if takerId = id then qty else 0) + if makerId = id then qty else 0
  | _ => 0

/-- The quantity of the trades that name the order. -/
def tradedOf (id : OrderId) (events : List Event) : ℤ := (events.map (Event.tradedOf id)).sum

section Named
variable {id : OrderId} {events more : List Event}

theorem tradedOf_append : tradedOf id (events ++ more) = tradedOf id events + tradedOf id more := by
  rw [tradedOf, List.map_append, List.sum_append]
  rfl

theorem tradedOf_of_untraded (h : ∀ e ∈ events, isTrade e = false) : tradedOf id events = 0 := by
  apply List.sum_eq_zero
  intro x hx
  obtain ⟨e, he, rfl⟩ := List.mem_map.mp hx
  have hplain := h e he
  cases e with
  | tradeExecuted => cases hplain
  | _ => rfl

end Named

namespace MatchingEngine
variable {G : Guard} {s s' s'' : MatchingEngine} {symbol : Symbol} {price : ℤ}
  {events more : List Event}

/-- By how much the trades that name an order exceed what it gave up. -/
def excess (s s' : MatchingEngine) (symbol : Symbol) (events : List Event) (id : OrderId) : ℤ :=
  tradedOf id events - (s.restingQty symbol id - s'.restingQty symbol id)

theorem excess_append (id : OrderId) : s.excess s'' symbol (events ++ more) id =
    s.excess s' symbol events id + s'.excess s'' symbol more id := by
  unfold excess
  rw [tradedOf_append]
  omega

/-- The excess of one trade: what each of the two fills falls short of it. -/
theorem excess_auctionTraded (hs : s.Sound G) {traded : ℤ} {bid ask : FillResult}
    {book book' : OrderBook}
    (hbid : (s.bookFor symbol).fillBestAtOrBetter .bid price traded = some (bid, book))
    (hask : book.fillBestAtOrBetter .ask price traded = some (ask, book')) (id : OrderId) :
    s.excess (s.auctionTraded symbol price traded bid.makerId ask.makerId book') symbol
      (auctionTradeEvents symbol bid.makerId ask.makerId price traded) id =
      (if bid.makerId = id then traded - bid.qty else 0) +
        if ask.makerId = id then traded - ask.qty else 0 := by
  obtain ⟨bidOrder, rest, hbidFill, -⟩ := fillBestAtOrBetter_some (hs.book symbol) hbid
  obtain ⟨askOrder, rest', haskFill, -⟩ := fillBestAtOrBetter_some hbidFill.wellFormed_after hask
  have hfirst := hbidFill.toFillStep.quantity_after id
  have hsecond := haskFill.toFillStep.quantity_after id
  have hbefore : s.restingQty symbol id = (s.bookFor symbol).quantity id := rfl
  have hafter : (s.auctionTraded symbol price traded bid.makerId ask.makerId book').restingQty symbol id =
      book'.quantity id := by
    rw [restingQty, resting, bookFor_auctionTraded, if_pos rfl]
    rfl
  have hnamed : tradedOf id (auctionTradeEvents symbol bid.makerId ask.makerId price traded) =
      (if bid.makerId = id then traded else 0) + if ask.makerId = id then traded else 0 := by
    simp [tradedOf, auctionTradeEvents, Event.tradedOf]
  unfold excess
  rw [hbefore, hafter, hnamed]
  split_ifs at hfirst hsecond ⊢ <;> omega

/-- Where both orders can fill the trade there is no excess; elsewhere there is some. -/
theorem aligned_iff (hs : s.Sound G) {traded : ℤ} {bid ask : FillResult} {book book' : OrderBook}
    (hbid : (s.bookFor symbol).fillBestAtOrBetter .bid price traded = some (bid, book))
    (hask : book.fillBestAtOrBetter .ask price traded = some (ask, book')) :
    bid.qty ≤ traded ∧ ask.qty ≤ traded ∧
      ((s.bookFor symbol).Aligned traded ↔ bid.qty = traded ∧ ask.qty = traded) := by
  obtain ⟨bidOrder, rest, hbidFill, -⟩ := fillBestAtOrBetter_some (hs.book symbol) hbid
  obtain ⟨askOrder, rest', haskFill, -⟩ := fillBestAtOrBetter_some hbidFill.wellFormed_after hask
  have hbidHead := hbidFill.head
  have haskHead : ((s.bookFor symbol).sideOrders .ask).head? = some askOrder := by
    have hsame : book.sideOrders .ask = (s.bookFor symbol).sideOrders .ask :=
      hbidFill.sideOrders_opposite
    rw [← hsame]
    exact haskFill.head
  have hbidQty := hbidFill.fill_qty
  have haskQty := haskFill.fill_qty
  refine ⟨by omega, by omega, ?_⟩
  unfold Aligned
  rw [hbidHead, haskHead]
  simp only [Option.mem_def, Option.some.injEq, forall_eq']
  omega

/-- The trades of an auction never fall short of what the book gives up, and they agree with it
exactly if both orders of every trade can fill it. -/
theorem Crosses.excess (hs : s.Sound G) {remaining remaining' : ℤ} {steps : List (OrderBook × ℤ)}
    (h : Crosses symbol price s remaining events steps s' remaining') :
    (∀ id, 0 ≤ s.excess s' symbol events id) ∧
      ((∀ id, s.excess s' symbol events id = 0) ↔ ∀ step ∈ steps, step.1.Aligned step.2) := by
  induction h with
  | refl s remaining => simp [MatchingEngine.excess, tradedOf]
  | @trade s s' remaining traded remaining' bid ask book book' events steps hqty hbid hask _ ih =>
    obtain ⟨hnonneg, hiff⟩ := ih ((narrows_auctionTraded hs hbid hask).sound hs)
    obtain ⟨hbidLe, haskLe, haligned⟩ := aligned_iff hs hbid hask
    have hfirst := excess_auctionTraded hs hbid hask
    have htotal : ∀ id, s.excess s' symbol
        (auctionTradeEvents symbol bid.makerId ask.makerId price traded ++ events) id =
        ((if bid.makerId = id then traded - bid.qty else 0) +
          if ask.makerId = id then traded - ask.qty else 0) +
        (s.auctionTraded symbol price traded bid.makerId ask.makerId book').excess s' symbol events
          id := fun id => by
      rw [excess_append, hfirst]
    constructor
    · intro id
      have hrest := hnonneg id
      rw [htotal]
      split_ifs <;> omega
    · rw [List.forall_mem_cons, ← hiff, haligned]
      constructor
      · intro hzero
        have hbidZero := hzero bid.makerId
        have haskZero := hzero ask.makerId
        have hbidRest := hnonneg bid.makerId
        have haskRest := hnonneg ask.makerId
        rw [htotal] at hbidZero haskZero
        rw [if_pos rfl] at hbidZero haskZero
        refine ⟨⟨?_, ?_⟩, fun id => ?_⟩
        · split_ifs at hbidZero <;> omega
        · split_ifs at haskZero <;> omega
        · have hid := hzero id
          have hrest := hnonneg id
          rw [htotal] at hid
          split_ifs at hid <;> omega
      · rintro ⟨⟨hbidQty, haskQty⟩, hzero⟩ id
        rw [htotal, hzero, hbidQty, haskQty, sub_self]
        simp

/-- What is said around the trades names no order. -/
theorem excess_surrounded {first last : List Event} {s₂ : MatchingEngine}
    (hfirst : ∀ e ∈ first, isTrade e = false) (hlast : ∀ e ∈ last, isTrade e = false)
    (hbooks : s₂.books = s'.books) (id : OrderId) :
    s.excess s₂ symbol (first ++ events ++ last) id = s.excess s' symbol events id := by
  unfold excess
  rw [tradedOf_append, tradedOf_append, tradedOf_of_untraded hfirst, tradedOf_of_untraded hlast]
  have hsame : s₂.restingQty symbol id = s'.restingQty symbol id := by
    rw [restingQty, restingQty, resting, resting, bookFor, bookFor, hbooks]
  rw [hsame]
  omega

/-- Over an uncross every order gives up what the trades that name it come to, exactly if both
orders of each trade can fill it. -/
theorem uncross_conserves_iff (hreach : Reachable s) (symbol : Symbol) :
    Outcome (uncross symbol) s
      (fun events s' => (∀ id, s.restingQty symbol id = s'.restingQty symbol id + tradedOf id events) ↔
        ∀ step ∈ s.uncrossSteps symbol, step.1.Aligned step.2.2)
      fun _ s' => ∃ a, s'.HasNegativeReserve symbol a := by
  have hs := hreach.sound
  have hnone : ∀ {events : List Event} {s' : MatchingEngine}, (∀ e ∈ events, isTrade e = false) →
      s'.books = s.books → s.uncrossSteps symbol = [] →
      ((∀ id, s.restingQty symbol id = s'.restingQty symbol id + tradedOf id events) ↔
        ∀ step ∈ s.uncrossSteps symbol, step.1.Aligned step.2.2) := by
    intro events s' hplain hbooks hsteps
    rw [hsteps]
    refine iff_of_true (fun id => ?_) (by simp)
    rw [tradedOf_of_untraded hplain, restingQty, restingQty, resting, resting, bookFor, bookFor, hbooks]
    omega
  unfold uncross
  simp only [outcome_bind, outcome_get]
  cases hprice : (s.computeAuctionIndicative symbol).price with
  | none =>
    apply hnone (by simp [isTrade]) rfl
    unfold uncrossSteps
    simp only [hprice]
  | some price =>
    dsimp only
    split_ifs with hqty hband
    · apply hnone (by simp [isTrade]) rfl
      unfold uncrossSteps
      simp only [hprice]
      have hzero : (s.computeAuctionIndicative symbol).qty.toNat = 0 := by omega
      rw [hzero]
      simp [auctionSteps]
    · rw [outcome_bind]
      have hsteps : s.uncrossSteps symbol = (auctionSteps price
          (s.computeAuctionIndicative symbol).qty.toNat (s.bookFor symbol)
          (s.computeAuctionIndicative symbol).qty).map fun step => (step.1, price, step.2) := by
        unfold uncrossSteps
        simp only [hprice, if_pos hband]
      refine (auctionLoop_crosses hs (by omega)).mono (fun r s₁ hloop => ?_) fun e s₁ hbroken => ?_
      · obtain ⟨remaining, events⟩ := r
        obtain ⟨hcrosses, -⟩ := hloop
        have hiff : (∀ id, s.excess s₁ symbol events id = 0) ↔ _ := (Crosses.excess hs hcrosses).2
        have hexact : ∀ {first last : List Event} {s₂ : MatchingEngine},
            (∀ e ∈ first, isTrade e = false) → (∀ e ∈ last, isTrade e = false) →
            s₂.books = s₁.books → ((∀ id, s.restingQty symbol id = s₂.restingQty symbol id +
              tradedOf id (first ++ events ++ last)) ↔
                ∀ step ∈ s.uncrossSteps symbol, step.1.Aligned step.2.2) := by
          intro first last s₂ hfirst hlast hbooks
          rw [hsteps, List.forall_mem_map, ← hiff]
          refine forall_congr' fun id => ?_
          rw [← excess_surrounded hfirst hlast hbooks id]
          unfold excess
          omega
        have hloud : ∀ {ended : List Event}, (∀ e ∈ ended, isTrade e = false) →
            ∀ e ∈ s₁.maybeEmitTopOfBookChange symbol (s.bookFor symbol).bestBid
              (s.bookFor symbol).bestAsk ++ ended, isTrade e = false := by
          intro ended hended e he
          rcases List.mem_append.mp he with he | he
          · exact (inert_topOfBook e he).not_trade
          · exact hended e he
        have hbooks : ∀ (s₂ : MatchingEngine) (all : List Event),
            (s₂.trackEvents all).books = s₂.books := fun s₂ all =>
          books_of_frame (frame_of_unjournaled (unjournaled_trackEvents s₂ all))
        unfold endAuction
        simp only [outcome_bind, outcome_get]
        split_ifs with hphase
        · simp only [outcome_set, outcome_bind, outcome_modify, outcome_pure]
          rw [← List.singleton_append, List.append_assoc _ _ [_]]
          exact hexact (by simp [isTrade]) (hloud (by simp [isTrade])) (hbooks _ _)
        · simp only [outcome_modify, outcome_pure]
          rw [← List.singleton_append, List.append_assoc _ _ []]
          exact hexact (by simp [isTrade]) (hloud (by simp)) (hbooks _ _)
      · obtain ⟨-, -, -, a, b, -, -, ha, hb, hnot⟩ := hbroken
        exact hasNegativeReserve_of_not_hold ha hb hnot
    · simp only [outcome_bind, outcome_set, outcome_pure]
      apply hnone (by simp [isTrade, circuitBreakerEvents]) rfl
      unfold uncrossSteps
      simp only [hprice, if_neg hband]

/-- A hidden bid for 2 above a bid for 5, and an offer of 5 that meets both. -/
def hiddenBid : List Op :=
  [.setAccountState 1 "X" 5000 0, .setAccountState 2 "X" 0 10,
    .setTradingPhase "X" .openingAuction, .placeHiddenOrder 1 "X" .bid 105 2,
    .placeLimitOrder 1 "X" .bid 100 5 .gtc, .placeLimitOrder 2 "X" .ask 99 5 .gtc]

/-- The hidden bid gives up 2 for a trade of 5. -/
theorem uncross_conserves_hiddenBid :
    Outcome (uncross "X") (fresh.applyAll hiddenBid)
      (fun events s' => ¬ ∀ id, (fresh.applyAll hiddenBid).restingQty "X" id =
        s'.restingQty "X" id + tradedOf id events)
      fun _ s' => ∃ a, s'.HasNegativeReserve "X" a := by
  have hiff := uncross_conserves_iff (reachable_applyAll hiddenBid) "X"
  have hshort : ¬ ∀ step ∈ (fresh.applyAll hiddenBid).uncrossSteps "X",
      step.1.Aligned step.2.2 := by decide +kernel
  exact hiff.mono (fun _ _ h hall => hshort (h.mp hall)) fun _ _ h => h

end MatchingEngine

/-! Runs whose auctions see no hidden order. -/

/-- Where no hidden order rests, both orders of every trade can fill it. -/
theorem MatchingEngine.uncrossSteps_aligned {G : Guard} {s : MatchingEngine} {symbol : Symbol}
    (hs : s.Sound G) (hvisible : (s.bookFor symbol).AllVisible) :
    ∀ step ∈ s.uncrossSteps symbol, step.1.Aligned step.2.2 := by
  intro step hstep
  unfold uncrossSteps at hstep
  dsimp only at hstep
  split at hstep
  · cases hstep
  · split_ifs at hstep
    · obtain ⟨pair, hpair, rfl⟩ := List.mem_map.mp hstep
      exact hvisible.auctionSteps (hs.book symbol) _ _ _ pair hpair
    · cases hstep

/-- Both orders of every trade of an auction can fill it. -/
def alignedGuard : Guard where
  auction book _ traded := book.Aligned traded

/-- No hidden order rests on the symbol of an auction that the operation ends. -/
def Op.AuctionVisible (op : Op) (s : MatchingEngine) : Prop :=
  match op with
  | .uncross symbol => (s.bookFor symbol).AllVisible
  | _ => True

instance (op : Op) (s : MatchingEngine) : Decidable (op.AuctionVisible s) := by
  unfold Op.AuctionVisible
  cases op <;> infer_instance

theorem Op.AuctionVisible.guarded {op : Op} {s : MatchingEngine} {G : Guard} (hs : s.Sound G)
    (h : op.AuctionVisible s) : op.Guarded alignedGuard s where
  account _ _ := trivial
  replace _ _ _ := trivial
  entry _ _ := trivial
  auction := by
    cases op with
    | uncross symbol => exact uncrossSteps_aligned hs h
    | _ => intro step hstep; cases hstep

/-- Where auctions see no hidden order, both orders of all their trades can fill them. -/
theorem Run.aligned {C : List (Op × List Event) → MatchingEngine → Op → Prop}
    {ops : List (Op × List Event)} {s : MatchingEngine}
    (hC : ∀ {ops s op}, C ops s op → op.AuctionVisible s) (h : Run C fresh ops s) :
    Run (fun ops s op => C ops s op ∧ op.Guarded alignedGuard s) fresh ops s := by
  have hsound : ∀ {ops : List (Op × List Event)} {s : MatchingEngine}, Run C fresh ops s →
      s.Sound {} := fun h => h.sound (fun _ => Op.guarded_trivial _ _) (sound_fresh _)
  induction h with
  | nil => exact .nil
  | returns hrun hop hexec ih => exact ih.returns ⟨hop, (hC hop).guarded (hsound hrun)⟩ hexec
  | throws hrun hop hexec ih => exact ih.throws ⟨hop, (hC hop).guarded (hsound hrun)⟩ hexec

end Tes
