import Tes.Ledger.Reserves

/-! What a tick does to holdings: nothing, the top-up of an account that is looked up, or
one trade between two accounts. -/
namespace Tes
open MatchingEngine Flight

/-- A quantity bought or sold, as a change of position. -/
def Side.signed : Side → ℤ → ℤ
  | .bid, qty => qty
  | .ask, qty => -qty

theorem Side.signed_opposite (side : Side) (qty : ℤ) : side.opposite.signed qty = -side.signed qty := by
  cases side <;> simp [Side.opposite, Side.signed]

theorem PositionUpdate.position_close_extend {side : Side} {price : ℤ} {u : PositionUpdate}
    (h : 0 ≤ u.remaining) :
    ((u.close side price).extend side price).position = u.position + side.signed u.remaining := by
  cases side with
  | bid =>
    simp only [close, extend, Side.signed]
    grind
  | ask =>
    simp only [close, extend, Side.signed]
    grind

namespace AccountSnapshot
variable (account : AccountSnapshot) (symbol symbol' : Symbol) (side : Side) (price qty fee : ℤ)

theorem cashBalance_settle : (account.settle symbol side price qty fee).cashBalance =
    account.cashBalance - side.signed (price * qty) - fee := by
  cases side <;> simp only [settle, applyPositionAccounting, Side.signed] <;> omega

theorem position_settle (hqty : 0 ≤ qty) :
    (account.settle symbol side price qty fee).position symbol' =
      account.position symbol' + if symbol' = symbol then side.signed qty else 0 := by
  unfold settle applyPositionAccounting position positionUpdate
  dsimp only
  rw [Finmap.valueD_insert]
  split_ifs with h
  · rw [PositionUpdate.position_close_extend hqty, h]
    rfl
  · rw [add_zero]

theorem reserved_settle (kind : ReserveKind) :
    (account.settle symbol side price qty fee).reserved symbol' kind =
      account.reserved symbol' kind := by
  cases kind <;> rfl

end AccountSnapshot

namespace MatchingEngine

/-- The record of an account after a trade, the taker's part first. -/
theorem account_exchange (s : MatchingEngine) (symbol : Symbol) (side : Side) (price qty : ℤ)
    (a b c : AccountId) : (s.exchange symbol side price qty a b).account c =
      let first := if c = a then
          (s.account c).settle symbol side price qty (s.feeForNotional (price * qty) false)
        else s.account c
      if c = b then
        first.settle symbol side.opposite price qty (s.feeForNotional (price * qty) true)
      else first := by
  unfold exchange
  rw [account_updateAccount, account_updateAccount]

theorem reserved_exchange (s : MatchingEngine) (symbol symbol' : Symbol) (side : Side)
    (price qty : ℤ) (a b c : AccountId) (kind : ReserveKind) :
    ((s.exchange symbol side price qty a b).account c).reserved symbol' kind =
      (s.account c).reserved symbol' kind := by
  rw [account_exchange]
  dsimp only
  split_ifs <;> simp only [AccountSnapshot.reserved_settle]

theorem cashBalance_exchange (s : MatchingEngine) (symbol : Symbol) (side : Side) (price qty : ℤ)
    (a b c : AccountId) : ((s.exchange symbol side price qty a b).account c).cashBalance =
      (s.account c).cashBalance -
        (if c = a then
          side.signed (price * qty) + s.feeForNotional (price * qty) false else 0) -
        if c = b then
          side.opposite.signed (price * qty) + s.feeForNotional (price * qty) true else 0 := by
  rw [account_exchange]
  dsimp only
  split_ifs <;> grind [AccountSnapshot.cashBalance_settle]

theorem position_exchange (s : MatchingEngine) (symbol symbol' : Symbol) (side : Side)
    (price : ℤ) {qty : ℤ} (hqty : 0 ≤ qty) (a b c : AccountId) :
    ((s.exchange symbol side price qty a b).account c).position symbol' =
      (s.account c).position symbol' +
        (if c = a ∧ symbol' = symbol then side.signed qty else 0) +
        if c = b ∧ symbol' = symbol then side.opposite.signed qty else 0 := by
  rw [account_exchange]
  dsimp only
  split_ifs with hb ha <;> simp_all [AccountSnapshot.position_settle]

end MatchingEngine

/-- How holdings move. -/
inductive HoldingsStep (G : Guard) (s : MatchingEngine) : List Event → MatchingEngine → Prop
  | same {events : List Event} {s' : MatchingEngine} :
      s.SameHoldings s' → (∀ e ∈ events, isTrade e = false) → HoldingsStep G s events s'
  | touch {a : AccountId} (symbol : Symbol) :
      G.account a → HoldingsStep G s [] (s.touchAccount a symbol)
  | trade {symbol : Symbol} {side : Side} {price qty : ℤ} {takerId makerId : OrderId}
      {events : List Event} {s' : MatchingEngine} (a b : AccountId) :
      0 < qty → (s.exchange symbol side price qty a b).SameHoldings s' →
      (∀ e ∈ events, isTrade e = false) →
      HoldingsStep G s (.tradeExecuted takerId makerId side price qty symbol :: events) s'

theorem Event.inert.not_trade {e : Event} (h : e.inert) : isTrade e = false := by
  cases e <;> first | rfl | exact h.elim

namespace MatchingEngine
variable {G : Guard} {s : MatchingEngine}

theorem sameHoldings_paid (t : Taker) (fill : FillResult) (book : OrderBook)
    {s' : MatchingEngine} (h : (s.paid t fill book).SameHoldings s') :
    (s.exchange t.symbol t.side fill.price fill.qty t.accountId
      (s.ownerAccountId fill.makerId)).SameHoldings s' :=
  (SameHoldings.of_accounts rfl).trans h

theorem accounts_updateOwner (s : MatchingEngine) (fill : FillResult) :
    (s.updateOwner fill).accounts = s.accounts :=
  read_updateOwner MatchingEngine.accounts (fun _ _ => rfl) s fill

theorem accounts_reduceOwner (s : MatchingEngine) (id : OrderId) (qty : ℤ) :
    (s.reduceOwner id qty).accounts = s.accounts :=
  read_reduceOwner MatchingEngine.accounts (fun _ _ => rfl) s id qty

theorem nextFill_qty_pos (hs : s.Sound G) {t : Taker} {fill : FillResult} {book : OrderBook}
    (h : s.nextFill t = some (fill, book)) : 0 < fill.qty := by
  obtain ⟨maker, rest, hfill, -⟩ := nextFill_some (hs.book t.symbol) h
  exact hfill.fill_qty_pos

theorem restedEvents_not_trade {t : Taker} : ∀ e ∈ t.restedEvents s, isTrade e = false := by
  intro e he
  have hbook : ∀ e ∈ (addRemainder (s.bookFor t.symbol) t).1, isTrade e = false := by
    have hadd : ∀ (book : OrderBook) (order : Order) (visibility : OrderVisibility),
        ∀ e ∈ (book.addOrder order visibility).1, isTrade e = false := by
      intro book order visibility e he
      unfold OrderBook.addOrder at he
      split_ifs at he
      · cases he
      · rcases List.mem_cons.mp he with rfl | he
        · unfold OrderBook.acceptedEvent
          split <;> rfl
        · exact (inert_topOfBook e he).not_trade
    unfold addRemainder bookAdd
    cases t.visibility <;> exact hadd _ _ _
  obtain ⟨e', he', rfl⟩ := List.mem_map.mp he
  have := hbook e' he'
  cases e' <;> exact this

theorem canceledEvents_not_trade {book : OrderBook} {symbol : Symbol} {id : OrderId} :
    ∀ e ∈ (book.cancel id).1.map (Event.tagCanceled symbol), isTrade e = false := by
  intro e he
  obtain ⟨e', he', rfl⟩ := List.mem_map.mp he
  have hplain : isTrade e' = false := by
    unfold OrderBook.cancel at he'
    split at he'
    · cases he'
    · rcases List.mem_cons.mp he' with rfl | he'
      · rfl
      · exact (inert_topOfBook e' he').not_trade
  cases e' <;> exact hplain

theorem sameHoldings_cancelResting (s : MatchingEngine) (a : AccountId) (symbol : Symbol)
    (id : OrderId) : s.SameHoldings (s.cancelResting a symbol id) := by
  have hreleased := ((s.setBook symbol ((s.bookFor symbol).cancel id).2).releaseAll_releases a symbol
    id).1.holdings
  exact ((SameHoldings.of_accounts rfl).trans hreleased).trans (.of_accounts rfl)

theorem sameHoldings_auctionTraded (s : MatchingEngine) (symbol : Symbol) (price : ℤ) {traded : ℤ}
    (htraded : 0 ≤ traded) (bidId askId : OrderId) (book : OrderBook) :
    (s.exchange symbol .bid price traded (s.ownerAccountId bidId)
      (s.ownerAccountId askId)).SameHoldings
      (s.auctionTraded symbol price traded bidId askId book) := by
  obtain ⟨hfirst, hsecond⟩ :=
    (s.setBook symbol book).settleAuction_frees symbol bidId askId price htraded
  have hsettled := hfirst.holdings.trans hsecond.holdings
  refine (SameHoldings.of_accounts rfl).trans (hsettled.trans (.of_accounts ?_))
  rw [auctionTraded, accounts_reduceOwner, accounts_reduceOwner]

end MatchingEngine

/-- Every tick moves holdings in one of these ways. -/
theorem Tick.holdings {G : Guard} {c c' : Config} {events : List Event} (hc : c.Sound G)
    (h : Tick G c events c') : HoldingsStep G c.engine events c'.engine := by
  obtain ⟨hs, hflight⟩ := hc
  cases h with
  | record hjournal hinert =>
    exact .same (.of_accounts (accounts_of_money (money_of_unjournaled hjournal)))
      fun e he => (hinert e he).not_trade
  | allocate s => exact .same (.of_accounts rfl) (by simp)
  | touch s symbol ha => exact .touch symbol ha
  | stops hevents hstops hpending =>
    refine .same (.of_accounts rfl) fun e he => ?_
    rcases hevents e he with hinert | ⟨id, symbol, -, rfl⟩
    · exact hinert.not_trade
    · rfl
  | enter hadmits haccount hentry hphase hfok => exact .same (.of_accounts rfl) (by simp)
  | @fill s t fill book events hnext hband hhold hinert =>
    have hpos := nextFill_qty_pos hs hnext
    refine .trade t.accountId (s.ownerAccountId fill.makerId) hpos ?_ fun e he => (hinert e he).not_trade
    exact (sameHoldings_paid _ _ _ (journaled_frees _ _ hpos.le _).holdings).trans
      (.of_accounts (accounts_updateOwner _ _))
  | @breach s t fill book events hnext hband hinert =>
    have hpos := nextFill_qty_pos hs hnext
    refine .trade t.accountId (s.ownerAccountId fill.makerId) hpos ?_ fun e he => (hinert e he).not_trade
    exact (sameHoldings_paid _ _ _ (settleFill_frees _ _ hpos.le _).holdings).trans
      (.of_accounts rfl)
  | finish hnext => exact .same (.of_accounts rfl) (by simp)
  | rest hpos htif => exact .same (rested_sameHoldings _ _) restedEvents_not_trade
  | drop hleft => exact .same (.of_accounts rfl) (by simp)
  | restAuction hadmits haccount hentry hphase =>
    exact .same (rested_sameHoldings _ _) restedEvents_not_trade
  | cancel howner hrests =>
    exact .same (sameHoldings_cancelResting _ _ _ _) canceledEvents_not_trade
  | @auctionTrade s symbol price remaining traded bid ask book book' hqty hguard hbid hask =>
    have hpos := (nextAuctionQty_some (hs.book _) hqty).1
    refine .trade (s.ownerAccountId bid.makerId) (s.ownerAccountId ask.makerId) hpos ?_
      (by simp [isTrade])
    exact sameHoldings_auctionTraded s symbol price hpos.le bid.makerId ask.makerId book'
  | endAuction hphase => exact .same (.of_accounts rfl) (by simp [isTrade])
  | halt s symbol reason => exact .same (.of_accounts rfl) (by simp)

/-- An operation that throws stops between two ticks or after one more trade. -/
theorem Config.AbortsTo.holdings {G : Guard} {c : Config} {s' : MatchingEngine} (hc : c.Sound G)
    (h : c.AbortsTo s') : ∃ events, HoldingsStep G c.engine events s' := by
  obtain ⟨s, flight⟩ := c
  cases flight with
  | idle => exact ⟨[], .same (.of_accounts (by rw [h.1])) (by simp)⟩
  | matching t =>
    obtain ⟨fill, book, hnext, -, -, rfl⟩ := h
    have hpos := nextFill_qty_pos hc.1 hnext
    refine ⟨[tradeEvent t fill], .trade t.accountId (s.ownerAccountId fill.makerId) hpos ?_ (by simp)⟩
    exact sameHoldings_paid _ _ _ (journaled_frees _ _ hpos.le _).holdings
  | matched t => exact h.elim

end Tes
