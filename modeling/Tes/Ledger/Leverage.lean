import Tes.Engine.Triggers
import Tes.Ledger.Isolation

/-! The leverage of an account: what its positions and resting bids come to, against what its
equity allows, before and after a bid that only rests. -/
namespace Tes
open OrderBook MatchingEngine EStateM

/-- The event takes the order into the book. -/
def Event.accepts (id : OrderId) : Event → Prop
  | .orderAccepted orderId .. | .hiddenOrderAccepted orderId .. | .icebergOrderAccepted orderId .. =>
    orderId = id
  | _ => False

/-- The event neither trades nor triggers a stop. -/
def Event.rests (e : Event) : Prop := isTrade e = false ∧ e.isTrigger = false

/-- The order that a limit, hidden or iceberg order makes. -/
def Op.order (op : Op) (s : MatchingEngine) : Option Taker :=
  match op with
  | .placeLimitOrder accountId symbol side price qty tif =>
    some (limitTaker accountId symbol s.nextOrderId side price qty tif)
  | .placeHiddenOrder accountId symbol side price qty =>
    some { accountId, symbol, id := s.nextOrderId, side, price, remaining := qty, tif := .gtc,
           visibility := .hidden, displayQty := 0 }
  | .placeIcebergOrder accountId symbol side price totalQty displayQty =>
    some { accountId, symbol, id := s.nextOrderId, side, price, remaining := totalQty, tif := .gtc,
           visibility := .iceberg, displayQty }
  | _ => none

theorem Event.verdict.not_accepts {e : Event} {id : OrderId} (h : e.verdict) : ¬ e.accepts id :=
  fun haccepts => by cases e <;> first | exact h.elim | exact haccepts.elim

section Entry
variable {G : Guard} {s : MatchingEngine} {t : Taker}

/-- The state in which the order is let in. -/
def MatchingEngine.touched (s : MatchingEngine) (t : Taker) : MatchingEngine :=
  s.touchAccount t.accountId t.symbol

theorem Matches.rests {s' : MatchingEngine} {t' : Taker} {events : List Event}
    (h : Matches s t events s' t') (hrests : ∀ e ∈ events, isTrade e = false) :
    events = [] ∧ s' = s ∧ t' = t := by
  cases h with
  | done => exact ⟨rfl, rfl, rfl⟩
  | breach => cases hrests _ List.mem_cons_self
  | fill => cases hrests _ List.mem_cons_self

/-- An order that is accepted and does not trade comes to rest as a whole. -/
theorem placeVisible_rests (hs : s.Sound G) (hfree : s.Claimable t.accountId t.symbol t.id) :
    Outcome (placeVisibleOrderWithAccountAndId t.accountId t.symbol t.id t.side t.price t.remaining
      t.tif t.visibility t.displayQty) s (fun events s' => (∃ e ∈ events, e.accepts t.id) →
        (∀ e ∈ events, isTrade e = false) → (s.touched t).Admits t ∧ s' = t.rested (s.touched t))
      fun _ _ => True := by
  have hverdict : ∀ {event : Event}, event.verdict → ¬ ∃ e ∈ [event], e.accepts t.id :=
    fun hverdict ⟨e, he, haccepts⟩ => by
      rw [List.mem_singleton.mp he] at haccepts
      exact hverdict.not_accepts haccepts
  unfold placeVisibleOrderWithAccountAndId
  simp only [outcome_bind, outcome_get]
  cases hvalid : s.validateEntry t.symbol t.price t.remaining t.visibility t.displayQty with
  | some failure => exact fun h => absurd h (hverdict (by trivial))
  | none =>
  dsimp only
  cases hrisk : (s.touchAccount t.accountId t.symbol).validateOrderRisk t.accountId t.symbol t.side
      t.price t.remaining none with
  | some failure =>
    simp only [outcome_bind, outcome_set, outcome_pure]
    exact fun h => absurd h (hverdict (by trivial))
  | none =>
  simp only [outcome_bind, outcome_set]
  have hs' := (Narrows.of_frame hs (frame_touchAccount s t.accountId t.symbol) id).sound hs
  have hadmits : (s.touched t).Admits t := ⟨hvalid, hrisk, hfree.of_touch⟩
  split
  · unfold restVisibleOrder
    simp only [outcome_bind, outcome_get, outcome_set]
    split_ifs
    · exact fun _ _ => ⟨hadmits, rfl⟩
    · exact fun _ _ => ⟨hadmits, rfl⟩
  split
  · exact fun h => absurd h (hverdict (by trivial))
  rw [outcome_bind]
  refine (matchLoop_matches (hs'.book _) (by simp)).mono (fun r s₁ hmatches => ?_) fun _ _ _ => trivial
  obtain ⟨taker, matched⟩ := r
  rw [outcome_bind]
  refine (finishEntry_finishes s₁ taker).mono (fun rested s₂ hfinishes => ?_) fun _ _ h => h.elim
  intro haccepts hrests
  obtain ⟨rfl, rfl, rfl⟩ := Matches.rests hmatches
    fun e he => hrests e (List.mem_append_left _ he)
  cases hfinishes with
  | rest => exact ⟨hadmits, rfl⟩
  | expire => exact absurd haccepts (hverdict (by trivial))
  | done =>
    obtain ⟨e, he, -⟩ := haccepts
    cases he

end Entry

namespace MatchingEngine

/-- The account has the order's record. -/
def owns (s : MatchingEngine) (a : AccountId) (id : OrderId) : Prop :=
  ∃ owner ∈ s.orderOwnershipById.lookup id, owner.accountId = a

instance (s : MatchingEngine) (a : AccountId) (id : OrderId) : Decidable (s.owns a id) :=
  inferInstanceAs (Decidable (∃ owner ∈ s.orderOwnershipById.lookup id, _))

/-- Price times remaining quantity, where the account owns the order. -/
def ownNotional (s : MatchingEngine) (a : AccountId) (order : Order) : ℤ :=
  if s.owns a order.id then order.price * totalRemainingQty order else 0

/-- Price times remaining quantity, over all resting bids of the account. -/
def restingNotional (s : MatchingEngine) (a : AccountId) : ℤ :=
  s.books.total fun _ book => book.sideTotal .bid (s.ownNotional a)

/-- Exposure and resting bids are within what equity and leverage limit allow. -/
def WithinLeverage (s : MatchingEngine) (a : AccountId) : Prop :=
  (s.accountMarginSnapshot a).grossExposure + s.restingNotional a ≤
    (s.effectiveRiskConfig a).maxLeverage * (s.accountMarginSnapshot a).equity

instance (s : MatchingEngine) (a : AccountId) : Decidable (s.WithinLeverage a) :=
  inferInstanceAs (Decidable (_ ≤ _))

/-- The account's reserves for its open orders. -/
def marginReserved (s : MatchingEngine) (a : AccountId) : ℤ :=
  (s.account a).reservedCash + (s.account a).reservedShortMargin

/-- The leverage cap of the margin snapshot, before it is cut off at zero. -/
def leverageRoom (s : MatchingEngine) (a : AccountId) : ℚ :=
  (s.accountMarginSnapshot a).equity * (s.effectiveRiskConfig a).maxLeverage -
    (s.accountMarginSnapshot a).grossExposure - s.marginReserved a

/-- What the account's resting bids come to beyond its reserves. -/
def unreservedNotional (s : MatchingEngine) (a : AccountId) : ℤ :=
  s.restingNotional a - s.marginReserved a

section Rested
variable {G : Guard} {s s' : MatchingEngine} {t : Taker} {a : AccountId}

theorem sideTotal_empty (side : Side) (g : Order → ℤ) : ({} : OrderBook).sideTotal side g = 0 := by
  cases side <;> rfl

theorem totalRemainingQty_order (t : Taker) : totalRemainingQty t.order = t.remaining := by
  unfold Taker.order arrange totalRemainingQty
  cases t.visibility <;> simp

/-- The order is none of those that rest. -/
theorem ownNotional_rested (hs : s.Sound G) (hfree : s.Free t.symbol t.id) (symbol : Symbol)
    (side : Side) : (s.bookFor symbol).sideTotal side ((t.rested s).ownNotional a) =
      (s.bookFor symbol).sideTotal side (s.ownNotional a) := by
  unfold sideTotal
  congr 1
  refine List.map_congr_left fun order horder => ?_
  obtain ⟨hfound, -⟩ := (hs.book symbol).mem_sideOrders.mp horder
  have hid : order.id ≠ t.id := fun heq => hfree.rests symbol (by
    rw [Rests, ← heq, hfound]
    exact Option.some_ne_none _)
  have howns : (t.rested s).owns a order.id ↔ s.owns a order.id := by
    unfold owns
    rw [owners_rested, if_neg hid]
  unfold ownNotional
  simp only [howns]

/-- The book of a symbol after an order has come to rest. -/
theorem Admits.added (hs : s.Sound G) (hadmits : s.Admits t) :
    (addRemainder (s.bookFor t.symbol) t).2 = (s.bookFor t.symbol).insertOrder t.order := by
  obtain ⟨hflight, hpos⟩ := hadmits.inFlight
  have hindex : (s.bookFor t.symbol).orderIndex.lookup t.id = none :=
    (hs.book t.symbol).findOrder_eq_none.mp (not_not.mp (hflight.free.rests t.symbol))
  rw [addRemainder_eq hflight.valid hpos hindex, if_neg hadmits.not_refused]

/-- A bid that rests adds its notional. -/
theorem restingNotional_rested (hs : s.Sound G) (hadmits : s.Admits t) (hside : t.side = .bid) :
    (t.rested s).restingNotional t.accountId =
      s.restingNotional t.accountId + t.price * t.remaining := by
  obtain ⟨hflight, hpos⟩ := hadmits.inFlight
  have hbooks : (t.rested s).books =
      s.books.insert t.symbol (addRemainder (s.bookFor t.symbol) t).2 := by
    rw [Taker.rested, books_of_frame (frame_restOrder _ _ _ _ _ _ _ _ _)]
    rfl
  have hadded := hadmits.added hs
  have howns : (t.rested s).owns t.accountId t.id := by
    unfold owns
    rw [owners_rested, if_pos rfl]
    exact ⟨_, rfl, rfl⟩
  have horder : (t.rested s).ownNotional t.accountId t.order = t.price * t.remaining := by
    have hid : t.order.id = t.id := by simp [Taker.order]
    have hprice : t.order.price = t.price := by simp [Taker.order]
    rw [ownNotional, hid, if_pos howns, hprice, totalRemainingQty_order]
  have hbid : Side.bid = t.order.side := by simp [Taker.order, hside]
  have hinsert := Finmap.total_insert_valueD (d := ({} : OrderBook))
    (f := fun (_ : Symbol) book => book.sideTotal .bid ((t.rested s).ownNotional t.accountId))
    (fun _ => sideTotal_empty _ _) s.books t.symbol (addRemainder (s.bookFor t.symbol) t).2
  rw [hadded, sideTotal_insertOrder, if_pos hbid, horder] at hinsert
  have hbefore : (s.books.total fun _ book =>
      book.sideTotal .bid ((t.rested s).ownNotional t.accountId)) =
      s.books.total fun _ book => book.sideTotal .bid (s.ownNotional t.accountId) := by
    refine Finmap.total_congr _ fun symbol book hbook => ?_
    have hfor : s.bookFor symbol = book := by
      unfold bookFor Finmap.valueD
      rw [hbook]
      rfl
    rw [← hfor]
    exact ownNotional_rested hs hflight.free symbol .bid
  unfold restingNotional
  rw [hbooks, hadded, hinsert, hbefore]
  unfold bookFor
  omega

/-! The snapshot depends on reserves in its buying power only. -/

theorem grossExposure_eq (s : MatchingEngine) (a : AccountId) :
    (s.accountMarginSnapshot a).grossExposure =
      (s.account a).positionQtyBySymbol.total fun symbol (qty : ℤ) =>
        |(qty : ℚ)| * (s.markPrice symbol).getD ((s.account a).averageCost symbol) := by
  unfold accountMarginSnapshot account Finmap.valueD
  cases s.accounts.lookup a with
  | none => exact (Finmap.total_empty _).symm
  | some account => rfl

theorem equity_eq (s : MatchingEngine) (a : AccountId) :
    (s.accountMarginSnapshot a).equity = (s.account a).cashBalance +
      (s.account a).positionQtyBySymbol.total fun symbol (qty : ℤ) =>
        (qty : ℚ) * (s.markPrice symbol).getD ((s.account a).averageCost symbol) := by
  unfold accountMarginSnapshot account Finmap.valueD
  cases s.accounts.lookup a with
  | none => simp
  | some account => rfl

/-- The marks of what the account holds are the same. -/
def SameMarks (s : MatchingEngine) (a : AccountId) (s' : MatchingEngine) : Prop :=
  ∀ symbol, (s.account a).position symbol ≠ 0 → s'.markPrice symbol = s.markPrice symbol

/-- A sum over positions, with marks that the positions are valued at. -/
theorem total_marked {g : Symbol → ℤ → ℚ → ℚ} (hzero : ∀ symbol mark, g symbol 0 mark = 0)
    (hsame : (s.account a).SameHoldings (s'.account a)) (hmarks : s.SameMarks a s') :
    ((s'.account a).positionQtyBySymbol.total fun symbol (qty : ℤ) =>
        g symbol qty ((s'.markPrice symbol).getD ((s'.account a).averageCost symbol))) =
      (s.account a).positionQtyBySymbol.total fun symbol (qty : ℤ) =>
        g symbol qty ((s.markPrice symbol).getD ((s.account a).averageCost symbol)) := by
  have hcost : ∀ symbol, (s'.account a).averageCost symbol = (s.account a).averageCost symbol :=
    fun symbol => by
      unfold AccountSnapshot.averageCost
      rw [hsame.averageCost]
  refine (Finmap.total_congr_valueD (d := (0 : ℤ)) (fun _ => ?_) fun symbol => ?_).trans
    (Finmap.total_congr _ fun symbol qty hqty => ?_)
  · rw [hzero]
  · have hposition := hsame.position symbol
    unfold AccountSnapshot.position at hposition
    rw [hposition]
  · rw [hcost]
    by_cases hheld : (s.account a).position symbol = 0
    · unfold AccountSnapshot.position Finmap.valueD at hheld
      rw [hqty] at hheld
      have hnone : qty = 0 := hheld
      rw [hnone, hzero, hzero]
    · rw [hmarks symbol hheld]

theorem grossExposure_of_same (hsame : (s.account a).SameHoldings (s'.account a))
    (hmarks : s.SameMarks a s') : (s'.accountMarginSnapshot a).grossExposure =
      (s.accountMarginSnapshot a).grossExposure := by
  rw [grossExposure_eq, grossExposure_eq]
  exact total_marked (g := fun _ qty mark => |(qty : ℚ)| * mark) (by simp) hsame hmarks

theorem equity_of_same (hsame : (s.account a).SameHoldings (s'.account a))
    (hmarks : s.SameMarks a s') :
    (s'.accountMarginSnapshot a).equity = (s.accountMarginSnapshot a).equity := by
  rw [equity_eq, equity_eq, hsame.cash]
  congr 1
  exact total_marked (g := fun _ qty mark => (qty : ℚ) * mark) (by simp) hsame hmarks

/-- The bid stays within the limit exactly where it fits beside all that rests unreserved. -/
theorem withinLeverage_rested (hs : s.Sound G) (hadmits : s.Admits t) (hside : t.side = .bid)
    (hmarks : s.SameMarks t.accountId (t.rested s)) :
    (t.rested s).WithinLeverage t.accountId ↔
      (t.price * t.remaining + s.unreservedNotional t.accountId : ℤ) ≤ s.leverageRoom t.accountId := by
  have hsame := rested_sameHoldings t s t.accountId
  have hconfigs : (t.rested s).riskConfigs = s.riskConfigs := by
    rw [Taker.rested, riskConfigs_of_frame (frame_restOrder _ _ _ _ _ _ _ _ _)]
    rfl
  unfold WithinLeverage leverageRoom unreservedNotional
  rw [restingNotional_rested hs hadmits hside, grossExposure_of_same hsame hmarks,
    equity_of_same hsame hmarks, effectiveRiskConfig, hconfigs, ← effectiveRiskConfig]
  push_cast
  constructor
  · intro h
    linarith
  · intro h
    linarith

theorem buyingPower_le_room (hmargin : (s.effectiveRiskConfig a).mode = .margin) :
    s.accountBuyingPower a ≤ max 0 (s.leverageRoom a) := by
  cases haccount : s.accounts.lookup a with
  | none =>
    have hpower : s.accountBuyingPower a = 0 := by
      unfold accountBuyingPower accountMarginSnapshot
      rw [haccount]
    rw [hpower]
    exact le_max_left _ _
  | some account =>
    have hrecord : s.account a = account := by
      unfold MatchingEngine.account Finmap.valueD
      rw [haccount]
      rfl
    unfold leverageRoom marginReserved accountBuyingPower accountMarginSnapshot
    rw [haccount, hrecord]
    dsimp only
    rw [hmargin]
    push_cast
    exact min_le_left _ _

/-- What the risk check lets in fits the room, up to its tolerance. -/
theorem notional_le_room {symbol : Symbol} {price qty : ℤ}
    (hrisk : s.validateOrderRisk a symbol .bid price qty none = none)
    (hmargin : (s.effectiveRiskConfig a).mode = .margin)
    (hfee : s.feeModel.limitFee (price * qty) = 0) :
    ((price * qty : ℤ) : ℚ) ≤ max 0 (s.leverageRoom a) + 1 / 1000000000 := by
  unfold validateOrderRisk validateBuyRisk at hrisk
  simp only [Option.elim_none, sub_zero, hmargin, hfee, add_zero, sub_self, zero_add,
    Int.cast_zero, zero_div] at hrisk
  split_ifs at hrisk with hpower
  exact (not_lt.mp hpower).trans (by gcongr; exact buyingPower_le_room hmargin)

end Rested
end MatchingEngine

/-- The order that the operation makes is accepted, and does nothing but rest. -/
structure OnlyRests (op : Op) (t : Taker) (s : MatchingEngine) (events : List Event)
    (s' : MatchingEngine) : Prop where
  order : op.order s = some t
  returns : op.exec s = .ok events s'
  accepted : ∃ e ∈ events, e.accepts t.id
  quiet : ∀ e ∈ events, e.rests

/-- A buy order that the operation makes is accepted, and only rests. -/
structure RestsBid (op : Op) (t : Taker) (s : MatchingEngine) (events : List Event)
    (s' : MatchingEngine) : Prop where
  order : op.order s = some t
  side : t.side = .bid
  returns : op.exec s = .ok events s'
  accepted : ∃ e ∈ events, e.accepts t.id
  rests : ∀ e ∈ events, e.rests

/-- Nobody pays a fee. -/
def FeeModel.Free (model : FeeModel) : Prop :=
  model.makerFeeRate = 0 ∧ model.takerFeeRate = 0 ∧ model.fixedFee.getD 0 = 0

theorem FeeModel.Free.limitFee {model : FeeModel} (h : model.Free) (notional : ℤ) :
    model.limitFee notional = 0 := by
  obtain ⟨hmaker, htaker, hfixed⟩ := h
  unfold FeeModel.limitFee feeForNotional
  simp [hmaker, htaker, hfixed]

section Operation
variable {s s' : MatchingEngine} {op : Op} {t : Taker} {events : List Event}

/-- An operation that only rests its order has handed it to the book, and tracked that. -/
theorem OnlyRests.rested (h : Reachable s) (hrests : OnlyRests op t s events s') :
    (s.allocated.touched t).Sound {} ∧ (s.allocated.touched t).Admits t ∧
      s' = (t.rested (s.allocated.touched t)).trackEvents events := by
  have hs := h.sound.allocated
  have htouched : (s.allocated.touched t).Sound {} :=
    (Narrows.of_frame hs (frame_touchAccount _ t.accountId t.symbol) id).sound hs
  have hfree : t.id = s.nextOrderId → s.allocated.Claimable t.accountId t.symbol t.id := fun hid =>
    hid ▸ h.sound.free_next t.accountId t.symbol
  have hentry : t.id = s.nextOrderId →
      op.exec s = followEntry t.symbol (placeVisibleOrderWithAccountAndId t.accountId t.symbol t.id
        t.side t.price t.remaining t.tif t.visibility t.displayQty) s.allocated →
      (s.allocated.touched t).Admits t ∧
        s' = (t.rested (s.allocated.touched t)).trackEvents events := fun hid hexec => by
    have hfollow := @followEntry_quiet s.allocated t.symbol _ _ _ (placeVisible_rests hs (hfree hid))
    rcases hfollow.returns (hexec.symm.trans hrests.returns) with
      ⟨e, he, htrigger⟩ | ⟨s₁, hrested, rfl⟩
    · rw [(hrests.quiet e he).2] at htrigger
      cases htrigger
    · obtain ⟨hadmits, rfl⟩ := hrested hrests.accepted fun e he => (hrests.quiet e he).1
      exact ⟨hadmits, rfl⟩
  have horder := hrests.order
  cases op <;> first | cases horder; exact ⟨htouched, hentry rfl rfl⟩ | cases horder

theorem RestsBid.onlyRests (hbid : RestsBid op t s events s') : OnlyRests op t s events s' :=
  ⟨hbid.order, hbid.returns, hbid.accepted, hbid.rests⟩

end Operation
/-! An account on margin of a quarter, with twice its equity to trade. -/

def quarterMargin : List Op :=
  [.setAccountState 1 "X" 1000 0,
    .setAccountRiskConfig 1 { mode := .margin, maxLeverage := 2, initialMarginRequirement := 1 / 4 }]

/-- Its first bid uses up the limit, and reserves a quarter of that. -/
def bidToLimit : Op := .placeLimitOrder 1 "X" .bid 100 20 .gtc

def bidBeyondLimit : Op := .placeLimitOrder 1 "X" .bid 100 15 .gtc

theorem flat_of_positions {s : MatchingEngine} {a : AccountId} (symbol : Symbol)
    (h : (s.account a).positionQtyBySymbol = Finmap.insert symbol 0 ∅) (symbol' : Symbol) :
    (s.account a).position symbol' = 0 := by
  unfold AccountSnapshot.position
  rw [h, Finmap.valueD_insert]
  split_ifs
  · rfl
  · exact Finmap.valueD_empty _ _

theorem restsBid_toLimit :
    RestsBid bidToLimit (limitTaker 1 "X" 1 .bid 100 20 .gtc) (fresh.applyAll quarterMargin)
      [.orderAccepted 1 .bid 100 20 "X", .topOfBook (some 100) none "X"]
      (bidToLimit.apply (fresh.applyAll quarterMargin)) where
  order := by decide +kernel
  side := rfl
  returns := Op.exec_of_returned (by decide +kernel)
  accepted := ⟨_, List.mem_cons_self, rfl⟩
  rests := by simp [Event.rests, isTrade, Event.isTrigger]

theorem restsBid_beyondLimit :
    RestsBid bidBeyondLimit (limitTaker 1 "X" 2 .bid 100 15 .gtc)
      (fresh.applyAll (quarterMargin ++ [bidToLimit])) [.orderAccepted 2 .bid 100 15 "X"]
      (bidBeyondLimit.apply (fresh.applyAll (quarterMargin ++ [bidToLimit]))) where
  order := by decide +kernel
  side := rfl
  returns := Op.exec_of_returned (by decide +kernel)
  accepted := ⟨_, List.mem_cons_self, rfl⟩
  rests := by simp [Event.rests, isTrade, Event.isTrigger]

end Tes
