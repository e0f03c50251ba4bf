import Tes.Ledger.Holdings

/-! The reserves that resting orders, fills, auction trades and cancels move. -/
namespace Tes
open MatchingEngine

/-- The side of the orders that have a reserve of this kind. -/
def ReserveKind.side : ReserveKind → Side
  | .cash => .bid
  | .qty => .ask
  | .shortMargin => .ask

namespace MatchingEngine

/-! Cancels. -/

/-- One reserve of a cancelled order goes, entry and all. -/
theorem releases_of_erase {s s' : MatchingEngine} {kind : ReserveKind} {a : AccountId}
    {symbol : Symbol} {id : OrderId} {reserved : ℤ}
    (h : (s.reserves kind).lookup id = some reserved)
    (haccounts : s'.accounts =
      (s.updateAccount a fun account => account.hold symbol (-reserved) kind).accounts)
    (hframe : s'.frame = s.frame) (hentry : s'.reserves kind = (s.reserves kind).erase id)
    (hothers : ∀ k, k ≠ kind → s'.reserves k = s.reserves k) :
    s.Releases s' a symbol id (kind.only (-(s.reserveOf kind id))) ∧
      (s'.reserves kind).lookup id = none := by
  have hreserve := reserveOf_of_some h
  constructor
  · rw [hreserve]
    refine releases_of_reduce h haccounts hframe ?_ hothers
    rw [hentry, sub_self, reduceEntry, if_pos rfl]
  · rw [hentry, Finmap.lookup_erase]

section Cancel
variable (s : MatchingEngine) (a : AccountId) (symbol : Symbol) (id : OrderId)

theorem cancelCash_releases :
    s.Releases (s.cancelCash a symbol id) a symbol id
        (ReserveKind.cash.only (-(s.reserveOf .cash id))) ∧
      ((s.cancelCash a symbol id).reserves .cash).lookup id = none := by
  unfold cancelCash
  cases h : s.reservedCashByOrderId.lookup id with
  | none =>
    have hzero : s.reserveOf .cash id = 0 := reserveOf_of_none h
    rw [hzero, neg_zero]
    exact ⟨(Still.refl s).releases_only _ _ _ _, h⟩
  | some reserved =>
    refine releases_of_erase h rfl rfl rfl fun k hk => ?_
    cases k <;> first | exact absurd rfl hk | rfl

theorem cancelQty_releases :
    s.Releases (s.cancelQty a symbol id) a symbol id
        (ReserveKind.qty.only (-(s.reserveOf .qty id))) ∧
      ((s.cancelQty a symbol id).reserves .qty).lookup id = none := by
  unfold cancelQty
  cases h : s.reservedQtyByOrderId.lookup id with
  | none =>
    have hzero : s.reserveOf .qty id = 0 := reserveOf_of_none h
    rw [hzero, neg_zero]
    exact ⟨(Still.refl s).releases_only _ _ _ _, h⟩
  | some reserved =>
    refine releases_of_erase h rfl rfl rfl fun k hk => ?_
    cases k <;> first | exact absurd rfl hk | rfl

theorem cancelShortMargin_releases :
    s.Releases (s.cancelShortMargin a symbol id) a symbol id
        (ReserveKind.shortMargin.only (-(s.reserveOf .shortMargin id))) ∧
      ((s.cancelShortMargin a symbol id).reserves .shortMargin).lookup id = none := by
  unfold cancelShortMargin
  cases h : s.reservedShortMarginByOrderId.lookup id with
  | none =>
    have hzero : s.reserveOf .shortMargin id = 0 := reserveOf_of_none h
    rw [hzero, neg_zero]
    exact ⟨(Still.refl s).releases_only _ _ _ _, h⟩
  | some reserved =>
    refine releases_of_erase h rfl rfl rfl fun k hk => ?_
    cases k <;> first | exact absurd rfl hk | rfl

/-- A cancelled order keeps no reserve. -/
theorem releaseAll_releases :
    s.Releases (s.releaseAll a symbol id) a symbol id (fun kind => -(s.reserveOf kind id)) ∧
      ∀ kind, ((s.releaseAll a symbol id).reserves kind).lookup id = none := by
  obtain ⟨hcash, hcashNone⟩ := s.cancelCash_releases a symbol id
  obtain ⟨hqty, hqtyNone⟩ := (s.cancelCash a symbol id).cancelQty_releases a symbol id
  obtain ⟨hshort, hshortNone⟩ :=
    ((s.cancelCash a symbol id).cancelQty a symbol id).cancelShortMargin_releases a symbol id
  have hall := (hcash.trans hqty).trans hshort
  rw [releaseAll]
  constructor
  · convert hall using 1
    funext kind
    have hfirst := hcash.entry kind
    have hsecond := hqty.entry kind
    cases kind <;> simp [ReserveKind.only] at * <;> omega
  · intro kind
    cases kind with
    | cash =>
      have hnone := hshort.kept .cash
      have hnone' := hqty.kept .cash
      by_contra h
      exact hnone' (hnone h) hcashNone
    | qty =>
      by_contra h
      exact hshort.kept .qty h hqtyNone
    | shortMargin => exact hshortNone

end Cancel

/-! Trades. -/

/-- What a fill of the order releases of its reserves. -/
def releaseOf (s : MatchingEngine) (id : OrderId) (qty before : ℤ) : ReserveKind → ℤ
  | .cash => boundedRelease (s.reserveOf .cash id) qty before
  | .qty => min (s.reserveOf .qty id) qty
  | .shortMargin => boundedRelease (s.reserveOf .shortMargin id) qty before

/-- The change of the reserves of a resting order on `side` by a fill. -/
def makerDelta (s : MatchingEngine) (side : Side) (id : OrderId) (qty before : ℤ)
    (kind : ReserveKind) : ℤ :=
  if kind.side = side then -(s.releaseOf id qty before kind) else 0

/-- A release for a fill: what it empties of the side's reserves is gone. -/
structure Frees (s s' : MatchingEngine) (a : AccountId) (symbol : Symbol) (side : Side)
    (id : OrderId) (delta : ReserveKind → ℤ) : Prop extends Releases s s' a symbol id delta where
  clears : ∀ kind, kind.side = side → s'.reserveOf kind id = 0 →
    (s'.reserves kind).lookup id = none

theorem Frees.still {s s' s'' : MatchingEngine} {a : AccountId} {symbol : Symbol} {side : Side}
    {id : OrderId} {delta : ReserveKind → ℤ} (h : s.Frees s' a symbol side id delta)
    (h' : s'.Still s'') : s.Frees s'' a symbol side id delta where
  toReleases := h.toReleases.still h'
  clears kind hside hzero := by
    rw [h'.entries]
    exact h.clears kind hside (h'.reserveOf kind id ▸ hzero)

theorem clears_reduceEntry {m : Finmap fun _ : OrderId => ℤ} {id : OrderId} {left : ℤ}
    (hzero : (reduceEntry m id left).valueD id 0 = 0) : (reduceEntry m id left).lookup id = none := by
  rw [valueD_reduceEntry] at hzero
  rw [hzero, reduceEntry, if_pos rfl, Finmap.lookup_erase]

theorem releaseCash_clears (s : MatchingEngine) (a : AccountId) (id : OrderId) (qty before : ℤ)
    (hzero : (s.releaseCash a id qty before).reserveOf .cash id = 0) :
    ((s.releaseCash a id qty before).reserves .cash).lookup id = none := by
  unfold releaseCash at *
  cases h : s.reservedCashByOrderId.lookup id with
  | none => exact h
  | some reserved =>
    rw [h] at hzero
    exact clears_reduceEntry hzero

theorem releaseQty_clears (s : MatchingEngine) (a : AccountId) (symbol : Symbol) (id : OrderId)
    (qty : ℤ) (hzero : (s.releaseQty a symbol id qty).reserveOf .qty id = 0) :
    ((s.releaseQty a symbol id qty).reserves .qty).lookup id = none := by
  unfold releaseQty at *
  cases h : s.reservedQtyByOrderId.lookup id with
  | none => exact h
  | some reserved =>
    rw [h] at hzero
    exact clears_reduceEntry hzero

theorem releaseShortMargin_clears (s : MatchingEngine) (a : AccountId) (id : OrderId)
    (qty before : ℤ) (hzero : (s.releaseShortMargin a id qty before).reserveOf .shortMargin id = 0) :
    ((s.releaseShortMargin a id qty before).reserves .shortMargin).lookup id = none := by
  unfold releaseShortMargin at *
  cases h : s.reservedShortMarginByOrderId.lookup id with
  | none => exact h
  | some reserved =>
    rw [h] at hzero
    exact clears_reduceEntry hzero

theorem releaseBid_frees (s : MatchingEngine) (a : AccountId) (symbol : Symbol) (id : OrderId)
    (qty before : ℤ) : s.Frees (s.releaseCash a id qty before) a symbol .bid id
      (s.makerDelta .bid id qty before) where
  toReleases := by
    convert s.releaseCash_releases a symbol id qty before using 1
    funext kind
    cases kind <;> rfl
  clears kind hside hzero := by
    cases kind with
    | cash => exact s.releaseCash_clears a id qty before hzero
    | qty => cases hside
    | shortMargin => cases hside

theorem releaseAsk_frees (s : MatchingEngine) (a : AccountId) (symbol : Symbol) (id : OrderId)
    {qty : ℤ} (hqty : 0 ≤ qty) (before : ℤ) :
    s.Frees ((s.releaseQty a symbol id qty).releaseShortMargin a id qty before) a symbol .ask id
      (s.makerDelta .ask id qty before) := by
  have hfirst := s.releaseQty_releases a symbol id hqty
  have hsecond := (s.releaseQty a symbol id qty).releaseShortMargin_releases a symbol id qty before
  refine ⟨?_, fun kind hside hzero => ?_⟩
  · have hshort : (s.releaseQty a symbol id qty).reserveOf .shortMargin id =
        s.reserveOf .shortMargin id := by
      rw [hfirst.entry]
      exact add_zero _
    convert hfirst.trans hsecond using 1
    funext kind
    rw [hshort]
    cases kind <;> simp [makerDelta, releaseOf, ReserveKind.only, ReserveKind.side]
  · cases kind with
    | cash => cases hside
    | qty => exact hsecond.clears (s.releaseQty_clears a symbol id qty) hzero
    | shortMargin => exact releaseShortMargin_clears _ a id qty before hzero

theorem still_setMark (s : MatchingEngine) (symbol : Symbol) (price : ℤ) :
    s.Still (s.setMark symbol price) := .of_money rfl rfl

/-- The state after the two accounts of a fill have settled. -/
def paid (s : MatchingEngine) (t : Taker) (fill : FillResult) (book : OrderBook) :
    MatchingEngine :=
  (s.setBook t.symbol book).exchange t.symbol t.side fill.price fill.qty t.accountId
    (s.ownerAccountId fill.makerId)

/-- After the exchange, a fill only releases reserves of the maker's order. -/
theorem settleFill_frees (s : MatchingEngine) (t : Taker) {fill : FillResult}
    (hqty : 0 ≤ fill.qty) (book : OrderBook) :
    (s.paid t fill book).Frees (s.settleFill t fill book) (s.ownerAccountId fill.makerId)
      t.symbol t.side.opposite fill.makerId (s.makerDelta t.side.opposite fill.makerId fill.qty
        (s.ownedQty fill.makerId fill.qty)) := by
  unfold settleFill
  cases hside : t.side with
  | bid =>
    have hrelease := (s.paid t fill book).releaseAsk_frees (s.ownerAccountId fill.makerId)
      t.symbol fill.makerId hqty (s.ownedQty fill.makerId fill.qty)
    unfold paid at *
    rw [hside] at *
    exact hrelease.still (still_setMark _ _ _)
  | ask =>
    have hrelease := (s.paid t fill book).releaseBid_frees (s.ownerAccountId fill.makerId)
      t.symbol fill.makerId fill.qty (s.ownedQty fill.makerId fill.qty)
    unfold paid at *
    rw [hside] at *
    exact hrelease.still (still_setMark _ _ _)

theorem still_journal {s s' : MatchingEngine} (h : s'.unjournaled = s.unjournaled) : s.Still s' :=
  .of_money (frame_of_unjournaled h) (money_of_unjournaled h)

theorem journaled_frees (s : MatchingEngine) (t : Taker) {fill : FillResult}
    (hqty : 0 ≤ fill.qty) (book : OrderBook) :
    (s.paid t fill book).Frees (s.journaled t fill book) (s.ownerAccountId fill.makerId)
      t.symbol t.side.opposite fill.makerId (s.makerDelta t.side.opposite fill.makerId fill.qty
        (s.ownedQty fill.makerId fill.qty)) :=
  (s.settleFill_frees t hqty book).still (still_journal (unjournaled_journalFill _ _ _ _))

/-- A release touches only what the entries tell it to. -/
theorem reserves_releaseCash_congr {s s' : MatchingEngine}
    (h : ∀ kind, s.reserves kind = s'.reserves kind) (a b : AccountId) (id : OrderId)
    (qty before : ℤ) (kind : ReserveKind) :
    (s.releaseCash a id qty before).reserves kind = (s'.releaseCash b id qty before).reserves kind := by
  have hcash : s.reservedCashByOrderId = s'.reservedCashByOrderId := h .cash
  have hsame := h kind
  unfold releaseCash
  rw [hcash]
  cases s'.reservedCashByOrderId.lookup id with
  | none => exact hsame
  | some reserved => cases kind <;> first | exact hsame | rfl

/-- The state after the exchange of an auction trade and the release of the bid's cash. -/
def bidReleased (s : MatchingEngine) (symbol : Symbol) (bidId askId : OrderId) (price qty : ℤ) :
    MatchingEngine :=
  (s.exchange symbol .bid price qty (s.ownerAccountId bidId) (s.ownerAccountId askId)).releaseCash
    (s.ownerAccountId bidId) bidId qty (s.ownedQty bidId qty)

/-- After the exchange, an auction trade only releases reserves of its two orders. -/
theorem settleAuction_frees (s : MatchingEngine) (symbol : Symbol) (bidId askId : OrderId)
    (price : ℤ) {qty : ℤ} (hqty : 0 ≤ qty) :
    (s.exchange symbol .bid price qty (s.ownerAccountId bidId)
        (s.ownerAccountId askId)).Frees (s.bidReleased symbol bidId askId price qty)
        (s.ownerAccountId bidId) symbol .bid bidId (s.makerDelta .bid bidId qty (s.ownedQty bidId qty)) ∧
      (s.bidReleased symbol bidId askId price qty).Frees
        (s.settleAuction symbol bidId askId price qty) (s.ownerAccountId askId) symbol .ask
        askId (s.makerDelta .ask askId qty (s.ownedQty askId qty)) := by
  have hbid := (s.exchange symbol .bid price qty (s.ownerAccountId bidId)
    (s.ownerAccountId askId)).releaseBid_frees (s.ownerAccountId bidId) symbol bidId qty
    (s.ownedQty bidId qty)
  have hask := (s.bidReleased symbol bidId askId price qty).releaseAsk_frees
    (s.ownerAccountId askId) symbol askId hqty (s.ownedQty askId qty)
  refine ⟨hbid, ?_⟩
  have hdelta : (s.bidReleased symbol bidId askId price qty).makerDelta .ask askId qty
      (s.ownedQty askId qty) = s.makerDelta .ask askId qty (s.ownedQty askId qty) := by
    have hsame : ∀ kind, kind ≠ .cash →
        (s.bidReleased symbol bidId askId price qty).reserves kind = s.reserves kind :=
      fun kind hkind => by
        unfold bidReleased releaseCash
        split <;> cases kind <;> first | exact absurd rfl hkind | rfl
    funext kind
    unfold makerDelta releaseOf reserveOf
    cases kind with
    | cash => rfl
    | qty => simp only [hsame .qty (by decide)]
    | shortMargin => simp only [hsame .shortMargin (by decide)]
  rw [hdelta] at hask
  have hmarked := hask.still (still_setMark _ symbol price)
  refine hmarked.still (still_journal ?_)
  simp only [settleAuction, bidReleased, unjournaled_journalFee, unjournaled_appendLedgerEntry]

/-! Resting orders. -/

/-- One kind of reserve stays as it is. -/
structure Leaves (s s' : MatchingEngine) (kind : ReserveKind) : Prop where
  reserved : ∀ b symbol,
    (s'.account b).reserved symbol kind = (s.account b).reserved symbol kind
  entries : s'.reserves kind = s.reserves kind

/-- An account reserves `amount` for an order, whose entry is overwritten by it. -/
structure Sets (s s' : MatchingEngine) (kind : ReserveKind) (a : AccountId) (symbol : Symbol)
    (id : OrderId) (amount : ℤ) : Prop where
  reserved : ∀ b symbol', (s'.account b).reserved symbol' kind =
    (s.account b).reserved symbol' kind + if b = a ∧ (kind = .qty → symbol' = symbol) then amount else 0
  entry : s'.reserveOf kind id = amount ∨
    amount = 0 ∧ (s'.reserves kind).lookup id = (s.reserves kind).lookup id
  others : ∀ id', id' ≠ id → (s'.reserves kind).lookup id' = (s.reserves kind).lookup id'

section Leaves
variable {s s' s'' : MatchingEngine} {kind : ReserveKind} {a : AccountId} {symbol : Symbol}
  {id : OrderId} {amount : ℤ}

theorem Still.leaves (h : s.Still s') (kind : ReserveKind) : s.Leaves s' kind :=
  ⟨h.reserved kind, h.entries kind⟩

theorem Leaves.trans (h : s.Leaves s' kind) (h' : s'.Leaves s'' kind) : s.Leaves s'' kind :=
  ⟨fun b symbol => (h'.reserved b symbol).trans (h.reserved b symbol), h'.entries.trans h.entries⟩

theorem Leaves.sets (h : s.Leaves s' kind) (a : AccountId) (symbol : Symbol) (id : OrderId) :
    s.Sets s' kind a symbol id 0 where
  reserved b symbol' := by
    rw [h.reserved]
    split_ifs <;> omega
  entry := Or.inr ⟨rfl, by rw [h.entries]⟩
  others id' _ := by rw [h.entries]

theorem Leaves.then (h : s.Leaves s' kind) (h' : s'.Sets s'' kind a symbol id amount) :
    s.Sets s'' kind a symbol id amount where
  reserved b symbol' := by rw [h'.reserved, h.reserved]
  entry := h.entries ▸ h'.entry
  others id' hid := h.entries ▸ h'.others id' hid

theorem Sets.leaves (h : s.Sets s' kind a symbol id amount) (h' : s'.Leaves s'' kind) :
    s.Sets s'' kind a symbol id amount where
  reserved b symbol' := by rw [h'.reserved, h.reserved]
  entry := by
    rw [reserveOf, h'.entries]
    exact h.entry
  others id' hid := by rw [h'.entries, h.others id' hid]

/-- Where the order had no such reserve, its entry moves by the amount. -/
theorem Sets.shifts (h : s.Sets s' kind a symbol id amount) (hzero : s.reserveOf kind id = 0) :
    s.Shifts s' kind a symbol id amount where
  reserved := h.reserved
  entry := by
    rcases h.entry with hset | ⟨hnone, hsame⟩
    · omega
    · have := reserveOf_of_lookup hsame
      omega
  others := h.others

theorem leaves_of_hold (symbol : Symbol) (amount : ℤ) {k : ReserveKind} (hk : k ≠ kind)
    (haccounts : s'.accounts =
      (s.updateAccount a fun account => account.hold symbol amount kind).accounts)
    (hothers : ∀ k, k ≠ kind → s'.reserves k = s.reserves k) : s.Leaves s' k where
  reserved b symbol' := by
    rw [account_of_accounts haccounts, account_updateAccount]
    split_ifs
    · rw [AccountSnapshot.reserved_hold, ReserveKind.only, if_neg hk, ite_self, add_zero]
    · rfl
  entries := hothers k hk

theorem sets_of_hold (haccounts : s'.accounts =
      (s.updateAccount a fun account => account.hold symbol amount kind).accounts)
    (hentry : s'.reserves kind = (s.reserves kind).insert id amount) :
    s.Sets s' kind a symbol id amount where
  reserved b symbol' := by
    rw [account_of_accounts haccounts, account_updateAccount]
    by_cases hb : b = a
    · rw [if_pos hb, AccountSnapshot.reserved_hold, ReserveKind.only, if_pos rfl]
      simp only [hb, true_and]
    · rw [if_neg hb]
      simp only [hb, false_and, if_false, add_zero]
  entry := Or.inl (by rw [reserveOf, hentry, Finmap.valueD_insert, if_pos rfl])
  others id' hid := by
    rw [hentry]
    exact Finmap.lookup_insert_of_ne _ hid

end Leaves

theorem still_openSymbol (s : MatchingEngine) (a : AccountId) (symbol : Symbol) :
    s.Still (s.updateAccount a fun account => account.openSymbol symbol) where
  holdings b := by
    rw [account_updateAccount]
    split_ifs
    · exact ⟨rfl, AccountSnapshot.position_openSymbol _ _, rfl, rfl, rfl⟩
    · exact .refl _
  frame := rfl
  reserved kind b symbol' := by
    rw [account_updateAccount]
    split_ifs
    · exact AccountSnapshot.reserved_openSymbol _ _ _ _
    · rfl
  entries kind := by cases kind <;> rfl

theorem longReserveOf_nonneg (s : MatchingEngine) (a : AccountId) (symbol : Symbol) {qty : ℤ}
    (hqty : 0 ≤ qty) : 0 ≤ s.longReserveOf a symbol qty := by
  unfold longReserveOf
  omega

theorem longReserveOf_congr {s s' : MatchingEngine} (a : AccountId) (symbol : Symbol)
    (h : s.Still s') (qty : ℤ) : s'.longReserveOf a symbol qty = s.longReserveOf a symbol qty := by
  have hposition := (h.holdings a).position symbol
  have hreserved := h.reserved .qty a symbol
  unfold longReserveOf
  rw [hposition]
  simp only [AccountSnapshot.reserved] at hreserved
  rw [hreserved]

end MatchingEngine

/-- What the remainder of an order reserves when it rests. -/
def Taker.reserve (t : Taker) (s : MatchingEngine) : ReserveKind → ℤ
  | .cash =>
    if t.side = .bid then
      s.buyReserve t.accountId t.symbol t.price t.remaining
        (s.feeModel.limitFee (t.price * t.remaining))
    else 0
  | .qty => if t.side = .ask then s.longReserveOf t.accountId t.symbol t.remaining else 0
  | .shortMargin =>
    if t.side = .ask then
      max 0 (s.shortMarginReserve t.accountId t.symbol t.price
        (t.remaining - s.longReserveOf t.accountId t.symbol t.remaining))
    else 0

/-- The state in which the book and the owners know the order. -/
def Taker.ownedIn (t : Taker) (s : MatchingEngine) : MatchingEngine :=
  s.owned t.accountId t.symbol t.id t.side t.price t.remaining t.visibility t.displayQty

namespace MatchingEngine

section Reserve
variable (s : MatchingEngine) (a : AccountId) (symbol : Symbol) (id : OrderId) {kind : ReserveKind}

theorem reserveBuy_sets (price qty : ℤ) :
    s.Sets (s.reserveBuy a symbol id price qty) .cash a symbol id
      (s.buyReserve a symbol price qty (s.feeModel.limitFee (price * qty))) :=
  sets_of_hold rfl rfl

theorem reserveBuy_leaves (price qty : ℤ) (hkind : kind ≠ .cash) :
    s.Leaves (s.reserveBuy a symbol id price qty) kind := by
  refine leaves_of_hold symbol (s.buyReserve a symbol price qty (s.feeModel.limitFee (price * qty)))
    hkind rfl fun k hk => ?_
  cases k <;> first | exact absurd rfl hk | rfl

theorem reserveLong_sets {longReserve : ℤ} (hlong : 0 ≤ longReserve) :
    s.Sets (s.reserveLong a symbol id longReserve) .qty a symbol id longReserve := by
  unfold reserveLong
  split_ifs with hpos
  · exact sets_of_hold rfl rfl
  · have hnone : longReserve = 0 := by omega
    rw [hnone]
    exact ((Still.refl s).leaves _).sets a symbol id

theorem reserveLong_leaves (longReserve : ℤ) (hkind : kind ≠ .qty) :
    s.Leaves (s.reserveLong a symbol id longReserve) kind := by
  unfold reserveLong
  split_ifs
  · refine leaves_of_hold symbol longReserve hkind rfl fun k hk => ?_
    cases k <;> first | exact absurd rfl hk | rfl
  · exact (Still.refl s).leaves _

theorem reserveShort_sets (shortReserve : ℤ) :
    s.Sets (s.reserveShort a id shortReserve) .shortMargin a symbol id (max 0 shortReserve) := by
  unfold reserveShort
  split_ifs with hpos
  · rw [max_eq_right hpos.le]
    exact sets_of_hold rfl rfl
  · rw [max_eq_left (by omega)]
    exact ((Still.refl s).leaves _).sets a symbol id

theorem reserveShort_leaves (shortReserve : ℤ) (hkind : kind ≠ .shortMargin) :
    s.Leaves (s.reserveShort a id shortReserve) kind := by
  unfold reserveShort
  split_ifs
  · refine leaves_of_hold defaultSymbol shortReserve hkind rfl
      fun k hk => ?_
    cases k <;> first | exact absurd rfl hk | rfl
  · exact (Still.refl s).leaves _

/-- The short margin of what the long position does not cover. -/
def shortReserveOf (s : MatchingEngine) (a : AccountId) (symbol : Symbol) (price qty : ℤ) : ℤ :=
  s.shortMarginReserve a symbol price (qty - s.longReserveOf a symbol qty)

/-- The state in which a resting sell order has reserved its long part. -/
def longReserved (s : MatchingEngine) (a : AccountId) (symbol : Symbol) (id : OrderId) (qty : ℤ) :
    MatchingEngine :=
  (s.updateAccount a fun account => account.openSymbol symbol).reserveLong a symbol id
    (s.longReserveOf a symbol qty)

/-- A resting sell order reserves its long part, then its short part. -/
theorem reserveSell_still (price qty : ℤ) :
    ((s.longReserved a symbol id qty).reserveShort a id (s.shortReserveOf a symbol price qty)).Still
      (s.reserveSell a symbol id price qty) := by
  have hopen := s.still_openSymbol a symbol
  have hlong := longReserveOf_congr a symbol hopen qty
  have hshort : (s.updateAccount a fun account => account.openSymbol symbol).shortMarginReserve a
      symbol price (qty - s.longReserveOf a symbol qty) = s.shortReserveOf a symbol price qty := by
    unfold shortReserveOf shortMarginReserve effectiveRiskConfig
    rw [riskConfigs_of_frame hopen.frame]
  unfold reserveSell longReserved
  dsimp only
  rw [hlong, hshort]
  exact still_journal (unjournaled_appendLedgerEntry _ _)

theorem reserveSell_sets_qty (price : ℤ) {qty : ℤ} (hqty : 0 ≤ qty) :
    s.Sets (s.reserveSell a symbol id price qty) .qty a symbol id (s.longReserveOf a symbol qty) := by
  have hlong := (s.updateAccount a fun account => account.openSymbol symbol).reserveLong_sets a symbol
    id (s.longReserveOf_nonneg a symbol hqty)
  have hopen := (s.still_openSymbol a symbol).leaves .qty
  exact ((hopen.then hlong).leaves (reserveShort_leaves _ a id _ (by decide))).leaves
    ((s.reserveSell_still a symbol id price qty).leaves _)

theorem reserveSell_sets_shortMargin (price qty : ℤ) :
    s.Sets (s.reserveSell a symbol id price qty) .shortMargin a symbol id
      (max 0 (s.shortReserveOf a symbol price qty)) := by
  have hlong := @reserveLong_leaves (s.updateAccount a fun account => account.openSymbol symbol) a
    symbol id .shortMargin (s.longReserveOf a symbol qty) (by decide)
  have hopen := (s.still_openSymbol a symbol).leaves .shortMargin
  exact ((hopen.trans hlong).then (reserveShort_sets _ a symbol id _)).leaves
    ((s.reserveSell_still a symbol id price qty).leaves _)

theorem reserveSell_leaves (price qty : ℤ) :
    s.Leaves (s.reserveSell a symbol id price qty) .cash := by
  have hlong := @reserveLong_leaves (s.updateAccount a fun account => account.openSymbol symbol) a
    symbol id .cash (s.longReserveOf a symbol qty) (by decide)
  have hopen := (s.still_openSymbol a symbol).leaves .cash
  exact ((hopen.trans hlong).trans (reserveShort_leaves _ a id _ (by decide))).trans
    ((s.reserveSell_still a symbol id price qty).leaves _)

end Reserve

theorem rested_bid {t : Taker} (h : t.side = .bid) (s : MatchingEngine) :
    t.rested s = (t.ownedIn s).reserveBuy t.accountId t.symbol t.id t.price t.remaining := by
  unfold Taker.rested restOrder Taker.ownedIn
  rw [h]
  rfl

theorem rested_ask {t : Taker} (h : t.side = .ask) (s : MatchingEngine) :
    t.rested s = (t.ownedIn s).reserveSell t.accountId t.symbol t.id t.price t.remaining := by
  unfold Taker.rested restOrder Taker.ownedIn
  rw [h]
  rfl

/-- Resting an order moves no holdings. -/
theorem rested_sameHoldings (t : Taker) (s : MatchingEngine) : s.SameHoldings (t.rested s) := by
  have howned : s.SameHoldings (t.ownedIn s) := .of_accounts rfl
  refine howned.trans ?_
  generalize howned : t.ownedIn s = owned
  cases hside : t.side with
  | bid =>
    rw [rested_bid hside, howned]
    exact sameHoldings_of_hold t.symbol _ .cash rfl
  | ask =>
    have hlong : ∀ (s : MatchingEngine) reserve,
        s.SameHoldings (s.reserveLong t.accountId t.symbol t.id reserve) := fun s reserve => by
      unfold reserveLong
      split_ifs
      · exact sameHoldings_of_hold t.symbol _ .qty rfl
      · exact .of_accounts rfl
    have hshort : ∀ (s : MatchingEngine) reserve,
        s.SameHoldings (s.reserveShort t.accountId t.id reserve) := fun s reserve => by
      unfold reserveShort
      split_ifs
      · exact sameHoldings_of_hold t.symbol _ .shortMargin rfl
      · exact .of_accounts rfl
    rw [rested_ask hside, howned]
    exact (((owned.still_openSymbol t.accountId t.symbol).holdings.trans (hlong _ _)).trans
      (hshort _ _)).trans (.of_accounts rfl)

/-- A resting remainder reserves for its order. -/
theorem rested_sets {s : MatchingEngine} {t : Taker} (hqty : 0 ≤ t.remaining) (kind : ReserveKind) :
    s.Sets (t.rested s) kind t.accountId t.symbol t.id (t.reserve s kind) := by
  have howned : (t.ownedIn s).Sets (t.rested s) kind t.accountId t.symbol t.id
      (t.reserve s kind) := by
    unfold Taker.reserve
    cases hside : t.side with
    | bid =>
      rw [rested_bid hside]
      cases kind with
      | cash => exact reserveBuy_sets _ _ _ _ _ _
      | qty => exact (reserveBuy_leaves _ _ _ _ _ _ (by decide)).sets _ _ _
      | shortMargin => exact (reserveBuy_leaves _ _ _ _ _ _ (by decide)).sets _ _ _
    | ask =>
      rw [rested_ask hside]
      cases kind with
      | cash => exact (reserveSell_leaves _ _ _ _ _ _).sets _ _ _
      | qty => exact reserveSell_sets_qty _ _ _ _ _ hqty
      | shortMargin => exact reserveSell_sets_shortMargin _ _ _ _ _ _
  have hsame : ∀ kind, (t.ownedIn s).reserves kind = s.reserves kind := fun kind => by
    cases kind <;> rfl
  exact ⟨howned.reserved, hsame kind ▸ howned.entry, hsame kind ▸ howned.others⟩

/-- No entry of the other side's kinds changes. -/
theorem rested_leaves {s : MatchingEngine} {t : Taker} {kind : ReserveKind}
    (h : kind.side ≠ t.side) : (t.rested s).reserves kind = s.reserves kind := by
  have hsame : (t.ownedIn s).reserves kind = s.reserves kind := by cases kind <;> rfl
  cases hside : t.side with
  | bid =>
    rw [rested_bid hside, ← hsame]
    refine (reserveBuy_leaves _ _ _ _ _ _ ?_).entries
    rintro rfl
    exact h hside.symm
  | ask =>
    rw [rested_ask hside, ← hsame]
    cases kind with
    | cash => exact (reserveSell_leaves _ _ _ _ _ _).entries
    | qty => exact absurd hside.symm h
    | shortMargin => exact absurd hside.symm h

end MatchingEngine
end Tes
