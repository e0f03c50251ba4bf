import Tes.Ledger.Funding
import Tes.Market.AuctionQuantities

/-! An account that may not sell short sells only what it holds. -/
namespace Tes
open OrderBook MatchingEngine Flight Transition EStateM

namespace MatchingEngine

/-- What the account holds on a symbol and has not reserved. -/
def unreserved (s : MatchingEngine) (a : AccountId) (symbol : Symbol) : ℤ :=
  (s.account a).position symbol - (s.account a).reservedQty symbol

/-- A resting offer of the account reserves exactly what is left of it. -/
def AsksReserved (s : MatchingEngine) (a : AccountId) : Prop :=
  ∀ symbol id order, s.resting symbol id = some order → order.side = .ask →
    s.ownerAccountId id = a → s.reserveOf .qty id = totalRemainingQty order

/-- No order recorded to the account reserves short margin. -/
def Unmargined (s : MatchingEngine) (a : AccountId) : Prop :=
  ∀ id owner, s.orderOwnershipById.lookup id = some owner → owner.accountId = a →
    s.reserveOf .shortMargin id = 0

/-- The account may not sell short. -/
def Unshorted (s : MatchingEngine) (a : AccountId) : Prop :=
  ¬ (s.effectiveRiskConfig a).allowShortSelling

end MatchingEngine

/-- What keeps an account from going short: its offers reserve what they sell, and it holds what
its order on the way still offers. -/
structure Config.LongOnly (a : AccountId) (c : Config) : Prop where
  owned : c.engine.Owned
  funded : c.engine.Funded .qty
  unshorted : c.engine.Unshorted a
  covered : ∀ symbol, 0 ≤ c.engine.unreserved a symbol
  asks : c.engine.AsksReserved a
  unmargined : c.engine.Unmargined a
  flight : match c.flight with
    | idle => True
    | matching t | matched t => c.engine.Claims t ∧
        (t.accountId = a → t.side = .ask → t.remaining ≤ c.engine.unreserved a t.symbol)

namespace MatchingEngine
variable {s s' : MatchingEngine} {a : AccountId} {aligned clean : Prop}

theorem Unshorted.of_settings (hs : s.Unshorted a) (h : s.SameSettings s') : s'.Unshorted a := by
  unfold Unshorted effectiveRiskConfig at *
  rwa [h.riskConfigs]

theorem AsksReserved.congr (hs : s.AsksReserved a)
    (hresting : ∀ symbol id, s'.resting symbol id = s.resting symbol id)
    (howners : s'.orderOwnershipById = s.orderOwnershipById)
    (hentries : s'.reserves .qty = s.reserves .qty) : s'.AsksReserved a := by
  intro symbol id order horder hside howner
  rw [hresting] at horder
  rw [ownerAccountId, howners] at howner
  rw [reserveOf, hentries]
  exact hs symbol id order horder hside howner

theorem Unmargined.congr (hs : s.Unmargined a)
    (howners : s'.orderOwnershipById = s.orderOwnershipById)
    (hentries : s'.reserves .shortMargin = s.reserves .shortMargin) : s'.Unmargined a := by
  intro id owner howner haccount
  rw [howners] at howner
  rw [reserveOf, hentries]
  exact hs id owner howner haccount

theorem Undisturbed.unreserved (h : s.Undisturbed s') (a : AccountId) (symbol : Symbol) :
    s'.unreserved a symbol = s.unreserved a symbol +
      ((s'.account a).position symbol - (s.account a).position symbol) := by
  have hreserved := h.reserved .qty a symbol
  simp only [AccountSnapshot.reserved] at hreserved
  unfold MatchingEngine.unreserved
  omega

/-- The risk check lets the account offer only what it holds and has not reserved. -/
theorem Admits.unreserved {t : Taker} (h : s.Admits t) (hs : s.Unshorted t.accountId)
    (hside : t.side = .ask) : t.remaining ≤ s.unreserved t.accountId t.symbol := by
  have hrisk := h.risk
  rw [hside] at hrisk
  unfold validateOrderRisk validateSellRisk at hrisk
  simp only [Option.elim_none, sub_zero] at hrisk
  unfold Unshorted at hs
  split_ifs at hrisk with hcovered
  exact hcovered

/-- What a resting order gives up with a trade: the reserve of an offer, all of it covered. -/
theorem Makes.unreserved {symbol : Symbol} {maker : Order} {price traded taken fee : ℤ}
    (h : Makes True clean s s' symbol maker price traded taken fee) (hs : s.AsksReserved a)
    (symbol' : Symbol) : s.unreserved a symbol' ≤ s'.unreserved a symbol' := by
  have hposition := h.settled.position a symbol'
  have hreserved := (h.shifts .qty).reserved a symbol'
  have htraded := h.exact trivial
  have hpos := h.pos
  have hle := available_le_total h.wellFormed
  have hbounded := h.le
  simp only [AccountSnapshot.reserved, forall_const] at hreserved
  unfold MatchingEngine.unreserved
  rw [hposition, hreserved]
  by_cases hmine : a = s.ownerAccountId maker.id ∧ symbol' = symbol
  · rw [if_pos hmine, if_pos hmine]
    cases hside : maker.side with
    | bid =>
      simp only [makerDelta, ReserveKind.side, reduceCtorEq, if_false, Side.signed]
      omega
    | ask =>
      have hentry := hs symbol maker.id maker h.found hside hmine.1.symm
      simp only [makerDelta, ReserveKind.side, if_true, releaseOf, Side.signed, hentry]
      omega
  · rw [if_neg hmine, if_neg hmine]
    omega

theorem AsksReserved.make {symbol : Symbol} {maker : Order} {price traded taken fee : ℤ}
    (hs : s.AsksReserved a) (howned : s.Owned)
    (h : Makes True clean s s' symbol maker price traded taken fee) : s'.AsksReserved a := by
  intro symbol' id order horder hside haccount
  rw [h.resting] at horder
  by_cases hid : id = maker.id
  · subst hid
    obtain ⟨owner, howner, hrecord⟩ := howned symbol maker.id maker h.found
    have hsame := (h.owner owner howner hrecord.qty).1.same
    split_ifs at horder with hsymbol
    · have hleft := survivor_some horder
      have hasked : maker.side = .ask := hleft.side.symm.trans hside
      have hholder : s.ownerAccountId maker.id = a := by
        cases hlookup : s'.orderOwnershipById.lookup maker.id with
        | none =>
          have hfollows := (h.owner owner howner hrecord.qty).1
          rw [hlookup] at hfollows
          rw [show survivor maker taken = none from hfollows] at horder
          cases horder
        | some owner' =>
          rw [ownerAccountId_of_some howner, ← (hsame owner' hlookup).1]
          rwa [ownerAccountId_of_some hlookup] at haccount
      have hentry := hs symbol maker.id maker h.found hasked hholder
      have htraded := h.exact trivial
      have htotal := hleft.total
      have hbounded := h.le
      have hle := available_le_total h.wellFormed
      rw [(h.shifts .qty).entry]
      simp only [makerDelta, ReserveKind.side, hasked, if_true, releaseOf, hentry]
      omega
    · have hboth := howned symbol' maker.id order horder
      obtain ⟨owner', howner', hrecord'⟩ := hboth
      rw [howner] at howner'
      cases howner'
      exact absurd ⟨hrecord'.symbol.symm.trans hrecord.symbol, rfl⟩ hsymbol
  · rw [if_neg fun hboth => hid hboth.2] at horder
    rw [ownerAccountId, h.others id hid] at haccount
    rw [reserveOf_of_lookup ((h.shifts .qty).others id hid)]
    exact hs symbol' id order horder hside haccount

theorem Unmargined.make {symbol : Symbol} {maker : Order} {price traded taken fee : ℤ}
    (hs : s.Unmargined a) (howned : s.Owned)
    (h : Makes aligned clean s s' symbol maker price traded taken fee) : s'.Unmargined a := by
  intro id owner' howner' haccount
  by_cases hid : id = maker.id
  · subst hid
    obtain ⟨owner, howner, hrecord⟩ := howned symbol maker.id maker h.found
    have hsame := (h.owner owner howner hrecord.qty).1.same owner' howner'
    have hentry := hs maker.id owner howner (hsame.1.symm.trans haccount)
    rw [(h.shifts .shortMargin).entry, hentry]
    simp [makerDelta, releaseOf, hentry, boundedRelease_zero]
  · rw [h.others id hid] at howner'
    rw [reserveOf_of_lookup ((h.shifts .shortMargin).others id hid)]
    exact hs id owner' howner' haccount

/-- An offer that the account holds in full reserves all of it, and no margin. -/
theorem reserve_of_held {t : Taker} (hside : t.side = .ask)
    (hheld : t.remaining ≤ s.unreserved t.accountId t.symbol) (hpos : 0 < t.remaining) :
    t.reserve s .qty = t.remaining ∧ t.reserve s .shortMargin = 0 := by
  have hlong : s.longReserveOf t.accountId t.symbol t.remaining = t.remaining := by
    unfold longReserveOf
    unfold unreserved at hheld
    omega
  unfold Taker.reserve
  dsimp only
  rw [if_pos hside, if_pos hside, hlong, sub_self, shortMarginReserve, if_pos le_rfl, max_self]
  exact ⟨rfl, rfl⟩

theorem Rested.unreserved {t : Taker} (h : s.Rested s' t) (a : AccountId) (symbol : Symbol) :
    s'.unreserved a symbol = s.unreserved a symbol -
      if a = t.accountId ∧ symbol = t.symbol then t.reserve s .qty else 0 := by
  have hposition := (h.holdings a).position symbol
  have hreserved := (h.sets .qty).reserved a symbol
  simp only [AccountSnapshot.reserved, forall_const] at hreserved
  unfold MatchingEngine.unreserved
  omega

theorem AsksReserved.rest {t : Taker} (hs : s.AsksReserved a) (h : s.Rested s' t)
    (hheld : t.accountId = a → t.side = .ask → t.reserve s .qty = t.remaining) :
    s'.AsksReserved a := by
  intro symbol id order horder hside haccount
  have hfree := h.free symbol
  rw [h.resting] at horder
  split_ifs at horder with hnew
  · cases horder
    obtain ⟨rfl, rfl, -⟩ := hnew
    have hasked : t.side = .ask := by
      rw [← hside, Taker.order, arrange_side]
    have hholder : t.accountId = a := by
      rw [← haccount, ownerAccountId, h.owners, if_pos rfl]
      rfl
    have hpos := h.pos
    have hreserve := hheld hholder hasked
    rw [Taker.order, totalRemainingQty_arrange]
    rcases (h.sets .qty).entry with hset | ⟨hzero, -⟩
    · rw [hset, hreserve]
    · omega
  · have hid : id ≠ t.id := fun hid => by
      rw [hid, hfree] at horder
      cases horder
    rw [ownerAccountId, h.owners, if_neg hid] at haccount
    rw [reserveOf_of_lookup ((h.sets .qty).others id hid)]
    exact hs symbol id order horder hside haccount

theorem Unmargined.rest {t : Taker} (hs : s.Unmargined a) (hclaims : s.Claims t)
    (h : s.Rested s' t) (hnone : t.accountId = a → t.reserve s .shortMargin = 0) :
    s'.Unmargined a := by
  intro id owner howner haccount
  rw [h.owners] at howner
  split_ifs at howner with hid
  · subst hid
    have hholder : t.accountId = a := by
      rw [← haccount, ← Option.some.inj howner]
    rcases (h.sets .shortMargin).entry with hset | ⟨-, hsame⟩
    · rw [hset]
      exact hnone hholder
    · rw [reserveOf_of_lookup hsame]
      rcases hclaims.holder .shortMargin with hempty | ⟨holder, hlookup, hsameAccount, -⟩
      · exact reserveOf_of_none hempty
      · exact hs t.id holder hlookup (hsameAccount.trans hholder)
  · rw [reserveOf_of_lookup ((h.sets .shortMargin).others id hid)]
    exact hs id owner howner haccount

end MatchingEngine

section Changes
variable {G : Guard} {a : AccountId} {clean : Prop} {c c' : Config}

/-- Nothing of the account goes, and what it holds unreserved does not shrink. -/
theorem Config.LongOnly.of_undisturbed {s s' : MatchingEngine} {flight : Flight}
    (hc : Config.LongOnly a ⟨s, flight⟩) (h : s.Undisturbed s')
    (hheld : ∀ symbol, (s.account a).position symbol ≤ (s'.account a).position symbol) :
    Config.LongOnly a ⟨s', flight⟩ := by
  have hmore : ∀ symbol, s.unreserved a symbol ≤ s'.unreserved a symbol := fun symbol => by
    have hsame := h.unreserved a symbol
    have hposition := hheld symbol
    omega
  refine ⟨hc.owned.of_undisturbed h, hc.funded.of_undisturbed h, hc.unshorted.of_settings h.settings,
    fun symbol => (hc.covered symbol).trans (hmore symbol),
    hc.asks.congr h.resting h.owners (h.entries .qty),
    hc.unmargined.congr h.owners (h.entries .shortMargin), ?_⟩
  cases flight with
  | idle => trivial
  | matching t | matched t =>
    exact ⟨hc.flight.1.of_undisturbed h rfl rfl rfl,
      fun haccount hside => (hc.flight.2 haccount hside).trans (hmore t.symbol)⟩

/-- Every change keeps the account from going short. -/
theorem Change.longOnly (hc : c.LongOnly a) (h : Change G True clean c c') : c'.LongOnly a := by
  have howned := h.owned hc.owned
  cases h with
  | still hstill hholdings =>
    exact hc.of_undisturbed hstill fun symbol => ((hholdings a).position symbol).ge
  | raise haccount hstill hraise =>
    exact hc.of_undisturbed hstill fun symbol => (hraise a).2 symbol
  | @enter s t hadmits haccount hentry =>
    refine ⟨howned, hc.funded, hc.unshorted, hc.covered, hc.asks, hc.unmargined, hadmits.claims, ?_⟩
    rintro rfl hside
    exact hadmits.unreserved hc.unshorted hside
  | @take s s' t price traded hstill hpos hle hcross hsettled =>
    have hmine : ∀ symbol, s'.unreserved a symbol = s.unreserved a symbol +
        if a = t.accountId ∧ symbol = t.symbol then t.side.signed traded else 0 := fun symbol => by
      have hsame := hstill.unreserved a symbol
      have hposition := hsettled.position a symbol
      omega
    refine ⟨howned, hc.funded.of_undisturbed hstill, hc.unshorted.of_settings hstill.settings,
      fun symbol => ?_, hc.asks.congr hstill.resting hstill.owners (hstill.entries .qty),
      hc.unmargined.congr hstill.owners (hstill.entries .shortMargin),
      hc.flight.1.of_undisturbed hstill rfl rfl rfl, fun haccount hside => ?_⟩
    · have hbefore : 0 ≤ s.unreserved a symbol := hc.covered symbol
      rw [hmine]
      split_ifs with hboth
      · obtain ⟨rfl, rfl⟩ := hboth
        cases hside : t.side with
        | bid =>
          simp only [Side.signed]
          omega
        | ask =>
          have hheld : t.remaining ≤ s.unreserved t.accountId t.symbol := hc.flight.2 rfl hside
          simp only [Side.signed]
          omega
      · omega
    · have hheld : t.remaining ≤ s.unreserved a t.symbol := hc.flight.2 haccount hside
      dsimp only at haccount hside ⊢
      rw [hmine, if_pos ⟨haccount.symm, rfl⟩, hside]
      simp only [Side.signed]
      omega
  | @make s s' flight symbol maker price traded taken fee hmake =>
    have hmore : ∀ symbol, s.unreserved a symbol ≤ s'.unreserved a symbol :=
      hmake.unreserved hc.asks
    refine ⟨howned, hc.funded.make hc.owned hmake, hc.unshorted.of_settings hmake.settings,
      fun symbol => (hc.covered symbol).trans (hmore symbol), hc.asks.make hc.owned hmake,
      hc.unmargined.make hc.owned hmake, ?_⟩
    cases flight with
    | idle => trivial
    | matching t | matched t =>
      exact ⟨hc.flight.1.make hmake,
        fun haccount hside => (hc.flight.2 haccount hside).trans (hmore t.symbol)⟩
  | finish =>
    exact ⟨howned, hc.funded, hc.unshorted, hc.covered, hc.asks, hc.unmargined, hc.flight⟩
  | @rest s s' t hrest =>
    have hheld : t.accountId = a → t.side = .ask →
        t.reserve s .qty = t.remaining ∧ t.reserve s .shortMargin = 0 := by
      rintro rfl hside
      exact reserve_of_held hside (hc.flight.2 rfl hside) hrest.pos
    have hbid : t.side = .bid → t.reserve s .qty = 0 ∧ t.reserve s .shortMargin = 0 := fun hside => by
      simp [Taker.reserve, hside]
    have hnonneg : 0 ≤ t.reserve s .qty := by
      unfold Taker.reserve
      dsimp only
      split_ifs
      · exact s.longReserveOf_nonneg _ _ hrest.pos.le
      · exact le_rfl
    refine ⟨howned, hc.funded.rest hc.flight.1 hrest hnonneg, hc.unshorted.of_settings hrest.settings,
      fun symbol => ?_, hc.asks.rest hrest fun haccount hside => (hheld haccount hside).1,
      hc.unmargined.rest hc.flight.1 hrest fun haccount => ?_, trivial⟩
    · have hbefore : 0 ≤ s.unreserved a symbol := hc.covered symbol
      rw [hrest.unreserved]
      split_ifs with hboth
      · obtain ⟨rfl, rfl⟩ := hboth
        cases hside : t.side with
        | bid =>
          have hzero := (hbid hside).1
          omega
        | ask =>
          have hbound : t.remaining ≤ s.unreserved t.accountId t.symbol := hc.flight.2 rfl hside
          have hreserve := (hheld rfl hside).1
          omega
      · omega
    · cases hside : t.side with
      | bid => exact (hbid hside).2
      | ask => exact (hheld haccount hside).2
  | drop => exact ⟨howned, hc.funded, hc.unshorted, hc.covered, hc.asks, hc.unmargined, trivial⟩
  | @cancel s s' id owner hcancel =>
    have hgone := hcancel.owners
    refine ⟨howned, hc.funded.cancel hcancel, hc.unshorted.of_settings hcancel.settings,
      fun symbol => ?_, fun symbol id' order horder hside haccount => ?_,
      fun id' owner' howner haccount => ?_, trivial⟩
    · have hbefore : 0 ≤ s.unreserved a symbol := hc.covered symbol
      have hposition := (hcancel.holdings a).position symbol
      have hreserved := (hcancel.shifts .qty).reserved a symbol
      have hentry := hc.funded.nonneg id
      simp only [AccountSnapshot.reserved, forall_const] at hreserved
      unfold unreserved at *
      dsimp only at *
      split_ifs at hreserved <;> omega
    · have hid : id' ≠ id := by
        rintro rfl
        obtain ⟨owner', howner', -⟩ := howned symbol id' order horder
        dsimp only at howner'
        rw [hgone, if_pos rfl] at howner'
        cases howner'
      dsimp only at horder haccount
      rw [hcancel.resting, if_neg fun hboth => hid hboth.2] at horder
      rw [ownerAccountId, hgone, if_neg hid] at haccount
      dsimp only
      rw [reserveOf_of_lookup ((hcancel.shifts .qty).others id' hid)]
      exact hc.asks symbol id' order horder hside haccount
    · dsimp only at howner
      rw [hgone] at howner
      split_ifs at howner with hid
      dsimp only
      rw [reserveOf_of_lookup ((hcancel.shifts .shortMargin).others id' hid)]
      exact hc.unmargined id' owner' howner haccount

theorem Config.LongOnly.changes (hc : c.LongOnly a)
    (h : Relation.ReflTransGen (Change G True clean) c c') : c'.LongOnly a := by
  induction h with
  | refl => exact hc
  | tail _ hchange ih => exact hchange.longOnly ih

end Changes

/-- The operation lets the account sell no more than it holds: no setting allows it to sell short,
none takes away what it has reserved, and no auction sees a hidden order. -/
def Op.KeepsLong (a : AccountId) (op : Op) (s : MatchingEngine) : Prop :=
  op.AuctionVisible s ∧ match op with
    | .setAccountRiskConfig b config => b = a → ¬ config.allowShortSelling
    | .setAccountState b symbol _ positionQty =>
      b = a → (s.account a).reservedQty symbol ≤ positionQty
    | _ => True

instance (a : AccountId) (op : Op) (s : MatchingEngine) : Decidable (op.KeepsLong a s) :=
  match op with
  | .setAccountRiskConfig b config =>
    inferInstanceAs (Decidable (_ ∧ (b = a → ¬ config.allowShortSelling)))
  | .setAccountState b symbol _ positionQty =>
    inferInstanceAs (Decidable (_ ∧ (b = a → (s.account a).reservedQty symbol ≤ positionQty)))
  | .setFeeModel .. | .haltSymbol .. | .resumeSymbol .. | .setPriceBands .. | .clearPriceBands ..
  | .setTradingPhase .. | .placeLimitOrder .. | .placeHiddenOrder .. | .placeIcebergOrder ..
  | .placeMarketOrder .. | .placeStopOrder .. | .placeStopLimitOrder .. | .cancel ..
  | .replaceOrder .. | .replaceStopOrder .. | .replaceStopLimitOrder .. | .uncross .. =>
    inferInstanceAs (Decidable (_ ∧ True))

section Runs
variable {a : AccountId} {s : MatchingEngine} {op : Op} {ops : List (Op × List Event)}

/-- A setting keeps the account from being allowed to sell short. -/
theorem Op.exec_setting_unshorted (hop : op.KeepsLong a s) (hsetting : op.isSetting)
    (hs : s.Unshorted a) : Outcome op.exec s (fun _ s' => s'.Unshorted a) fun _ _ => True := by
  cases op with
  | setFeeModel model =>
    simp only [Op.exec, MatchingEngine.setFeeModel]
    split_ifs
    · trivial
    · trivial
    · exact hs
  | setAccountRiskConfig b config =>
    simp only [Op.exec, MatchingEngine.setAccountRiskConfig]
    split_ifs
    · trivial
    · trivial
    · intro hallowed
      unfold effectiveRiskConfig at hallowed
      dsimp only at hallowed
      rw [Finmap.valueD_insert] at hallowed
      split_ifs at hallowed with hb
      · exact hop.2 hb.symm hallowed
      · exact hs hallowed
  | haltSymbol symbol reason => exact hs
  | resumeSymbol symbol =>
    simp only [Op.exec, MatchingEngine.resumeSymbol, outcome_bind, outcome_get, outcome_set]
    split_ifs
    · exact hs
    · exact hs
  | setPriceBands symbol lower upper =>
    simp only [Op.exec, MatchingEngine.setPriceBands]
    split_ifs
    · trivial
    · exact hs
  | clearPriceBands symbol => exact hs
  | setTradingPhase symbol phase => exact hs
  | _ => exact hsetting.elim

theorem MatchingEngine.unreserved_withState (s : MatchingEngine) (a b : AccountId)
    (symbol symbol' : Symbol) (cash qty : ℤ) :
    (s.updateAccount b fun account => account.withState symbol cash qty).unreserved a symbol' =
      if a = b ∧ symbol' = symbol then qty - (s.account a).reservedQty symbol'
      else s.unreserved a symbol' := by
  unfold unreserved
  rw [account_updateAccount]
  by_cases hb : a = b
  · rw [if_pos hb]
    unfold AccountSnapshot.position AccountSnapshot.withState
    dsimp only
    rw [Finmap.valueD_insert]
    by_cases hsymbol : symbol' = symbol
    · rw [if_pos hsymbol, if_pos ⟨hb, hsymbol⟩]
      rfl
    · rw [if_neg hsymbol, if_neg fun hboth => hsymbol hboth.2]
      rfl
  · rw [if_neg hb, if_neg fun hboth => hb hboth.1]

theorem Config.LongOnly.setup (hc : Config.LongOnly a ⟨s, idle⟩) (hop : op.KeepsLong a s)
    (hsetup : op.isSetup) :
    Outcome op.exec s (fun _ s' => Config.LongOnly a ⟨s', idle⟩) fun _ s' => s' = s := by
  rcases hsetup with hsetting | ⟨b, symbol, cash, qty, rfl⟩
  · have hkeep := Op.exec_setting hsetting s
    have hunshorted := Op.exec_setting_unshorted hop hsetting hc.unshorted
    unfold Outcome at *
    cases hexec : op.exec s with
    | error e s' => rw [hexec] at hkeep; exact hkeep.1
    | ok events s' =>
      rw [hexec] at hkeep hunshorted
      obtain ⟨hunset, -⟩ := hkeep
      have hmoney := money_of_unset hunset
      have hresting : ∀ symbol id, s'.resting symbol id = s.resting symbol id := fun symbol id => by
        rw [MatchingEngine.resting, MatchingEngine.resting, bookFor_of_unset hunset]
      refine ⟨hc.owned.congr hresting (owners_of_unset hunset), hc.funded.congr
        (owners_of_unset hunset) (reserves_of_money hmoney .qty) fun b symbol => ?_, hunshorted,
        fun symbol => ?_, hc.asks.congr hresting (owners_of_unset hunset)
        (reserves_of_money hmoney .qty), hc.unmargined.congr (owners_of_unset hunset)
        (reserves_of_money hmoney .shortMargin), trivial⟩
      · rw [account_of_money hmoney]
      · have hcovered := hc.covered symbol
        dsimp only [unreserved] at hcovered ⊢
        rwa [account_of_money hmoney]
  · have hstill : ∀ b', ((s.updateAccount b fun account =>
        account.withState symbol cash qty).account b').reservedQty = (s.account b').reservedQty := by
      intro b'
      rw [account_updateAccount]
      split_ifs <;> rfl
    refine ⟨hc.owned.congr (fun _ _ => rfl) rfl, hc.funded.congr rfl rfl fun b' symbol' => ?_,
      hc.unshorted, fun symbol' => ?_, hc.asks.congr (fun _ _ => rfl) rfl rfl,
      hc.unmargined.congr rfl rfl, trivial⟩
    · exact congrFun (hstill b') symbol'
    · have hcovered : 0 ≤ s.unreserved a symbol' := hc.covered symbol'
      change 0 ≤ (s.updateAccount b fun account =>
        account.withState symbol cash qty).unreserved a symbol'
      rw [unreserved_withState]
      split_ifs with hboth
      · obtain ⟨rfl, rfl⟩ := hboth
        have hleft := hop.2 rfl
        omega
      · exact hcovered

theorem Config.longOnly_fresh (a : AccountId) : Config.LongOnly a ⟨fresh, idle⟩ where
  owned _ _ _ horder := by cases horder
  funded := (Config.funding_fresh (K := fun _ => True) trivial).funded .qty
  unshorted := Bool.false_ne_true
  covered _ := le_rfl
  asks _ _ _ horder := by cases horder
  unmargined _ _ howner := by cases howner
  flight := trivial

/-- In runs that keep the account long, whatever it has on offer it holds. -/
theorem Run.longOnly (h : Run (fun _ s op => op.KeepsLong a s) fresh ops s) :
    Config.LongOnly a ⟨s, idle⟩ := by
  refine (h.aligned fun hop => hop.1).tick_invariant (G := alignedGuard) (fun hop => hop.2)
    (sound_fresh _) (Config.longOnly_fresh a) (fun hc hI htick => ?_) (fun hc hI habort => ?_)
    fun hop hsetup _ hI => ?_
  · have hpath : Relation.ReflTransGen (Change alignedGuard True False) _ _ :=
      htick.changes (fun _ => id) hc fun h => h.elim
    exact hI.changes hpath
  · have hpath : Relation.ReflTransGen (Change alignedGuard True False) _ ⟨_, idle⟩ :=
      habort.changes hc
    exact hI.changes hpath
  · exact (hI.setup hop.1 hsetup).mono (fun _ _ h => h) fun _ _ h => h ▸ hI

/-- An account that is never allowed to sell short never goes short: on every symbol it holds
what it has reserved, and each of its resting offers has reserved all that is left of it and no
margin. -/
theorem never_goes_short (h : Run (fun _ s op => op.KeepsLong a s) fresh ops s) (symbol : Symbol) :
    (0 ≤ (s.account a).reservedQty symbol ∧
      (s.account a).reservedQty symbol ≤ (s.account a).position symbol) ∧
    ∀ id order, s.resting symbol id = some order → order.side = .ask → s.ownerAccountId id = a →
      s.reserveOf .qty id = totalRemainingQty order ∧ s.reserveOf .shortMargin id = 0 := by
  have hI := h.longOnly
  refine ⟨⟨hI.funded.reserved_nonneg a symbol, ?_⟩, fun id order horder hside howner => ?_⟩
  · have hcovered := hI.covered symbol
    unfold unreserved at hcovered
    dsimp only at hcovered
    omega
  · obtain ⟨owner, hlookup, -⟩ := hI.owned symbol id order horder
    rw [ownerAccountId_of_some hlookup] at howner
    have hasked := hI.asks symbol id order horder hside (by rw [ownerAccountId_of_some hlookup, howner])
    exact ⟨hasked, hI.unmargined id owner hlookup howner⟩

end Runs

/-- Ten units, of which six are offered in clips of two and four at once; three of them sell. -/
def tenUnits : List Op :=
  [.setAccountState 1 "X" 0 10, .setAccountState 2 "X" 5000 0,
    .placeIcebergOrder 1 "X" .ask 100 6 2, .placeLimitOrder 2 "X" .bid 100 3 .gtc,
    .placeLimitOrder 1 "X" .ask 101 4 .gtc, .placeLimitOrder 1 "X" .ask 99 1 .gtc]

theorem never_goes_short_tenUnits :
    ((0 ≤ ((fresh.applyAll tenUnits).account 1).reservedQty "X" ∧
      ((fresh.applyAll tenUnits).account 1).reservedQty "X" ≤
        ((fresh.applyAll tenUnits).account 1).position "X") ∧
      ∀ id order, (fresh.applyAll tenUnits).resting "X" id = some order → order.side = .ask →
        (fresh.applyAll tenUnits).ownerAccountId id = 1 →
        (fresh.applyAll tenUnits).reserveOf .qty id = totalRemainingQty order ∧
          (fresh.applyAll tenUnits).reserveOf .shortMargin id = 0) ∧
    ([1, 3, 4].map fun id => (fresh.applyAll tenUnits).reserveOf .qty id) = [3, 4, 0] := by
  constructor
  · exact never_goes_short (Run.ofOps tenUnits (by decide +kernel)) "X"
  · decide +kernel

end Tes
