import Mathlib.Tactic.LinearCombination
import Tes.Ledger.Trades

/-! Profit and loss: trades keep cash plus cost basis less realized profit, and the equity
that is reported follows. -/
namespace Tes
open MatchingEngine Flight Transition EStateM

namespace PositionUpdate

/-- Position at cost less realized profit, with what is left of the trade at its price. -/
def worth (side : Side) (price : ℤ) (u : PositionUpdate) : ℚ :=
  u.position * u.averageCost - u.tradePnl + side.signed (price * u.remaining)

/-- Closing part of a position sells it at the trade's price, from its cost. -/
theorem worth_covered (position covered remaining price : ℤ) (averageCost tradePnl : ℚ) :
    ((position + covered : ℤ) : ℚ) * (if position + covered = 0 then 0 else averageCost) -
        (tradePnl + (averageCost - price) * covered) + ((price * (remaining - covered) : ℤ) : ℚ) =
      position * averageCost - tradePnl + ((price * remaining : ℤ) : ℚ) := by
  split_ifs with hflat
  · have hzero : (position : ℚ) + covered = 0 := by exact_mod_cast hflat
    push_cast
    linear_combination -averageCost * hzero
  · push_cast
    ring

theorem worth_close (side : Side) (price : ℤ) (u : PositionUpdate) :
    (u.close side price).worth side price = u.worth side price := by
  cases side with
  | bid =>
    by_cases hshort : u.position < 0
    · rw [close, if_pos hshort]
      exact worth_covered _ _ _ _ _ _
    · rw [close, if_neg hshort]
  | ask =>
    by_cases hlong : 0 < u.position
    · rw [close, if_pos hlong]
      have hsold := worth_covered u.position (-(min u.remaining u.position)) (-u.remaining) price
        u.averageCost u.tradePnl
      simp only [worth, Side.signed]
      have hflat : u.position - min u.remaining u.position =
          u.position + -(min u.remaining u.position) := by ring
      rw [hflat]
      push_cast at hsold ⊢
      linear_combination hsold
    · rw [close, if_neg hlong]

/-- What is left after closing opens or adds on the side of the trade. -/
theorem position_close (side : Side) (price : ℤ) (u : PositionUpdate)
    (h : 0 < (u.close side price).remaining) :
    0 ≤ side.signed (u.close side price).position := by
  cases side with
  | bid =>
    by_cases hshort : u.position < 0
    · rw [close, if_pos hshort] at h ⊢
      dsimp only [Side.signed] at h ⊢
      omega
    · rw [close, if_neg hshort]
      exact not_lt.mp hshort
  | ask =>
    by_cases hlong : 0 < u.position
    · rw [close, if_pos hlong] at h ⊢
      dsimp only [Side.signed] at h ⊢
      omega
    · rw [close, if_neg hlong]
      dsimp only [Side.signed]
      omega

/-- An average cost is never divided by zero. -/
theorem openedSize_ne_zero (side : Side) (price : ℤ) (u : PositionUpdate)
    (h : 0 < (u.close side price).remaining) : openedSize side (u.close side price) ≠ 0 := by
  have hside := position_close side price u h
  generalize u.close side price = closed at *
  cases side <;> simp only [Side.signed, openedSize] at * <;> omega

theorem remaining_close (side : Side) (price : ℤ) {u : PositionUpdate} (h : 0 ≤ u.remaining) :
    0 ≤ (u.close side price).remaining := by
  cases side with
  | bid =>
    by_cases hshort : u.position < 0
    · rw [close, if_pos hshort]
      dsimp only
      omega
    · rwa [close, if_neg hshort]
  | ask =>
    by_cases hlong : 0 < u.position
    · rw [close, if_pos hlong]
      dsimp only
      omega
    · rwa [close, if_neg hlong]

theorem worth_extend {side : Side} (price : ℤ) {u : PositionUpdate}
    (hremaining : 0 ≤ u.remaining)
    (hside : 0 < u.remaining → 0 ≤ side.signed u.position) :
    ((u.extend side price).position : ℚ) * (u.extend side price).averageCost -
      (u.extend side price).tradePnl = u.worth side price := by
  unfold extend worth
  by_cases hpos : 0 < u.remaining
  · rw [if_pos hpos]
    have hpos' : (0 : ℚ) < u.remaining := by exact_mod_cast hpos
    have hold := hside hpos
    cases side with
    | bid =>
      dsimp only [Side.signed] at hold ⊢
      have hold' : (0 : ℚ) ≤ u.position := by exact_mod_cast hold
      have hsize : (u.position : ℚ) + u.remaining ≠ 0 := by positivity
      rw [max_eq_right hold, openedSize]
      push_cast
      field_simp
      ring
    | ask =>
      dsimp only [Side.signed] at hold ⊢
      have hold' : (u.position : ℚ) ≤ 0 := by exact_mod_cast (by omega : u.position ≤ 0)
      have hsize : (u.position : ℚ) - u.remaining ≠ 0 := by linarith
      have hshort : (if u.position < 0 then -u.position else 0) = -u.position := by
        split_ifs <;> omega
      rw [hshort, openedSize]
      have hsize' : -((u.position : ℚ) - u.remaining) ≠ 0 := neg_ne_zero.mpr hsize
      push_cast
      field_simp
      ring
  · rw [if_neg hpos]
    have hzero : u.remaining = 0 := by omega
    rw [hzero]
    cases side <;> simp [Side.signed]

end PositionUpdate
namespace AccountSnapshot

/-- The positions at their average costs. -/
def costBasis (account : AccountSnapshot) : ℚ :=
  account.positionQtyBySymbol.total fun symbol (qty : ℤ) => qty * account.averageCost symbol

/-- What trades keep: cash and positions at cost, less the profit realized. -/
def bookValue (account : AccountSnapshot) : ℚ :=
  account.cashBalance + account.costBasis - account.realizedPnl

/-- The realized profit is the sum of that of every symbol. -/
def PnlBalanced (account : AccountSnapshot) : Prop :=
  account.realizedPnl = account.realizedPnlBySymbol.total fun _ (pnl : ℚ) => pnl

theorem costBasis_of_sameHoldings {a b : AccountSnapshot} (h : a.SameHoldings b) :
    b.costBasis = a.costBasis := by
  have hcost : ∀ symbol, b.averageCost symbol = a.averageCost symbol := fun symbol => by
    rw [averageCost, averageCost, h.averageCost]
  unfold costBasis
  simp only [hcost]
  refine Finmap.total_congr_valueD (d := 0) (fun symbol => by simp) fun symbol => ?_
  have hposition : b.positionQtyBySymbol.valueD symbol 0 = a.positionQtyBySymbol.valueD symbol 0 :=
    h.position symbol
  rw [hposition]

theorem bookValue_of_sameHoldings {a b : AccountSnapshot} (h : a.SameHoldings b) :
    b.bookValue = a.bookValue := by
  rw [bookValue, bookValue, h.cash, h.realized, costBasis_of_sameHoldings h]

theorem pnlBalanced_of_sameHoldings {a b : AccountSnapshot} (h : a.SameHoldings b)
    (ha : a.PnlBalanced) : b.PnlBalanced := by
  rw [PnlBalanced, h.realized, h.realizedBySymbol]
  exact ha

section Settle
variable (account : AccountSnapshot) (symbol : Symbol) (side : Side) (price qty fee : ℤ)

theorem costBasis_settle : (account.settle symbol side price qty fee).costBasis =
    account.costBasis - account.position symbol * account.averageCost symbol +
      (account.positionUpdate symbol side price qty).position *
        (account.positionUpdate symbol side price qty).averageCost := by
  have hcost : ∀ symbol', (account.settle symbol side price qty fee).averageCost symbol' =
      if symbol' = symbol then (account.positionUpdate symbol side price qty).averageCost
      else account.averageCost symbol' := fun symbol' =>
    Finmap.valueD_insert _ _ _ _ _
  have hpositions : (account.settle symbol side price qty fee).positionQtyBySymbol =
      account.positionQtyBySymbol.insert symbol
        (account.positionUpdate symbol side price qty).position := rfl
  unfold costBasis
  rw [hpositions, Finmap.total_insert_add, hcost symbol, if_pos rfl]
  have hrest : ((account.positionQtyBySymbol.erase symbol).total fun symbol' (qty' : ℤ) =>
      (qty' : ℚ) * (account.settle symbol side price qty fee).averageCost symbol') =
      (account.positionQtyBySymbol.erase symbol).total fun symbol' (qty' : ℤ) =>
        (qty' : ℚ) * account.averageCost symbol' := by
    refine Finmap.total_congr _ fun symbol' qty' hqty => ?_
    rw [Finmap.lookup_erase_ite] at hqty
    split_ifs at hqty with hne
    rw [hcost, if_neg hne]
  have hold : (account.positionQtyBySymbol.lookup symbol).elim 0
      (fun qty : ℤ => (qty : ℚ) * account.averageCost symbol) =
      account.position symbol * account.averageCost symbol := by
    unfold position Finmap.valueD
    cases account.positionQtyBySymbol.lookup symbol with
    | none => simp
    | some qty => rfl
  rw [hrest, Finmap.total_erase, hold]

/-- A trade, fee included, keeps the book value. -/
theorem bookValue_settle (hqty : 0 ≤ qty) :
    (account.settle symbol side price qty fee).bookValue = account.bookValue := by
  generalize hstart : PositionUpdate.mk (account.position symbol) (account.averageCost symbol) 0
    qty = start
  have hupdate : account.positionUpdate symbol side price qty =
      (start.close side price).extend side price := by rw [positionUpdate, hstart]
  have hremaining : 0 ≤ start.remaining := by rwa [← hstart]
  have hworth := PositionUpdate.worth_extend price
    (PositionUpdate.remaining_close side price hremaining)
    (PositionUpdate.position_close side price start)
  rw [PositionUpdate.worth_close, ← hupdate] at hworth
  have hrealized : (account.settle symbol side price qty fee).realizedPnl =
      account.realizedPnl + (account.positionUpdate symbol side price qty).tradePnl - fee := rfl
  rw [bookValue, bookValue, costBasis_settle, cashBalance_settle, hrealized]
  subst hstart
  unfold PositionUpdate.worth at hworth
  push_cast
  linear_combination hworth

theorem pnlBalanced_settle (h : account.PnlBalanced) :
    (account.settle symbol side price qty fee).PnlBalanced := by
  have htotal : ((account.settle symbol side price qty fee).realizedPnlBySymbol.total
      fun _ (pnl : ℚ) => pnl) = account.realizedPnlBySymbol.total (fun _ (pnl : ℚ) => pnl) -
        account.realizedPnlOf symbol + (account.realizedPnlOf symbol +
          (account.positionUpdate symbol side price qty).tradePnl - fee) :=
    Finmap.total_insert_valueD (f := fun _ (pnl : ℚ) => pnl) (fun _ => rfl) _ _ _
  have hrealized : (account.settle symbol side price qty fee).realizedPnl =
      account.realizedPnl + (account.positionUpdate symbol side price qty).tradePnl - fee := rfl
  rw [PnlBalanced, htotal, hrealized, h]
  ring

end Settle
end AccountSnapshot
/-- The operation may look up account `a`: it submits or replaces an order for the account,
or the account has a stop order that it may trigger. -/
def Op.MayTouch (op : Op) (s : MatchingEngine) (a : AccountId) : Prop :=
  op.submitter = some a ∨ op.replacer = some a ∨
    ∃ id stop, s.stopOrdersById.lookup id = some stop ∧ stop.accountId = a

/-- Account `a` is not topped up. -/
def notToppedUp (a : AccountId) : Guard where
  account b := a = defaultAccountId → b ≠ a

theorem MatchingEngine.Sound.notToppedUp {s : MatchingEngine} (hs : s.Sound {}) {a : AccountId}
    {op : Op} (h : a = defaultAccountId → ¬ op.MayTouch s a) : s.Sound (notToppedUp a) :=
  ⟨hs.book, hs.rests_lt, hs.rests_unique, hs.owner_lt, hs.owner_symbol, fun _ => trivial, hs.stop_lt,
    fun {id stop} hstop hdefault haccount =>
      h hdefault (Or.inr (Or.inr ⟨id, stop, hstop, haccount⟩)),
    hs.stop_rests, hs.stop_owner, hs.unreserved, hs.pending⟩

theorem Op.guarded_notToppedUp {s : MatchingEngine} {a : AccountId} (op : Op)
    (h : a = defaultAccountId → ¬ op.MayTouch s a) : op.Guarded (notToppedUp a) s :=
  ⟨fun _ hb hdefault heq => h hdefault (Or.inl (heq ▸ hb)),
    fun _ hb _ hdefault heq => h hdefault (Or.inr (Or.inl (heq ▸ hb))),
    fun _ _ => trivial, fun _ _ => trivial⟩

section Step
variable {s s' : MatchingEngine} {events : List Event}

theorem HoldingsStep.bookValue {a : AccountId} (h : HoldingsStep (notToppedUp a) s events s') :
    (s'.account a).bookValue = (s.account a).bookValue := by
  cases h with
  | same hsame _ => exact AccountSnapshot.bookValue_of_sameHoldings (hsame a)
  | @touch b symbol hb =>
    rw [touchAccount, account_updateAccount]
    split_ifs with heq hdefault
    · exact absurd heq.symm (hb (heq.trans hdefault))
    · rfl
    · rfl
  | trade b c hqty hsame _ =>
    rw [AccountSnapshot.bookValue_of_sameHoldings (hsame a), account_exchange]
    dsimp only
    split_ifs <;> simp only [AccountSnapshot.bookValue_settle _ _ _ _ _ _ hqty.le]

theorem HoldingsStep.pnlBalanced {G : Guard} (h : HoldingsStep G s events s')
    (hs : ∀ a, (s.account a).PnlBalanced) (a : AccountId) : (s'.account a).PnlBalanced := by
  cases h with
  | same hsame _ => exact AccountSnapshot.pnlBalanced_of_sameHoldings (hsame a) (hs a)
  | touch symbol _ =>
    rw [touchAccount, account_updateAccount]
    split_ifs <;> exact hs a
  | trade b c _ hsame _ =>
    refine AccountSnapshot.pnlBalanced_of_sameHoldings (hsame a) ?_
    rw [account_exchange]
    dsimp only
    split_ifs
    · exact AccountSnapshot.pnlBalanced_settle _ _ _ _ _ _
        (AccountSnapshot.pnlBalanced_settle _ _ _ _ _ _ (hs a))
    · exact AccountSnapshot.pnlBalanced_settle _ _ _ _ _ _ (hs a)
    · exact AccountSnapshot.pnlBalanced_settle _ _ _ _ _ _ (hs a)
    · exact hs a

end Step

theorem exec_bookValue {s : MatchingEngine} (hs : s.Sound {}) {op : Op} {a : AccountId}
    (hstate : ∀ b symbol cash qty, op ≠ .setAccountState b symbol cash qty)
    (htouch : a = defaultAccountId → ¬ op.MayTouch s a) :
    Outcome op.exec s (fun _ s' => (s'.account a).bookValue = (s.account a).bookValue)
      fun _ s' => (s'.account a).bookValue = (s.account a).bookValue := by
  have hsound := hs.notToppedUp htouch
  have hguarded := op.guarded_notToppedUp htouch
  by_cases hsetting : op.isSetting
  · refine (Op.exec_setting hsetting s).mono (fun _ s' ⟨hunset, _⟩ => ?_) fun _ s' hsame => hsame.1 ▸ rfl
    rw [account_of_money (money_of_unset hunset)]
  · have hpath : ∀ {c : Config} {events : List Event},
        Path (Tick (notToppedUp a)) ⟨s, idle⟩ events c →
          c.Sound (notToppedUp a) ∧ (c.engine.account a).bookValue = (s.account a).bookValue :=
      fun h => h.invariant
        (I := fun d => d.Sound (notToppedUp a) ∧ (d.engine.account a).bookValue =
          (s.account a).bookValue)
        (fun hd hr => ⟨hr.sound hd.1, (hr.holdings hd.1).bookValue.trans hd.2⟩)
        ⟨⟨hsound, trivial⟩, rfl⟩
    refine (Op.exec_traces hsound hguarded hsetting hstate).mono (fun _ _ h => (hpath h).2) ?_
    rintro _ s' ⟨events, c, h, habort⟩
    obtain ⟨hc, hvalue⟩ := hpath h
    obtain ⟨more, hstep⟩ := habort.holdings hc
    exact hstep.bookValue.trans hvalue

theorem Reachable.pnlBalanced {s : MatchingEngine} (h : Reachable s) (a : AccountId) :
    (s.account a).PnlBalanced := by
  obtain ⟨ops, hrun⟩ := h
  refine hrun.tick_invariant (G := {}) (I := fun c => ∀ a, (c.engine.account a).PnlBalanced)
    (fun _ => Op.guarded_trivial _ _) (sound_fresh _) (fun a => ?_)
    (fun hc hI htick => (htick.holdings hc).pnlBalanced hI)
    (fun hc hI habort => ?_) (fun _ hsetup hs hI => ?_) a
  · exact (Finmap.total_empty _).symm
  · obtain ⟨events, hstep⟩ := habort.holdings hc
    exact hstep.pnlBalanced hI
  · rcases hsetup with hsetting | ⟨b, symbol, cash, qty, rfl⟩
    · refine (Op.exec_setting hsetting _).mono (fun _ s' ⟨hunset, _⟩ a => ?_)
        fun _ s' hsame => hsame.1 ▸ hI
      rw [account_of_money (money_of_unset hunset)]
      exact hI a
    · intro a
      rw [account_updateAccount]
      split_ifs
      · exact hI a
      · exact hI a

/-- The account has this much cash, no position, and has realized nothing. -/
structure AccountSnapshot.Opens (account : AccountSnapshot) (cash : ℤ) : Prop where
  cash : account.cashBalance = cash
  flat : ∀ symbol, account.position symbol = 0
  realized : account.realizedPnl = 0

theorem AccountSnapshot.Opens.bookValue {account : AccountSnapshot} {cash : ℤ}
    (h : account.Opens cash) : account.bookValue = cash := by
  have hbasis : account.costBasis = 0 := by
    refine Finmap.total_eq_zero _ fun symbol qty hqty => ?_
    have hflat := h.flat symbol
    simp only [position, Finmap.valueD, hqty, Option.getD_some] at hflat
    simp [hflat]
  rw [AccountSnapshot.bookValue, hbasis, h.cash, h.realized, add_zero, sub_zero]

/-- With a mark for every held symbol, the reported equity is book value and profit. -/
theorem totalEquity_eq {s : MatchingEngine} {a : AccountId}
    (hmarks : ∀ symbol, (s.account a).position symbol ≠ 0 → s.markPrice symbol ≠ none) :
    (s.performanceSnapshot a).totalEquity = (s.account a).bookValue +
      (s.performanceSnapshot a).realizedPnl + (s.performanceSnapshot a).unrealizedPnl := by
  cases hlookup : s.accounts.lookup a with
  | none =>
    have hfresh : s.account a = {} := by rw [account, Finmap.valueD, hlookup, Option.getD_none]
    rw [hfresh]
    simp [performanceSnapshot, hlookup, AccountSnapshot.bookValue, AccountSnapshot.costBasis]
  | some account =>
    have haccount : s.account a = account := by
      rw [MatchingEngine.account, Finmap.valueD, hlookup, Option.getD_some]
    rw [haccount] at hmarks ⊢
    have hsplit : (account.positionQtyBySymbol.total fun symbol (qty : ℤ) =>
          (s.markPrice symbol).elim 0 fun mark => mark * (qty : ℚ)) =
        (account.positionQtyBySymbol.total fun symbol (qty : ℤ) =>
          (s.markPrice symbol).elim 0 fun mark => (mark - account.averageCost symbol) * (qty : ℚ)) +
        account.costBasis := by
      rw [AccountSnapshot.costBasis, ← Finmap.total_add]
      refine Finmap.total_congr _ fun symbol qty hqty => ?_
      cases hmark : s.markPrice symbol with
      | none =>
        have hzero : qty = 0 := by
          by_contra hne
          refine hmarks symbol ?_ hmark
          rwa [AccountSnapshot.position, Finmap.valueD, hqty, Option.getD_some]
        simp [hzero]
      | some mark =>
        simp only [Option.elim_some]
        ring
    simp only [performanceSnapshot, hlookup, AccountSnapshot.bookValue]
    linear_combination hsplit

/-- The operations of a run leave account `a` to its trades: its state is not set, and it is
not topped up. -/
def LeavesToTrades (a : AccountId) (_ : List (Op × List Event)) (s : MatchingEngine) (op : Op) :
    Prop :=
  (∀ symbol cash qty, op ≠ .setAccountState a symbol cash qty) ∧
    (a = defaultAccountId → ¬ op.MayTouch s a)

theorem Run.bookValue {s s' : MatchingEngine} (hs : s.Sound {}) {a : AccountId}
    {ops : List (Op × List Event)} (h : Run (LeavesToTrades a) s ops s') :
    (s'.account a).bookValue = (s.account a).bookValue := by
  refine (h.invariant (I := fun s' => s'.Sound {} ∧
    (s'.account a).bookValue = (s.account a).bookValue) ⟨hs, rfl⟩ ?_).2
  rintro ops s₁ op ⟨hs₁, hvalue⟩ ⟨hstate, htouch⟩
  have hsound := Op.exec_sound hs₁ (Op.guarded_trivial op s₁)
  have hkept : Outcome op.exec s₁
      (fun _ s' => (s'.account a).bookValue = (s₁.account a).bookValue)
      fun _ s' => (s'.account a).bookValue = (s₁.account a).bookValue := by
    by_cases hset : ∃ b symbol cash qty, op = .setAccountState b symbol cash qty
    · obtain ⟨b, symbol, cash, qty, rfl⟩ := hset
      have hne : a ≠ b := fun heq => hstate symbol cash qty (by rw [heq])
      show ((s₁.updateAccount b _).account a).bookValue = _
      rw [account_updateAccount, if_neg hne]
    · exact exec_bookValue hs₁ (fun b symbol cash qty heq => hset ⟨b, symbol, cash, qty, heq⟩) htouch
  unfold Outcome at *
  cases hexec : op.exec s₁ with
  | ok events s' => rw [hexec] at hsound hkept; exact ⟨hsound, hkept.trans hvalue⟩
  | error e s' => rw [hexec] at hsound hkept; exact ⟨hsound, hkept.trans hvalue⟩

/-- The profit-and-loss identity of a state, and of what is reached from it. -/
structure ProfitAndLoss (s : MatchingEngine) : Prop where
  /-- No operation changes an account's book value, the top-up aside. -/
  kept : ∀ (a : AccountId) (op : Op), (∀ b symbol cash qty, op ≠ .setAccountState b symbol cash qty) →
    (a = defaultAccountId → ¬ op.MayTouch s a) →
    Outcome op.exec s (fun _ s' => (s'.account a).bookValue = (s.account a).bookValue)
      fun _ s' => (s'.account a).bookValue = (s.account a).bookValue
  balanced : ∀ a, (s.account a).PnlBalanced
  /-- Where position accounting divides to get an average cost, the divisor is not zero. -/
  divisor : ∀ (account : AccountSnapshot) (symbol : Symbol) (side : Side) (price qty : ℤ),
    let closed := (PositionUpdate.mk (account.position symbol) (account.averageCost symbol) 0
      qty).close side price
    0 < closed.remaining → closed.openedSize side ≠ 0
  /-- What an account that opens with `cash` in this state is worth later on. -/
  equity : ∀ (a : AccountId) (cash : ℤ) (ops : List (Op × List Event)) (s' : MatchingEngine),
    (s.account a).Opens cash → Run (LeavesToTrades a) s ops s' →
    (∀ symbol, (s'.account a).position symbol ≠ 0 → s'.markPrice symbol ≠ none) →
    (s'.performanceSnapshot a).totalEquity = cash + (s'.performanceSnapshot a).realizedPnl +
      (s'.performanceSnapshot a).unrealizedPnl

theorem profit_and_loss {s : MatchingEngine} (h : Reachable s) : ProfitAndLoss s where
  kept _ _ hstate htouch := exec_bookValue h.sound hstate htouch
  balanced := h.pnlBalanced
  divisor _ _ side price _ := PositionUpdate.openedSize_ne_zero side price _
  equity a cash ops s' hopens hrun hmarks := by
    rw [totalEquity_eq hmarks, hrun.bookValue h.sound, hopens.bookValue]

/-- Account 2 buys 8, sells 10 and is short, so that it adds, closes and flips. -/
def flipped : List Op :=
  [.setAccountState 1 "X" 1000 20, .setAccountState 2 "X" 1000 0,
    .setAccountRiskConfig 2 { allowShortSelling := true },
    .placeLimitOrder 1 "X" .ask 10 8 .gtc, .placeLimitOrder 2 "X" .bid 10 8 .gtc,
    .placeLimitOrder 1 "X" .bid 12 10 .gtc, .placeLimitOrder 2 "X" .ask 12 10 .gtc]

theorem profit_and_loss_flipped : ProfitAndLoss (fresh.applyAll flipped) := by
  have hreach := reachable_applyAll flipped
  exact profit_and_loss hreach

example : ((fresh.applyAll flipped).account 2).position "X" = -2 := by decide +kernel

end Tes
