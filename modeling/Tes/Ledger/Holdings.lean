import Tes.Engine.Runs

/-! Holdings and reserves of an account: what reserving and releasing for an order moves,
and what it leaves alone. -/
namespace Tes
open MatchingEngine

/-- The three reserves an order can have. -/
inductive ReserveKind
  | cash
  | qty
  | shortMargin
  deriving DecidableEq, Repr

namespace AccountSnapshot

/-- The account's total of one reserve; only that of quantity depends on the symbol. -/
def reserved (account : AccountSnapshot) (symbol : Symbol) : ReserveKind → ℤ
  | .cash => account.reservedCash
  | .qty => account.reservedQty symbol
  | .shortMargin => account.reservedShortMargin

/-- Two records of an account that agree on all but reserves. -/
structure SameHoldings (a b : AccountSnapshot) : Prop where
  cash : b.cashBalance = a.cashBalance
  position : ∀ symbol, b.position symbol = a.position symbol
  averageCost : b.averageCostBySymbol = a.averageCostBySymbol
  realizedBySymbol : b.realizedPnlBySymbol = a.realizedPnlBySymbol
  realized : b.realizedPnl = a.realizedPnl

theorem SameHoldings.refl (a : AccountSnapshot) : a.SameHoldings a :=
  ⟨rfl, fun _ => rfl, rfl, rfl, rfl⟩

theorem SameHoldings.trans {a b c : AccountSnapshot} (h : a.SameHoldings b)
    (h' : b.SameHoldings c) : a.SameHoldings c :=
  ⟨h'.cash.trans h.cash, fun symbol => (h'.position symbol).trans (h.position symbol),
    h'.averageCost.trans h.averageCost, h'.realizedBySymbol.trans h.realizedBySymbol,
    h'.realized.trans h.realized⟩

theorem position_openSymbol (a : AccountSnapshot) (symbol symbol' : Symbol) :
    (a.openSymbol symbol).position symbol' = a.position symbol' := by
  unfold openSymbol position
  rw [Finmap.valueD_insert]
  split_ifs with h
  · rw [h]
  · rfl

theorem reserved_openSymbol (a : AccountSnapshot) (symbol symbol' : Symbol) (kind : ReserveKind) :
    (a.openSymbol symbol).reserved symbol' kind = a.reserved symbol' kind := by
  cases kind with
  | cash => rfl
  | shortMargin => rfl
  | qty =>
    unfold openSymbol reserved reservedQty
    dsimp only
    rw [Finmap.valueD_insert]
    split_ifs with h
    · rw [h]
    · rfl

end AccountSnapshot

namespace MatchingEngine

/-- The per-order reserves of one kind. -/
def reserves (s : MatchingEngine) : ReserveKind → Finmap fun _ : OrderId => ℤ
  | .cash => s.reservedCashByOrderId
  | .qty => s.reservedQtyByOrderId
  | .shortMargin => s.reservedShortMarginByOrderId

def reserveOf (s : MatchingEngine) (kind : ReserveKind) (id : OrderId) : ℤ :=
  (s.reserves kind).valueD id 0

/-- Every account has the holdings it had. -/
def SameHoldings (s s' : MatchingEngine) : Prop := ∀ a, (s.account a).SameHoldings (s'.account a)

theorem SameHoldings.trans {s s' s'' : MatchingEngine} (h : s.SameHoldings s')
    (h' : s'.SameHoldings s'') : s.SameHoldings s'' := fun a => (h a).trans (h' a)

theorem account_of_accounts {s s' : MatchingEngine} (h : s'.accounts = s.accounts)
    (a : AccountId) : s'.account a = s.account a := by
  rw [account, account, h]

theorem SameHoldings.of_accounts {s s' : MatchingEngine} (h : s'.accounts = s.accounts) :
    s.SameHoldings s' := fun a => account_of_accounts h a ▸ .refl _

theorem account_updateAccount (s : MatchingEngine) (a b : AccountId)
    (f : AccountSnapshot → AccountSnapshot) :
    (s.updateAccount a f).account b = if b = a then f (s.account b) else s.account b := by
  unfold updateAccount account
  rw [Finmap.valueD_insert]
  split_ifs with h
  · rw [h]
  · rfl

theorem reserved_touchAccount (s : MatchingEngine) (a b : AccountId) (symbol symbol' : Symbol)
    (kind : ReserveKind) : ((s.touchAccount a symbol).account b).reserved symbol' kind =
      (s.account b).reserved symbol' kind := by
  rw [touchAccount, account_updateAccount]
  split_ifs
  · cases kind <;> rfl
  · rfl
  · rfl

/-- From `s` to `s'` the reserves of the order `id`, of account `a` on `symbol`, move by
`delta`. Nothing else moves. -/
structure Moves (s s' : MatchingEngine) (a : AccountId) (symbol : Symbol) (id : OrderId)
    (delta : ReserveKind → ℤ) : Prop where
  holdings : s.SameHoldings s'
  frame : s'.frame = s.frame
  reserved : ∀ kind b symbol', (s'.account b).reserved symbol' kind =
    (s.account b).reserved symbol' kind +
      if b = a ∧ (kind = .qty → symbol' = symbol) then delta kind else 0
  entry : ∀ kind, s'.reserveOf kind id = s.reserveOf kind id + delta kind
  others : ∀ kind id', id' ≠ id → (s'.reserves kind).lookup id' = (s.reserves kind).lookup id'

/-- One reserve of the order `id`, of account `a` on `symbol`, moves by `delta`. -/
structure Shifts (s s' : MatchingEngine) (kind : ReserveKind) (a : AccountId) (symbol : Symbol)
    (id : OrderId) (delta : ℤ) : Prop where
  reserved : ∀ b symbol', (s'.account b).reserved symbol' kind =
    (s.account b).reserved symbol' kind + if b = a ∧ (kind = .qty → symbol' = symbol) then delta else 0
  entry : s'.reserveOf kind id = s.reserveOf kind id + delta
  others : ∀ id', id' ≠ id → (s'.reserves kind).lookup id' = (s.reserves kind).lookup id'

/-- Nothing moves. -/
structure Still (s s' : MatchingEngine) : Prop where
  holdings : s.SameHoldings s'
  frame : s'.frame = s.frame
  reserved : ∀ kind b symbol',
    (s'.account b).reserved symbol' kind = (s.account b).reserved symbol' kind
  entries : ∀ kind, s'.reserves kind = s.reserves kind

theorem reserves_of_money {s s' : MatchingEngine} (h : s'.money = s.money) (kind : ReserveKind) :
    s'.reserves kind = s.reserves kind := by
  cases kind with
  | cash => exact congrArg Money.reservedCash h
  | qty => exact congrArg Money.reservedQty h
  | shortMargin => exact congrArg Money.reservedShortMargin h

theorem Still.of_money {s s' : MatchingEngine} (hframe : s'.frame = s.frame)
    (h : s'.money = s.money) : s.Still s' where
  holdings := .of_accounts (accounts_of_money h)
  frame := hframe
  reserved kind b symbol' := by rw [account_of_accounts (accounts_of_money h)]
  entries := reserves_of_money h

theorem Still.refl (s : MatchingEngine) : s.Still s := .of_money rfl rfl

theorem Still.reserveOf {s s' : MatchingEngine} (h : s.Still s') (kind : ReserveKind)
    (id : OrderId) : s'.reserveOf kind id = s.reserveOf kind id := by
  rw [MatchingEngine.reserveOf, MatchingEngine.reserveOf, h.entries]

theorem Still.moves {s s' : MatchingEngine} (h : s.Still s') (a : AccountId) (symbol : Symbol)
    (id : OrderId) : s.Moves s' a symbol id fun _ => 0 where
  holdings := h.holdings
  frame := h.frame
  reserved kind b symbol' := by rw [h.reserved]; split_ifs <;> omega
  entry kind := by rw [h.reserveOf, add_zero]
  others kind id' _ := congrArg (Finmap.lookup id') (h.entries kind)

theorem Moves.shifts {s s' : MatchingEngine} {a : AccountId} {symbol : Symbol} {id : OrderId}
    {delta : ReserveKind → ℤ} (h : s.Moves s' a symbol id delta) (kind : ReserveKind) :
    s.Shifts s' kind a symbol id (delta kind) :=
  ⟨h.reserved kind, h.entry kind, h.others kind⟩

theorem Still.shifts {s s' : MatchingEngine} (h : s.Still s') (kind : ReserveKind) (a : AccountId)
    (symbol : Symbol) (id : OrderId) : s.Shifts s' kind a symbol id 0 :=
  (h.moves a symbol id).shifts kind

theorem Shifts.trans {s s' s'' : MatchingEngine} {kind : ReserveKind} {a : AccountId}
    {symbol : Symbol} {id : OrderId} {delta delta' : ℤ} (h : s.Shifts s' kind a symbol id delta)
    (h' : s'.Shifts s'' kind a symbol id delta') :
    s.Shifts s'' kind a symbol id (delta + delta') where
  reserved b symbol' := by
    rw [h'.reserved, h.reserved]
    split_ifs <;> omega
  entry := by
    have hfirst := h.entry
    have hsecond := h'.entry
    omega
  others id' hid := (h'.others id' hid).trans (h.others id' hid)

theorem Shifts.still {s s' s'' : MatchingEngine} {kind : ReserveKind} {a : AccountId}
    {symbol : Symbol} {id : OrderId} {delta : ℤ} (h : s.Shifts s' kind a symbol id delta)
    (h' : s'.Still s'') : s.Shifts s'' kind a symbol id delta := by
  simpa using h.trans (h'.shifts kind a symbol id)

theorem Moves.trans {s s' s'' : MatchingEngine} {a : AccountId} {symbol : Symbol} {id : OrderId}
    {delta delta' : ReserveKind → ℤ} (h : s.Moves s' a symbol id delta)
    (h' : s'.Moves s'' a symbol id delta') :
    s.Moves s'' a symbol id fun kind => delta kind + delta' kind where
  holdings := h.holdings.trans h'.holdings
  frame := h'.frame.trans h.frame
  reserved kind b symbol' := by
    rw [h'.reserved, h.reserved]
    split_ifs <;> omega
  entry kind := by
    have hfirst := h.entry kind
    have hsecond := h'.entry kind
    omega
  others kind id' hid := (h'.others kind id' hid).trans (h.others kind id' hid)

theorem Moves.still {s s' s'' : MatchingEngine} {a : AccountId} {symbol : Symbol} {id : OrderId}
    {delta : ReserveKind → ℤ} (h : s.Moves s' a symbol id delta) (h' : s'.Still s'') :
    s.Moves s'' a symbol id delta := by
  simpa using h.trans (h'.moves a symbol id)

theorem Still.then {s s' s'' : MatchingEngine} {a : AccountId} {symbol : Symbol} {id : OrderId}
    {delta : ReserveKind → ℤ} (h : s.Still s') (h' : s'.Moves s'' a symbol id delta) :
    s.Moves s'' a symbol id delta := by
  simpa using (h.moves a symbol id).trans h'

/-- A release: entries only go, and those it empties do go. -/
structure Releases (s s' : MatchingEngine) (a : AccountId) (symbol : Symbol) (id : OrderId)
    (delta : ReserveKind → ℤ) : Prop extends Moves s s' a symbol id delta where
  kept : ∀ kind, (s'.reserves kind).lookup id ≠ none → (s.reserves kind).lookup id ≠ none
  cleared : ∀ kind, (s'.reserves kind).lookup id = (s.reserves kind).lookup id ∨
    (s'.reserveOf kind id = 0 → (s'.reserves kind).lookup id = none)

theorem reserveOf_of_lookup {s s' : MatchingEngine} {kind : ReserveKind} {id : OrderId}
    (h : (s'.reserves kind).lookup id = (s.reserves kind).lookup id) :
    s'.reserveOf kind id = s.reserveOf kind id := by
  rw [reserveOf, reserveOf, Finmap.valueD, Finmap.valueD, h]

theorem Still.releases {s s' : MatchingEngine} (h : s.Still s') (a : AccountId) (symbol : Symbol)
    (id : OrderId) : s.Releases s' a symbol id fun _ => 0 where
  toMoves := h.moves a symbol id
  kept kind hsome := by rwa [h.entries] at hsome
  cleared kind := Or.inl (by rw [h.entries])

theorem Releases.trans {s s' s'' : MatchingEngine} {a : AccountId} {symbol : Symbol}
    {id : OrderId} {delta delta' : ReserveKind → ℤ} (h : s.Releases s' a symbol id delta)
    (h' : s'.Releases s'' a symbol id delta') :
    s.Releases s'' a symbol id fun kind => delta kind + delta' kind where
  toMoves := h.toMoves.trans h'.toMoves
  kept kind hsome := h.kept kind (h'.kept kind hsome)
  cleared kind := by
    rcases h'.cleared kind with hsame | hcleared
    · rcases h.cleared kind with hsame' | hcleared
      · exact Or.inl (hsame.trans hsame')
      · exact Or.inr fun hzero => hsame.trans (hcleared (reserveOf_of_lookup hsame ▸ hzero))
    · exact Or.inr hcleared

theorem Releases.still {s s' s'' : MatchingEngine} {a : AccountId} {symbol : Symbol}
    {id : OrderId} {delta : ReserveKind → ℤ} (h : s.Releases s' a symbol id delta)
    (h' : s'.Still s'') : s.Releases s'' a symbol id delta := by
  simpa using h.trans (h'.releases a symbol id)

/-- What is cleared stays cleared. -/
theorem Releases.clears {s s' : MatchingEngine} {a : AccountId} {symbol : Symbol} {id : OrderId}
    {delta : ReserveKind → ℤ} (h : s.Releases s' a symbol id delta) {kind : ReserveKind}
    (hclear : s.reserveOf kind id = 0 → (s.reserves kind).lookup id = none)
    (hzero : s'.reserveOf kind id = 0) : (s'.reserves kind).lookup id = none := by
  rcases h.cleared kind with hsame | hcleared
  · rw [hsame]
    exact hclear (reserveOf_of_lookup hsame ▸ hzero)
  · exact hcleared hzero

end MatchingEngine

/-- The amount `delta` for one kind of reserve. -/
def ReserveKind.only (kind : ReserveKind) (delta : ℤ) : ReserveKind → ℤ :=
  fun k => if k = kind then delta else 0

namespace AccountSnapshot

/-- The record after one reserve moves by `delta`. -/
def hold (account : AccountSnapshot) (symbol : Symbol) (delta : ℤ) : ReserveKind → AccountSnapshot
  | .cash => { account with reservedCash := account.reservedCash + delta }
  | .qty =>
    { account with
      reservedQtyBySymbol := account.reservedQtyBySymbol.insert symbol
        (account.reservedQty symbol + delta) }
  | .shortMargin => { account with reservedShortMargin := account.reservedShortMargin + delta }

theorem sameHoldings_hold (account : AccountSnapshot) (symbol : Symbol) (delta : ℤ)
    (kind : ReserveKind) : account.SameHoldings (account.hold symbol delta kind) := by
  cases kind <;> exact ⟨rfl, fun _ => rfl, rfl, rfl, rfl⟩

theorem reserved_hold (account : AccountSnapshot) (symbol symbol' : Symbol) (delta : ℤ)
    (kind k : ReserveKind) : (account.hold symbol delta kind).reserved symbol' k =
      account.reserved symbol' k + if k = .qty → symbol' = symbol then kind.only delta k else 0 := by
  unfold ReserveKind.only
  cases kind with
  | cash => cases k <;> simp [hold, reserved, reservedQty]
  | shortMargin => cases k <;> simp [hold, reserved, reservedQty]
  | qty =>
    cases k with
    | cash => simp [hold, reserved]
    | shortMargin => simp [hold, reserved]
    | qty =>
      simp only [hold, reserved, reservedQty, Finmap.valueD_insert, forall_const, if_true]
      split_ifs with h
      · rw [h]
      · omega

end AccountSnapshot

namespace MatchingEngine

theorem sameHoldings_of_hold {s s' : MatchingEngine} {a : AccountId} (symbol : Symbol)
    (delta : ℤ) (kind : ReserveKind)
    (h : s'.accounts =
      (s.updateAccount a fun account => account.hold symbol delta kind).accounts) :
    s.SameHoldings s' := fun b => by
  rw [account_of_accounts h, account_updateAccount]
  split_ifs
  · exact AccountSnapshot.sameHoldings_hold _ _ _ _
  · exact .refl _

/-- A reserve moves on the account's record and on the order's entry by the same amount. -/
theorem moves_of_hold {s s' : MatchingEngine} {kind : ReserveKind} {a : AccountId}
    {symbol : Symbol} {id : OrderId} {delta : ℤ}
    (haccounts : s'.accounts =
      (s.updateAccount a fun account => account.hold symbol delta kind).accounts)
    (hframe : s'.frame = s.frame) (hentry : s'.reserveOf kind id = s.reserveOf kind id + delta)
    (hsame : ∀ k id', (k = kind → id' ≠ id) →
      (s'.reserves k).lookup id' = (s.reserves k).lookup id') :
    s.Moves s' a symbol id (kind.only delta) where
  holdings := sameHoldings_of_hold _ _ _ haccounts
  frame := hframe
  reserved k b symbol' := by
    rw [account_of_accounts haccounts, account_updateAccount]
    by_cases hb : b = a
    · rw [if_pos hb, AccountSnapshot.reserved_hold]
      simp only [hb, true_and]
    · rw [if_neg hb]
      simp only [hb, false_and, if_false, add_zero]
  entry k := by
    unfold ReserveKind.only
    split_ifs with hk
    · rw [hk, hentry]
    · rw [add_zero]
      exact reserveOf_of_lookup (hsame k id fun h => absurd h hk)
  others k id' hid := hsame k id' fun _ => hid

theorem valueD_reduceEntry (m : Finmap fun _ : OrderId => ℤ) (id : OrderId) (left : ℤ) :
    (reduceEntry m id left).valueD id 0 = left := by
  unfold reduceEntry
  split_ifs with h
  · rw [Finmap.valueD_erase, if_pos rfl, h]
  · rw [Finmap.valueD_insert, if_pos rfl]

theorem lookup_reduceEntry_of_ne {m : Finmap fun _ : OrderId => ℤ} {id id' : OrderId} {left : ℤ}
    (h : id' ≠ id) : (reduceEntry m id left).lookup id' = m.lookup id' := by
  unfold reduceEntry
  split_ifs
  · exact Finmap.lookup_erase_ne h
  · exact Finmap.lookup_insert_of_ne m h

theorem boundedRelease_zero (qty before : ℤ) : boundedRelease 0 qty before = 0 := by
  unfold boundedRelease Rounding.ceilShare
  split_ifs <;> simp

theorem reserveOf_of_none {s : MatchingEngine} {kind : ReserveKind} {id : OrderId}
    (h : (s.reserves kind).lookup id = none) : s.reserveOf kind id = 0 := by
  rw [reserveOf, Finmap.valueD, h, Option.getD_none]

theorem reserveOf_of_some {s : MatchingEngine} {kind : ReserveKind} {id : OrderId} {reserved : ℤ}
    (h : (s.reserves kind).lookup id = some reserved) : s.reserveOf kind id = reserved := by
  rw [reserveOf, Finmap.valueD, h, Option.getD_some]

/-- A release from the entry `reserved` of an order, on its account and its entry. -/
theorem releases_of_reduce {s s' : MatchingEngine} {kind : ReserveKind} {a : AccountId}
    {symbol : Symbol} {id : OrderId} {reserved release : ℤ}
    (h : (s.reserves kind).lookup id = some reserved)
    (haccounts : s'.accounts =
      (s.updateAccount a fun account => account.hold symbol (-release) kind).accounts)
    (hframe : s'.frame = s.frame)
    (hentry : s'.reserves kind = reduceEntry (s.reserves kind) id (reserved - release))
    (hothers : ∀ k, k ≠ kind → s'.reserves k = s.reserves k) :
    s.Releases s' a symbol id (kind.only (-release)) := by
  have hleft : s'.reserveOf kind id = reserved - release := by
    rw [reserveOf, hentry, valueD_reduceEntry]
  have hold := reserveOf_of_some h
  refine ⟨moves_of_hold haccounts hframe (by omega) fun k id' hid => ?_, fun k hk => ?_,
    fun k => ?_⟩
  · by_cases hk : k = kind
    · rw [hk, hentry]
      exact lookup_reduceEntry_of_ne (hid hk)
    · rw [hothers k hk]
  · by_cases heq : k = kind
    · rw [heq, h]
      simp
    · rwa [hothers k heq] at hk
  · by_cases heq : k = kind
    · refine Or.inr fun hzero => ?_
      rw [heq] at hzero ⊢
      have hempty : reserved - release = 0 := by omega
      rw [hentry, hempty, reduceEntry, if_pos rfl, Finmap.lookup_erase]
    · exact Or.inl (by rw [hothers k heq])

section Release
variable (s : MatchingEngine) (a : AccountId) (symbol : Symbol) (id : OrderId)

theorem Still.releases_only {s s' : MatchingEngine} (h : s.Still s') (a : AccountId)
    (symbol : Symbol) (id : OrderId) (kind : ReserveKind) :
    s.Releases s' a symbol id (kind.only 0) := by
  have hzero : kind.only 0 = fun _ => 0 := by
    funext k
    unfold ReserveKind.only
    split_ifs <;> rfl
  rw [hzero]
  exact h.releases a symbol id

theorem releaseQty_releases {qty : ℤ} (hqty : 0 ≤ qty) :
    s.Releases (s.releaseQty a symbol id qty) a symbol id
      (ReserveKind.qty.only (-(min (s.reserveOf .qty id) qty))) := by
  unfold releaseQty
  cases h : s.reservedQtyByOrderId.lookup id with
  | none =>
    have hzero : s.reserveOf .qty id = 0 := reserveOf_of_none h
    rw [hzero, min_eq_left hqty, neg_zero]
    exact (Still.refl s).releases_only _ _ _ _
  | some reserved =>
    have hentry : s.reserveOf .qty id = reserved := reserveOf_of_some h
    rw [hentry]
    refine releases_of_reduce h rfl rfl rfl fun k hk => ?_
    cases k <;> first | exact absurd rfl hk | rfl

theorem releaseCash_releases (qty before : ℤ) :
    s.Releases (s.releaseCash a id qty before) a symbol id
      (ReserveKind.cash.only (-(boundedRelease (s.reserveOf .cash id) qty before))) := by
  unfold releaseCash
  cases h : s.reservedCashByOrderId.lookup id with
  | none =>
    have hzero : s.reserveOf .cash id = 0 := reserveOf_of_none h
    rw [hzero, boundedRelease_zero, neg_zero]
    exact (Still.refl s).releases_only _ _ _ _
  | some reserved =>
    have hentry : s.reserveOf .cash id = reserved := reserveOf_of_some h
    rw [hentry]
    refine releases_of_reduce h rfl rfl rfl fun k hk => ?_
    cases k <;> first | exact absurd rfl hk | rfl

theorem releaseShortMargin_releases (qty before : ℤ) :
    s.Releases (s.releaseShortMargin a id qty before) a symbol id
      (ReserveKind.shortMargin.only (-(boundedRelease (s.reserveOf .shortMargin id) qty before))) := by
  unfold releaseShortMargin
  cases h : s.reservedShortMarginByOrderId.lookup id with
  | none =>
    have hzero : s.reserveOf .shortMargin id = 0 := reserveOf_of_none h
    rw [hzero, boundedRelease_zero, neg_zero]
    exact (Still.refl s).releases_only _ _ _ _
  | some reserved =>
    have hentry : s.reserveOf .shortMargin id = reserved := reserveOf_of_some h
    rw [hentry]
    refine releases_of_reduce h rfl rfl rfl fun k hk => ?_
    cases k <;> first | exact absurd rfl hk | rfl

end Release
end MatchingEngine
end Tes
