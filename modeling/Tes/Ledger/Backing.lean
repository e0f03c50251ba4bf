import Tes.Ledger.Changes

/-! Every resting order has its owner's record, and what accounts reserve covers what their
orders have reserved, on every path of the engine. -/
namespace Tes
open OrderBook MatchingEngine Flight

/-- The record of a resting order's owner: it may show more than is left of the order. -/
structure OrderOwnership.Records (owner : OrderOwnership) (symbol : Symbol) (order : Order) :
    Prop where
  symbol : owner.symbol = symbol
  side : owner.side = order.side
  price : owner.price = order.price
  qty : totalRemainingQty order ≤ owner.qty

namespace MatchingEngine

/-- Every resting order has its owner's record. -/
def Owned (s : MatchingEngine) : Prop :=
  ∀ symbol id order, s.resting symbol id = some order →
    ∃ owner, s.orderOwnershipById.lookup id = some owner ∧ owner.Records symbol order

/-- What an account has reserved for the orders it owns; for quantity, on one symbol. -/
def ownedReserve (s : MatchingEngine) (kind : ReserveKind) (a : AccountId) (symbol : Symbol) : ℤ :=
  s.orderOwnershipById.total fun id owner =>
    if a = owner.accountId ∧ (kind = .qty → symbol = owner.symbol) then s.reserveOf kind id else 0

/-- No entry is negative, and accounts reserve at least what their orders have. -/
structure Funded (s : MatchingEngine) (kind : ReserveKind) : Prop where
  nonneg : ∀ id, 0 ≤ s.reserveOf kind id
  covers : ∀ a symbol, s.ownedReserve kind a symbol ≤ (s.account a).reserved symbol kind

theorem Funded.reserved_nonneg {s : MatchingEngine} {kind : ReserveKind} (h : s.Funded kind)
    (a : AccountId) (symbol : Symbol) : 0 ≤ (s.account a).reserved symbol kind := by
  refine le_trans (Finmap.total_nonneg _ fun id owner _ => ?_) (h.covers a symbol)
  split_ifs
  · exact h.nonneg id
  · exact le_rfl

/-- An amount as far as it counts for an account. -/
def attributed (kind : ReserveKind) (a : AccountId) (symbol : Symbol) (amount : ℤ) :
    Option OrderOwnership → ℤ
  | none => 0
  | some owner =>
    if a = owner.accountId ∧ (kind = .qty → symbol = owner.symbol) then amount else 0

/-- Where only one order's record and entry change, what its account has reserved changes by
them. -/
theorem ownedReserve_change {s s' : MatchingEngine} {kind : ReserveKind} (id : OrderId)
    (howners : ∀ id', id' ≠ id → s'.orderOwnershipById.lookup id' = s.orderOwnershipById.lookup id')
    (hentries : ∀ id', id' ≠ id → (s'.reserves kind).lookup id' = (s.reserves kind).lookup id')
    (a : AccountId) (symbol : Symbol) : s'.ownedReserve kind a symbol =
      s.ownedReserve kind a symbol -
        attributed kind a symbol (s.reserveOf kind id) (s.orderOwnershipById.lookup id) +
        attributed kind a symbol (s'.reserveOf kind id) (s'.orderOwnershipById.lookup id) := by
  have helim : ∀ (s : MatchingEngine), attributed kind a symbol (s.reserveOf kind id)
      (s.orderOwnershipById.lookup id) = (s.orderOwnershipById.lookup id).elim 0 fun owner =>
        if a = owner.accountId ∧ (kind = .qty → symbol = owner.symbol) then s.reserveOf kind id
        else 0 := fun s => by
    cases s.orderOwnershipById.lookup id <;> rfl
  rw [helim, helim]
  refine Finmap.total_change id howners fun id' hid owner => ?_
  rw [reserveOf_of_lookup (hentries id' hid)]

theorem ownedReserve_congr {s s' : MatchingEngine} {kind : ReserveKind}
    (howners : s'.orderOwnershipById = s.orderOwnershipById)
    (hentries : s'.reserves kind = s.reserves kind) (a : AccountId) (symbol : Symbol) :
    s'.ownedReserve kind a symbol = s.ownedReserve kind a symbol := by
  unfold ownedReserve reserveOf
  rw [howners, hentries]

/-! Owners' records. -/

theorem Owned.congr {s s' : MatchingEngine} (hs : s.Owned)
    (hresting : ∀ symbol id, s'.resting symbol id = s.resting symbol id)
    (howners : s'.orderOwnershipById = s.orderOwnershipById) : s'.Owned :=
  fun symbol id order horder => by
    rw [hresting] at horder
    rw [howners]
    exact hs symbol id order horder

theorem Owned.of_undisturbed {s s' : MatchingEngine} (hs : s.Owned) (h : s.Undisturbed s') :
    s'.Owned :=
  hs.congr h.resting h.owners

theorem Owned.make {aligned clean : Prop} {s s' : MatchingEngine} {symbol : Symbol} {maker : Order}
    {price traded taken fee : ℤ} (hs : s.Owned)
    (h : Makes aligned clean s s' symbol maker price traded taken fee) : s'.Owned := by
  obtain ⟨owner, howner, hrecord⟩ := hs symbol maker.id maker h.found
  intro symbol' id order horder
  rw [h.resting] at horder
  by_cases hid : id = maker.id
  · by_cases hsymbol : symbol' = symbol
    · rw [if_pos ⟨hsymbol, hid⟩] at horder
      have hleft := survivor_some horder
      obtain ⟨hfollows, -⟩ := h.owner owner howner hrecord.qty
      rw [hid]
      cases hafter : s'.orderOwnershipById.lookup maker.id with
      | none =>
        rw [hafter] at hfollows
        have hnone : survivor maker taken = none := hfollows
        rw [hnone] at horder
        cases horder
      | some owner' =>
        rw [hafter] at hfollows
        obtain ⟨heq, hqty⟩ := hfollows
        have hle := hqty (by rw [horder]; simp)
        refine ⟨owner', rfl, ?_⟩
        rw [heq]
        exact ⟨hrecord.symbol.trans hsymbol.symm, hrecord.side.trans hleft.side.symm,
          hrecord.price.trans hleft.price.symm, hleft.total.trans_le hle⟩
    · rw [if_neg fun hc => hsymbol hc.1, hid] at horder
      obtain ⟨owner', howner', hrecord'⟩ := hs symbol' maker.id order horder
      rw [howner] at howner'
      cases howner'
      exact absurd (hrecord'.symbol.symm.trans hrecord.symbol) hsymbol
  · rw [if_neg fun hc => hid hc.2] at horder
    rw [h.others id hid]
    exact hs symbol' id order horder

theorem Owned.rest {s s' : MatchingEngine} {t : Taker} (hs : s.Owned) (h : s.Rested s' t) :
    s'.Owned := by
  intro symbol id order horder
  rw [h.resting] at horder
  rw [h.owners]
  split_ifs at horder with hnew
  · cases horder
    obtain ⟨hsymbol, hid, -⟩ := hnew
    rw [if_pos hid]
    refine ⟨_, rfl, hsymbol.symm, ?_, ?_, ?_⟩
    · simp only [Taker.order, arrange_side]
    · simp only [Taker.order, arrange_price]
    · simp only [Taker.order, totalRemainingQty_arrange, le_refl]
  · have hid : id ≠ t.id := fun hid => by
      rw [hid, h.free] at horder
      cases horder
    rw [if_neg hid]
    exact hs symbol id order horder

theorem Owned.cancel {s s' : MatchingEngine} {id : OrderId} {owner : OrderOwnership} (hs : s.Owned)
    (h : s.Cancelled s' id owner) : s'.Owned := by
  intro symbol id' order horder
  rw [h.resting] at horder
  rw [h.owners]
  split_ifs at horder with hgone
  obtain ⟨owner', howner', hrecord⟩ := hs symbol id' order horder
  have hid : id' ≠ id := fun hid => by
    rw [hid, h.owned] at howner'
    cases howner'
    exact hgone ⟨hrecord.symbol.symm, hid⟩
  rw [if_neg hid]
  exact ⟨owner', howner', hrecord⟩

end MatchingEngine

theorem Change.owned {G : Guard} {aligned clean : Prop} {c c' : Config}
    (hc : c.engine.Owned) (h : Change G aligned clean c c') : c'.engine.Owned := by
  cases h with
  | still hstill hholdings => exact hc.of_undisturbed hstill
  | raise haccount hstill hraise => exact hc.of_undisturbed hstill
  | enter hadmits haccount hentry => exact hc
  | take hstill hpos hle hcross hsettled => exact hc.of_undisturbed hstill
  | make hmake => exact hc.make hmake
  | finish => exact hc
  | rest hrest => exact hc.rest hrest
  | drop => exact hc
  | cancel hcancel => exact hc.cancel hcancel

end Tes
