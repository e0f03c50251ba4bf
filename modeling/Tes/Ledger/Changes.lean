import Mathlib.Logic.Relation
import Tes.Ledger.Trades

/-! What a tick does to resting orders, their owners and their reserves, told as changes
that each concern one account and one order. -/
namespace Tes
open OrderBook MatchingEngine Flight

namespace MatchingEngine

/-- The resting order of an id in the book of a symbol. -/
def resting (s : MatchingEngine) (symbol : Symbol) (id : OrderId) : Option Order :=
  (s.bookFor symbol).findOrder id

/-- Orders, owners and reserves stay as they are. -/
structure Undisturbed (s s' : MatchingEngine) : Prop where
  resting : ∀ symbol id, s'.resting symbol id = s.resting symbol id
  owners : s'.orderOwnershipById = s.orderOwnershipById
  reserved : ∀ kind b symbol,
    (s'.account b).reserved symbol kind = (s.account b).reserved symbol kind
  entries : ∀ kind, s'.reserves kind = s.reserves kind
  settings : s.SameSettings s'

/-- The account `a` alone gains cash and a position. -/
structure Settled (s s' : MatchingEngine) (a : AccountId) (symbol : Symbol) (cash qty : ℤ) :
    Prop where
  cash : ∀ b, (s'.account b).cashBalance = (s.account b).cashBalance + if b = a then cash else 0
  position : ∀ b symbol', (s'.account b).position symbol' =
    (s.account b).position symbol' + if b = a ∧ symbol' = symbol then qty else 0

/-- What a fill may leave of the record of an order's owner: the record goes with the
order, or shows at least what is left of it. -/
def Follows (owner : OrderOwnership) (maker : Order) (traded : ℤ) : Option OrderOwnership → Prop
  | none => survivor maker traded = none
  | some owner' => owner' = { owner with qty := owner'.qty } ∧
      (survivor maker traded ≠ none → totalRemainingQty maker - traded ≤ owner'.qty)

/-- What is left of the record when it shows the whole order and follows the fill. -/
def followed (owner : OrderOwnership) (maker : Order) (traded : ℤ) : Option OrderOwnership :=
  if survivor maker traded = none then none
  else some { owner with qty := totalRemainingQty maker - traded }

/-- The resting order `maker` trades `traded` at `price` and gives up `taken`, less only
where it is used up. Where `aligned` holds the two are one; where `clean` holds, its
owner's record follows. -/
structure Makes (aligned clean : Prop) (s s' : MatchingEngine) (symbol : Symbol) (maker : Order)
    (price traded taken fee : ℤ) : Prop where
  found : s.resting symbol maker.id = some maker
  wellFormed : maker.WellFormed
  pos : 0 < taken
  le : taken ≤ available maker
  covers : taken = traded ∨ taken < traded ∧ survivor maker taken = none
  exact : aligned → taken = traded
  better : crosses maker.side maker.price price
  charged : ∃ asMaker, fee = s.feeForNotional (price * traded) asMaker
  settled : s.Settled s' (s.ownerAccountId maker.id) symbol
    (-(maker.side.signed (price * traded)) - fee) (maker.side.signed traded)
  resting : ∀ symbol' id, s'.resting symbol' id =
    if symbol' = symbol ∧ id = maker.id then survivor maker taken else s.resting symbol' id
  shifts : ∀ kind, s.Shifts s' kind (s.ownerAccountId maker.id) symbol maker.id
    (s.makerDelta maker.side maker.id traded (s.ownedQty maker.id traded) kind)
  kept : ∀ kind, (s'.reserves kind).lookup maker.id ≠ none → (s.reserves kind).lookup maker.id ≠ none
  clears : ∀ kind, kind.side = maker.side → s'.reserveOf kind maker.id = 0 →
    (s'.reserves kind).lookup maker.id = none
  others : ∀ id, id ≠ maker.id → s'.orderOwnershipById.lookup id = s.orderOwnershipById.lookup id
  owner : ∀ owner, s.orderOwnershipById.lookup maker.id = some owner →
    totalRemainingQty maker ≤ owner.qty →
    Follows owner maker taken (s'.orderOwnershipById.lookup maker.id) ∧
      (clean → taken = traded → owner.qty = totalRemainingQty maker →
        s'.orderOwnershipById.lookup maker.id = followed owner maker taken)
  settings : s.SameSettings s'

/-- The remainder of an order comes to rest. -/
structure Rested (s s' : MatchingEngine) (t : Taker) : Prop where
  valid : t.Valid
  pos : 0 < t.remaining
  free : ∀ symbol, s.resting symbol t.id = none
  holdings : s.SameHoldings s'
  resting : ∀ symbol id, s'.resting symbol id =
    if symbol = t.symbol ∧ id = t.id ∧ ¬ t.refused then some t.order else s.resting symbol id
  sets : ∀ kind, s.Sets s' kind t.accountId t.symbol t.id (t.reserve s kind)
  leaves : ∀ kind, kind.side ≠ t.side → s'.reserves kind = s.reserves kind
  owners : ∀ id, s'.orderOwnershipById.lookup id =
    if id = t.id then
      some ⟨t.accountId, t.symbol, t.side, t.price, t.remaining, t.visibility, t.displayQty⟩
    else s.orderOwnershipById.lookup id
  settings : s.SameSettings s'

/-- A resting order is cancelled. -/
structure Cancelled (s s' : MatchingEngine) (id : OrderId) (owner : OrderOwnership) : Prop where
  owned : s.orderOwnershipById.lookup id = some owner
  holdings : s.SameHoldings s'
  resting : ∀ symbol id', s'.resting symbol id' =
    if symbol = owner.symbol ∧ id' = id then none else s.resting symbol id'
  shifts : ∀ kind, s.Shifts s' kind owner.accountId owner.symbol id (-(s.reserveOf kind id))
  cleared : ∀ kind, (s'.reserves kind).lookup id = none
  owners : ∀ id', s'.orderOwnershipById.lookup id' =
    if id' = id then none else s.orderOwnershipById.lookup id'
  settings : s.SameSettings s'

end MatchingEngine

/-- One change. Where `aligned` holds, auction trades settle what the book gives up; where
`clean` holds, owners' records follow every fill. -/
inductive Change (G : Guard) (aligned clean : Prop) : Config → Config → Prop
  | still {s s' : MatchingEngine} {flight : Flight} :
      s.Undisturbed s' → s.SameHoldings s' → Change G aligned clean ⟨s, flight⟩ ⟨s', flight⟩
  /-- The top-up of an account. -/
  | raise {s s' : MatchingEngine} {a : AccountId} : G.account a → s.Undisturbed s' →
      (∀ b, (s.account b).cashBalance ≤ (s'.account b).cashBalance ∧
        ∀ symbol, (s.account b).position symbol ≤ (s'.account b).position symbol) →
      Change G aligned clean ⟨s, idle⟩ ⟨s', idle⟩
  | enter {s : MatchingEngine} {t : Taker} :
      s.Admits t → G.account t.accountId → G.entry s t →
      Change G aligned clean ⟨s, idle⟩ ⟨s, matching t⟩
  /-- The taker's part of a fill. -/
  | take {s s' : MatchingEngine} {t : Taker} {price traded : ℤ} :
      s.Undisturbed s' → 0 < traded → traded ≤ t.remaining → crosses t.side t.price price →
      s.Settled s' t.accountId t.symbol
        (-(t.side.signed (price * traded)) - s.feeForNotional (price * traded) false)
        (t.side.signed traded) →
      Change G aligned clean ⟨s, matching t⟩ ⟨s', matching { t with remaining := t.remaining - traded }⟩
  /-- The maker's part. -/
  | make {s s' : MatchingEngine} {flight : Flight} {symbol : Symbol} {maker : Order}
      {price traded taken fee : ℤ} : Makes aligned clean s s' symbol maker price traded taken fee →
      Change G aligned clean ⟨s, flight⟩ ⟨s', flight⟩
  | finish {s : MatchingEngine} {t : Taker} : Change G aligned clean ⟨s, matching t⟩ ⟨s, matched t⟩
  | rest {s s' : MatchingEngine} {t : Taker} : s.Rested s' t →
      Change G aligned clean ⟨s, matched t⟩ ⟨s', idle⟩
  | drop {s : MatchingEngine} {flight : Flight} : Change G aligned clean ⟨s, flight⟩ ⟨s, idle⟩
  | cancel {s s' : MatchingEngine} {id : OrderId} {owner : OrderOwnership} :
      s.Cancelled s' id owner → Change G aligned clean ⟨s, idle⟩ ⟨s', idle⟩

namespace MatchingEngine

theorem resting_of_frame {s s' : MatchingEngine} (h : s'.frame = s.frame) (symbol : Symbol)
    (id : OrderId) : s'.resting symbol id = s.resting symbol id := by
  rw [resting, resting, bookFor_of_frame h]

theorem Undisturbed.of_still {s s' : MatchingEngine} (h : s.Still s') : s.Undisturbed s' where
  resting := resting_of_frame h.frame
  owners := owners_of_frame h.frame
  reserved := h.reserved
  entries := h.entries
  settings := .of_frame h.frame

/-- A change of the state that leaves books, owners, accounts, reserves and settings. -/
theorem undisturbed_of_same {s s' : MatchingEngine} (hbooks : s'.books = s.books)
    (howners : s'.orderOwnershipById = s.orderOwnershipById) (hmoney : s'.money = s.money)
    (hsettings : s.SameSettings s') : s.Undisturbed s' where
  resting symbol id := by rw [resting, resting, bookFor, bookFor, hbooks]
  owners := howners
  reserved kind b symbol := by rw [account_of_money hmoney]
  entries := reserves_of_money hmoney
  settings := hsettings

/-- One account settles. -/
theorem settled_of_settle {s s' : MatchingEngine} {a : AccountId} {symbol : Symbol} {side : Side}
    {price qty fee : ℤ} (hqty : 0 ≤ qty)
    (h : (s.updateAccount a fun account =>
      account.settle symbol side price qty fee).SameHoldings s') :
    s.Settled s' a symbol (-(side.signed (price * qty)) - fee) (side.signed qty) where
  cash b := by
    rw [(h b).cash, account_updateAccount]
    split_ifs
    · rw [AccountSnapshot.cashBalance_settle]
      omega
    · omega
  position b symbol' := by
    rw [(h b).position, account_updateAccount]
    by_cases hb : b = a
    · rw [if_pos hb, AccountSnapshot.position_settle _ _ _ _ _ _ _ hqty]
      simp only [hb, true_and]
    · rw [if_neg hb]
      simp only [hb, false_and, if_false, add_zero]

theorem reserved_updateAccount_settle (s : MatchingEngine) (a b : AccountId) (symbol symbol' : Symbol)
    (side : Side) (price qty fee : ℤ) (kind : ReserveKind) :
    ((s.updateAccount a fun account => account.settle symbol side price qty fee).account b).reserved
      symbol' kind = (s.account b).reserved symbol' kind := by
  rw [account_updateAccount]
  split_ifs
  · exact AccountSnapshot.reserved_settle _ _ _ _ _ _ _ _
  · rfl

/-! Owners' records after a fill. -/

theorem lookup_updateOwner (s : MatchingEngine) (fill : FillResult) (id : OrderId) :
    (s.updateOwner fill).orderOwnershipById.lookup id =
      if id = fill.makerId then (s.orderOwnershipById.lookup id).bind fun owner =>
        if fill.makerFilled then none else some { owner with qty := fill.makerRemainingQty }
      else s.orderOwnershipById.lookup id := by
  unfold updateOwner
  cases howner : s.orderOwnershipById.lookup fill.makerId with
  | none =>
    by_cases hid : id = fill.makerId
    · rw [if_pos hid, hid, howner]
      rfl
    · rw [if_neg hid]
  | some owner =>
    dsimp only
    by_cases hfilled : fill.makerFilled = true
    · rw [if_pos hfilled, Finmap.lookup_erase_ite]
      split_ifs with hid
      · rw [hid, howner]
        rfl
      · rfl
    · rw [if_neg hfilled, Finmap.lookup_insert_ite]
      split_ifs with hid
      · rw [hid, howner]
        rfl
      · rfl

theorem lookup_reduceOwner (s : MatchingEngine) (id id' : OrderId) (qty : ℤ) :
    (s.reduceOwner id qty).orderOwnershipById.lookup id' =
      if id' = id then (s.orderOwnershipById.lookup id').bind fun owner =>
        if owner.qty - qty = 0 then none else some { owner with qty := owner.qty - qty }
      else s.orderOwnershipById.lookup id' := by
  unfold reduceOwner
  cases howner : s.orderOwnershipById.lookup id with
  | none =>
    by_cases hid : id' = id
    · rw [if_pos hid, hid, howner]
      rfl
    · rw [if_neg hid]
  | some owner =>
    dsimp only
    by_cases hzero : owner.qty - qty = 0
    · rw [if_pos hzero, Finmap.lookup_erase_ite]
      split_ifs with hid
      · rw [hid, howner, Option.bind_some, if_pos hzero]
      · rfl
    · rw [if_neg hzero, Finmap.lookup_insert_ite]
      split_ifs with hid
      · rw [hid, howner, Option.bind_some, if_neg hzero]
      · rfl

/-- A record that stays follows, though not exactly. -/
theorem follows_self {owner : OrderOwnership} {maker : Order} {traded : ℤ} (hpos : 0 ≤ traded)
    (hle : totalRemainingQty maker ≤ owner.qty) : Follows owner maker traded (some owner) :=
  ⟨rfl, fun _ => by omega⟩

theorem follows_update {book book' : OrderBook} {side : Side} {qty : ℤ} {fill : FillResult}
    {maker : Order} {rest : List Order} (h : FillStep book book' side qty fill maker rest)
    (owner : OrderOwnership) :
    (if fill.makerFilled then none else some { owner with qty := fill.makerRemainingQty }) =
      followed owner maker fill.qty ∧ Follows owner maker fill.qty (followed owner maker fill.qty) := by
  unfold followed
  rw [h.makerRemainingQty]
  constructor
  · by_cases hnone : survivor maker fill.qty = none
    · rw [if_pos hnone, if_pos (h.makerFilled.mpr hnone)]
    · rw [if_neg hnone, if_neg (h.makerFilled.not.mpr hnone)]
  · split_ifs with hnone
    · exact hnone
    · exact ⟨rfl, fun _ => le_rfl⟩

theorem follows_reduce {owner : OrderOwnership} {maker : Order} {traded taken : ℤ}
    (htaken : taken ≤ totalRemainingQty maker) (hle : totalRemainingQty maker ≤ owner.qty)
    (hcovers : taken = traded ∨ taken < traded ∧ survivor maker taken = none) :
    Follows owner maker taken
        (if owner.qty - traded = 0 then none else some { owner with qty := owner.qty - traded }) ∧
      (taken = traded → owner.qty = totalRemainingQty maker →
        (if owner.qty - traded = 0 then none else some { owner with qty := owner.qty - traded }) =
          followed owner maker taken) := by
  unfold followed
  have hnone := @survivor_eq_none maker taken
  constructor
  · split_ifs with hzero
    · rcases hcovers with heq | ⟨-, hgone⟩
      · exact hnone.mpr (by omega)
      · exact hgone
    · refine ⟨rfl, fun hleft => ?_⟩
      rcases hcovers with heq | ⟨-, hgone⟩
      · dsimp only
        omega
      · exact absurd hgone hleft
  · intro htraded hexact
    rw [hexact, ← htraded]
    by_cases hzero : totalRemainingQty maker - taken = 0
    · rw [if_pos hzero, if_pos (hnone.mpr (by omega))]
    · rw [if_neg hzero, if_neg fun h => hzero (by have := hnone.mp h; omega)]

/-! The maker's part of a fill. -/

/-- The account of the maker settles against the book the fill leaves behind. -/
def makerPaid (s : MatchingEngine) (symbol : Symbol) (book : OrderBook) (maker : Order)
    (price traded fee : ℤ) : MatchingEngine :=
  (s.setBook symbol book).updateAccount (s.ownerAccountId maker.id) fun account =>
    account.settle symbol maker.side price traded fee

/-- The maker settles, its reserves are released, and its record follows. -/
theorem makes_of_fill {aligned clean : Prop} {s r s' : MatchingEngine} {symbol : Symbol}
    {book : OrderBook} {side : Side} {qty : ℤ} {fill : FillResult} {maker : Order}
    {rest : List Order} {price traded fee : ℤ}
    (hfill : FillStep (s.bookFor symbol) book side qty fill maker rest)
    (hcovers : fill.qty = traded ∨ fill.qty < traded ∧ survivor maker fill.qty = none)
    (hexact : aligned → fill.qty = traded) (hbetter : crosses maker.side maker.price price)
    (hcharged : ∃ asMaker, fee = s.feeForNotional (price * traded) asMaker)
    (hfree : (s.makerPaid symbol book maker price traded fee).Frees r
      (s.ownerAccountId maker.id) symbol maker.side maker.id
      (s.makerDelta maker.side maker.id traded (s.ownedQty maker.id traded)))
    (hbooks : s'.books = r.books) (haccounts : s'.accounts = r.accounts)
    (hreserves : ∀ kind, s'.reserves kind = r.reserves kind) (hsettings : r.SameSettings s')
    (hothers : ∀ id, id ≠ maker.id →
      s'.orderOwnershipById.lookup id = s.orderOwnershipById.lookup id)
    (howner : ∀ owner, s.orderOwnershipById.lookup maker.id = some owner →
      totalRemainingQty maker ≤ owner.qty →
      Follows owner maker fill.qty (s'.orderOwnershipById.lookup maker.id) ∧
        (clean → fill.qty = traded → owner.qty = totalRemainingQty maker →
          s'.orderOwnershipById.lookup maker.id = followed owner maker fill.qty)) :
    Makes aligned clean s s' symbol maker price traded fill.qty fee where
  found := hfill.found
  wellFormed := hfill.placed.wellFormed
  pos := hfill.fill_qty_pos
  le := hfill.fill_qty_le_available
  covers := hcovers
  exact := hexact
  better := hbetter
  charged := hcharged
  settled := by
    have hpaid : (s.updateAccount (s.ownerAccountId maker.id) fun account =>
        account.settle symbol maker.side price traded fee).SameHoldings s' :=
      ((SameHoldings.of_accounts rfl).trans hfree.holdings).trans (.of_accounts haccounts)
    have hpos := hfill.fill_qty_pos
    exact settled_of_settle (by omega) hpaid
  resting symbol' id := by
    have hbook : s'.bookFor symbol' = if symbol' = symbol then book else s.bookFor symbol' := by
      rw [bookFor, hbooks, ← bookFor, bookFor_of_frame hfree.frame]
      exact bookFor_setBook s symbol symbol' book
    rw [resting, hbook]
    by_cases hsymbol : symbol' = symbol
    · rw [if_pos hsymbol, hfill.findOrder_after, hsymbol]
      simp only [true_and]
      rfl
    · rw [if_neg hsymbol, if_neg fun h => hsymbol h.1]
      rfl
  shifts kind := by
    have hshift := hfree.shifts kind
    refine ⟨fun b symbol' => ?_, ?_, fun id' hid => ?_⟩
    · rw [account_of_accounts haccounts, hshift.reserved, makerPaid,
        reserved_updateAccount_settle]
      rfl
    · rw [reserveOf, hreserves, ← reserveOf, hshift.entry]
      cases kind <;> rfl
    · rw [hreserves, hshift.others id' hid]
      cases kind <;> rfl
  kept kind hsome := by
    rw [hreserves] at hsome
    have hold := hfree.kept kind hsome
    cases kind <;> exact hold
  clears kind hside hzero := by
    rw [reserveOf, hreserves, ← reserveOf] at hzero
    rw [hreserves]
    exact hfree.clears kind hside hzero
  others := hothers
  owner := howner
  settings := ((sameSettings_setBook s symbol book).trans (.of_frame hfree.frame)).trans hsettings

/-! The changes of a fill. -/

/-- The taker's account has settled; the maker's has not. -/
def takerPaid (s : MatchingEngine) (t : Taker) (price traded : ℤ) : MatchingEngine :=
  s.updateAccount t.accountId fun account =>
    account.settle t.symbol t.side price traded (s.feeForNotional (price * traded) false)

theorem takerPaid_take {G : Guard} (aligned clean : Prop) (s : MatchingEngine) {t : Taker} {price traded : ℤ}
    (hpos : 0 < traded) (hle : traded ≤ t.remaining) (hcross : crosses t.side t.price price) :
    Change G aligned clean ⟨s, matching t⟩
      ⟨s.takerPaid t price traded, matching { t with remaining := t.remaining - traded }⟩ := by
  refine .take ⟨fun _ _ => rfl, rfl, fun kind b symbol => ?_, fun kind => ?_, ⟨rfl, rfl, rfl⟩⟩
    hpos hle hcross (settled_of_settle hpos.le (.of_accounts rfl))
  · exact reserved_updateAccount_settle _ _ _ _ _ _ _ _ _ _
  · cases kind <;> rfl

theorem paid_eq {s : MatchingEngine} {t : Taker} {fill : FillResult} {book book' : OrderBook}
    {maker : Order} {rest : List Order}
    (hfill : FillStep (s.bookFor t.symbol) book t.side.opposite t.remaining fill maker rest) :
    s.paid t fill book' = (s.takerPaid t maker.price fill.qty).makerPaid t.symbol book' maker
      maker.price fill.qty (s.feeForNotional (maker.price * fill.qty) true) := by
  unfold paid makerPaid
  rw [hfill.price, hfill.makerId, hfill.placed.side]
  rfl

/-- After the taker's part, a fill is the maker's, whether the maker's record follows or not. -/
theorem fill_makes {aligned clean : Prop} {s r : MatchingEngine} (s' : MatchingEngine)
    {t : Taker} {fill : FillResult} {book : OrderBook} (hb : (s.bookFor t.symbol).WellFormed)
    (hnext : s.nextFill t = some (fill, book))
    (hfree : (s.paid t fill book).Frees r (s.ownerAccountId fill.makerId) t.symbol
      t.side.opposite fill.makerId (s.makerDelta t.side.opposite fill.makerId fill.qty (s.ownedQty fill.makerId fill.qty)))
    (howners : r.orderOwnershipById = s.orderOwnershipById)
    (hbooks : s'.books = r.books) (haccounts : s'.accounts = r.accounts)
    (hreserves : ∀ kind, s'.reserves kind = r.reserves kind) (hsettings : r.SameSettings s')
    (howner : s' = r.updateOwner fill ∨
      ¬ clean ∧ s'.orderOwnershipById = r.orderOwnershipById) :
    ∃ maker : Order, maker.id = fill.makerId ∧ crosses t.side t.price maker.price ∧
      0 < fill.qty ∧ fill.qty ≤ t.remaining ∧
      Makes aligned clean (s.takerPaid t maker.price fill.qty) s' t.symbol maker maker.price
        fill.qty fill.qty (s.feeForNotional (maker.price * fill.qty) true) := by
  obtain ⟨maker, rest, hfill, hcross⟩ := nextFill_some hb hnext
  have hstep := hfill.toFillStep
  refine ⟨maker, hstep.makerId.symm, hcross, hstep.fill_qty_pos, hstep.fill_qty_le, ?_⟩
  rw [hstep.makerId, paid_eq hstep, ← hstep.placed.side] at hfree
  refine makes_of_fill hstep (Or.inl rfl) (fun _ => rfl) ?_ ⟨true, rfl⟩ hfree hbooks haccounts hreserves hsettings
    (fun id hid => ?_) fun owner hlookup hle => ?_
  · cases maker.side <;> exact le_rfl
  · rcases howner with rfl | ⟨-, hsame⟩
    · rw [lookup_updateOwner, hstep.makerId, if_neg hid, howners]
      rfl
    · rw [hsame, howners]
      rfl
  · rcases howner with rfl | ⟨hclean, hsame⟩
    · obtain ⟨heq, hfollows⟩ := follows_update hstep owner
      have hafter : (r.updateOwner fill).orderOwnershipById.lookup maker.id =
          followed owner maker fill.qty := by
        rw [lookup_updateOwner, if_pos hstep.makerId.symm, howners]
        exact (congrArg (fun o => Option.bind o _) hlookup).trans heq
      rw [hafter]
      exact ⟨hfollows, fun _ _ _ => rfl⟩
    · have hafter : s'.orderOwnershipById.lookup maker.id = some owner := by
        rw [hsame, howners]
        exact hlookup
      rw [hafter]
      exact ⟨follows_self hstep.fill_qty_pos.le hle, fun hc => absurd hc hclean⟩

/-- A fill is the taker's part and the maker's. -/
theorem fill_changes {G : Guard} {aligned clean : Prop} {s r : MatchingEngine} (s' : MatchingEngine)
    {t : Taker} {fill : FillResult} {book : OrderBook} (hb : (s.bookFor t.symbol).WellFormed)
    (hnext : s.nextFill t = some (fill, book))
    (hfree : (s.paid t fill book).Frees r (s.ownerAccountId fill.makerId) t.symbol
      t.side.opposite fill.makerId (s.makerDelta t.side.opposite fill.makerId fill.qty (s.ownedQty fill.makerId fill.qty)))
    (howners : r.orderOwnershipById = s.orderOwnershipById)
    (hbooks : s'.books = r.books) (haccounts : s'.accounts = r.accounts)
    (hreserves : ∀ kind, s'.reserves kind = r.reserves kind) (hsettings : r.SameSettings s')
    (howner : s' = r.updateOwner fill ∨
      ¬ clean ∧ s'.orderOwnershipById = r.orderOwnershipById) :
    Relation.ReflTransGen (Change G aligned clean) ⟨s, matching t⟩ ⟨s', matching (t.after fill)⟩ := by
  obtain ⟨maker, -, hcross, hpos, hle, hmake⟩ := @fill_makes aligned clean s r s' t fill book hb hnext
    hfree howners hbooks haccounts hreserves hsettings howner
  have htake := takerPaid_take (G := G) aligned clean s hpos hle hcross
  exact .tail (.single htake) (.make hmake)

/-! Resting and cancelling. -/

theorem rested_rested {G : Guard} {s : MatchingEngine} (hs : s.Sound G) {t : Taker}
    (hflight : s.InFlight t) (hpos : 0 < t.remaining) : s.Rested (t.rested s) t where
  valid := hflight.valid
  pos := hpos
  free symbol := not_not.mp (hflight.free.rests symbol)
  holdings := rested_sameHoldings t s
  resting symbol id := by
    have hfree : (s.bookFor t.symbol).findOrder t.id = none :=
      not_not.mp (hflight.free.rests t.symbol)
    rw [resting, bookFor_rested]
    by_cases hsymbol : symbol = t.symbol
    · rw [if_pos hsymbol, findOrder_addRemainder (hs.book _) hflight.valid hpos hfree, hsymbol]
      simp only [true_and]
      rfl
    · rw [if_neg hsymbol, if_neg fun h => hsymbol h.1]
      rfl
  sets kind := rested_sets hpos.le kind
  leaves kind h := rested_leaves h
  owners id := owners_rested s t id
  settings := by
    have howned : s.SameSettings (t.ownedIn s) := ⟨rfl, rfl, rfl⟩
    exact howned.trans (.of_frame (frame_restOrder _ _ _ _ _ _ _ _ _))

theorem cancelResting_cancelled {G : Guard} {s : MatchingEngine} (hs : s.Sound G) {id : OrderId}
    {owner : OrderOwnership} (howner : s.orderOwnershipById.lookup id = some owner)
    (hrests : s.Rests owner.symbol id) :
    s.Cancelled (s.cancelResting owner.accountId owner.symbol id) id owner := by
  obtain ⟨order, horder⟩ := Option.ne_none_iff_exists'.mp hrests
  obtain ⟨hreleases, hnone⟩ := releaseAll_releases
    (s.setBook owner.symbol ((s.bookFor owner.symbol).cancel id).2) owner.accountId owner.symbol id
  refine ⟨howner, sameHoldings_cancelResting _ _ _ _, fun symbol id' => ?_, fun kind => ?_,
    fun kind => ?_, fun id' => ?_, ?_⟩
  · rw [resting, bookFor_cancelResting]
    by_cases hsymbol : symbol = owner.symbol
    · rw [if_pos hsymbol, findOrder_cancel (hs.book _) horder, hsymbol]
      simp only [true_and]
      rfl
    · rw [if_neg hsymbol, if_neg fun h => hsymbol h.1]
      rfl
  · have hshift := hreleases.shifts kind
    refine ⟨fun b symbol => (hshift.reserved b symbol).trans ?_, ?_, fun id' hid => ?_⟩
    · cases kind <;> rfl
    · have hentry := hshift.entry
      cases kind <;> exact hentry
    · have hother := hshift.others id' hid
      cases kind <;> exact hother
  · have hgone := hnone kind
    cases kind <;> exact hgone
  · have herase := owners_of_frame (frame_cancelResting s owner.accountId owner.symbol id)
    have herase : (s.cancelResting owner.accountId owner.symbol id).orderOwnershipById =
        s.orderOwnershipById.erase id := herase
    rw [herase, Finmap.lookup_erase_ite]
  · exact ((sameSettings_setBook _ _ _).trans (.of_frame (frame_releaseAll _ _ _ _))).trans
      ⟨rfl, rfl, rfl⟩

/-! The changes of an auction trade: the bid's part and the ask's. -/

/-- The bid's part of an auction trade against the book `book` its fill leaves behind. -/
def bidTraded (s : MatchingEngine) (symbol : Symbol) (book : OrderBook) (bid : Order)
    (price traded : ℤ) : MatchingEngine :=
  ((s.makerPaid symbol book bid price traded (s.feeForNotional (price * traded) false)).releaseCash
    (s.ownerAccountId bid.id) bid.id traded (s.ownedQty bid.id traded)).reduceOwner bid.id traded

section AuctionTrade
variable {aligned clean : Prop} {s : MatchingEngine} {symbol : Symbol} {book book' : OrderBook}
  {bidFill askFill : FillResult} {qty traded price : ℤ} {bid ask : Order} {rest rest' : List Order}

theorem bidTraded_makes (hfill : FillStep (s.bookFor symbol) book .bid qty bidFill bid rest)
    (hcovers : bidFill.qty = traded ∨ bidFill.qty < traded ∧ survivor bid bidFill.qty = none)
    (hexact : aligned → bidFill.qty = traded) (hprice : crosses .bid bid.price price) :
    Makes aligned clean s (s.bidTraded symbol book bid price traded) symbol bid price traded
      bidFill.qty (s.feeForNotional (price * traded) false) := by
  have hside : bid.side = .bid := hfill.placed.side
  have hfree := (s.makerPaid symbol book bid price traded
    (s.feeForNotional (price * traded) false)).releaseBid_frees (s.ownerAccountId bid.id) symbol
    bid.id traded (s.ownedQty bid.id traded)
  have howners := owners_of_frame hfree.frame
  refine makes_of_fill hfill hcovers hexact (by rwa [hside]) ⟨false, rfl⟩ (hside ▸ hfree)
    (read_reduceOwner MatchingEngine.books (fun _ _ => rfl) _ _ _)
    (accounts_reduceOwner _ _ _)
    (fun kind => read_reduceOwner (fun s => s.reserves kind) (fun _ _ => by cases kind <;> rfl) _ _ _)
    (sameSettings_reduceOwner _ _ _) (fun id hid => ?_) fun owner hlookup hle => ?_
  · rw [bidTraded, lookup_reduceOwner, if_neg hid, howners]
    rfl
  · have hafter : (s.bidTraded symbol book bid price traded).orderOwnershipById.lookup bid.id =
        if owner.qty - traded = 0 then none
        else some { owner with qty := owner.qty - traded } := by
      rw [bidTraded, lookup_reduceOwner, if_pos rfl, howners]
      exact congrArg (fun o => Option.bind o _) hlookup
    rw [hafter]
    obtain ⟨hfollows, hfollowed⟩ := follows_reduce hfill.fill_qty_le_total hle hcovers
    exact ⟨hfollows, fun _ => hfollowed⟩

theorem ask_ne_bid (hbid : FillStep (s.bookFor symbol) book .bid qty bidFill bid rest)
    (hask : FillStep book book' .ask qty askFill ask rest') : ask.id ≠ bid.id := fun hid => by
  have hfound := hask.found
  rw [hid, hbid.findOrder_after, if_pos rfl] at hfound
  have hside := (survivor_some hfound).side
  rw [hask.placed.side, hbid.placed.side] at hside
  cases hside

theorem reserves_auctionTraded (s : MatchingEngine) (symbol : Symbol) (price traded : ℤ)
    (bidId askId : OrderId) (book : OrderBook) (kind : ReserveKind) :
    (s.auctionTraded symbol price traded bidId askId book).reserves kind =
      ((s.setBook symbol book).settleAuction symbol bidId askId price traded).reserves kind := by
  have hread := fun s id => read_reduceOwner (fun s => s.reserves kind)
    (fun _ _ => by cases kind <;> rfl) s id traded
  rw [auctionTraded, hread, hread]

theorem accounts_auctionTraded (s : MatchingEngine) (symbol : Symbol) (price traded : ℤ)
    (bidId askId : OrderId) (book : OrderBook) :
    (s.auctionTraded symbol price traded bidId askId book).accounts =
      ((s.setBook symbol book).settleAuction symbol bidId askId price traded).accounts := by
  rw [auctionTraded, accounts_reduceOwner, accounts_reduceOwner]

theorem reserves_bidTraded (s : MatchingEngine) (symbol : Symbol) (book book' : OrderBook)
    (bid : Order) (askId : OrderId) (price traded : ℤ) (kind : ReserveKind) :
    ((s.setBook symbol book').bidReleased symbol bid.id askId price traded).reserves kind =
      (s.bidTraded symbol book bid price traded).reserves kind := by
  rw [bidTraded, read_reduceOwner (fun s => s.reserves kind) fun _ _ => by cases kind <;> rfl]
  exact reserves_releaseCash_congr (fun kind => by cases kind <;> rfl) _ _ _ _ _ kind

/-- The ask's part comes after the bid's, though the engine settles the two at once. -/
theorem askTraded_makes (hbid : FillStep (s.bookFor symbol) book .bid qty bidFill bid rest)
    (hask : FillStep book book' .ask qty askFill ask rest')
    (hfirst : Makes aligned clean s (s.bidTraded symbol book bid price traded) symbol bid price
      traded bidFill.qty (s.feeForNotional (price * traded) false))
    (hcovers : askFill.qty = traded ∨ askFill.qty < traded ∧ survivor ask askFill.qty = none)
    (hexact : aligned → askFill.qty = traded) (hprice : crosses .ask ask.price price) :
    Makes aligned clean (s.bidTraded symbol book bid price traded)
      (s.auctionTraded symbol price traded bid.id ask.id book') symbol ask price traded
      askFill.qty (s.feeForNotional (price * traded) true) := by
  have hside : ask.side = .ask := hask.placed.side
  have hne : ask.id ≠ bid.id := ask_ne_bid hbid hask
  have hpos := hask.fill_qty_pos
  have htraded : 0 ≤ traded := by omega
  obtain ⟨hfreeBid, hfreeAsk⟩ := (s.setBook symbol book').settleAuction_frees symbol bid.id ask.id
    price htraded
  -- the two states agree on entries before the ask's release
  have hentries := s.reserves_bidTraded symbol book book' bid ask.id price traded
  have hfinal := s.reserves_auctionTraded symbol price traded bid.id ask.id book'
  have haccounts := s.accounts_auctionTraded symbol price traded bid.id ask.id book'
  have howned : (s.bidTraded symbol book bid price traded).orderOwnershipById.lookup ask.id =
      s.orderOwnershipById.lookup ask.id := hfirst.others _ hne
  have hownerId : (s.bidTraded symbol book bid price traded).ownerAccountId ask.id =
      s.ownerAccountId ask.id := by
    rw [ownerAccountId, ownerAccountId, howned]
  have hdelta : ∀ kind, (s.bidTraded symbol book bid price traded).makerDelta .ask ask.id
      traded ((s.bidTraded symbol book bid price traded).ownedQty ask.id traded) kind =
      s.makerDelta .ask ask.id traded (s.ownedQty ask.id traded) kind := by
    intro kind
    have hentry : ∀ kind, (s.bidTraded symbol book bid price traded).reserveOf kind ask.id =
        s.reserveOf kind ask.id := fun kind =>
      reserveOf_of_lookup ((hfirst.shifts kind).others _ hne)
    unfold makerDelta releaseOf ownedQty
    cases kind <;> simp only [hentry, howned]
  have hholdings := s.sameHoldings_auctionTraded symbol price htraded bid.id ask.id book'
  have hfoundAsk : s.resting symbol ask.id = some ask := by
    have hfound := hask.found
    rwa [hbid.findOrder_after, if_neg hne] at hfound
  refine ⟨?_, hask.placed.wellFormed, hpos, hask.fill_qty_le_available, hcovers, hexact,
    by rwa [hside], ⟨true, ?_⟩, ⟨fun b => ?_, fun b symbol' => ?_⟩, fun symbol' id => ?_,
    fun kind => ⟨fun b symbol' => ?_, ?_, fun id' hid => ?_⟩, fun kind hsome => ?_,
    fun kind hkind hzero => ?_, fun id hid => ?_, fun owner hlookup hle => ?_, ?_⟩
  · rw [hfirst.resting, if_neg fun h => hne h.2, hfoundAsk]
  · rw [feeForNotional, feeForNotional, hfirst.settings.feeModel]
  · have hcash := (hholdings b).cash
    have hfirstCash := hfirst.settled.cash b
    rw [cashBalance_exchange] at hcash
    rw [hcash, hfirstCash, hownerId, hside, hbid.placed.side]
    simp only [Side.signed, Side.opposite_bid]
    split_ifs <;> omega
  · have hposition := (hholdings b).position symbol'
    have hfirstPosition := hfirst.settled.position b symbol'
    rw [position_exchange _ _ _ _ _ htraded] at hposition
    rw [hposition, hfirstPosition, hownerId, hside, hbid.placed.side]
    simp only [Side.signed, Side.opposite_bid]
  · rw [hfirst.resting, resting, bookFor_auctionTraded]
    by_cases hsymbol : symbol' = symbol
    · rw [if_pos hsymbol, hask.findOrder_after, hsymbol]
      simp only [true_and]
      rw [hbid.findOrder_after]
      rfl
    · rw [if_neg hsymbol, if_neg fun h => hsymbol h.1, if_neg fun h => hsymbol h.1]
      rfl
  · have hbidReserved := (hfreeBid.shifts kind).reserved b symbol'
    have haskReserved := (hfreeAsk.shifts kind).reserved b symbol'
    have hfirstReserved := (hfirst.shifts kind).reserved b symbol'
    rw [reserved_exchange] at hbidReserved
    rw [account_of_accounts haccounts, haskReserved, hbidReserved, hfirstReserved, hownerId,
      hside, hdelta, hbid.placed.side]
    rfl
  · have hentry := (hfreeAsk.shifts kind).entry
    rw [reserveOf, hfinal, ← reserveOf, hentry, reserveOf, hentries, ← reserveOf, hside, hdelta]
    rfl
  · rw [hfinal, (hfreeAsk.shifts kind).others id' hid, hentries]
  · rw [hfinal] at hsome
    have hold := hfreeAsk.kept kind hsome
    rwa [hentries] at hold
  · rw [reserveOf, hfinal, ← reserveOf] at hzero
    rw [hfinal]
    exact hfreeAsk.clears kind (hkind.trans hside) hzero
  · rw [auctionTraded, lookup_reduceOwner, if_neg hid, bidTraded, lookup_reduceOwner,
      lookup_reduceOwner, owners_of_frame (frame_settleAuction _ _ _ _ _ _),
      owners_of_frame (frame_of_unfunded (unfunded_releaseCash _ _ _ _ _))]
    rfl
  · have hlookup' := hlookup
    rw [howned] at hlookup'
    have hafter : (s.auctionTraded symbol price traded bid.id ask.id
        book').orderOwnershipById.lookup ask.id =
        if owner.qty - traded = 0 then none
        else some { owner with qty := owner.qty - traded } := by
      rw [auctionTraded, lookup_reduceOwner, if_pos rfl, lookup_reduceOwner, if_neg hne,
        owners_of_frame (frame_settleAuction _ _ _ _ _ _)]
      exact congrArg (fun o => Option.bind o _) hlookup'
    rw [hafter]
    obtain ⟨hfollows, hfollowed⟩ := follows_reduce hask.fill_qty_le_total hle hcovers
    exact ⟨hfollows, fun _ => hfollowed⟩
  · have hsettings := s.sameSettings_auctionTraded symbol price traded bid.id ask.id book'
    exact ⟨hsettings.feeModel.trans hfirst.settings.feeModel.symm,
      hsettings.riskConfigs.trans hfirst.settings.riskConfigs.symm,
      hsettings.bands.trans hfirst.settings.bands.symm⟩

end AuctionTrade
end MatchingEngine

/-- The next fill, if there is one, is inside the price band. -/
def Config.InBand (c : Config) : Prop :=
  match c.flight with
  | matching t => ∀ fill book, c.engine.nextFill t = some (fill, book) →
      c.engine.priceInBand t.symbol fill.price
  | _ => True

/-- A fill of an auction trade falls short only by using up a hidden order. -/
theorem nextAuctionQty_covered {book book' : OrderBook} (hb : book.WellFormed)
    {price remaining traded : ℤ} (h : nextAuctionQty book price remaining = some traded)
    {side : Side} {fill : FillResult} {maker : Order} {rest : List Order} {b : OrderBook}
    (hfill : BestFill b book' side traded fill maker rest)
    (hside : b.sideOrders side = book.sideOrders side) :
    fill.qty = traded ∨ fill.qty < traded ∧ survivor maker fill.qty = none ∧
      maker.visibility = .hidden := by
  have hqty := hfill.fill_qty
  by_cases hle : traded ≤ available maker
  · exact Or.inl (by rw [hqty, min_eq_left hle])
  · have hshort : fill.qty = available maker := by rw [hqty, min_eq_right (by omega)]
    have hhidden : maker.visibility = .hidden := by
      by_contra hvisible
      exact hle (nextAuctionQty_le_front hb h (hside ▸ hfill.head) hvisible)
    refine Or.inr ⟨by omega, survivor_eq_none.mpr ?_, hhidden⟩
    have hwf := hfill.placed.wellFormed
    rw [hshort]
    unfold Order.WellFormed at hwf
    rw [hhidden] at hwf
    simp only [available, hhidden, queueKind, availableQty, if_true, totalRemainingQty]
    omega

/-- Every tick is a few changes. -/
theorem Tick.changes {G : Guard} {aligned clean : Prop} {c c' : Config} {events : List Event}
    (hauction : aligned → ∀ {book price traded}, G.auction book price traded → book.Aligned traded)
    (hc : c.Sound G) (hband : clean → c.InBand) (h : Tick G c events c') :
    Relation.ReflTransGen (Change G aligned clean) c c' := by
  obtain ⟨hs, hflight⟩ := hc
  cases h with
  | record hjournal hinert =>
    have hstill := still_journal hjournal
    exact .single (.still (.of_still hstill) hstill.holdings)
  | allocate s =>
    exact .single (.still (undisturbed_of_same rfl rfl rfl ⟨rfl, rfl, rfl⟩) (.of_accounts rfl))
  | @touch s a symbol ha =>
    refine .single (.raise ha ⟨fun _ _ => rfl, rfl, fun kind b symbol' => ?_,
      fun kind => by cases kind <;> rfl, ⟨rfl, rfl, rfl⟩⟩ fun b => ?_)
    · rw [touchAccount, account_updateAccount]
      split_ifs <;> rfl
    · rw [touchAccount, account_updateAccount]
      by_cases hb : b = a
      · rw [if_pos hb]
        split_ifs
        · refine ⟨le_max_left _ _, fun symbol' => ?_⟩
          unfold AccountSnapshot.position
          dsimp only
          rw [Finmap.valueD_insert]
          split_ifs with hsymbol
          · rw [hsymbol]
            exact le_max_left _ _
          · exact le_rfl
        · exact ⟨le_rfl, fun _ => le_rfl⟩
      · rw [if_neg hb]
        exact ⟨le_rfl, fun _ => le_rfl⟩
  | stops hevents hstops hpending =>
    exact .single (.still (undisturbed_of_same rfl rfl rfl ⟨rfl, rfl, rfl⟩) (.of_accounts rfl))
  | enter hadmits haccount hentry hphase hfok => exact .single (.enter hadmits haccount hentry)
  | @fill s t fill book events hnext hin hhold hinert =>
    have hpos := nextFill_qty_pos hs hnext
    refine fill_changes _ (hs.book _) hnext (journaled_frees s t hpos.le book)
      ((owners_of_frame (frame_journaled s t fill book)).trans rfl)
      (read_updateOwner MatchingEngine.books (fun _ _ => rfl) _ _) (accounts_updateOwner _ _)
      (fun kind => read_updateOwner (fun s => s.reserves kind) (fun _ _ => by cases kind <;> rfl) _ _)
      (sameSettings_updateOwner _ _) (Or.inl rfl)
  | @breach s t fill book events hnext hout hinert =>
    have hpos := nextFill_qty_pos hs hnext
    have hclean : ¬ clean := fun hclean => hout (hband hclean fill book hnext)
    refine .tail (fill_changes (s.breached t fill book) (hs.book _) hnext
      (settleFill_frees s t hpos.le book)
      ((owners_of_frame (frame_settleFill s t fill book)).trans rfl) rfl rfl
      (fun kind => by cases kind <;> rfl) ⟨rfl, rfl, rfl⟩ (Or.inr ⟨hclean, rfl⟩)) .finish
  | finish hnext => exact .single .finish
  | rest hpos htif => exact .single (.rest (rested_rested hs hflight.1 hpos))
  | drop hleft => exact .single .drop
  | @restAuction s t hadmits haccount hentry hphase =>
    have hflight := hadmits.inFlight
    exact ((Relation.ReflTransGen.single (.enter hadmits haccount hentry)).tail .finish).tail
      (.rest (rested_rested hs hflight.1 hflight.2))
  | cancel howner hrests => exact .single (.cancel (cancelResting_cancelled hs howner hrests))
  | @auctionTrade s symbol price remaining traded bid ask book book' hqty hguard hbid hask =>
    obtain ⟨bidOrder, rest, hbidFill, hbidPrice⟩ := fillBestAtOrBetter_some (hs.book symbol) hbid
    obtain ⟨askOrder, rest', haskFill, haskPrice⟩ :=
      fillBestAtOrBetter_some hbidFill.wellFormed_after hask
    have hsame : book.sideOrders .ask = (s.bookFor symbol).sideOrders .ask :=
      hbidFill.sideOrders_opposite
    have hbidExact : aligned → bid.qty = traded := fun h => by
      rw [hbidFill.fill_qty, min_eq_left ((hauction h hguard).1 bidOrder hbidFill.head)]
    have haskExact : aligned → ask.qty = traded := fun h => by
      rw [haskFill.fill_qty, min_eq_left ((hauction h hguard).2 askOrder (hsame ▸ haskFill.head))]
    have hbidCovers := nextAuctionQty_covered (hs.book symbol) hqty hbidFill rfl
    have haskCovers := nextAuctionQty_covered (hs.book symbol) hqty haskFill hsame
    have hfirst : Makes aligned clean s _ symbol bidOrder price traded bid.qty _ :=
      bidTraded_makes hbidFill.toFillStep (hbidCovers.imp_right fun h => ⟨h.1, h.2.1⟩) hbidExact
        hbidPrice
    have hsecond := askTraded_makes hbidFill.toFillStep haskFill.toFillStep hfirst
      (haskCovers.imp_right fun h => ⟨h.1, h.2.1⟩) haskExact haskPrice
    rw [hbidFill.makerId, haskFill.makerId]
    exact (Relation.ReflTransGen.single (.make hfirst)).tail (.make hsecond)
  | endAuction hphase =>
    exact .single (.still (undisturbed_of_same rfl rfl rfl ⟨rfl, rfl, rfl⟩) (.of_accounts rfl))
  | halt s symbol reason =>
    exact .single (.still (undisturbed_of_same rfl rfl rfl ⟨rfl, rfl, rfl⟩) (.of_accounts rfl))

/-- So is what an operation that throws does after its last tick. -/
theorem Config.AbortsTo.changes {G : Guard} {aligned : Prop} {c : Config} {s' : MatchingEngine} (hc : c.Sound G)
    (h : c.AbortsTo s') : Relation.ReflTransGen (Change G aligned False) c ⟨s', idle⟩ := by
  obtain ⟨s, flight⟩ := c
  cases flight with
  | idle =>
    rw [show s' = s from h.1]
  | matching t =>
    obtain ⟨fill, book, hnext, -, -, rfl⟩ := h
    have hpos := nextFill_qty_pos hc.1 hnext
    exact .tail (fill_changes _ (hc.1.book _) hnext (journaled_frees s t hpos.le book)
      ((owners_of_frame (frame_journaled s t fill book)).trans rfl) rfl rfl (fun _ => rfl)
      ⟨rfl, rfl, rfl⟩ (Or.inr ⟨id, rfl⟩)) .drop
  | matched t => exact h.elim

end Tes
