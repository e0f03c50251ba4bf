import Tes.Ledger.Funding
import Tes.Market.AuctionQuantities
import Tes.Market.EntryIds
import Tes.Market.Uncrossed

/-! Books, owners' records and reserves stay in step, but for what the book refuses of an iceberg. -/
namespace Tes
open OrderBook MatchingEngine Flight Transition Rounding EStateM

/-- The record shows what rests. -/
structure OrderOwnership.Shows (owner : OrderOwnership) (order : Order) : Prop where
  side : owner.side = order.side
  price : owner.price = order.price
  qty : owner.qty = totalRemainingQty order

/-- What is left of an iceberg is less than its clip, so that the book refuses it. -/
def OrderOwnership.Stub (owner : OrderOwnership) : Prop :=
  owner.visibility = .iceberg ∧ owner.qty < owner.displayQty

namespace MatchingEngine

/-- Every record shows a resting order, or is of what the book has refused. -/
def Recorded (s : MatchingEngine) : Prop :=
  ∀ id owner, s.orderOwnershipById.lookup id = some owner →
    (∃ order, s.resting owner.symbol id = some order ∧ owner.Shows order) ∨
      owner.Stub ∧ ∀ symbol, s.resting symbol id = none

/-- Reserves are of recorded orders and of the kinds of their side, and hold no more quantity than
is left. -/
structure Entered (s : MatchingEngine) : Prop where
  recorded : ∀ kind id, (s.reserves kind).lookup id ≠ none →
    ∃ owner, s.orderOwnershipById.lookup id = some owner ∧ kind.side = owner.side
  long : ∀ id owner, s.orderOwnershipById.lookup id = some owner → s.reserveOf .qty id ≤ owner.qty

/-- Accounts reserve what their recorded orders do. -/
def Balanced (s : MatchingEngine) : Prop :=
  ∀ kind a symbol, (s.account a).reserved symbol kind = s.ownedReserve kind a symbol

section Steps
variable {s s' : MatchingEngine} {symbol : Symbol} {maker : Order} {price traded taken fee : ℤ}
  {id : OrderId} {owner : OrderOwnership} {t : Taker}

/-! Records. -/

theorem Recorded.shows (hs : s.Recorded) (howned : s.Owned) {order : Order}
    (horder : s.resting symbol id = some order) :
    ∃ owner, s.orderOwnershipById.lookup id = some owner ∧ owner.symbol = symbol ∧
      owner.Shows order := by
  obtain ⟨owner, howner, hrecord⟩ := howned symbol id order horder
  refine ⟨owner, howner, hrecord.symbol, ?_⟩
  rcases hs id owner howner with ⟨order', horder', hshows⟩ | ⟨-, hnone⟩
  · rw [hrecord.symbol, horder] at horder'
    cases horder'
    exact hshows
  · rw [hnone] at horder
    cases horder

theorem Recorded.congr (hs : s.Recorded)
    (hresting : ∀ symbol id, s'.resting symbol id = s.resting symbol id)
    (howners : s'.orderOwnershipById = s.orderOwnershipById) : s'.Recorded := by
  intro id owner howner
  rw [howners] at howner
  simp only [hresting]
  exact hs id owner howner

/-- What a fill leaves of a record that shows its order. -/
theorem Makes.follows (h : Makes True True s s' symbol maker price traded taken fee)
    (hs : s.Recorded) (howned : s.Owned) :
    ∃ owner, s.orderOwnershipById.lookup maker.id = some owner ∧ owner.symbol = symbol ∧
      owner.Shows maker ∧ s'.orderOwnershipById.lookup maker.id = followed owner maker taken := by
  obtain ⟨owner, howner, hsymbol, hshows⟩ := hs.shows howned h.found
  refine ⟨owner, howner, hsymbol, hshows, ?_⟩
  exact (h.owner owner howner hshows.qty.ge).2 trivial (h.exact trivial) hshows.qty

theorem Recorded.make (hs : s.Recorded) (howned : s.Owned)
    (h : Makes True True s s' symbol maker price traded taken fee) : s'.Recorded := by
  obtain ⟨owner, howner, hsymbol, hshows, hafter⟩ := h.follows hs howned
  intro id owner' howner'
  by_cases hid : id = maker.id
  · subst hid
    rw [hafter, followed] at howner'
    split_ifs at howner' with hgone
    cases howner'
    obtain ⟨left, hleft⟩ := Option.ne_none_iff_exists'.mp hgone
    have hsurvives := survivor_some hleft
    refine Or.inl ⟨left, ?_, ?_, ?_, ?_⟩
    · rw [h.resting, if_pos ⟨hsymbol, rfl⟩, hleft]
    · exact hshows.side.trans hsurvives.side.symm
    · exact hshows.price.trans hsurvives.price.symm
    · exact hsurvives.total.symm
  · rw [h.others id hid] at howner'
    have hsame : ∀ symbol', s'.resting symbol' id = s.resting symbol' id := fun symbol' => by
      rw [h.resting, if_neg fun hc => hid hc.2]
    simp only [hsame]
    exact hs id owner' howner'

theorem Recorded.rest (hs : s.Recorded) (h : s.Rested s' t) : s'.Recorded := by
  intro id owner howner
  rw [h.owners] at howner
  by_cases hid : id = t.id
  · rw [if_pos hid] at howner
    cases howner
    subst hid
    by_cases hrefused : t.refused
    · refine Or.inr ⟨hrefused, fun symbol => ?_⟩
      rw [h.resting, if_neg fun hc => hc.2.2 hrefused, h.free]
    · refine Or.inl ⟨t.order, by rw [h.resting, if_pos ⟨rfl, rfl, hrefused⟩], ?_, ?_, ?_⟩
      · simp only [Taker.order, arrange_side]
      · simp only [Taker.order, arrange_price]
      · simp only [Taker.order, totalRemainingQty_arrange]
  · rw [if_neg hid] at howner
    have hsame : ∀ symbol, s'.resting symbol id = s.resting symbol id := fun symbol => by
      rw [h.resting, if_neg fun hc => hid hc.2.1]
    simp only [hsame]
    exact hs id owner howner

theorem Recorded.cancel (hs : s.Recorded) (h : s.Cancelled s' id owner) : s'.Recorded := by
  intro id' owner' howner'
  rw [h.owners] at howner'
  split_ifs at howner' with hid
  have hsame : ∀ symbol, s'.resting symbol id' = s.resting symbol id' := fun symbol => by
    rw [h.resting, if_neg fun hc => hid hc.2]
  simp only [hsame]
  exact hs id' owner' howner'

/-! Reserves by order. -/

/-- An order that is used up at once releases all it has reserved. -/
theorem releaseOf_whole {qty : ℤ} (hqty : 0 < qty) (hlong : s.reserveOf .qty id ≤ qty)
    (kind : ReserveKind) : s.releaseOf id qty qty kind = s.reserveOf kind id := by
  have hbounded : ∀ reserved, boundedRelease reserved qty qty = reserved := by
    intro reserved
    rw [boundedRelease, if_neg (by omega), ceilShare_whole _ (by omega), min_self]
  unfold releaseOf
  cases kind with
  | cash => exact hbounded _
  | qty => exact min_eq_left hlong
  | shortMargin => exact hbounded _

/-- The reserves of a side that an order is not on are none of its own. -/
theorem Entered.reserveOf_eq_zero (hs : s.Entered) {kind : ReserveKind}
    (howner : s.orderOwnershipById.lookup id = some owner) (hside : kind.side ≠ owner.side) :
    s.reserveOf kind id = 0 := by
  apply reserveOf_of_none
  by_contra hsome
  obtain ⟨owner', howner', hkind⟩ := hs.recorded kind id hsome
  rw [howner] at howner'
  cases howner'
  exact hside hkind

theorem Entered.congr (hs : s.Entered) (howners : s'.orderOwnershipById = s.orderOwnershipById)
    (hentries : ∀ kind, s'.reserves kind = s.reserves kind) : s'.Entered where
  recorded kind id hsome := by
    rw [hentries] at hsome
    rw [howners]
    exact hs.recorded kind id hsome
  long id owner howner := by
    rw [howners] at howner
    rw [reserveOf, hentries]
    exact hs.long id owner howner

/-- What a fill leaves of the reserves of its order. -/
theorem Makes.reserveOf_after (h : Makes True True s s' symbol maker price traded taken fee)
    (hs : s.Entered) (howner : s.orderOwnershipById.lookup maker.id = some owner)
    (hshows : owner.Shows maker) :
    (∀ kind, kind.side ≠ maker.side → s'.reserveOf kind maker.id = 0) ∧
      (survivor maker taken = none → ∀ kind, s'.reserveOf kind maker.id = 0) ∧
      s'.reserveOf .qty maker.id ≤ owner.qty - taken := by
  have htraded := h.exact trivial
  have hpos := h.pos
  have hle := h.le.trans (available_le_total h.wellFormed)
  have hlong := hs.long maker.id owner howner
  have hqty := hshows.qty
  have hbefore : s.ownedQty maker.id traded = owner.qty := by rw [ownedQty, howner, Option.elim_some]
  have hother : ∀ kind, kind.side ≠ maker.side → s'.reserveOf kind maker.id = 0 := by
    intro kind hkind
    rw [(h.shifts kind).entry, makerDelta, if_neg hkind, add_zero]
    exact hs.reserveOf_eq_zero howner (hshows.side ▸ hkind)
  refine ⟨hother, fun hgone kind => ?_, ?_⟩
  · by_cases hkind : kind.side = maker.side
    · have hall := survivor_eq_none.mp hgone
      have hwhole : s.releaseOf maker.id owner.qty owner.qty kind = s.reserveOf kind maker.id :=
        releaseOf_whole (by omega) hlong kind
      rw [(h.shifts kind).entry, makerDelta, if_pos hkind, hbefore, ← htraded, hall, ← hqty, hwhole]
      omega
    · exact hother kind hkind
  · by_cases hkind : ReserveKind.qty.side = maker.side
    · rw [(h.shifts .qty).entry, makerDelta, if_pos hkind, releaseOf]
      omega
    · rw [hother .qty hkind]
      omega

theorem Entered.make (hs : s.Entered) (hrecorded : s.Recorded) (howned : s.Owned)
    (h : Makes True True s s' symbol maker price traded taken fee) : s'.Entered := by
  obtain ⟨owner, howner, -, hshows, hafter⟩ := h.follows hrecorded howned
  obtain ⟨hother, hgone, hlong⟩ := h.reserveOf_after hs howner hshows
  refine ⟨fun kind id hsome => ?_, fun id owner' howner' => ?_⟩
  · by_cases hid : id = maker.id
    · subst hid
      have hkind : kind.side = maker.side := by
        obtain ⟨owner', howner', hkind⟩ := hs.recorded kind maker.id (h.kept kind hsome)
        rw [howner] at howner'
        cases howner'
        exact hkind.trans hshows.side
      rw [hafter, followed]
      by_cases hsurvives : survivor maker taken = none
      · exact absurd (h.clears kind hkind (hgone hsurvives kind)) hsome
      · rw [if_neg hsurvives]
        exact ⟨_, rfl, hkind.trans hshows.side.symm⟩
    · rw [(h.shifts kind).others id hid] at hsome
      rw [h.others id hid]
      exact hs.recorded kind id hsome
  · by_cases hid : id = maker.id
    · subst hid
      rw [hafter, followed] at howner'
      split_ifs at howner'
      cases howner'
      rw [← hshows.qty]
      exact hlong
    · rw [h.others id hid] at howner'
      rw [reserveOf_of_lookup ((h.shifts .qty).others id hid)]
      exact hs.long id owner' howner'

/-- No more of the position is reserved for an order than the order offers. -/
theorem reserve_qty_le (hpos : 0 < t.remaining) : t.reserve s .qty ≤ t.remaining := by
  unfold Taker.reserve longReserveOf
  dsimp only
  split_ifs
  · exact min_le_left _ _
  · exact hpos.le

/-- An order that rests under an id of its own. -/
theorem Rested.reserveOf_after (h : s.Rested s' t) (hnone : ∀ kind, (s.reserves kind).lookup t.id = none)
    (kind : ReserveKind) : s'.reserveOf kind t.id = t.reserve s kind := by
  rcases (h.sets kind).entry with hset | ⟨hzero, hsame⟩
  · exact hset
  · rw [reserveOf_of_lookup hsame, reserveOf_of_none (hnone kind), hzero]

theorem Entered.rest (hs : s.Entered) (h : s.Rested s' t)
    (hnone : ∀ kind, (s.reserves kind).lookup t.id = none) : s'.Entered := by
  refine ⟨fun kind id hsome => ?_, fun id owner howner => ?_⟩
  · rw [h.owners]
    by_cases hid : id = t.id
    · subst hid
      rw [if_pos rfl]
      refine ⟨_, rfl, ?_⟩
      by_contra hkind
      rw [h.leaves kind hkind] at hsome
      exact hsome (hnone kind)
    · rw [if_neg hid]
      rw [(h.sets kind).others id hid] at hsome
      exact hs.recorded kind id hsome
  · rw [h.owners] at howner
    by_cases hid : id = t.id
    · subst hid
      rw [if_pos rfl] at howner
      cases howner
      rw [h.reserveOf_after hnone]
      exact reserve_qty_le h.pos
    · rw [if_neg hid] at howner
      rw [reserveOf_of_lookup ((h.sets .qty).others id hid)]
      exact hs.long id owner howner

theorem Entered.cancel (hs : s.Entered) (h : s.Cancelled s' id owner) : s'.Entered := by
  refine ⟨fun kind id' hsome => ?_, fun id' owner' howner' => ?_⟩
  · by_cases hid : id' = id
    · rw [hid, h.cleared] at hsome
      exact absurd rfl hsome
    · rw [(h.shifts kind).others id' hid] at hsome
      rw [h.owners, if_neg hid]
      exact hs.recorded kind id' hsome
  · rw [h.owners] at howner'
    split_ifs at howner' with hid
    rw [reserveOf_of_lookup ((h.shifts .qty).others id' hid)]
    exact hs.long id' owner' howner'

/-! Reserves by account. -/

theorem Balanced.congr (hs : s.Balanced) (howners : s'.orderOwnershipById = s.orderOwnershipById)
    (hentries : ∀ kind, s'.reserves kind = s.reserves kind)
    (hreserved : ∀ kind a symbol,
      (s'.account a).reserved symbol kind = (s.account a).reserved symbol kind) : s'.Balanced := by
  intro kind a symbol
  rw [hreserved, ownedReserve_congr howners (hentries kind)]
  exact hs kind a symbol

theorem Balanced.make (hs : s.Balanced) (hentered : s.Entered) (hrecorded : s.Recorded)
    (howned : s.Owned) (h : Makes True True s s' symbol maker price traded taken fee) :
    s'.Balanced := by
  obtain ⟨owner, howner, hsymbol, hshows, hafter⟩ := h.follows hrecorded howned
  obtain ⟨-, hgone, -⟩ := h.reserveOf_after hentered howner hshows
  intro kind a symbol'
  have hbalanced := hs kind a symbol'
  have hshift := h.shifts kind
  have hentry := hshift.entry
  rw [ownedReserve_change maker.id h.others hshift.others, hshift.reserved, hbalanced, howner, hafter,
    ownerAccountId_of_some howner, ← hsymbol]
  unfold followed
  by_cases hsurvives : survivor maker taken = none
  · have hzero := hgone hsurvives kind
    rw [if_pos hsurvives, attributed, attributed]
    split_ifs <;> omega
  · rw [if_neg hsurvives, attributed, attributed]
    dsimp only
    split_ifs <;> omega

theorem Balanced.rest (hs : s.Balanced) (h : s.Rested s' t)
    (howner : s.orderOwnershipById.lookup t.id = none)
    (hnone : ∀ kind, (s.reserves kind).lookup t.id = none) : s'.Balanced := by
  have hothers : ∀ id, id ≠ t.id →
      s'.orderOwnershipById.lookup id = s.orderOwnershipById.lookup id := fun id hid => by
    rw [h.owners, if_neg hid]
  intro kind a symbol
  have hbalanced := hs kind a symbol
  rw [ownedReserve_change t.id hothers (h.sets kind).others, (h.sets kind).reserved, hbalanced,
    h.owners, if_pos rfl, howner, h.reserveOf_after hnone, attributed, attributed, sub_zero]

theorem Balanced.cancel (hs : s.Balanced) (h : s.Cancelled s' id owner) : s'.Balanced := by
  have hothers : ∀ id', id' ≠ id →
      s'.orderOwnershipById.lookup id' = s.orderOwnershipById.lookup id' := fun id' hid => by
    rw [h.owners, if_neg hid]
  intro kind a symbol
  have hbalanced := hs kind a symbol
  rw [ownedReserve_change id hothers (h.shifts kind).others, (h.shifts kind).reserved, hbalanced,
    h.owners, if_pos rfl, h.owned, attributed, attributed]
  split_ifs <;> omega

end Steps
end MatchingEngine

/-- Books, records and reserves are in step, and nothing is known yet of the order on its way. -/
structure Config.InStep (c : Config) : Prop where
  owned : c.engine.Owned
  recorded : c.engine.Recorded
  entered : c.engine.Entered
  balanced : c.engine.Balanced
  flight : match c.flight with
    | idle => True
    | matching t | matched t => (∀ symbol, c.engine.resting symbol t.id = none) ∧
        c.engine.orderOwnershipById.lookup t.id = none

section Changes
variable {G : Guard} {s s' : MatchingEngine} {flight : Flight} {c c' : Config}

theorem MatchingEngine.Entered.unreserved (hs : s.Entered) {id : OrderId}
    (howner : s.orderOwnershipById.lookup id = none) (kind : ReserveKind) :
    (s.reserves kind).lookup id = none := by
  by_contra hsome
  obtain ⟨owner, howner', -⟩ := hs.recorded kind id hsome
  rw [howner] at howner'
  cases howner'

theorem Config.InStep.of_undisturbed (hc : Config.InStep ⟨s, flight⟩) (h : s.Undisturbed s') :
    Config.InStep ⟨s', flight⟩ := by
  refine ⟨hc.owned.of_undisturbed h, hc.recorded.congr h.resting h.owners,
    hc.entered.congr h.owners h.entries, hc.balanced.congr h.owners h.entries h.reserved, ?_⟩
  cases flight with
  | idle => trivial
  | matching t | matched t =>
    dsimp only
    rw [h.owners]
    exact ⟨fun symbol => (h.resting symbol t.id).trans (hc.flight.1 symbol), hc.flight.2⟩

/-- Every change keeps step, where orders come in under ids without a record. -/
theorem Change.inStep (hG : ∀ {s t}, G.entry s t → s.orderOwnershipById.lookup t.id = none)
    (hc : c.InStep) (h : Change G True True c c') : c'.InStep := by
  cases h with
  | still hstill hholdings => exact hc.of_undisturbed hstill
  | raise haccount hstill hraise => exact hc.of_undisturbed hstill
  | enter hadmits haccount hentry =>
    exact ⟨hc.owned, hc.recorded, hc.entered, hc.balanced, hadmits.claims.free, hG hentry⟩
  | take hstill hpos hle hcross hsettled =>
    have hnext := hc.of_undisturbed hstill
    exact ⟨hnext.owned, hnext.recorded, hnext.entered, hnext.balanced, hnext.flight⟩
  | @make s s' flight symbol maker price traded taken fee hmake =>
    refine ⟨hc.owned.make hmake, hc.recorded.make hc.owned hmake,
      hc.entered.make hc.recorded hc.owned hmake,
      hc.balanced.make hc.entered hc.recorded hc.owned hmake, ?_⟩
    have hkeeps : ∀ {id}, (∀ symbol, s.resting symbol id = none) →
        s.orderOwnershipById.lookup id = none → (∀ symbol, s'.resting symbol id = none) ∧
          s'.orderOwnershipById.lookup id = none := by
      intro id hfree howner
      have hid : id ≠ maker.id := fun hid => by
        have hfound := hmake.found
        rw [← hid, hfree] at hfound
        cases hfound
      refine ⟨fun symbol' => ?_, (hmake.others id hid).trans howner⟩
      rw [hmake.resting, if_neg fun hc => hid hc.2]
      exact hfree symbol'
    cases flight with
    | idle => trivial
    | matching t | matched t => exact hkeeps hc.flight.1 hc.flight.2
  | finish => exact ⟨hc.owned, hc.recorded, hc.entered, hc.balanced, hc.flight⟩
  | rest hrest =>
    have hnone := hc.entered.unreserved hc.flight.2
    exact ⟨hc.owned.rest hrest, hc.recorded.rest hrest, hc.entered.rest hrest hnone,
      hc.balanced.rest hrest hc.flight.2 hnone, trivial⟩
  | drop => exact ⟨hc.owned, hc.recorded, hc.entered, hc.balanced, trivial⟩
  | cancel hcancel =>
    exact ⟨hc.owned.cancel hcancel, hc.recorded.cancel hcancel, hc.entered.cancel hcancel,
      hc.balanced.cancel hcancel, trivial⟩

theorem Config.InStep.changes (hG : ∀ {s t}, G.entry s t → s.orderOwnershipById.lookup t.id = none)
    (hc : c.InStep) (h : Relation.ReflTransGen (Change G True True) c c') : c'.InStep := by
  induction h with
  | refl => exact hc
  | tail _ hchange ih => exact hchange.inStep hG ih

end Changes

theorem Config.Banded.inBand {G : Guard} {c : Config} (h : c.Banded) (hc : c.Sound G) : c.InBand := by
  obtain ⟨s, flight⟩ := c
  cases flight with
  | matching t => exact fun fill book hnext => h.1.nextFill hc.1 hnext
  | idle | matched t => trivial

/-- Orders come in under ids without a record, and both orders of every auction trade can fill it. -/
def stepGuard : Guard where
  entry s t := s.orderOwnershipById.lookup t.id = none
  auction book _ traded := book.Aligned traded

/-- The operation returns, sets a price band only around what rests, and ends no auction with hidden
orders. -/
structure Op.KeepsStep (op : Op) (s : MatchingEngine) : Prop where
  returns : (op.returned s).isSome
  bands : op.BandsAround s
  visible : op.AuctionVisible s

instance (op : Op) (s : MatchingEngine) : Decidable (op.BandsAround s) :=
  match op with
  | .setPriceBands symbol lowerPrice upperPrice =>
    inferInstanceAs (Decidable (∀ order ∈ (s.bookFor symbol).sideOrders .bid ++
      (s.bookFor symbol).sideOrders .ask, lowerPrice ≤ order.price ∧ order.price ≤ upperPrice))
  | .setFeeModel .. | .setAccountRiskConfig .. | .setAccountState .. | .haltSymbol ..
  | .resumeSymbol .. | .clearPriceBands .. | .setTradingPhase .. | .placeLimitOrder ..
  | .placeHiddenOrder .. | .placeIcebergOrder .. | .placeMarketOrder .. | .placeStopOrder ..
  | .placeStopLimitOrder .. | .cancel .. | .replaceOrder .. | .replaceStopOrder ..
  | .replaceStopLimitOrder .. | .uncross .. => inferInstanceAs (Decidable True)

instance (op : Op) (s : MatchingEngine) : Decidable (op.KeepsStep s) :=
  decidable_of_iff ((op.returned s).isSome ∧ op.BandsAround s ∧ op.AuctionVisible s)
    ⟨fun h => ⟨h.1, h.2.1, h.2.2⟩, fun h => ⟨h.returns, h.bands, h.visible⟩⟩

/-- What holds between operations. -/
structure MatchingEngine.Kept (s : MatchingEngine) : Prop where
  sound : s.Sound stepGuard
  covered : s.BandsCover
  inStep : Config.InStep ⟨s, idle⟩

section Runs
variable {s s' : MatchingEngine} {op : Op} {events : List Event} {ops : List (Op × List Event)}

/-- What is sound with a guard is sound without. -/
theorem MatchingEngine.Sound.unguarded {G : Guard} (hs : s.Sound G) : s.Sound {} where
  book := hs.book
  rests_lt := hs.rests_lt
  rests_unique := hs.rests_unique
  owner_lt := hs.owner_lt
  owner_symbol := hs.owner_symbol
  owner_account _ := trivial
  stop_lt := hs.stop_lt
  stop_account _ := trivial
  stop_rests := hs.stop_rests
  stop_owner := hs.stop_owner
  unreserved := hs.unreserved
  pending := hs.pending

/-- The record of an order that is cancelled goes with it. -/
theorem cancel_unrecords (hs : s.Sound stepGuard) {id : OrderId} {owner : OrderOwnership}
    (howner : s.orderOwnershipById.lookup id = some owner) (hrests : s.Rests owner.symbol id) :
    Outcome (MatchingEngine.cancel owner.accountId id) s
      (fun _ s' => s'.orderOwnershipById.lookup id = none) fun _ _ => True := by
  have hstop : s.stopOrdersById.lookup id = none := by
    by_contra hsome
    obtain ⟨stop, hstop⟩ := Option.ne_none_iff_exists'.mp hsome
    rw [hs.stop_owner hstop] at howner
    cases howner
  have hcancels : ((s.bookFor owner.symbol).cancel id).1 ≠ [] := fun hempty =>
    hrests ((rests_of_cancel (hs.book owner.symbol)).mp hempty)
  unfold MatchingEngine.cancel
  simp only [outcome_bind, outcome_get, hstop, howner]
  rw [if_neg (not_not.mpr rfl), if_neg hcancels]
  simp only [outcome_bind, outcome_set, outcome_pure]
  rw [owners_of_frame (frame_of_unjournaled (unjournaled_trackEvents _ _)),
    owners_of_frame (frame_cancelResting s owner.accountId owner.symbol id)]
  show (s.orderOwnershipById.erase id).lookup id = none
  rw [Finmap.lookup_erase_ite, if_pos rfl]

/-- An order that can be replaced rests, and its record goes before it comes in again. -/
theorem MatchingEngine.Recorded.replaceEntries (hrecorded : s.Recorded) (hs : s.Sound stepGuard)
    (a : AccountId) (id : OrderId) (newPrice newQty : ℤ) :
    ∀ entry ∈ s.replaceEntries a id newPrice newQty,
      entry.1.orderOwnershipById.lookup entry.2.id = none := by
  intro entry hentry
  unfold MatchingEngine.replaceEntries at hentry
  cases howner : s.orderOwnershipById.lookup id with
  | none =>
    rw [howner] at hentry
    cases hentry
  | some owner =>
    simp only [howner] at hentry
    split_ifs at hentry with hgo
    swap
    · cases hentry
    obtain ⟨rfl, hvalid, -⟩ := hgo
    have hdisplayed : owner.visibility = .displayed := by
      unfold validateReplace at hvalid
      split_ifs at hvalid with hnot
      exact not_not.mp hnot
    have hrests : s.Rests owner.symbol id := by
      rcases hrecorded id owner howner with ⟨order, horder, -⟩ | ⟨hstub, -⟩
      · intro hnone
        rw [MatchingEngine.resting, hnone] at horder
        cases horder
      · rw [hstub.1] at hdisplayed
        cases hdisplayed
    have haudit : Step stepGuard owner.symbol s [] [] (s.replaceReleased owner.accountId owner.symbol id) :=
      .placing (.audit s ⟨rfl, rfl, rfl, rfl, rfl⟩)
    have hcancel := cancel_unrecords (s := s.replaceReleased owner.accountId owner.symbol id)
      (haudit.sound hs) howner hrests
    cases hexec : MatchingEngine.cancel owner.accountId id
        (s.replaceReleased owner.accountId owner.symbol id) with
    | error e s₁ =>
      rw [hexec] at hentry
      cases hentry
    | ok events s₁ =>
      rw [hexec] at hentry
      have hgone : s₁.orderOwnershipById.lookup id = none := hcancel.returns hexec
      have hnumbered := IdsBetween.entries (s := s₁)
        (t := limitTaker owner.accountId owner.symbol id owner.side newPrice newQty .gtc) hgone
      exact hnumbered.unrecorded entry hentry

theorem Op.KeepsStep.guarded (hop : op.KeepsStep s) (hs : s.Kept) : op.Guarded stepGuard s where
  account _ _ := trivial
  replace _ _ _ := trivial
  entry := by
    by_cases hadds : op.isAddition
    · obtain ⟨high, hnumbered⟩ := Op.entries_numbered hs.sound.unguarded hadds
      exact hnumbered.unrecorded
    · cases op with
      | replaceOrder a id newPrice newQty =>
        exact hs.inStep.recorded.replaceEntries hs.sound a id newPrice newQty
      | cancel | uncross | setAccountState | setFeeModel | setAccountRiskConfig | haltSymbol
      | resumeSymbol | setPriceBands | clearPriceBands | setTradingPhase =>
        intro entry hentry
        cases hentry
      | _ => exact absurd trivial hadds
  auction := (hop.visible.guarded hs.sound).auction

/-- Settings change no book, no record and no reserve. -/
theorem Config.InStep.setup (hc : Config.InStep ⟨s, idle⟩) (hop : op.isSetup)
    (hexec : op.exec s = .ok events s') : Config.InStep ⟨s', idle⟩ := by
  rcases hop with hsetting | ⟨a, symbol, cash, qty, rfl⟩
  · have hunset := ((Op.exec_setting hsetting s).returns hexec).1
    have hmoney := money_of_unset hunset
    have howners := owners_of_unset hunset
    have hresting : ∀ symbol id, s'.resting symbol id = s.resting symbol id := fun symbol id => by
      rw [MatchingEngine.resting, MatchingEngine.resting, bookFor_of_unset hunset]
    refine ⟨hc.owned.congr hresting howners, hc.recorded.congr hresting howners,
      hc.entered.congr howners (reserves_of_money hmoney),
      hc.balanced.congr howners (reserves_of_money hmoney) fun kind a symbol => ?_, trivial⟩
    rw [account_of_money hmoney]
  · cases hexec
    refine hc.of_undisturbed ⟨fun _ _ => rfl, rfl, fun kind b symbol' => ?_,
      fun kind => by cases kind <;> rfl, ⟨rfl, rfl, rfl⟩⟩
    rw [account_updateAccount]
    split_ifs <;> rfl

theorem Op.exec_kept (hs : s.Kept) (hop : op.KeepsStep s) (hexec : op.exec s = .ok events s') :
    s'.Kept := by
  have hguarded := hop.guarded hs
  obtain ⟨hsound, hcover, hstep⟩ := hs
  have hsound' := (Op.exec_sound hsound hguarded).returns hexec
  by_cases hsetup : op.isSetup
  · refine ⟨hsound', ?_, hstep.setup hsetup hexec⟩
    rcases hsetup with hsetting | ⟨a, symbol, cash, qty, rfl⟩
    · have hunset := ((Op.exec_setting hsetting s).returns hexec).1
      have hvacates : s.Vacates s' := vacates_of_books fun symbol => bookFor_of_unset hunset symbol
      have hbands := (Op.setting_covers hcover hop.bands hsetting).returns hexec
      exact fun symbol side price h => hbands symbol side price (hvacates _ _ _ h)
    · cases hexec
      exact hcover
  · have hpath := (Op.exec_ticks hsound hguarded hsetup).returns hexec
    have hkept := tick_path_invariant (I := fun c => c.Banded ∧ c.InStep)
      (fun hc hI htick => ⟨Tick.banded hc hI.1 htick, hI.2.changes id
        (htick.changes (fun _ => id) hc fun _ => hI.1.inBand hc)⟩)
      ⟨hsound, trivial⟩ ⟨⟨hcover, trivial⟩, hstep⟩ hpath
    exact ⟨hsound', hkept.1.1, hkept.2⟩

theorem Config.inStep_fresh : Config.InStep ⟨fresh, idle⟩ where
  owned _ _ _ horder := by cases horder
  recorded _ _ howner := by cases howner
  entered := ⟨fun kind _ hsome => by cases kind <;> exact absurd rfl hsome,
    fun _ _ howner => by cases howner⟩
  balanced kind a symbol := by cases kind <;> rfl
  flight := trivial

theorem Run.kept (h : Run (fun _ s op => op.KeepsStep s) fresh ops s) : s.Kept := by
  refine h.invariant ⟨sound_fresh _, bandsCover_fresh, Config.inStep_fresh⟩ fun {ops s op} hs hop => ?_
  have hreturns := hop.returns
  unfold Outcome
  unfold Op.returned at hreturns
  cases hexec : op.exec s with
  | ok events s' => exact Op.exec_kept hs hop hexec
  | error e s' =>
    rw [hexec] at hreturns
    cases hreturns

/-- Every resting order has a record that shows it; every record is of a resting order or of what the
book has refused; every reserve is of a recorded order; and accounts reserve what their orders do. -/
theorem books_records_reserves (h : Run (fun _ s op => op.KeepsStep s) fresh ops s) :
    (∀ symbol id order, s.resting symbol id = some order →
      ∃ owner, s.orderOwnershipById.lookup id = some owner ∧ owner.symbol = symbol ∧
        owner.Shows order) ∧
    (∀ id owner, s.orderOwnershipById.lookup id = some owner →
      (∃ order, s.resting owner.symbol id = some order ∧ owner.Shows order) ∨
        owner.Stub ∧ ∀ symbol, s.resting symbol id = none) ∧
    (∀ kind id, (s.reserves kind).lookup id ≠ none →
      ∃ owner, s.orderOwnershipById.lookup id = some owner ∧ kind.side = owner.side) ∧
    ∀ kind a symbol, (s.account a).reserved symbol kind = s.ownedReserve kind a symbol := by
  have hstep := h.kept.inStep
  exact ⟨fun symbol id order horder => hstep.recorded.shows hstep.owned horder, hstep.recorded,
    hstep.entered.recorded, hstep.balanced⟩

end Runs

/-- An offer of six of which four sell, an iceberg that takes the rest and has less than its clip
left, and a hidden bid. -/
def stubDay : List Op :=
  [.setAccountState 1 "X" 0 20, .setAccountState 2 "X" 9000 0,
    .placeLimitOrder 1 "X" .ask 100 6 .gtc, .placeLimitOrder 2 "X" .bid 100 4 .gtc,
    .placeIcebergOrder 2 "X" .bid 101 5 4, .placeHiddenOrder 2 "X" .bid 99 3]

/-- The book has refused the iceberg, but its account has reserved cash for it. -/
theorem books_records_reserves_stubDay :
    (∀ kind a symbol, ((fresh.applyAll stubDay).account a).reserved symbol kind =
      (fresh.applyAll stubDay).ownedReserve kind a symbol) ∧
    (fresh.applyAll stubDay).resting "X" 3 = none ∧
    ((fresh.applyAll stubDay).orderOwnershipById.lookup 3).map OrderOwnership.qty = some 3 ∧
    ((fresh.applyAll stubDay).account 2).reservedCash = 3 * 101 + 3 * 99 := by
  refine ⟨?_, ?_, ?_, ?_⟩
  · exact (books_records_reserves (Run.ofOps stubDay (by decide +kernel))).2.2.2
  · decide +kernel
  · decide +kernel
  · decide +kernel

end Tes
