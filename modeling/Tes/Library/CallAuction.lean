import Mathlib.Algebra.Order.BigOperators.Group.List
import Mathlib.Algebra.Order.Group.Unbundled.Basic
import Mathlib.Data.Finset.Max
import Mathlib.Order.OrderDual
import Mathlib.Tactic.Abel

/-! Call auctions over any prices and quantities: the volume that orders at a price or better can
trade, and the prices at which it is largest. -/
namespace CallAuction

/-! Fills in priority: an order is an id with its price and its quantity, and the orders of a side
are listed best first. -/
section Priority
variable {ι α β : Type} [AddCommGroup β] [LinearOrder β] {ok : α → Prop}
  {orders left : List (ι × α × β)} {fills : List (ι × β)}

/-- Fills that take, one after another, from the first order, at prices that are `ok`. -/
inductive Served (ok : α → Prop) : List (ι × α × β) → List (ι × β) → List (ι × α × β) → Prop
  | done (orders : List (ι × α × β)) : Served ok orders [] orders
  | part {i : ι} {p : α} {q taken : β} {rest left : List (ι × α × β)} {fills : List (ι × β)} :
      ok p → 0 < taken → taken < q → Served ok ((i, p, q - taken) :: rest) fills left →
      Served ok ((i, p, q) :: rest) ((i, taken) :: fills) left
  | whole {i : ι} {p : α} {q : β} {rest left : List (ι × α × β)} {fills : List (ι × β)} :
      ok p → 0 < q → Served ok rest fills left → Served ok ((i, p, q) :: rest) ((i, q) :: fills) left

/-- What is left has prices that were there. -/
theorem Served.price_mem (h : Served ok orders fills left) {order : ι × α × β} (horder : order ∈ left) :
    ∃ other ∈ orders, other.2.1 = order.2.1 := by
  induction h with
  | done orders => exact ⟨order, horder, rfl⟩
  | part _ _ _ _ ih =>
    obtain ⟨other, hother, heq⟩ := ih horder
    rcases List.mem_cons.mp hother with rfl | hother
    · exact ⟨_, List.mem_cons_self, heq⟩
    · exact ⟨other, List.mem_cons_of_mem _ hother, heq⟩
  | whole _ _ _ ih =>
    obtain ⟨other, hother, heq⟩ := ih horder
    exact ⟨other, List.mem_cons_of_mem _ hother, heq⟩

theorem Served.pos [IsOrderedAddMonoid β] (h : Served ok orders fills left)
    (hpos : ∀ order ∈ orders, 0 < order.2.2) : ∀ order ∈ left, 0 < order.2.2 := by
  induction h with
  | done orders => exact hpos
  | part _ _ hlt _ ih =>
    obtain ⟨_, hrest⟩ := List.forall_mem_cons.mp hpos
    exact ih (List.forall_mem_cons.mpr ⟨sub_pos.mpr hlt, hrest⟩)
  | whole _ _ _ ih => exact ih (List.forall_mem_cons.mp hpos).2

variable [LinearOrder α]

/-- Best first, for bids. -/
def Sorted (orders : List (ι × α × β)) : Prop := orders.Pairwise fun x y => y.2.1 ≤ x.2.1

/-- Every fill is at least as good as what is left. -/
theorem Served.best (h : Served ok orders fills left) (hsorted : Sorted orders) {order : ι × α × β}
    (horder : order ∈ left) : Served (order.2.1 ≤ ·) orders fills left := by
  induction h with
  | done orders => exact .done orders
  | @part i p q taken rest left fills _ hpos hlt hrest ih =>
    obtain ⟨hhead, htail⟩ := List.pairwise_cons.mp hsorted
    refine .part ?_ hpos hlt (ih (List.pairwise_cons.mpr ⟨hhead, htail⟩) horder)
    obtain ⟨other, hother, heq⟩ := hrest.price_mem horder
    rw [← heq]
    rcases List.mem_cons.mp hother with rfl | hother
    · exact le_rfl
    · exact hhead other hother
  | @whole i p q rest left fills _ hpos hrest ih =>
    obtain ⟨hhead, htail⟩ := List.pairwise_cons.mp hsorted
    refine .whole ?_ hpos (ih htail horder)
    obtain ⟨other, hother, heq⟩ := hrest.price_mem horder
    rw [← heq]
    exact hhead other hother

end Priority

variable {α β : Type} [LinearOrder α] [AddCommGroup β]

/-- The quantity bid at a price or better. -/
def demand (bids : List (α × β)) (p : α) : β := ((bids.filter fun bid => p ≤ bid.1).map Prod.snd).sum

/-- The quantity offered at a price or better. -/
def supply (asks : List (α × β)) (p : α) : β := ((asks.filter fun ask => ask.1 ≤ p).map Prod.snd).sum

variable {bids asks : List (α × β)} {p q : α}

theorem demand_cons (bid : α × β) (bids : List (α × β)) (p : α) :
    demand (bid :: bids) p = (if p ≤ bid.1 then bid.2 else 0) + demand bids p := by
  unfold demand
  rw [List.filter_cons]
  split_ifs with h h' h'
  · rw [List.map_cons, List.sum_cons]
  · exact absurd (of_decide_eq_true h) h'
  · exact absurd (decide_eq_true h') h
  · rw [zero_add]

/-- Where no bid lies between two prices, the same is bid at both. -/
theorem demand_congr (h : ∀ bid ∈ bids, p ≤ bid.1 ↔ q ≤ bid.1) : demand bids p = demand bids q := by
  unfold demand
  rw [List.filter_congr fun bid hbid => decide_eq_decide.mpr (h bid hbid)]

variable [LinearOrder β]

/-- A quantity bid at a price that all fills reach goes down by what they take. -/
theorem Served.demand_eq {ι : Type} {ok : α → Prop} {orders left : List (ι × α × β)}
    {fills : List (ι × β)} (h : Served ok orders fills left) {b : α} (hok : ∀ p, ok p → b ≤ p) :
    demand (orders.map Prod.snd) b = (fills.map Prod.snd).sum + demand (left.map Prod.snd) b := by
  induction h with
  | done orders => rw [List.map_nil, List.sum_nil, zero_add]
  | @part i p q taken rest left fills hp _ _ _ ih =>
    rw [List.map_cons, demand_cons, if_pos (hok p hp)] at ih ⊢
    rw [List.map_cons, List.sum_cons, add_assoc, ← ih]
    dsimp only
    abel
  | @whole i p q rest left fills hp _ _ ih =>
    rw [List.map_cons, demand_cons, if_pos (hok p hp), ih, List.map_cons, List.sum_cons, add_assoc]

variable [IsOrderedAddMonoid β]

theorem demand_nonneg (h : ∀ bid ∈ bids, 0 < bid.2) (p : α) : 0 ≤ demand bids p := by
  refine List.sum_nonneg fun x hx => ?_
  obtain ⟨bid, hbid, rfl⟩ := List.mem_map.mp hx
  exact (h bid (List.mem_of_mem_filter hbid)).le

theorem demand_anti (h : ∀ bid ∈ bids, 0 < bid.2) (hpq : p ≤ q) : demand bids q ≤ demand bids p := by
  induction bids with
  | nil => exact le_rfl
  | cons bid rest ih =>
    obtain ⟨hbid, hrest⟩ := List.forall_mem_cons.mp h
    rw [demand_cons, demand_cons]
    refine add_le_add ?_ (ih hrest)
    split_ifs with hq hp hp
    · exact le_rfl
    · exact absurd (hpq.trans hq) hp
    · exact hbid.le
    · exact le_rfl

theorem demand_pos_iff (h : ∀ bid ∈ bids, 0 < bid.2) :
    0 < demand bids p ↔ ∃ bid ∈ bids, p ≤ bid.1 := by
  induction bids with
  | nil => simp [demand]
  | cons bid rest ih =>
    obtain ⟨hbid, hrest⟩ := List.forall_mem_cons.mp h
    rw [demand_cons, List.exists_mem_cons_iff, ← ih hrest]
    split_ifs with hp
    · exact iff_of_true (add_pos_of_pos_of_nonneg hbid (demand_nonneg hrest p)) (Or.inl hp)
    · rw [zero_add]
      exact (or_iff_right hp).symm

theorem supply_mono (h : ∀ ask ∈ asks, 0 < ask.2) (hpq : p ≤ q) : supply asks p ≤ supply asks q :=
  demand_anti (α := αᵒᵈ) h hpq

theorem supply_pos_iff (h : ∀ ask ∈ asks, 0 < ask.2) :
    0 < supply asks p ↔ ∃ ask ∈ asks, ask.1 ≤ p := demand_pos_iff (α := αᵒᵈ) h

/-- What can trade at a price. -/
def volume (bids asks : List (α × β)) (p : α) : β := min (demand bids p) (supply asks p)

section Volume
variable (hbids : ∀ bid ∈ bids, 0 < bid.2) (hasks : ∀ ask ∈ asks, 0 < ask.2)
include hbids hasks

theorem volume_pos_iff :
    0 < volume bids asks p ↔ (∃ bid ∈ bids, p ≤ bid.1) ∧ ∃ ask ∈ asks, ask.1 ≤ p := by
  rw [volume, lt_min_iff, demand_pos_iff hbids, supply_pos_iff hasks]

/-- Something trades at some offer exactly if a bid meets an offer. -/
theorem exists_volume_pos_iff :
    (∃ ask ∈ asks, 0 < volume bids asks ask.1) ↔ ∃ bid ∈ bids, ∃ ask ∈ asks, ask.1 ≤ bid.1 := by
  constructor
  · rintro ⟨ask, hask, hpos⟩
    obtain ⟨⟨bid, hbid, hle⟩, -⟩ := (volume_pos_iff hbids hasks).mp hpos
    exact ⟨bid, hbid, ask, hask, hle⟩
  · rintro ⟨bid, hbid, ask, hask, hle⟩
    exact ⟨ask, hask, (volume_pos_iff hbids hasks).mpr ⟨⟨bid, hbid, hle⟩, ask, hask, le_rfl⟩⟩

/-- The lowest bid at a price or better trades at least as much as the price. -/
theorem exists_volume_le (hpos : 0 < volume bids asks p) :
    ∃ bid ∈ bids, volume bids asks p ≤ volume bids asks bid.1 := by
  obtain ⟨⟨first, hfirst, hle⟩, -⟩ := (volume_pos_iff hbids hasks).mp hpos
  have hnonempty : ((bids.map Prod.fst).toFinset.filter (p ≤ ·)).Nonempty :=
    ⟨first.1, by simpa using ⟨⟨first.2, hfirst⟩, hle⟩⟩
  obtain ⟨price, hprice, hlowest⟩ := Finset.exists_min_image _ id hnonempty
  obtain ⟨hmem, hp⟩ := Finset.mem_filter.mp hprice
  obtain ⟨bid, hbid, rfl⟩ := List.mem_map.mp (List.mem_toFinset.mp hmem)
  refine ⟨bid, hbid, ?_⟩
  have hdemand : demand bids p = demand bids bid.1 := by
    refine demand_congr fun other hother => ⟨fun hle => ?_, hp.trans⟩
    exact hlowest other.1 (by simpa using ⟨⟨other.2, hother⟩, hle⟩)
  unfold volume
  rw [hdemand]
  exact min_le_min_left _ (supply_mono hasks hp)

end Volume

/-- Where the most that any price trades has been taken from both sides in priority, no bid that
is left meets an offer that is left. -/
theorem uncrossed {ι : Type} {okBid okAsk : α → Prop} {bids asks bidsLeft asksLeft : List (ι × α × β)}
    {bidFills askFills : List (ι × β)} (hbids : Served okBid bids bidFills bidsLeft)
    (hasks : Served okAsk asks askFills asksLeft) (hbidsSorted : Sorted bids)
    (hasksSorted : Sorted (α := αᵒᵈ) asks) (hbidsPos : ∀ bid ∈ bids, 0 < bid.2.2)
    (hasksPos : ∀ ask ∈ asks, 0 < ask.2.2)
    (hfills : (bidFills.map Prod.snd).sum = (askFills.map Prod.snd).sum)
    (hmost : ∀ p, volume (bids.map Prod.snd) (asks.map Prod.snd) p ≤ (bidFills.map Prod.snd).sum)
    {bid ask : ι × α × β} (hbid : bid ∈ bidsLeft) (hask : ask ∈ asksLeft) : bid.2.1 < ask.2.1 := by
  by_contra hcross
  have hle : ask.2.1 ≤ bid.2.1 := not_lt.mp hcross
  have hdemand := (hbids.best hbidsSorted hbid).demand_eq fun p hp => hle.trans hp
  have hsupply : supply (asks.map Prod.snd) ask.2.1 =
      (askFills.map Prod.snd).sum + supply (asksLeft.map Prod.snd) ask.2.1 :=
    Served.demand_eq (α := αᵒᵈ) (Served.best (α := αᵒᵈ) hasks hasksSorted hask) fun p hp => hp
  have hbidPos : 0 < demand (bidsLeft.map Prod.snd) ask.2.1 := by
    refine (demand_pos_iff fun other hother => ?_).mpr ⟨bid.2, List.mem_map_of_mem hbid, hle⟩
    obtain ⟨order, horder, rfl⟩ := List.mem_map.mp hother
    exact hbids.pos hbidsPos order horder
  have haskPos : 0 < supply (asksLeft.map Prod.snd) ask.2.1 := by
    refine (supply_pos_iff fun other hother => ?_).mpr ⟨ask.2, List.mem_map_of_mem hask, le_rfl⟩
    obtain ⟨order, horder, rfl⟩ := List.mem_map.mp hother
    exact hasks.pos hasksPos order horder
  refine (hmost ask.2.1).not_gt (lt_min ?_ ?_)
  · rw [hdemand]
    exact lt_add_of_pos_right _ hbidPos
  · rw [hsupply, hfills]
    exact lt_add_of_pos_right _ haskPos

end CallAuction
