import Tes.Book.Depth
import Tes.Library.CallAuction

/-! Books of displayed orders only: each side is one list of orders in matching order, and a fill
takes from its first. -/
namespace Tes
open CallAuction

namespace OrderBook

/-- The orders of a side in matching order, with their prices and quantities. -/
def queued (book : OrderBook) (side : Side) : List (OrderId × ℤ × ℤ) :=
  (book.sideOrders side).map fun order => (order.id, order.price, totalRemainingQty order)

/-- No order hides any of its quantity. -/
def AllDisplayed (book : OrderBook) : Prop :=
  ∀ side, ∀ order ∈ book.sideOrders side, order.visibility = .displayed

section Queued
variable {book book' : OrderBook} {side : Side}

theorem WellFormed.level_prices (hb : book.WellFormed) {e : ℤ × Level}
    (he : e ∈ (book.levels side).entries) : ∀ order ∈ e.2.orders, order.price = e.1 := by
  intro order horder
  obtain ⟨kind, hkind⟩ := Level.mem_orders.mp horder
  exact ((hb.level (OrderedMap.mem_entries_iff.mp he)).placed kind order hkind).price

/-- Price first: no order is listed before one at a better price. -/
theorem WellFormed.queued_sorted (hb : book.WellFormed) (side : Side) :
    (book.queued side).Pairwise fun x y => ¬ side.before y.2.1 x.2.1 := by
  unfold queued sideOrders
  rw [List.pairwise_map, List.pairwise_flatMap]
  constructor
  · intro e he
    have hprices := hb.level_prices he
    refine List.pairwise_iff_forall_sublist.mpr fun {x y} hxy => ?_
    have hx := hxy.mem (List.mem_cons_self)
    have hy := hxy.mem (List.mem_cons_of_mem x (List.mem_singleton_self y))
    dsimp only
    rw [hprices x hx, hprices y hy]
    exact irrefl_of side.before _
  · refine (book.levels side).sorted.imp_of_mem fun he he' hlt x hx y hy => ?_
    dsimp only
    rw [hb.level_prices he x hx, hb.level_prices he' y hy]
    exact fun hgt => irrefl_of side.before _ (trans_of side.before hlt hgt)

theorem WellFormed.queued_pos (hb : book.WellFormed) :
    ∀ order ∈ book.queued side, 0 < order.2.2 := by
  intro x hx
  obtain ⟨order, horder, rfl⟩ := List.mem_map.mp hx
  exact (hb.wellFormed_of_mem horder).total_pos

private theorem sum_filter {q : ℤ → Bool} (l : List (ℤ × ℤ)) :
    ((l.filter fun x => q x.1).map Prod.snd).sum = (l.map fun x => if q x.1 then x.2 else 0).sum := by
  induction l with
  | nil => rfl
  | cons x rest ih =>
    rw [List.map_cons, List.sum_cons, ← ih, List.filter_cons]
    split_ifs
    · rw [List.map_cons, List.sum_cons]
    · rw [zero_add]

theorem AllDisplayed.visible_eq (hb : book.WellFormed) (hdisplayed : book.AllDisplayed)
    {order : Order} (horder : order ∈ book.sideOrders side) :
    visibleQty order = totalRemainingQty order := by
  have hwf := hb.wellFormed_of_mem horder
  unfold Order.WellFormed at hwf
  unfold visibleQty totalRemainingQty
  rw [hdisplayed side order horder] at hwf ⊢
  dsimp only at hwf
  rw [if_neg (by decide), hwf.2, add_zero]

/-- A level shows all that its orders have left. -/
theorem AllDisplayed.aggregate_eq (hb : book.WellFormed) (hdisplayed : book.AllDisplayed)
    {e : ℤ × Level} (he : e ∈ (book.levels side).entries) : e.2.aggregateQty = e.2.totalQty := by
  rw [(hb.level (OrderedMap.mem_entries_iff.mp he)).aggregate, Level.totalQty]
  refine congrArg List.sum (List.map_congr_left fun order horder => ?_)
  exact hdisplayed.visible_eq hb (List.mem_flatMap.mpr ⟨e, he, horder⟩)

/-- What the levels show at prices of a kind is what the orders there have left. -/
theorem AllDisplayed.sum_shown (hb : book.WellFormed) (hdisplayed : book.AllDisplayed)
    (side : Side) (q : ℤ → Bool) : (((book.shown side).filter fun l => q l.1).map Prod.snd).sum =
      ((((book.queued side).map Prod.snd).filter fun l => q l.1).map Prod.snd).sum := by
  have hshown : book.shown side = (book.levels side).entries.map fun e => (e.1, e.2.aggregateQty) := by
    unfold shown appendLevels
    dsimp only
    rw [List.filter_eq_self.mpr fun e he => ?_]
    rw [hdisplayed.aggregate_eq hb he]
    exact decide_eq_true (hb.level_totalQty_pos he)
  have hqueued : (((book.queued side).map Prod.snd).map fun x => if q x.1 then x.2 else 0).sum =
      book.sideTotal side fun order => if q order.price then totalRemainingQty order else 0 := by
    unfold queued sideTotal
    rw [List.map_map, List.map_map]
    rfl
  rw [sum_filter, sum_filter, hqueued, sideTotal_eq, hshown, List.map_map]
  refine congrArg List.sum (List.map_congr_left fun e he => ?_)
  have hprices : e.2.orders.map (fun order => if q order.price then totalRemainingQty order else 0) =
      e.2.orders.map fun order => if q e.1 then totalRemainingQty order else 0 :=
    List.map_congr_left fun order horder => by rw [hb.level_prices he order horder]
  dsimp only [Function.comp_apply]
  rw [hprices, hdisplayed.aggregate_eq hb he]
  split_ifs
  · rfl
  · simp

/-- A fill leaves the rest of its side as it is. -/
theorem BestFill.sideOrders_after {qty : ℤ} {fill : FillResult} {maker : Order}
    {rest : List Order} (h : BestFill book book' side qty fill maker rest)
    (hdisplayed : maker.visibility = .displayed) : ∃ others,
      book.sideOrders side = maker :: others ∧
      book'.sideOrders side = (survivor maker fill.qty).toList ++ others := by
  obtain ⟨level, entries, hentries⟩ := h.first_level
  have hlevel : book.level? side maker.price = some level :=
    OrderedMap.mem_entries_iff.mp (by rw [hentries]; exact List.mem_cons_self)
  have hfront := h.front
  have hleft := h.left
  have hkind : queueKind maker.visibility = .displayed := by rw [hdisplayed]; rfl
  rw [hkind] at hfront hleft
  rw [queueAt_of_level hlevel] at hfront
  have hafter : queueAfter maker rest fill.qty = (survivor maker fill.qty).toList ++ rest := by
    have hspent : ¬ clipSpent .displayed (takeFrom .displayed maker fill.qty) := fun hspent =>
      nomatch hspent.1
    unfold queueAfter survivor
    rw [hkind]
    dsimp only
    rw [if_neg hspent, if_neg hspent]
    split_ifs <;> rfl
  refine ⟨rest ++ level.icebergOrders ++ level.hiddenOrders ++ entries.flatMap fun e => e.2.orders,
    ?_, ?_⟩
  · rw [sideOrders, hentries, List.flatMap_cons]
    have hd : level.displayedOrders = maker :: rest := hfront
    simp [Level.orders, hd]
  · rw [sideOrders, hleft, withQueue, levels_withSide, putLevel, levelAt, hlevel, Option.getD_some,
      hafter]
    split_ifs with hempty
    · have horders : ((level.addAggregate (visibleDelta maker fill.qty)).setQueue .displayed
          ((survivor maker fill.qty).toList ++ rest)).orders = [] := List.isEmpty_iff.mp hempty
      rw [OrderedMap.entries_erase_head hentries]
      simp only [Level.orders, Level.setQueue, Level.addAggregate, List.append_eq_nil_iff] at horders
      obtain ⟨⟨⟨hsurvivor, hrest⟩, hiceberg⟩, hhidden⟩ := horders
      rw [hsurvivor, hrest, hiceberg, hhidden]
      rfl
    · rw [OrderedMap.entries_insert_head hentries, List.flatMap_cons]
      simp [Level.orders, Level.setQueue, Level.addAggregate]

end Queued
end OrderBook
end Tes
