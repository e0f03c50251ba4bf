import Tes.Book.Liquidity

/-! Well-formed books pass the book's own check: no id rests twice, and the index lists the
resting ids and no others. -/
namespace Tes
namespace OrderBook
variable {book : OrderBook}

/-- The resting orders of both sides. -/
def resting (book : OrderBook) : List Order := book.sideOrders .bid ++ book.sideOrders .ask

theorem mem_resting {order : Order} :
    order ∈ book.resting ↔ ∃ side, order ∈ book.sideOrders side := by
  rw [resting, List.mem_append]
  constructor
  · rintro (h | h)
    · exact ⟨.bid, h⟩
    · exact ⟨.ask, h⟩
  · rintro ⟨side, h⟩
    cases side with
    | bid => exact Or.inl h
    | ask => exact Or.inr h

/-- Orders with one id rest in one queue. -/
theorem WellFormed.place_unique (hb : book.WellFormed) {side side' : Side} {price price' : ℤ}
    {kind kind' : QueueKind} {order order' : Order} (h : order ∈ book.queueAt side price kind)
    (h' : order' ∈ book.queueAt side' price' kind') (hid : order.id = order'.id) :
    side = side' ∧ price = price' ∧ kind = kind' := by
  have hentry := hb.lookup_of_mem (List.mem_map_of_mem h)
  have hentry' := hb.lookup_of_mem (List.mem_map_of_mem h')
  rw [hid, hentry'] at hentry
  cases hentry
  exact ⟨rfl, rfl, rfl⟩

theorem WellFormed.nodup_level (hb : book.WellFormed) {side : Side} {price : ℤ} {level : Level}
    (hl : book.level? side price = some level) : (level.orders.map Order.id).Nodup := by
  have hqueue : ∀ kind, level.queue kind = book.queueAt side price kind := fun kind =>
    (queueAt_of_level hl kind).symm
  have hapart : ∀ kind kind', kind ≠ kind' →
      ((level.queue kind).map Order.id).Disjoint ((level.queue kind').map Order.id) := by
    intro kind kind' hne id hid hid'
    obtain ⟨order, horder, rfl⟩ := List.mem_map.mp hid
    obtain ⟨order', horder', heq⟩ := List.mem_map.mp hid'
    rw [hqueue] at horder horder'
    exact hne (hb.place_unique horder horder' heq.symm).2.2
  unfold Level.orders
  rw [List.map_append, List.map_append]
  refine ((((hb.level hl).nodup .displayed).append ((hb.level hl).nodup .iceberg)
    (hapart .displayed .iceberg (by decide))).append ((hb.level hl).nodup .hidden) ?_)
  intro id hid hid'
  rcases List.mem_append.mp hid with h | h
  · exact hapart .displayed .hidden (by decide) h hid'
  · exact hapart .iceberg .hidden (by decide) h hid'

theorem WellFormed.nodup_sideOrders (hb : book.WellFormed) (side : Side) :
    ((book.sideOrders side).map Order.id).Nodup := by
  rw [sideOrders, List.map_flatMap, List.nodup_flatMap]
  refine ⟨fun e he => hb.nodup_level (OrderedMap.mem_entries_iff.mp he), ?_⟩
  refine List.Pairwise.imp_of_mem (fun {e e'} he he' hlt => ?_) (book.levels side).sorted
  intro id hid hid'
  obtain ⟨order, horder, rfl⟩ := List.mem_map.mp hid
  obtain ⟨order', horder', heq⟩ := List.mem_map.mp hid'
  obtain ⟨kind, hkind⟩ := Level.mem_orders.mp horder
  obtain ⟨kind', hkind'⟩ := Level.mem_orders.mp horder'
  rw [← queueAt_of_level (OrderedMap.mem_entries_iff.mp he)] at hkind
  rw [← queueAt_of_level (OrderedMap.mem_entries_iff.mp he')] at hkind'
  have hprice := (hb.place_unique hkind hkind' heq.symm).2.1
  rw [hprice] at hlt
  exact irrefl_of side.before _ hlt

/-- No id rests twice, on either side. -/
theorem WellFormed.nodup_resting (hb : book.WellFormed) : (book.resting.map Order.id).Nodup := by
  rw [resting, List.map_append]
  refine (hb.nodup_sideOrders .bid).append (hb.nodup_sideOrders .ask) fun id hid hid' => ?_
  obtain ⟨order, horder, rfl⟩ := List.mem_map.mp hid
  obtain ⟨order', horder', heq⟩ := List.mem_map.mp hid'
  obtain ⟨price, kind, hkind⟩ := OrderBook.mem_sideOrders.mp horder
  obtain ⟨price', kind', hkind'⟩ := OrderBook.mem_sideOrders.mp horder'
  have hside := (hb.place_unique hkind hkind' heq.symm).1
  cases hside

theorem WellFormed.mem_keys (hb : book.WellFormed) {id : OrderId} :
    id ∈ book.orderIndex.keys ↔ id ∈ book.resting.map Order.id := by
  rw [Finmap.mem_keys, ← Finmap.lookup_isSome, Option.isSome_iff_ne_none, Ne,
    ← hb.findOrder_eq_none, List.mem_map]
  constructor
  · intro h
    obtain ⟨order, horder⟩ := Option.ne_none_iff_exists'.mp h
    exact ⟨order, mem_resting.mpr ⟨order.side, hb.mem_sideOrders.mpr
      ⟨(hb.findOrder_wellFormed horder).2 ▸ horder, rfl⟩⟩, (hb.findOrder_wellFormed horder).2⟩
  · rintro ⟨order, horder, rfl⟩
    obtain ⟨side, hside⟩ := mem_resting.mp horder
    rw [(hb.mem_sideOrders.mp hside).1]
    exact Option.some_ne_none _

theorem liveOrders_eq (book : OrderBook) (side : Side) :
    book.liveOrders side = (book.sideOrders side).length := by
  rw [liveOrders, sideOrders, List.length_flatMap]

theorem WellFormed.validateSide (hb : book.WellFormed) (side : Side) :
    book.validateSide side = true := by
  refine List.all_eq_true.mpr fun ⟨price, level⟩ he => ?_
  have hl : book.level? side price = some level := OrderedMap.mem_entries_iff.mp he
  have horders : level.orders.all (book.indexedAt side price) = true := by
    refine List.all_eq_true.mpr fun order horder => ?_
    obtain ⟨kind, hkind⟩ := Level.mem_orders.mp horder
    rw [← queueAt_of_level hl] at hkind
    rw [indexedAt, hb.lookup_of_mem (List.mem_map_of_mem hkind)]
    exact decide_eq_true ⟨rfl, rfl⟩
  dsimp only
  rw [horders, (hb.level hl).nonempty, decide_eq_true (hb.level hl).aggregate.symm]
  rfl

/-- A well-formed book passes its own check. -/
theorem WellFormed.validateInvariants (hb : book.WellFormed) : book.validateInvariants = true := by
  have hcard : book.orderIndex.keys.card = book.liveOrders .bid + book.liveOrders .ask := by
    have hkeys : book.orderIndex.keys = (book.resting.map Order.id).toFinset :=
      Finset.ext fun id => by rw [hb.mem_keys, List.mem_toFinset]
    rw [hkeys, List.toFinset_card_of_nodup hb.nodup_resting, List.length_map, resting,
      List.length_append, liveOrders_eq, liveOrders_eq]
  unfold OrderBook.validateInvariants
  rw [hb.validateSide, hb.validateSide, decide_eq_true hcard]
  rfl

end OrderBook
end Tes
