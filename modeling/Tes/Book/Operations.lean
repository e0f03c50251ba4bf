import Tes.Book.WellFormed

/-! What the book operations do to the resting orders, read through the index. -/
namespace Tes
namespace OrderBook

theorem find_id_of_mem {orders : List Order} {order : Order}
    (hnodup : (orders.map Order.id).Nodup) (h : order ∈ orders) :
    orders.find? (fun other => other.id = order.id) = some order := by
  induction orders with
  | nil => cases h
  | cons head rest ih =>
    obtain ⟨hhead, hrest⟩ := List.nodup_cons.mp (List.map_cons ▸ hnodup)
    rcases List.mem_cons.mp h with rfl | hmem
    · simp
    · have hne : head.id ≠ order.id := fun he => hhead (he ▸ List.mem_map_of_mem hmem)
      rw [List.find?_cons_of_neg (by simpa using hne)]
      exact ih hrest hmem

/-- An order is found exactly where it is queued. -/
theorem WellFormed.findOrder_iff {book : OrderBook} (hb : book.WellFormed) {id : OrderId}
    {order : Order} : book.findOrder id = some order ↔
      order ∈ book.queueAt order.side order.price (queueKind order.visibility) ∧ order.id = id := by
  have hfind : ∀ entry : IndexEntry, (((book.levels entry.side).find? entry.price).bind fun level =>
      (level.queue entry.queue).find? fun order => order.id = id) =
      (book.queueAt entry.side entry.price entry.queue).find? fun order => order.id = id := by
    intro entry
    cases hl : book.level? entry.side entry.price with
    | none => rw [queueAt_of_none hl]; rw [level?] at hl; simp [hl]
    | some level => rw [queueAt_of_level hl]; rw [level?] at hl; simp [hl]
  constructor
  · intro h
    obtain ⟨entry, hentry, horder⟩ := Option.bind_eq_some_iff.mp h
    rw [hfind] at horder
    have hmem := List.mem_of_find?_eq_some horder
    have hid : order.id = id := by simpa using List.find?_some horder
    obtain ⟨-, hside, hprice, hkind⟩ := hb.placed hmem
    rw [hside, hprice, hkind]
    exact ⟨hmem, hid⟩
  · rintro ⟨hmem, rfl⟩
    have hentry := hb.lookup_of_mem (List.mem_map_of_mem hmem)
    rw [findOrder, hentry, Option.bind_some, hfind]
    exact find_id_of_mem (hb.nodup_queueAt _ _ _) hmem

theorem WellFormed.findOrder_of_mem {book : OrderBook} (hb : book.WellFormed) {side : Side}
    {price : ℤ} {kind : QueueKind} {order : Order} (h : order ∈ book.queueAt side price kind) :
    book.findOrder order.id = some order := by
  obtain ⟨-, hside, hprice, hkind⟩ := hb.placed h
  exact hb.findOrder_iff.mpr ⟨by rwa [hside, hprice, hkind], rfl⟩

theorem WellFormed.findOrder_wellFormed {book : OrderBook} (hb : book.WellFormed) {id : OrderId}
    {order : Order} (h : book.findOrder id = some order) : order.WellFormed ∧ order.id = id :=
  ⟨(hb.placed (hb.findOrder_iff.mp h).1).wellFormed, (hb.findOrder_iff.mp h).2⟩

theorem WellFormed.findOrder_eq_none {book : OrderBook} (hb : book.WellFormed) {id : OrderId} :
    book.findOrder id = none ↔ book.orderIndex.lookup id = none := by
  constructor
  · intro h
    cases hentry : book.orderIndex.lookup id with
    | none => rfl
    | some entry =>
      obtain ⟨order, horder, rfl⟩ := List.mem_map.mp (hb.indexed_queueAt.mp hentry)
      rw [hb.findOrder_of_mem horder] at h
      cases h
  · intro h
    rw [findOrder, h]
    rfl

/-! Adding an order. -/
section Add
variable {book : OrderBook} {order : Order}

theorem arrange_placed {visibility : OrderVisibility} (hqty : 0 < order.qty)
    (hdisplay : visibility = .iceberg → 0 < order.displayQty ∧ order.displayQty ≤ order.qty) :
    (arrange order visibility).Placed order.side order.price (queueKind visibility) := by
  cases visibility with
  | displayed => exact ⟨⟨hqty, rfl⟩, rfl, rfl, rfl⟩
  | hidden => exact ⟨⟨rfl, hqty⟩, rfl, rfl, rfl⟩
  | iceberg =>
    obtain ⟨hpos, hle⟩ := hdisplay rfl
    refine ⟨?_, rfl, rfl, rfl⟩
    simp only [Order.WellFormed, arrange]
    omega

@[simp] theorem arrange_id (order : Order) (visibility : OrderVisibility) :
    (arrange order visibility).id = order.id := by cases visibility <;> rfl

@[simp] theorem arrange_side (order : Order) (visibility : OrderVisibility) :
    (arrange order visibility).side = order.side := by cases visibility <;> rfl

@[simp] theorem arrange_price (order : Order) (visibility : OrderVisibility) :
    (arrange order visibility).price = order.price := by cases visibility <;> rfl

@[simp] theorem arrange_visibility (order : Order) (visibility : OrderVisibility) :
    (arrange order visibility).visibility = visibility := by cases visibility <;> rfl

@[simp] theorem totalRemainingQty_arrange (order : Order) (visibility : OrderVisibility) :
    totalRemainingQty (arrange order visibility) = order.qty := by
  cases visibility <;> simp [totalRemainingQty, arrange]

/-- Inserting is replacing a queue by itself and the order at its back. -/
theorem insertOrder_eq (book : OrderBook) (order : Order) :
    book.insertOrder order = book.withQueue order.side order.price (queueKind order.visibility)
      (book.queueAt order.side order.price (queueKind order.visibility) ++ [order])
      (visibleQty order)
      (book.orderIndex.insert order.id
        ⟨order.side, order.price, queueKind order.visibility⟩) := by
  have hne : (((book.levelAt order.side order.price).addAggregate (visibleQty order)).setQueue
      (queueKind order.visibility) (book.queueAt order.side order.price
        (queueKind order.visibility) ++ [order])).isEmpty = false := by
    refine Bool.eq_false_iff.mpr fun h => ?_
    have := Level.isEmpty_iff.mp h (queueKind order.visibility)
    rw [Level.queue_setQueue, if_pos rfl] at this
    simp at this
  rw [withQueue, putLevel, hne]
  rfl

theorem WellFormed.insertOrder (hb : book.WellFormed)
    (hplaced : order.Placed order.side order.price (queueKind order.visibility))
    (hfresh : book.orderIndex.lookup order.id = none) : (book.insertOrder order).WellFormed := by
  rw [insertOrder_eq]
  have hnotin : order.id ∉ (book.queueAt order.side order.price
      (queueKind order.visibility)).map Order.id := fun h => by
    have := hb.lookup_of_mem h
    rw [hfresh] at this; cases this
  refine hb.withQueue ?_ ?_ ?_ ?_ ?_
  · intro other hother
    rcases List.mem_append.mp hother with h | h
    · exact hb.placed h
    · rw [List.mem_singleton.mp h]; exact hplaced
  · rw [List.map_append]
    exact List.Nodup.append (hb.nodup_queueAt _ _ _) (by simp)
      (List.disjoint_singleton.mpr hnotin)
  · simp
  · intro id
    rw [Finmap.lookup_insert_ite]
    by_cases hid : id = order.id
    · simp [hid]
    · rw [if_neg hid]
      split_ifs with hnew hold
      · have hmem : id ∈ (book.queueAt order.side order.price
            (queueKind order.visibility)).map Order.id := by
          rw [List.map_append] at hnew
          exact (List.mem_append.mp hnew).resolve_right (by simpa using hid)
        exact hb.lookup_of_mem hmem
      · exact absurd (by rw [List.map_append]; exact List.mem_append_left _ hold) hnew
      · rfl
  · intro id hid
    rw [List.map_append] at hid
    rcases List.mem_append.mp hid with h | h
    · exact Or.inl h
    · have : id = order.id := by simpa using h
      exact Or.inr (this ▸ hfresh)

theorem findOrder_insertOrder (hb : book.WellFormed)
    (hplaced : order.Placed order.side order.price (queueKind order.visibility))
    (hfresh : book.orderIndex.lookup order.id = none) (id : OrderId) :
    (book.insertOrder order).findOrder id =
      if id = order.id then some order else book.findOrder id := by
  have hb' := hb.insertOrder hplaced hfresh
  split_ifs with hid
  · subst hid
    refine hb'.findOrder_iff.mpr ⟨?_, rfl⟩
    rw [insertOrder_eq, queueAt_withQueue, if_pos ⟨rfl, rfl, rfl⟩]
    simp
  · refine Option.ext fun other => ?_
    rw [hb'.findOrder_iff, hb.findOrder_iff, insertOrder_eq, queueAt_withQueue]
    refine and_congr_left fun hother => ?_
    split_ifs with hplace
    · rw [hplace.1, hplace.2.1, hplace.2.2]
      simp only [List.mem_append, List.mem_singleton, or_iff_left_iff_imp]
      rintro rfl
      exact absurd hother.symm hid
    · rfl

end Add

/-! Cancelling an order. -/
section Cancel
variable {book : OrderBook} {id : OrderId}

theorem eraseEmptyLevel_insert {side : Side} (levels : PriceLevels side) (price : ℤ)
    (level : Level) : eraseEmptyLevel (levels.insert price level) price =
      putLevel levels price level := by
  unfold eraseEmptyLevel putLevel
  rw [OrderedMap.find?_insert, if_pos rfl]
  dsimp only
  rw [OrderedMap.erase_insert]

theorem cancel_of_lookup_none (h : book.orderIndex.lookup id = none) :
    book.cancel id = ([], book) := by
  unfold cancel
  rw [h]

/-- Cancelling is replacing a queue by itself without the order. -/
theorem cancel_eq (hb : book.WellFormed) {order : Order} (h : book.findOrder id = some order) :
    (book.cancel id).2 = book.withQueue order.side order.price (queueKind order.visibility)
      ((book.queueAt order.side order.price (queueKind order.visibility)).eraseP
        fun other => other.id = id)
      (-visibleQty order) (book.orderIndex.erase id) := by
  obtain ⟨hmem, rfl⟩ := hb.findOrder_iff.mp h
  have hentry := hb.lookup_of_mem (List.mem_map_of_mem hmem)
  obtain ⟨level, hlevel, -⟩ := hb.indexed.mp hentry
  dsimp only at hlevel
  have hlevel' : (book.levels order.side).find? order.price = some level := hlevel
  rw [queueAt_of_level hlevel] at hmem
  have hfind := find_id_of_mem ((hb.level hlevel).nodup _) hmem
  unfold cancel
  rw [hentry]
  dsimp only
  unfold eraseByIndex
  rw [hlevel']
  dsimp only
  rw [hfind, eraseEmptyLevel_insert, queueAt_of_level hlevel, withQueue, levelAt, hlevel]
  cases order.side <;> rfl

/-- A queue without one of its orders. -/
theorem eraseP_id_eq {orders : List Order} {order : Order}
    (hnodup : (orders.map Order.id).Nodup) (h : order ∈ orders) :
    ∃ front back, orders = front ++ order :: back ∧
      orders.eraseP (fun other => other.id = order.id) = front ++ back ∧
      ∀ other ∈ front ++ back, other.id ≠ order.id := by
  obtain ⟨front, back, rfl⟩ := List.append_of_mem h
  rw [List.map_append, List.map_cons, List.nodup_append] at hnodup
  obtain ⟨-, hback, hfront⟩ := hnodup
  have hne : ∀ other ∈ front ++ back, other.id ≠ order.id := by
    intro other hother
    rcases List.mem_append.mp hother with hm | hm
    · exact fun he => hfront _ (List.mem_map_of_mem hm) _ List.mem_cons_self he
    · exact fun he => (List.nodup_cons.mp hback).1 (he ▸ List.mem_map_of_mem hm)
  refine ⟨front, back, rfl, ?_, hne⟩
  rw [List.eraseP_append_right _ fun other hother => by
    simpa using hne other (List.mem_append_left _ hother)]
  simp

theorem WellFormed.cancel (hb : book.WellFormed) {order : Order}
    (h : book.findOrder id = some order) : (book.cancel id).2.WellFormed := by
  rw [cancel_eq hb h]
  obtain ⟨hmem, rfl⟩ := hb.findOrder_iff.mp h
  have hnodup := hb.nodup_queueAt order.side order.price (queueKind order.visibility)
  obtain ⟨front, back, heq, herase, hne⟩ := eraseP_id_eq hnodup hmem
  have hsub : (front ++ back).Sublist (book.queueAt order.side order.price
      (queueKind order.visibility)) := by
    rw [heq]
    exact List.Sublist.append_left (List.sublist_cons_self _ _) _
  rw [herase]
  refine hb.withQueue ?_ ?_ ?_ ?_ ?_
  · exact fun other hother => hb.placed (hsub.subset hother)
  · exact hnodup.sublist (hsub.map _)
  · rw [heq]
    simp only [List.map_append, List.map_cons, List.sum_append, List.sum_cons]
    omega
  · intro id
    rw [Finmap.lookup_erase_ite]
    have hids : id ∈ (book.queueAt order.side order.price
        (queueKind order.visibility)).map Order.id ↔
        id ∈ (front ++ back).map Order.id ∨ id = order.id := by
      rw [heq]
      simp only [List.map_append, List.map_cons, List.mem_append, List.mem_cons]
      tauto
    by_cases hid : id = order.id
    · have hnew : id ∉ (front ++ back).map Order.id := fun hnew => by
        obtain ⟨other, hother, hoid⟩ := List.mem_map.mp hnew
        exact hne other hother (hoid.trans hid)
      rw [if_pos hid, if_neg hnew, if_pos (hids.mpr (Or.inr hid))]
    · rw [if_neg hid]
      split_ifs with hnew hold
      · exact hb.lookup_of_mem (hids.mpr (Or.inl hnew))
      · exact absurd (hids.mp hold) (by tauto)
      · rfl
  · exact fun id hid => Or.inl ((hsub.map _).subset hid)

theorem findOrder_cancel (hb : book.WellFormed) {order : Order}
    (h : book.findOrder id = some order) (id' : OrderId) :
    (book.cancel id).2.findOrder id' = if id' = id then none else book.findOrder id' := by
  have hb' := hb.cancel h
  obtain ⟨hmem, rfl⟩ := hb.findOrder_iff.mp h
  obtain ⟨front, back, heq, herase, hne⟩ := eraseP_id_eq (hb.nodup_queueAt _ _ _) hmem
  split_ifs with hid
  · rw [hb'.findOrder_eq_none, hid, cancel_eq hb h]
    exact Finmap.lookup_erase _ _
  · refine Option.ext fun other => ?_
    rw [hb'.findOrder_iff, hb.findOrder_iff, cancel_eq hb h, queueAt_withQueue, herase]
    refine and_congr_left fun hother => ?_
    split_ifs with hplace
    · rw [hplace.1, hplace.2.1, hplace.2.2, heq]
      simp only [List.mem_append, List.mem_cons]
      have : other ≠ order := by rintro rfl; exact hid hother.symm
      tauto
    · rfl

end Cancel

/-! Adding an order and cancelling it. -/
section Undo
variable {book : OrderBook} {order : Order}

theorem levelAt_withQueue (book : OrderBook) (side : Side) (price : ℤ) (kind : QueueKind)
    {orders : List Order} (hne : orders ≠ []) (delta : ℤ) (index : OrderIndex) :
    (book.withQueue side price kind orders delta index).levelAt side price =
      ((book.levelAt side price).addAggregate delta).setQueue kind orders := by
  have hfull : (((book.levelAt side price).addAggregate delta).setQueue kind orders).isEmpty =
      false := by
    refine Bool.eq_false_iff.mpr fun hempty => hne ?_
    have hqueue := Level.isEmpty_iff.mp hempty kind
    rwa [Level.queue_setQueue, if_pos rfl] at hqueue
  rw [levelAt, level?_withQueue, if_pos ⟨rfl, rfl⟩]
  dsimp only
  rw [hfull]
  rfl

/-- Two books with the same levels and the same index are one. -/
theorem ext_level? {book book' : OrderBook} (h : ∀ side price, book.level? side price =
    book'.level? side price) (hindex : book.orderIndex = book'.orderIndex) : book = book' := by
  obtain ⟨bids, asks, index⟩ := book
  obtain ⟨bids', asks', index'⟩ := book'
  have hbids : bids = bids' := OrderedMap.ext_find? fun price => h .bid price
  have hasks : asks = asks' := OrderedMap.ext_find? fun price => h .ask price
  have hindex : index = index' := hindex
  rw [hbids, hasks, hindex]

/-- Cancelling the order that was just added gives the book it was added to. -/
theorem cancel_insertOrder (hb : book.WellFormed)
    (hplaced : order.Placed order.side order.price (queueKind order.visibility))
    (hfresh : book.orderIndex.lookup order.id = none) :
    ((book.insertOrder order).cancel order.id).2 = book := by
  have hb' := hb.insertOrder hplaced hfresh
  have hfound : (book.insertOrder order).findOrder order.id = some order := by
    rw [findOrder_insertOrder hb hplaced hfresh, if_pos rfl]
  have hqueue : ∀ other ∈ book.queueAt order.side order.price (queueKind order.visibility),
      other.id ≠ order.id := fun other hother heq => by
    have hindexed := hb.lookup_of_mem (List.mem_map_of_mem hother)
    rw [heq, hfresh] at hindexed
    cases hindexed
  have herased : (book.queueAt order.side order.price (queueKind order.visibility) ++
      [order]).eraseP (fun other => other.id = order.id) =
      book.queueAt order.side order.price (queueKind order.visibility) := by
    rw [List.eraseP_append_right _ fun other hother => by simpa using hqueue other hother]
    simp
  have hlevel : (((book.insertOrder order).levelAt order.side order.price).addAggregate
      (-visibleQty order)).setQueue (queueKind order.visibility)
        (book.queueAt order.side order.price (queueKind order.visibility)) =
      book.levelAt order.side order.price := by
    rw [insertOrder_eq, levelAt_withQueue _ _ _ _ (by simp)]
    unfold queueAt
    generalize book.levelAt order.side order.price = level
    obtain ⟨aggregateQty, displayed, iceberg, hidden⟩ := level
    cases queueKind order.visibility <;>
      simp [Level.addAggregate, Level.setQueue, Level.queue]
  rw [cancel_eq hb' hfound]
  have hbefore : (book.insertOrder order).queueAt order.side order.price
      (queueKind order.visibility) = book.queueAt order.side order.price
        (queueKind order.visibility) ++ [order] := by
    rw [insertOrder_eq, queueAt_withQueue, if_pos ⟨rfl, rfl, rfl⟩]
  rw [hbefore, herased]
  refine ext_level? (fun side price => ?_) ?_
  · rw [level?_withQueue]
    split_ifs with hplace
    · obtain ⟨rfl, rfl⟩ := hplace
      dsimp only
      rw [hlevel, levelAt]
      cases hold : book.level? order.side order.price with
      | none => rfl
      | some level => rw [Option.getD_some, (hb.level hold).nonempty]; rfl
    · rw [insertOrder_eq, level?_withQueue, if_neg hplace]
  · have hindex : (book.insertOrder order).orderIndex =
        book.orderIndex.insert order.id ⟨order.side, order.price, queueKind order.visibility⟩ := by
      rw [insertOrder_eq]
      rfl
    have herase : ((book.insertOrder order).orderIndex.erase order.id) = book.orderIndex := by
      refine Finmap.ext_lookup fun id => ?_
      rw [hindex, Finmap.lookup_erase_ite, Finmap.lookup_insert_ite]
      split_ifs with hid
      · rw [hid, hfresh]
      · rfl
    rw [← herase]
    rfl
end Undo

end OrderBook
end Tes
