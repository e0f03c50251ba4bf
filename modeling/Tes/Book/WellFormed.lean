import Tes.Library.FiniteMap
import Tes.Engine.OrderBook

/-! The representation invariant of an order book, and the one lemma that every book
operation needs: replacing a queue of a level keeps it. -/
namespace Tes

namespace Level

theorem queue_setQueue (level : Level) (kind kind' : QueueKind) (orders : List Order) :
    (level.setQueue kind orders).queue kind' = if kind' = kind then orders else level.queue kind' := by
  cases kind <;> cases kind' <;> rfl

@[simp] theorem aggregateQty_setQueue (level : Level) (kind : QueueKind) (orders : List Order) :
    (level.setQueue kind orders).aggregateQty = level.aggregateQty := by
  cases kind <;> rfl

@[simp] theorem queue_addAggregate (level : Level) (delta : ℤ) (kind : QueueKind) :
    (level.addAggregate delta).queue kind = level.queue kind := by
  cases kind <;> rfl

@[simp] theorem aggregateQty_addAggregate (level : Level) (delta : ℤ) :
    (level.addAggregate delta).aggregateQty = level.aggregateQty + delta := rfl

@[simp] theorem orders_addAggregate (level : Level) (delta : ℤ) :
    (level.addAggregate delta).orders = level.orders := rfl

theorem mem_orders {level : Level} {order : Order} :
    order ∈ level.orders ↔ ∃ kind, order ∈ level.queue kind := by
  simp only [orders, List.mem_append]
  constructor
  · rintro ((h | h) | h)
    · exact ⟨.displayed, h⟩
    · exact ⟨.iceberg, h⟩
    · exact ⟨.hidden, h⟩
  · rintro ⟨kind, h⟩
    cases kind
    · exact Or.inl (Or.inl h)
    · exact Or.inl (Or.inr h)
    · exact Or.inr h

theorem sum_orders_setQueue (f : Order → ℤ) (level : Level) (kind : QueueKind)
    (orders : List Order) :
    ((level.setQueue kind orders).orders.map f).sum =
      (level.orders.map f).sum - ((level.queue kind).map f).sum + (orders.map f).sum := by
  cases kind <;> simp only [Level.orders, setQueue, queue, List.map_append, List.sum_append] <;>
    omega

theorem isEmpty_iff {level : Level} : level.isEmpty = true ↔ ∀ kind, level.queue kind = [] := by
  simp only [isEmpty, orders, List.isEmpty_iff, List.append_eq_nil_iff]
  constructor
  · rintro ⟨⟨hd, hi⟩, hh⟩ kind
    cases kind <;> assumption
  · intro h
    exact ⟨⟨h .displayed, h .iceberg⟩, h .hidden⟩

end Level

/-- The quantities an order can rest with. -/
def Order.WellFormed (order : Order) : Prop :=
  match order.visibility with
  | .displayed => 0 < order.qty ∧ order.reserveQty = 0
  | .iceberg => 0 < order.qty ∧ order.qty ≤ order.displayQty ∧ 0 ≤ order.reserveQty
  | .hidden => order.qty = 0 ∧ 0 < order.reserveQty

theorem Order.WellFormed.total_pos {order : Order} (h : order.WellFormed) :
    0 < totalRemainingQty order := by
  unfold Order.WellFormed at h
  unfold totalRemainingQty
  split at h <;> omega

theorem Order.WellFormed.visible_nonneg {order : Order} (h : order.WellFormed) :
    0 ≤ visibleQty order := by
  unfold Order.WellFormed at h
  unfold visibleQty
  split at h <;> simp_all <;> omega

/-- The order belongs to that queue of that level. -/
structure Order.Placed (order : Order) (side : Side) (price : ℤ) (kind : QueueKind) : Prop where
  wellFormed : order.WellFormed
  side : order.side = side
  price : order.price = price
  kind : OrderBook.queueKind order.visibility = kind

theorem Order.Placed.visible {order : Order} {side : Side} {price : ℤ} {kind : QueueKind}
    (h : order.Placed side price kind) :
    if kind = .hidden then visibleQty order = 0
    else visibleQty order = order.qty ∧ 0 < order.qty := by
  obtain ⟨hwf, -, -, rfl⟩ := h
  unfold Order.WellFormed at hwf
  cases hv : order.visibility <;> rw [hv] at hwf <;> simp [OrderBook.queueKind, visibleQty, hv] <;> omega

structure Level.WellFormed (level : Level) (side : Side) (price : ℤ) : Prop where
  nonempty : level.isEmpty = false
  aggregate : level.aggregateQty = (level.orders.map visibleQty).sum
  placed : ∀ kind, ∀ order ∈ level.queue kind, order.Placed side price kind
  nodup : ∀ kind, ((level.queue kind).map Order.id).Nodup

namespace OrderBook

def level? (book : OrderBook) (side : Side) (price : ℤ) : Option Level :=
  (book.levels side).find? price

/-- Levels are well formed, and the index lists exactly the resting orders. -/
structure WellFormed (book : OrderBook) : Prop where
  level : ∀ {side price level}, book.level? side price = some level → level.WellFormed side price
  indexed : ∀ {id entry}, book.orderIndex.lookup id = some entry ↔
    ∃ level, book.level? entry.side entry.price = some level ∧
      id ∈ (level.queue entry.queue).map Order.id

theorem wellFormed_empty : WellFormed {} where
  level {side price level} h := by cases side <;> cases h
  indexed {id entry} := by
    constructor
    · intro h; cases h
    · rintro ⟨level, h, -⟩
      cases entry with
      | mk side price queue => cases side <;> cases h

@[simp] theorem levels_withSide (book : OrderBook) (side : Side) (levels : PriceLevels side)
    (index : OrderIndex) : (book.withSide side levels index).levels side = levels := by
  cases side <;> rfl

theorem levels_withSide_of_ne (book : OrderBook) {side side' : Side} (h : side' ≠ side)
    (levels : PriceLevels side) (index : OrderIndex) :
    (book.withSide side levels index).levels side' = book.levels side' := by
  cases side <;> cases side' <;> first | rfl | exact absurd rfl h

@[simp] theorem orderIndex_withSide (book : OrderBook) (side : Side) (levels : PriceLevels side)
    (index : OrderIndex) : (book.withSide side levels index).orderIndex = index := rfl

/-- The level an operation works on, a new one where there is none. -/
def levelAt (book : OrderBook) (side : Side) (price : ℤ) : Level :=
  (book.level? side price).getD {}

/-- The book after one of its queues is replaced. -/
def withQueue (book : OrderBook) (side : Side) (price : ℤ) (kind : QueueKind)
    (orders : List Order) (delta : ℤ) (index : OrderIndex) : OrderBook :=
  book.withSide side (putLevel (book.levels side) price
    (((book.levelAt side price).addAggregate delta).setQueue kind orders)) index

/-- The queue an operation works on; empty where there is no such level. -/
def queueAt (book : OrderBook) (side : Side) (price : ℤ) (kind : QueueKind) : List Order :=
  (book.levelAt side price).queue kind

theorem queueAt_of_level {book : OrderBook} {side : Side} {price : ℤ} {level : Level}
    (h : book.level? side price = some level) (kind : QueueKind) :
    book.queueAt side price kind = level.queue kind := by
  simp [queueAt, levelAt, h]

theorem queueAt_of_none {book : OrderBook} {side : Side} {price : ℤ}
    (h : book.level? side price = none) (kind : QueueKind) : book.queueAt side price kind = [] := by
  cases kind <;> simp [queueAt, levelAt, h, Level.queue]

theorem find?_putLevel {side : Side} (levels : PriceLevels side) (price price' : ℤ)
    (level : Level) :
    (putLevel levels price level).find? price' =
      if price' = price then (if level.isEmpty then none else some level)
      else levels.find? price' := by
  unfold putLevel
  split_ifs with hempty hprice hprice <;> simp [OrderedMap.find?_erase, OrderedMap.find?_insert, hprice]

theorem level?_withQueue (book : OrderBook) (side side' : Side) (price price' : ℤ)
    (kind : QueueKind) (orders : List Order) (delta : ℤ) (index : OrderIndex) :
    (book.withQueue side price kind orders delta index).level? side' price' =
      if side' = side ∧ price' = price then
        let level := ((book.levelAt side price).addAggregate delta).setQueue kind orders
        if level.isEmpty then none else some level
      else book.level? side' price' := by
  unfold withQueue level?
  by_cases hside : side' = side
  · subst hside
    rw [levels_withSide, find?_putLevel]
    simp only [true_and]
  · rw [levels_withSide_of_ne book hside, if_neg (fun h => hside h.1)]

theorem queueAt_withQueue (book : OrderBook) (side side' : Side) (price price' : ℤ)
    (kind kind' : QueueKind) (orders : List Order) (delta : ℤ) (index : OrderIndex) :
    (book.withQueue side price kind orders delta index).queueAt side' price' kind' =
      if side' = side ∧ price' = price ∧ kind' = kind then orders
      else book.queueAt side' price' kind' := by
  by_cases hlevel : side' = side ∧ price' = price
  · obtain ⟨rfl, rfl⟩ := hlevel
    have hqueue : ∀ kind', (((book.levelAt side' price').addAggregate delta).setQueue kind
        orders).queue kind' = if kind' = kind then orders else book.queueAt side' price' kind' := by
      intro kind'
      rw [Level.queue_setQueue, Level.queue_addAggregate, queueAt]
    rw [queueAt, levelAt, level?_withQueue, if_pos ⟨rfl, rfl⟩]
    dsimp only
    split_ifs with hempty hkind hkind
    · have := Level.isEmpty_iff.mp hempty kind'
      rw [hqueue, if_pos hkind.2.2] at this
      rw [this]
      cases kind' <;> rfl
    · have := Level.isEmpty_iff.mp hempty kind'
      rw [hqueue, if_neg (fun h => hkind ⟨rfl, rfl, h⟩)] at this
      rw [this]
      cases kind' <;> rfl
    · rw [Option.getD_some, hqueue, if_pos hkind.2.2]
    · rw [Option.getD_some, hqueue, if_neg (fun h => hkind ⟨rfl, rfl, h⟩)]
  · rw [queueAt, levelAt, level?_withQueue, if_neg hlevel, if_neg (fun h => hlevel ⟨h.1, h.2.1⟩),
      queueAt, levelAt]

namespace WellFormed
variable {book : OrderBook}

theorem indexed_queueAt (hb : book.WellFormed) {id : OrderId} {entry : IndexEntry} :
    book.orderIndex.lookup id = some entry ↔
      id ∈ (book.queueAt entry.side entry.price entry.queue).map Order.id := by
  rw [hb.indexed]
  cases h : book.level? entry.side entry.price with
  | none => simp [queueAt_of_none h]
  | some level => simp [queueAt_of_level h]

theorem lookup_of_mem (hb : book.WellFormed) {side : Side} {price : ℤ} {kind : QueueKind}
    {id : OrderId} (h : id ∈ (book.queueAt side price kind).map Order.id) :
    book.orderIndex.lookup id = some ⟨side, price, kind⟩ :=
  hb.indexed_queueAt.mpr h

theorem placed (hb : book.WellFormed) {side : Side} {price : ℤ} {kind : QueueKind} {order : Order}
    (h : order ∈ book.queueAt side price kind) : order.Placed side price kind := by
  cases hl : book.level? side price with
  | none => simp [queueAt_of_none hl] at h
  | some level => exact (hb.level hl).placed kind order (queueAt_of_level hl kind ▸ h)

theorem nodup_queueAt (hb : book.WellFormed) (side : Side) (price : ℤ) (kind : QueueKind) :
    ((book.queueAt side price kind).map Order.id).Nodup := by
  cases hl : book.level? side price with
  | none => simp [queueAt_of_none hl]
  | some level => exact queueAt_of_level hl kind ▸ (hb.level hl).nodup kind

/-- Replacing a queue keeps the invariant when the new queue is well formed and the
index follows it. -/
theorem withQueue (hb : book.WellFormed) {side : Side} {price : ℤ} {kind : QueueKind}
    {orders : List Order} {delta : ℤ} {index : OrderIndex}
    (hplaced : ∀ order ∈ orders, order.Placed side price kind)
    (hnodup : (orders.map Order.id).Nodup)
    (hdelta : delta = (orders.map visibleQty).sum -
      ((book.queueAt side price kind).map visibleQty).sum)
    (hindex : ∀ id, index.lookup id =
      if id ∈ orders.map Order.id then some ⟨side, price, kind⟩
      else if id ∈ (book.queueAt side price kind).map Order.id then none
      else book.orderIndex.lookup id)
    (hfresh : ∀ id ∈ orders.map Order.id, id ∈ (book.queueAt side price kind).map Order.id ∨
      book.orderIndex.lookup id = none) :
    (book.withQueue side price kind orders delta index).WellFormed where
  level {side' price' level} h := by
    rw [level?_withQueue] at h
    split_ifs at h with hlevel
    · obtain ⟨rfl, rfl⟩ := hlevel
      dsimp only at h
      split_ifs at h with hempty
      cases h
      have hqueue : ∀ kind', (((book.levelAt side' price').addAggregate delta).setQueue kind
          orders).queue kind' =
          if kind' = kind then orders else book.queueAt side' price' kind' := by
        intro kind'
        rw [Level.queue_setQueue, Level.queue_addAggregate, queueAt]
      refine ⟨by simpa using hempty, ?_, ?_, ?_⟩
      · have hold : (book.levelAt side' price').aggregateQty =
            ((book.levelAt side' price').orders.map visibleQty).sum := by
          cases hl : book.level? side' price' with
          | none => rw [levelAt, hl]; rfl
          | some level => rw [levelAt, hl]; exact (hb.level hl).aggregate
        rw [Level.aggregateQty_setQueue, Level.sum_orders_setQueue,
          Level.aggregateQty_addAggregate, Level.orders_addAggregate, Level.queue_addAggregate,
          hdelta, hold, queueAt]
        omega
      · intro kind' order horder
        rw [hqueue] at horder
        split_ifs at horder with hkind
        · exact hkind ▸ hplaced order horder
        · exact hb.placed horder
      · intro kind'
        rw [hqueue]
        split_ifs
        · exact hnodup
        · exact hb.nodup_queueAt _ _ _
    · exact hb.level h
  indexed {id entry} := by
    have hmem : (∃ level, (book.withQueue side price kind orders delta index).level?
        entry.side entry.price = some level ∧ id ∈ (level.queue entry.queue).map Order.id) ↔
        id ∈ ((book.withQueue side price kind orders delta index).queueAt
          entry.side entry.price entry.queue).map Order.id := by
      cases hl : (book.withQueue side price kind orders delta index).level?
          entry.side entry.price with
      | none => simp [queueAt_of_none hl]
      | some level => simp [queueAt_of_level hl]
    rw [hmem, queueAt_withQueue]
    change index.lookup id = some entry ↔ _
    rw [hindex]
    by_cases hentry : entry.side = side ∧ entry.price = price ∧ entry.queue = kind
    · obtain ⟨rfl, rfl, rfl⟩ := hentry
      rw [if_pos (show entry.side = entry.side ∧ entry.price = entry.price ∧
        entry.queue = entry.queue from ⟨rfl, rfl, rfl⟩)]
      split_ifs with hnew hold
      · simp [hnew]
      · simp [hnew]
      · simp only [hnew, iff_false]
        exact fun h => hold (hb.indexed_queueAt.mp h)
    · rw [if_neg hentry, ← hb.indexed_queueAt]
      split_ifs with hnew hold
      · constructor
        · intro h
          cases h
          exact absurd ⟨rfl, rfl, rfl⟩ hentry
        · intro h
          rcases hfresh id hnew with hold | hnone
          · have := hb.lookup_of_mem hold
            rw [this] at h
            cases h
            exact absurd ⟨rfl, rfl, rfl⟩ hentry
          · rw [hnone] at h; cases h
      · constructor
        · intro h; cases h
        · intro h
          have := hb.lookup_of_mem hold
          rw [this] at h
          cases h
          exact absurd ⟨rfl, rfl, rfl⟩ hentry
      · rfl

end WellFormed
end OrderBook
end Tes
