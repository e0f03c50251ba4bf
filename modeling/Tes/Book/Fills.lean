import Tes.Book.Operations

/-! What a fill takes, from which order, and what it leaves resting. -/
namespace Tes

namespace QueueKind

/-- The queues of a level in matching order. -/
def before : QueueKind → QueueKind → Prop
  | .displayed, .iceberg | .displayed, .hidden | .iceberg, .hidden => True
  | _, _ => False

end QueueKind

theorem totalRemainingQty_takeFrom (kind : QueueKind) (maker : Order) (traded : ℤ) :
    totalRemainingQty (takeFrom kind maker traded) = totalRemainingQty maker - traded := by
  unfold takeFrom totalRemainingQty
  split_ifs <;> dsimp only <;> omega

theorem totalRemainingQty_renewClip (maker : Order) :
    totalRemainingQty (renewClip maker) = maker.reserveQty := by
  unfold renewClip totalRemainingQty
  dsimp only
  omega

namespace OrderBook

/-- What a fill can take from a resting order. -/
def available (order : Order) : ℤ := availableQty (queueKind order.visibility) order

/-- A resting order after a fill takes from it, if anything is left. -/
def survivor (maker : Order) (traded : ℤ) : Option Order :=
  let kind := queueKind maker.visibility
  let taken := takeFrom kind maker traded
  if totalRemainingQty taken = 0 then none
  else if clipSpent kind taken then some (renewClip taken)
  else some taken

/-- The queue of a resting order after a fill takes from it. -/
def queueAfter (maker : Order) (rest : List Order) (traded : ℤ) : List Order :=
  let kind := queueKind maker.visibility
  let taken := takeFrom kind maker traded
  if totalRemainingQty taken = 0 then rest
  else if clipSpent kind taken then rest ++ [renewClip taken]
  else taken :: rest

theorem available_pos {order : Order} (h : order.WellFormed) : 0 < available order := by
  unfold Order.WellFormed at h
  cases hv : order.visibility <;> rw [hv] at h <;>
    simp only [available, availableQty, hv, queueKind] <;> simp <;> omega

theorem available_le_total {order : Order} (h : order.WellFormed) :
    available order ≤ totalRemainingQty order := by
  unfold Order.WellFormed at h
  cases hv : order.visibility <;> rw [hv] at h <;>
    simp only [available, availableQty, hv, queueKind, totalRemainingQty] <;> simp <;> omega

theorem survivor_eq_none {maker : Order} {traded : ℤ} :
    survivor maker traded = none ↔ traded = totalRemainingQty maker := by
  unfold survivor
  dsimp only
  rw [totalRemainingQty_takeFrom]
  split_ifs <;> simp <;> omega

/-- What a fill leaves keeps the terms of the order. -/
structure Survives (maker : Order) (traded : ℤ) (left : Order) : Prop where
  id : left.id = maker.id
  side : left.side = maker.side
  price : left.price = maker.price
  visibility : left.visibility = maker.visibility
  total : totalRemainingQty left = totalRemainingQty maker - traded

theorem survives_takeFrom (kind : QueueKind) (maker : Order) (traded : ℤ) :
    Survives maker traded (takeFrom kind maker traded) := by
  have htotal := totalRemainingQty_takeFrom kind maker traded
  unfold takeFrom at htotal ⊢
  split_ifs at htotal ⊢ <;> exact ⟨rfl, rfl, rfl, rfl, htotal⟩

theorem survivor_some {maker left : Order} {traded : ℤ} (h : survivor maker traded = some left) :
    Survives maker traded left := by
  have htaken := survives_takeFrom (queueKind maker.visibility) maker traded
  unfold survivor at h
  dsimp only at h
  split_ifs at h with hzero hspent
  · cases h
    refine ⟨htaken.id, htaken.side, htaken.price, htaken.visibility, ?_⟩
    rw [totalRemainingQty_renewClip, ← htaken.total, totalRemainingQty, hspent.2.1, zero_add]
  · cases h
    exact htaken

theorem survivor_wellFormed {maker left : Order} {traded : ℤ} (hm : maker.WellFormed)
    (hpos : 0 ≤ traded) (hle : traded ≤ available maker) (h : survivor maker traded = some left) :
    left.WellFormed := by
  have hvis := (survivor_some h).visibility
  unfold Order.WellFormed at hm ⊢
  unfold survivor at h
  unfold available availableQty at hle
  rw [hvis]
  cases hv : maker.visibility with
  | displayed =>
    simp [hv, queueKind, takeFrom, totalRemainingQty, clipSpent] at h hm hle
    obtain ⟨hne, rfl⟩ := h
    dsimp only
    omega
  | hidden =>
    simp [hv, queueKind, takeFrom, totalRemainingQty, clipSpent] at h hm hle
    obtain ⟨hne, rfl⟩ := h
    dsimp only
    omega
  | iceberg =>
    simp [hv, queueKind, takeFrom, totalRemainingQty, clipSpent, renewClip] at h hm hle
    obtain ⟨hne, h⟩ := h
    split_ifs at h <;> cases h <;> dsimp only <;> omega

theorem survivor_total (maker : Order) (traded : ℤ) :
    (survivor maker traded).elim 0 totalRemainingQty = totalRemainingQty maker - traded := by
  cases h : survivor maker traded with
  | none => rw [survivor_eq_none] at h; simp [h]
  | some left => exact (survivor_some h).total

theorem mem_queueAfter {maker other : Order} {rest : List Order} {traded : ℤ} :
    other ∈ queueAfter maker rest traded ↔ other ∈ rest ∨ survivor maker traded = some other := by
  unfold queueAfter survivor
  dsimp only
  split_ifs
  · simp
  · simp [eq_comm]
  · simp [eq_comm, or_comm]

/-- A sum over the queue changes by what becomes of the filled order. -/
theorem sum_queueAfter (g : Order → ℤ) (maker : Order) (rest : List Order) (traded : ℤ) :
    ((queueAfter maker rest traded).map g).sum =
      (rest.map g).sum + (survivor maker traded).elim 0 g := by
  unfold queueAfter survivor
  dsimp only
  split_ifs
  · simp
  · simp
  · simp [add_comm]

/-- The visible quantity a fill moves at its level. -/
def visibleDelta (maker : Order) (traded : ℤ) : ℤ :=
  (survivor maker traded).elim 0 visibleQty - visibleQty maker

/-- The index after a fill. -/
def indexAfter (index : OrderIndex) (maker : Order) (traded : ℤ) : OrderIndex :=
  let kind := queueKind maker.visibility
  let taken := takeFrom kind maker traded
  if totalRemainingQty taken = 0 then index.erase maker.id
  else if clipSpent kind taken then index.insert maker.id ⟨maker.side, maker.price, .iceberg⟩
  else index

theorem WellFormed.afterFill {book : OrderBook} (hb : book.WellFormed) {side : Side}
    {maker : Order} {rest : List Order} {traded : ℤ}
    (hfront : book.queueAt side maker.price (queueKind maker.visibility) = maker :: rest)
    (hpos : 0 ≤ traded) (hle : traded ≤ available maker) :
    (book.withQueue side maker.price (queueKind maker.visibility) (queueAfter maker rest traded)
      (visibleDelta maker traded) (indexAfter book.orderIndex maker traded)).WellFormed := by
  have hmaker : maker.Placed side maker.price (queueKind maker.visibility) :=
    hb.placed (by rw [hfront]; exact List.mem_cons_self)
  have hnodup := hb.nodup_queueAt side maker.price (queueKind maker.visibility)
  rw [hfront, List.map_cons, List.nodup_cons] at hnodup
  have hlookup := hb.lookup_of_mem (show maker.id ∈ (book.queueAt side maker.price
    (queueKind maker.visibility)).map Order.id by simp [hfront])
  have hrest : ∀ id ∈ rest.map Order.id, book.orderIndex.lookup id =
      some ⟨side, maker.price, queueKind maker.visibility⟩ := fun id hid =>
    hb.lookup_of_mem (by simp [hfront, List.mem_map.mp hid])
  have hids : ∀ id, id ∈ (queueAfter maker rest traded).map Order.id ↔
      id ∈ rest.map Order.id ∨ id = maker.id ∧ survivor maker traded ≠ none := by
    intro id
    simp only [List.mem_map, mem_queueAfter]
    constructor
    · rintro ⟨other, hother | hother, rfl⟩
      · exact Or.inl ⟨other, hother, rfl⟩
      · exact Or.inr ⟨(survivor_some hother).id, by simp [hother]⟩
    · rintro (⟨other, hother, rfl⟩ | ⟨rfl, hsome⟩)
      · exact ⟨other, Or.inl hother, rfl⟩
      · obtain ⟨left, hleft⟩ := Option.ne_none_iff_exists'.mp hsome
        exact ⟨left, Or.inr hleft, (survivor_some hleft).id⟩
  refine hb.withQueue ?_ ?_ ?_ ?_ ?_
  · intro other hother
    rcases mem_queueAfter.mp hother with h | h
    · exact hb.placed (by rw [hfront]; exact List.mem_cons_of_mem _ h)
    · have hleft := survivor_some h
      exact ⟨survivor_wellFormed hmaker.wellFormed hpos hle h, hleft.side.trans hmaker.side,
        hleft.price, by rw [hleft.visibility]⟩
  · unfold queueAfter
    have hid := (survives_takeFrom (queueKind maker.visibility) maker traded).id
    dsimp only
    split_ifs
    · exact hnodup.2
    · rw [List.map_append]
      refine List.Nodup.append hnodup.2 (by simp) (List.disjoint_singleton.mpr ?_)
      exact fun h => hnodup.1 (hid ▸ h)
    · rw [List.map_cons, List.nodup_cons, hid]
      exact hnodup
  · rw [sum_queueAfter, hfront, List.map_cons, List.sum_cons, visibleDelta]
    omega
  · intro id
    by_cases hid : id = maker.id
    · subst hid
      have hnot : maker.id ∉ rest.map Order.id := hnodup.1
      by_cases hnone : survivor maker traded = none
      · rw [if_neg (by rw [hids]; tauto), if_pos (by simp [hfront])]
        have hzero := survivor_eq_none.mp hnone
        have htotal := totalRemainingQty_takeFrom (queueKind maker.visibility) maker traded
        rw [indexAfter, if_pos (by omega)]
        exact Finmap.lookup_erase _ _
      · rw [if_pos (by rw [hids]; tauto), indexAfter]
        have htotal := totalRemainingQty_takeFrom (queueKind maker.visibility) maker traded
        have hne : traded ≠ totalRemainingQty maker := fun h => hnone (survivor_eq_none.mpr h)
        rw [if_neg (by omega)]
        split_ifs with hspent
        · rw [Finmap.lookup_insert, hmaker.side, hspent.1]
        · exact hlookup
    · have hsame : (indexAfter book.orderIndex maker traded).lookup id =
          book.orderIndex.lookup id := by
        unfold indexAfter
        dsimp only
        split_ifs
        · exact Finmap.lookup_erase_ne hid
        · exact Finmap.lookup_insert_of_ne _ hid
        · rfl
      rw [hsame]
      split_ifs with hnew hold
      · exact hrest id (((hids id).mp hnew).resolve_right fun h => hid h.1)
      · refine absurd ((hids id).mpr (Or.inl ?_)) hnew
        rw [hfront, List.map_cons, List.mem_cons] at hold
        exact hold.resolve_left hid
      · rfl
  · intro id hid
    refine Or.inl ?_
    rw [hfront, List.map_cons, List.mem_cons]
    rcases (hids id).mp hid with h | h
    · exact Or.inr h
    · exact Or.inl h.1

/-- The result of a fill. -/
def fillResult (maker : Order) (traded : ℤ) : FillResult :=
  let kind := queueKind maker.visibility
  let taken := takeFrom kind maker traded
  { makerId := maker.id, price := maker.price, qty := traded,
    makerRemainingQty := totalRemainingQty maker - traded, makerVisibility := maker.visibility,
    makerFilled := decide (traded = totalRemainingQty maker)
    replenished := if clipSpent kind taken then some (replenishedEvent (renewClip taken)) else none }

theorem visibleDelta_eq {maker : Order} {traded : ℤ} (hm : maker.WellFormed)
    (hle : traded ≤ available maker) :
    let kind := queueKind maker.visibility
    let taken := takeFrom kind maker traded
    visibleDelta maker traded = (if kind = .hidden then 0 else -traded) +
      if clipSpent kind taken then (renewClip taken).qty else 0 := by
  have htotal := totalRemainingQty_takeFrom (queueKind maker.visibility) maker traded
  unfold Order.WellFormed at hm
  unfold available availableQty at hle
  unfold visibleDelta survivor
  cases hv : maker.visibility with
  | displayed =>
    simp [hv, queueKind, takeFrom, totalRemainingQty, clipSpent, visibleQty] at hm hle ⊢
    split_ifs <;> simp [visibleQty] <;> omega
  | hidden =>
    simp [hv, queueKind, takeFrom, totalRemainingQty, clipSpent, visibleQty] at hm hle ⊢
    split_ifs <;> simp [visibleQty]
  | iceberg =>
    simp [hv, queueKind, takeFrom, totalRemainingQty, clipSpent, visibleQty, renewClip] at hm hle ⊢
    split_ifs <;> simp [visibleQty] <;> omega

theorem fillFromQueue_eq {side : Side} (levels : PriceLevels side) (index : OrderIndex)
    (level : Level) {maker : Order} (rest : List Order) (qty : ℤ) (hm : maker.WellFormed) :
    let kind := queueKind maker.visibility
    let traded := min qty (available maker)
    fillFromQueue levels index maker.price level kind maker rest qty =
      (fillResult maker traded,
        putLevel levels maker.price ((level.addAggregate (visibleDelta maker traded)).setQueue kind
          (queueAfter maker rest traded)),
        indexAfter index maker traded) := by
  intro kind traded
  have htraded : traded = min qty (availableQty kind maker) := rfl
  have hle : traded ≤ available maker := min_le_right _ _
  have hdelta := visibleDelta_eq hm hle
  have htaken := survives_takeFrom kind maker traded
  have hlevel : ∀ delta, ((if kind = .hidden then level else level.addAggregate (-traded)).addAggregate
      delta) = level.addAggregate ((if kind = .hidden then 0 else -traded) + delta) := by
    intro delta
    split_ifs <;> simp [Level.addAggregate, add_assoc]
  have hlevel' : (if kind = .hidden then level else level.addAggregate (-traded)) =
      level.addAggregate (if kind = .hidden then 0 else -traded) := by
    split_ifs <;> simp [Level.addAggregate]
  dsimp only at hdelta
  unfold fillFromQueue queueAfter indexAfter fillResult
  rw [hdelta]
  dsimp only
  rw [← htraded, htaken.total, htaken.id, htaken.price, htaken.visibility]
  by_cases hzero : totalRemainingQty maker - traded = 0
  · have hspent : ¬ clipSpent kind (takeFrom kind maker traded) := fun h => by
      have htotal := htaken.total
      unfold totalRemainingQty at htotal hzero
      have := h.2
      omega
    rw [if_pos hzero, if_pos hzero, if_pos hzero, if_neg hspent, if_neg hspent, add_zero, hlevel']
    simp only [Prod.mk.injEq, and_true, FillResult.mk.injEq, true_and]
    exact ⟨(decide_eq_true (by omega)).symm, rfl⟩
  · have hfilled : decide (traded = totalRemainingQty maker) = false :=
      decide_eq_false (by omega)
    rw [if_neg hzero, if_neg hzero, if_neg hzero, hfilled]
    by_cases hspent : clipSpent kind (takeFrom kind maker traded)
    · rw [if_pos hspent, if_pos hspent, if_pos hspent, if_pos hspent, if_pos hspent, hlevel]
      have htotal : totalRemainingQty (renewClip (takeFrom kind maker traded)) =
          totalRemainingQty maker - traded := by
        rw [totalRemainingQty_renewClip, ← htaken.total, totalRemainingQty, hspent.2.1, zero_add]
      have hid : (renewClip (takeFrom kind maker traded)).id = maker.id := htaken.id
      have hside : (renewClip (takeFrom kind maker traded)).side = maker.side := htaken.side
      have hprice : (renewClip (takeFrom kind maker traded)).price = maker.price := htaken.price
      rw [htotal, hid, hside, hprice]
    · rw [if_neg hspent, if_neg hspent, if_neg hspent, if_neg hspent, if_neg hspent, add_zero,
        hlevel']

/-- A fill against the front order of the first queue of a level that has one. -/
structure FillStep (book book' : OrderBook) (side : Side) (qty : ℤ) (fill : FillResult)
    (maker : Order) (rest : List Order) : Prop where
  wellFormed : book.WellFormed
  qty_pos : 0 < qty
  front : book.queueAt side maker.price (queueKind maker.visibility) = maker :: rest
  first : ∀ kind, kind.before (queueKind maker.visibility) →
    book.queueAt side maker.price kind = []
  result : fill = fillResult maker (min qty (available maker))
  left : book' = book.withQueue side maker.price (queueKind maker.visibility)
    (queueAfter maker rest fill.qty) (visibleDelta maker fill.qty)
    (indexAfter book.orderIndex maker fill.qty)

namespace FillStep
variable {book book' : OrderBook} {side : Side} {qty : ℤ} {fill : FillResult} {maker : Order}
  {rest : List Order}

theorem placed (h : FillStep book book' side qty fill maker rest) :
    maker.Placed side maker.price (queueKind maker.visibility) :=
  h.wellFormed.placed (by rw [h.front]; exact List.mem_cons_self)

theorem fill_qty (h : FillStep book book' side qty fill maker rest) :
    fill.qty = min qty (available maker) := by
  rw [h.result]; rfl

theorem fill_qty_pos (h : FillStep book book' side qty fill maker rest) : 0 < fill.qty := by
  have := available_pos h.placed.wellFormed
  have := h.qty_pos
  rw [h.fill_qty]
  omega

theorem fill_qty_le (h : FillStep book book' side qty fill maker rest) : fill.qty ≤ qty :=
  h.fill_qty ▸ min_le_left _ _

theorem fill_qty_le_available (h : FillStep book book' side qty fill maker rest) :
    fill.qty ≤ available maker :=
  h.fill_qty ▸ min_le_right _ _

theorem fill_qty_le_total (h : FillStep book book' side qty fill maker rest) :
    fill.qty ≤ totalRemainingQty maker :=
  h.fill_qty_le_available.trans (available_le_total h.placed.wellFormed)

theorem makerId (h : FillStep book book' side qty fill maker rest) : fill.makerId = maker.id := by
  rw [h.result]; rfl

theorem price (h : FillStep book book' side qty fill maker rest) : fill.price = maker.price := by
  rw [h.result]; rfl

theorem makerRemainingQty (h : FillStep book book' side qty fill maker rest) :
    fill.makerRemainingQty = totalRemainingQty maker - fill.qty := by
  rw [h.result]; rfl

theorem makerFilled (h : FillStep book book' side qty fill maker rest) :
    fill.makerFilled = true ↔ survivor maker fill.qty = none := by
  rw [survivor_eq_none, h.result]
  simp [fillResult]

theorem wellFormed_after (h : FillStep book book' side qty fill maker rest) :
    book'.WellFormed := by
  rw [h.left]
  exact h.wellFormed.afterFill h.front h.fill_qty_pos.le h.fill_qty_le_available

theorem found (h : FillStep book book' side qty fill maker rest) :
    book.findOrder maker.id = some maker :=
  h.wellFormed.findOrder_of_mem (by rw [h.front]; exact List.mem_cons_self)

theorem queueAt_after (h : FillStep book book' side qty fill maker rest) (side' : Side)
    (price' : ℤ) (kind' : QueueKind) :
    book'.queueAt side' price' kind' =
      if side' = side ∧ price' = maker.price ∧ kind' = queueKind maker.visibility then
        queueAfter maker rest fill.qty
      else book.queueAt side' price' kind' := by
  rw [h.left, queueAt_withQueue]

/-- Only the maker's order changes. -/
theorem findOrder_after (h : FillStep book book' side qty fill maker rest) (id : OrderId) :
    book'.findOrder id = if id = maker.id then survivor maker fill.qty else book.findOrder id := by
  have hb' := h.wellFormed_after
  have hnodup := h.wellFormed.nodup_queueAt side maker.price (queueKind maker.visibility)
  rw [h.front, List.map_cons, List.nodup_cons] at hnodup
  have hmem : ∀ order, order ∈ book'.queueAt order.side order.price (queueKind order.visibility) ↔
      survivor maker fill.qty = some order ∨ order.id ≠ maker.id ∧
        order ∈ book.queueAt order.side order.price (queueKind order.visibility) := by
    intro order
    rw [h.queueAt_after]
    split_ifs with hplace
    · rw [hplace.1, hplace.2.1, hplace.2.2, h.front, mem_queueAfter, List.mem_cons]
      have hrest : order ∈ rest → order.id ≠ maker.id := fun hm he =>
        hnodup.1 (he ▸ List.mem_map_of_mem hm)
      have hmaker : order = maker → order.id = maker.id := fun he => he ▸ rfl
      tauto
    · constructor
      · intro horder
        refine Or.inr ⟨fun he => hplace ?_, horder⟩
        have hfound := h.wellFormed.findOrder_of_mem horder
        rw [he, h.found] at hfound
        cases hfound
        exact ⟨h.placed.side, rfl, rfl⟩
      · rintro (hsome | ⟨-, horder⟩)
        · have hleft := survivor_some hsome
          exact absurd ⟨hleft.side.trans h.placed.side, hleft.price, by rw [hleft.visibility]⟩ hplace
        · exact horder
  refine Option.ext fun order => ?_
  rw [hb'.findOrder_iff, hmem]
  split_ifs with hid
  · constructor
    · rintro ⟨hsome | ⟨hne, -⟩, horder⟩
      · exact hsome
      · exact absurd (horder.trans hid) hne
    · exact fun hsome => ⟨Or.inl hsome, (survivor_some hsome).id.trans hid.symm⟩
  · rw [h.wellFormed.findOrder_iff]
    constructor
    · rintro ⟨hsome | ⟨-, horder⟩, hoid⟩
      · exact absurd (hoid ▸ (survivor_some hsome).id) hid
      · exact ⟨horder, hoid⟩
    · rintro ⟨horder, hoid⟩
      exact ⟨Or.inr ⟨hoid ▸ hid, horder⟩, hoid⟩

end FillStep

theorem fillFromLevel_step {book : OrderBook} (hb : book.WellFormed) {side : Side} {price : ℤ}
    {level : Level} (hlevel : book.level? side price = some level) {qty : ℤ} (hqty : 0 < qty) :
    ∃ fill levels index maker rest,
      fillFromLevel (book.levels side) book.orderIndex price level qty =
        some (fill, levels, index) ∧ maker.price = price ∧
      FillStep book (book.withSide side levels index) side qty fill maker rest := by
  have hstep : ∀ kind maker rest, level.queue kind = maker :: rest →
      (∀ kind', kind'.before kind → level.queue kind' = []) →
      maker.price = price ∧ ∃ fill levels index,
        fillFromQueue (book.levels side) book.orderIndex price level kind maker rest qty =
          (fill, levels, index) ∧
        FillStep book (book.withSide side levels index) side qty fill maker rest := by
    intro kind maker rest hqueue hfirst
    have hplaced : maker.Placed side price kind :=
      (hb.level hlevel).placed kind maker (by rw [hqueue]; exact List.mem_cons_self)
    obtain ⟨hm, hside, rfl, rfl⟩ := hplaced
    refine ⟨rfl, _, _, _, fillFromQueue_eq _ _ _ _ _ hm, hb, hqty, ?_, ?_, rfl, ?_⟩
    · rw [queueAt_of_level hlevel, hqueue]
    · intro kind' hkind'
      rw [queueAt_of_level hlevel, hfirst kind' hkind']
    · rw [withQueue, levelAt, hlevel]
      rfl
  have hne := (hb.level hlevel).nonempty
  unfold fillFromLevel
  split
  · rename_i maker rest hd
    obtain ⟨hprice, fill, levels, index, heq, hfill⟩ := hstep .displayed maker rest hd
      (fun kind' h => by cases kind' <;> cases h)
    exact ⟨fill, levels, index, maker, rest, by rw [heq], hprice, hfill⟩
  · rename_i maker rest hd hi
    obtain ⟨hprice, fill, levels, index, heq, hfill⟩ := hstep .iceberg maker rest hi
      (fun kind' h => by cases kind' <;> first | exact hd | cases h)
    exact ⟨fill, levels, index, maker, rest, by rw [heq], hprice, hfill⟩
  · rename_i maker rest hd hi hh
    obtain ⟨hprice, fill, levels, index, heq, hfill⟩ := hstep .hidden maker rest hh
      (fun kind' h => by cases kind' <;> first | exact hd | exact hi | cases h)
    exact ⟨fill, levels, index, maker, rest, by rw [heq], hprice, hfill⟩
  · rename_i hd hi hh
    exact absurd (Level.isEmpty_iff.mpr fun kind => by cases kind <;> assumption)
      (by rw [hne]; exact Bool.false_ne_true)

end OrderBook
end Tes
