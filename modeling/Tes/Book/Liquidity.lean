import Mathlib.Algebra.Order.BigOperators.Group.List
import Mathlib.Algebra.Order.Group.Int
import Tes.Book.Fills

/-! The liquidity of one side: where the next fill comes from, and how sums over the
resting orders change. -/
namespace Tes
namespace OrderBook

/-- The resting orders of a side, in matching order. -/
def sideOrders (book : OrderBook) (side : Side) : List Order :=
  (book.levels side).entries.flatMap fun e => e.2.orders

/-- A sum over the resting orders of a side. -/
def sideTotal (book : OrderBook) (side : Side) (g : Order → ℤ) : ℤ :=
  ((book.sideOrders side).map g).sum

theorem sideTotal_eq (book : OrderBook) (side : Side) (g : Order → ℤ) :
    book.sideTotal side g =
      (book.levels side).total fun _ level => (level.orders.map g).sum := by
  unfold sideTotal sideOrders OrderedMap.total
  induction (book.levels side).entries with
  | nil => rfl
  | cons e rest ih => simp [ih]

theorem mem_sideOrders {book : OrderBook} {side : Side} {order : Order} :
    order ∈ book.sideOrders side ↔ ∃ price kind, order ∈ book.queueAt side price kind := by
  simp only [sideOrders, List.mem_flatMap, Level.mem_orders]
  constructor
  · rintro ⟨⟨price, level⟩, he, kind, horder⟩
    exact ⟨price, kind, by rwa [queueAt_of_level (OrderedMap.mem_entries_iff.mp he)]⟩
  · rintro ⟨price, kind, horder⟩
    cases hl : book.level? side price with
    | none => rw [queueAt_of_none hl] at horder; cases horder
    | some level =>
      rw [queueAt_of_level hl] at horder
      exact ⟨(price, level), OrderedMap.mem_entries_iff.mpr hl, kind, horder⟩

theorem WellFormed.mem_sideOrders {book : OrderBook} (hb : book.WellFormed) {side : Side}
    {order : Order} :
    order ∈ book.sideOrders side ↔ book.findOrder order.id = some order ∧ order.side = side := by
  rw [OrderBook.mem_sideOrders]
  constructor
  · rintro ⟨price, kind, horder⟩
    exact ⟨hb.findOrder_of_mem horder, (hb.placed horder).side⟩
  · rintro ⟨hfound, rfl⟩
    exact ⟨_, _, (hb.findOrder_iff.mp hfound).1⟩

theorem WellFormed.wellFormed_of_mem {book : OrderBook} (hb : book.WellFormed) {side : Side}
    {order : Order} (h : order ∈ book.sideOrders side) : order.WellFormed :=
  (hb.findOrder_wellFormed (hb.mem_sideOrders.mp h).1).1

theorem level_sum_withQueue (g : Order → ℤ) (level : Level) (kind : QueueKind)
    (orders : List Order) (delta : ℤ) :
    (((level.addAggregate delta).setQueue kind orders).orders.map g).sum =
      (level.orders.map g).sum - ((level.queue kind).map g).sum + (orders.map g).sum := by
  rw [Level.sum_orders_setQueue, Level.orders_addAggregate, Level.queue_addAggregate]

theorem sideTotal_withQueue (book : OrderBook) (side side' : Side) (price : ℤ) (kind : QueueKind)
    (orders : List Order) (delta : ℤ) (index : OrderIndex) (g : Order → ℤ) :
    (book.withQueue side price kind orders delta index).sideTotal side' g =
      book.sideTotal side' g + if side' = side then
        (orders.map g).sum - ((book.queueAt side price kind).map g).sum else 0 := by
  rw [sideTotal_eq, sideTotal_eq, withQueue]
  by_cases hside : side' = side
  · subst hside
    rw [levels_withSide, if_pos rfl, putLevel, queueAt]
    have hlevel := level_sum_withQueue g (book.levelAt side' price) kind orders delta
    have hold : ((book.levels side').find? price).elim 0
        (fun level => (level.orders.map g).sum) = ((book.levelAt side' price).orders.map g).sum := by
      unfold levelAt level?
      cases (book.levels side').find? price with
      | none => rfl
      | some level => rfl
    split_ifs with hempty
    · rw [OrderedMap.total_erase, hold]
      simp only [Level.isEmpty, List.isEmpty_iff] at hempty
      rw [hempty, List.map_nil, List.sum_nil] at hlevel
      omega
    · rw [OrderedMap.total_insert, hold]
      omega
  · rw [levels_withSide_of_ne book hside, if_neg hside, add_zero]

theorem FillStep.sideTotal_after {book book' : OrderBook} {side : Side} {qty : ℤ}
    {fill : FillResult} {maker : Order} {rest : List Order}
    (h : FillStep book book' side qty fill maker rest) (side' : Side) (g : Order → ℤ) :
    book'.sideTotal side' g = book.sideTotal side' g +
      if side' = side then (survivor maker fill.qty).elim 0 g - g maker else 0 := by
  rw [h.left, sideTotal_withQueue, sum_queueAfter, h.front, List.map_cons, List.sum_cons]
  split_ifs <;> omega

/-- A fill on one side leaves the orders of the other side where they are. -/
theorem FillStep.mem_opposite {book book' : OrderBook} {side : Side} {qty : ℤ} {fill : FillResult}
    {maker order : Order} {rest : List Order}
    (h : FillStep book book' side qty fill maker rest)
    (horder : order ∈ book.sideOrders side.opposite) :
    order ∈ book'.sideOrders side.opposite := by
  obtain ⟨hfound, hside⟩ := h.wellFormed.mem_sideOrders.mp horder
  refine h.wellFormed_after.mem_sideOrders.mpr ⟨?_, hside⟩
  rw [h.findOrder_after, if_neg fun hid => ?_]
  · exact hfound
  · rw [hid, h.found] at hfound
    cases hfound
    have := h.placed.side
    rw [hside] at this
    cases side <;> cases this

theorem FillStep.sideOrders_opposite {book book' : OrderBook} {side : Side} {qty : ℤ}
    {fill : FillResult} {maker : Order} {rest : List Order}
    (h : FillStep book book' side qty fill maker rest) :
    book'.sideOrders side.opposite = book.sideOrders side.opposite := by
  have hne : side.opposite ≠ side := by cases side <;> decide
  rw [sideOrders, sideOrders, h.left, withQueue, levels_withSide_of_ne book hne]

theorem sideTotal_insertOrder (book : OrderBook) (order : Order) (side' : Side) (g : Order → ℤ) :
    (book.insertOrder order).sideTotal side' g =
      book.sideTotal side' g + if side' = order.side then g order else 0 := by
  rw [insertOrder_eq, sideTotal_withQueue]
  simp

/-! The next level a taker meets. -/

theorem WellFormed.level_totalQty_pos {book : OrderBook} (hb : book.WellFormed) {side : Side}
    {e : ℤ × Level} (he : e ∈ (book.levels side).entries) : 0 < e.2.totalQty := by
  obtain ⟨hne, -, hplaced, -⟩ := hb.level (OrderedMap.mem_entries_iff.mp he)
  have hpos : ∀ order ∈ e.2.orders, 0 < totalRemainingQty order := fun order horder => by
    obtain ⟨kind, hkind⟩ := Level.mem_orders.mp horder
    exact (hplaced kind order hkind).wellFormed.total_pos
  exact List.sum_pos _ (by simpa using hpos) (by simpa [Level.isEmpty] using hne)

private theorem find?_eq_head? {α : Type} {p : α → Bool} {l : List α} (h : ∀ x ∈ l, p x = true) :
    l.find? p = l.head? := by
  cases l with
  | nil => rfl
  | cons x rest => simp [h x List.mem_cons_self]

private theorem find?_takeWhile_eq {α : Type} {p q : α → Bool} {l : List α}
    (h : ∀ x ∈ l, p x = true) : (l.takeWhile q).find? p = l.head?.filter q := by
  cases l with
  | nil => rfl
  | cons x rest =>
    rw [List.takeWhile_cons, List.head?_cons, Option.filter_some]
    split_ifs with hq
    · simp [h x List.mem_cons_self]
    · rfl

theorem WellFormed.firstMatch_eq {book : OrderBook} (hb : book.WellFormed) (side : Side)
    (auctionPrice : ℤ) : firstMatchAtOrBetter (book.levels side) auctionPrice =
      (book.levels side).entries.head?.filter fun e => crosses side.opposite auctionPrice e.1 := by
  unfold firstMatchAtOrBetter
  rw [find?_takeWhile_eq fun e he => by simpa using hb.level_totalQty_pos he]

theorem WellFormed.findFirst_eq {book : OrderBook} (hb : book.WellFormed) (side : Side) :
    ((book.levels side).findFirst fun _ level => 0 < level.totalQty) =
      (book.levels side).entries.head? := by
  unfold OrderedMap.findFirst
  rw [find?_eq_head? fun e he => by simpa using hb.level_totalQty_pos he]

/-- A taker's limit that crosses a price crosses every better price. -/
theorem crosses_of_before {takerSide : Side} {limitPrice p q : ℤ}
    (h : takerSide.opposite.before p q) (hq : crosses takerSide limitPrice q) :
    crosses takerSide limitPrice p := by
  cases takerSide <;> simp only [Side.opposite, Side.before, crosses] at * <;> omega

/-- A search that no later element passes once one has failed takes what passes. -/
theorem takeWhile_eq_filter {α : Type} {R : α → α → Prop} {q : α → Bool} {l : List α}
    (hs : l.Pairwise R) (hq : ∀ a b, R a b → q b = true → q a = true) :
    l.takeWhile q = l.filter q := by
  induction l with
  | nil => rfl
  | cons x rest ih =>
    obtain ⟨hhead, htail⟩ := List.pairwise_cons.mp hs
    rw [List.takeWhile_cons, List.filter_cons, ih htail]
    split_ifs with hx
    · rfl
    · refine (List.filter_eq_nil_iff.mpr fun y hy hqy => hx ?_).symm
      exact hq x y (hhead y hy) hqy

/-- What crosses a limit, order by order. -/
theorem WellFormed.executableQty_eq {book : OrderBook} (hb : book.WellFormed) (takerSide : Side)
    (limitPrice : ℤ) : book.executableQty takerSide limitPrice =
      book.sideTotal takerSide.opposite fun order =>
        if crosses takerSide limitPrice order.price then totalRemainingQty order else 0 := by
  have hlevel : ∀ e ∈ (book.levels takerSide.opposite).entries,
      (e.2.orders.map fun order => if crosses takerSide limitPrice order.price then
        totalRemainingQty order else 0).sum =
      if crosses takerSide limitPrice e.1 then e.2.totalQty else 0 := by
    intro e he
    have hprice : ∀ order ∈ e.2.orders, order.price = e.1 := fun order horder => by
      obtain ⟨kind, hkind⟩ := Level.mem_orders.mp horder
      exact ((hb.level (OrderedMap.mem_entries_iff.mp he)).placed kind order hkind).price
    rw [List.map_congr_left (g := fun order => if crosses takerSide limitPrice e.1 then
      totalRemainingQty order else 0) fun order horder => by rw [hprice order horder]]
    split_ifs
    · rfl
    · simp
  unfold executableQty
  rw [takeWhile_eq_filter (book.levels takerSide.opposite).sorted fun a b hab hb => by
    simpa using crosses_of_before hab (by simpa using hb), sideTotal_eq, OrderedMap.total]
  generalize (book.levels takerSide.opposite).entries = entries at hlevel
  induction entries with
  | nil => rfl
  | cons e rest ih =>
    have hrest := ih fun e he => hlevel e (List.mem_cons_of_mem _ he)
    rw [List.map_cons, List.sum_cons, hlevel e List.mem_cons_self, ← hrest, List.filter_cons]
    split_ifs with hc hc' <;> simp_all

theorem WellFormed.executableQty_nonneg {book : OrderBook} (hb : book.WellFormed)
    (takerSide : Side) (limitPrice : ℤ) : 0 ≤ book.executableQty takerSide limitPrice := by
  rw [hb.executableQty_eq]
  refine List.sum_nonneg fun x hx => ?_
  obtain ⟨order, horder, rfl⟩ := List.mem_map.mp hx
  have := (hb.wellFormed_of_mem horder).total_pos
  split_ifs <;> omega

/-- Nothing crosses exactly where nothing is executable. -/
theorem WellFormed.executableQty_eq_zero {book : OrderBook} (hb : book.WellFormed)
    {takerSide : Side} {limitPrice : ℤ} : book.executableQty takerSide limitPrice = 0 ↔
      ∀ order ∈ book.sideOrders takerSide.opposite,
        ¬ crosses takerSide limitPrice order.price := by
  rw [hb.executableQty_eq]
  constructor
  · intro h order horder hcross
    have hle := List.single_le_sum (l := (book.sideOrders takerSide.opposite).map fun order =>
      if crosses takerSide limitPrice order.price then totalRemainingQty order else 0)
      (fun x hx => by
        obtain ⟨other, hother, rfl⟩ := List.mem_map.mp hx
        have := (hb.wellFormed_of_mem hother).total_pos
        split_ifs <;> omega) _ (List.mem_map_of_mem horder)
    have := (hb.wellFormed_of_mem horder).total_pos
    rw [if_pos hcross] at hle
    unfold sideTotal at h
    omega
  · intro h
    refine List.sum_eq_zero fun x hx => ?_
    obtain ⟨order, horder, rfl⟩ := List.mem_map.mp hx
    exact if_neg (h order horder)

/-- The first level of a side is at least as good as every order resting there. -/
theorem WellFormed.head_best {book : OrderBook} (hb : book.WellFormed) {side : Side}
    {e : ℤ × Level} (he : (book.levels side).entries.head? = some e) {order : Order}
    (horder : order ∈ book.sideOrders side) :
    order.price = e.1 ∨ side.before e.1 order.price := by
  obtain ⟨x, hx, hmem⟩ := List.mem_flatMap.mp horder
  obtain ⟨kind, hkind⟩ := Level.mem_orders.mp hmem
  have hprice : order.price = x.1 :=
    ((hb.level (OrderedMap.mem_entries_iff.mp hx)).placed kind order hkind).price
  have hs := (book.levels side).sorted
  cases hentries : (book.levels side).entries with
  | nil => rw [hentries] at he; cases he
  | cons head rest =>
    rw [hentries] at he hs hx
    cases he
    rcases List.mem_cons.mp hx with rfl | hx
    · exact Or.inl hprice
    · exact Or.inr (hprice ▸ (List.pairwise_cons.mp hs).1 x hx)

/-- The fill a side gives comes from its best price. -/
structure BestFill (book book' : OrderBook) (side : Side) (qty : ℤ) (fill : FillResult)
    (maker : Order) (rest : List Order) : Prop
    extends FillStep book book' side qty fill maker rest where
  best : ∀ order ∈ book.sideOrders side,
    order.price = maker.price ∨ side.before maker.price order.price

theorem front_of_queueAt {book : OrderBook} {side : Side} {price : ℤ} {level : Level}
    (hlevel : book.level? side price = some level) {kind : QueueKind} {maker : Order}
    {rest : List Order} (hfront : book.queueAt side price kind = maker :: rest)
    (hfirst : ∀ kind', kind'.before kind → book.queueAt side price kind' = []) :
    level.orders.head? = some maker := by
  have hempty : ∀ kind', kind'.before kind → level.queue kind' = [] := fun kind' h => by
    rw [← queueAt_of_level hlevel]
    exact hfirst kind' h
  rw [queueAt_of_level hlevel] at hfront
  unfold Level.orders
  cases kind with
  | displayed =>
    have hd : level.displayedOrders = maker :: rest := hfront
    rw [hd]
    rfl
  | iceberg =>
    have hd : level.displayedOrders = [] := hempty .displayed trivial
    have hi : level.icebergOrders = maker :: rest := hfront
    rw [hd, hi]
    rfl
  | hidden =>
    have hd : level.displayedOrders = [] := hempty .displayed trivial
    have hi : level.icebergOrders = [] := hempty .iceberg trivial
    have hh : level.hiddenOrders = maker :: rest := hfront
    rw [hd, hi, hh]
    rfl

/-- The maker of the next fill rests at the first level of its side. -/
theorem BestFill.first_level {book book' : OrderBook} {side : Side} {qty : ℤ} {fill : FillResult}
    {maker : Order} {rest : List Order} (h : BestFill book book' side qty fill maker rest) :
    ∃ level entries, (book.levels side).entries = (maker.price, level) :: entries := by
  have hb := h.wellFormed
  have hmaker := hb.mem_sideOrders.mpr ⟨h.found, h.placed.side⟩
  cases hentries : (book.levels side).entries with
  | nil => simp [sideOrders, hentries] at hmaker
  | cons e entries =>
    have he : (book.levels side).entries.head? = some e := by rw [hentries]; rfl
    have hlevel : book.level? side e.1 = some e.2 :=
      OrderedMap.mem_entries_iff.mp (List.mem_of_mem_head? he)
    have hne : e.2.orders ≠ [] := by
      have := (hb.level hlevel).nonempty
      simpa [Level.isEmpty] using this
    obtain ⟨first, hfirst⟩ := List.exists_mem_of_ne_nil _ hne
    obtain ⟨kind, hkind⟩ := Level.mem_orders.mp hfirst
    have hprice := ((hb.level hlevel).placed kind first hkind).price
    have hbest := h.best first (mem_sideOrders.mpr
      ⟨e.1, kind, by rwa [queueAt_of_level hlevel]⟩)
    have hsame : e.1 = maker.price := by
      rcases hb.head_best he hmaker with heq | hbefore
      · exact heq.symm
      · rcases hbest with heq | hbefore'
        · exact hprice.symm.trans heq
        · rw [hprice] at hbefore'
          exact absurd (Std.Asymm.asymm _ _ hbefore hbefore') id
    exact ⟨e.2, entries, by rw [← hsame]⟩

/-- The maker of the next fill is the first order of its side. -/
theorem BestFill.head {book book' : OrderBook} {side : Side} {qty : ℤ} {fill : FillResult}
    {maker : Order} {rest : List Order} (h : BestFill book book' side qty fill maker rest) :
    (book.sideOrders side).head? = some maker := by
  obtain ⟨level, entries, hentries⟩ := h.first_level
  have hlevel : book.level? side maker.price = some level :=
    OrderedMap.mem_entries_iff.mp (by rw [hentries]; exact List.mem_cons_self)
  have horders := front_of_queueAt hlevel h.front h.first
  rw [sideOrders, hentries, List.flatMap_cons, List.head?_append, horders, Option.some_or]

/-- The next fill of either side can take the whole quantity. -/
def Aligned (book : OrderBook) (traded : ℤ) : Prop :=
  (∀ order ∈ (book.sideOrders .bid).head?, traded ≤ available order) ∧
    ∀ order ∈ (book.sideOrders .ask).head?, traded ≤ available order

instance (book : OrderBook) (traded : ℤ) : Decidable (book.Aligned traded) :=
  inferInstanceAs (Decidable (_ ∧ _))

theorem WellFormed.bestFill_of_head {book : OrderBook} (hb : book.WellFormed) {side : Side}
    {e : ℤ × Level} (he : (book.levels side).entries.head? = some e) {qty : ℤ} (hqty : 0 < qty) :
    ∃ fill levels index maker rest,
      fillFromLevel (book.levels side) book.orderIndex e.1 e.2 qty =
        some (fill, levels, index) ∧ maker.price = e.1 ∧
      BestFill book (book.withSide side levels index) side qty fill maker rest := by
  have hlevel : book.level? side e.1 = some e.2 :=
    OrderedMap.mem_entries_iff.mp (List.mem_of_mem_head? he)
  obtain ⟨fill, levels, index, maker, rest, heq, hprice, hstep⟩ :=
    fillFromLevel_step hb hlevel hqty
  exact ⟨fill, levels, index, maker, rest, heq, hprice, hstep,
    fun order horder => hprice ▸ hb.head_best he horder⟩

/-- The best price of a side over all its liquidity. -/
def bestPrice (book : OrderBook) (side : Side) : Option ℤ :=
  (book.levels side).entries.head?.map Prod.fst

theorem fillBest_some {book book' : OrderBook} (hb : book.WellFormed) {side : Side} {qty : ℤ}
    {fill : FillResult} (h : book.fillBest side qty = some (fill, book')) :
    ∃ maker rest, BestFill book book' side qty fill maker rest ∧
      book.bestPrice side = some maker.price := by
  unfold fillBest fillBestFromLevels at h
  split_ifs at h with hqty
  rw [hb.findFirst_eq] at h
  cases he : (book.levels side).entries.head? with
  | none => simp [he] at h
  | some e =>
    obtain ⟨fill', levels, index, maker, rest, heq, hprice, hfill⟩ := hb.bestFill_of_head he hqty
    simp only [he, Option.bind_some, heq, Option.map_some, Option.some.injEq,
      Prod.mk.injEq] at h
    obtain ⟨rfl, rfl⟩ := h
    exact ⟨maker, rest, hfill, by rw [bestPrice, he, Option.map_some, hprice]⟩

theorem fillBestAtOrBetter_some {book book' : OrderBook} (hb : book.WellFormed) {side : Side}
    {auctionPrice qty : ℤ} {fill : FillResult}
    (h : book.fillBestAtOrBetter side auctionPrice qty = some (fill, book')) :
    ∃ maker rest, BestFill book book' side qty fill maker rest ∧
      crosses side.opposite auctionPrice maker.price := by
  unfold fillBestAtOrBetter at h
  split_ifs at h with hqty
  rw [hb.firstMatch_eq] at h
  cases he : (book.levels side).entries.head? with
  | none => simp [he] at h
  | some e =>
    obtain ⟨fill', levels, index, maker, rest, heq, hprice, hfill⟩ := hb.bestFill_of_head he hqty
    rw [he, Option.filter_some] at h
    split_ifs at h with hcross
    · simp only [Option.bind_some, heq, Option.map_some, Option.some.injEq, Prod.mk.injEq] at h
      obtain ⟨rfl, rfl⟩ := h
      exact ⟨maker, rest, hfill, by simpa [hprice] using hcross⟩
    · cases h

/-- Where an order crosses the auction price, the side gives a fill. -/
theorem WellFormed.fillBestAtOrBetter_ne_none {book : OrderBook} (hb : book.WellFormed)
    {side : Side} {auctionPrice qty : ℤ} (hqty : 0 < qty) {order : Order}
    (horder : order ∈ book.sideOrders side)
    (hcross : crosses side.opposite auctionPrice order.price) :
    book.fillBestAtOrBetter side auctionPrice qty ≠ none := by
  unfold fillBestAtOrBetter
  rw [if_pos hqty, hb.firstMatch_eq]
  cases he : (book.levels side).entries.head? with
  | none =>
    rw [List.head?_eq_none_iff] at he
    simp [sideOrders, he] at horder
  | some e =>
    have hbest : crosses side.opposite auctionPrice e.1 := by
      rcases hb.head_best he horder with h | h
      · exact h ▸ hcross
      · exact crosses_of_before (by rwa [Side.opposite_opposite]) hcross
    obtain ⟨fill, levels, index, maker, rest, heq, -, -⟩ := hb.bestFill_of_head he hqty
    simp [hbest, heq]

theorem WellFormed.fillBest_ne_none {book : OrderBook} (hb : book.WellFormed) {side : Side}
    {qty price : ℤ} (hqty : 0 < qty) (hprice : book.bestPrice side = some price) :
    book.fillBest side qty ≠ none := by
  unfold fillBest fillBestFromLevels
  rw [if_pos hqty, hb.findFirst_eq]
  cases he : (book.levels side).entries.head? with
  | none => simp [bestPrice, he] at hprice
  | some e =>
    obtain ⟨fill, levels, index, maker, rest, heq, -, -⟩ := hb.bestFill_of_head he hqty
    simp [heq]

/-- Every level counts, so the first match is the best price if it crosses. -/
theorem WellFormed.bestMatchPrice_eq {book : OrderBook} (hb : book.WellFormed) (takerSide : Side)
    (limitPrice : ℤ) : book.bestMatchPrice takerSide limitPrice =
      (book.bestPrice takerSide.opposite).filter fun price =>
        crosses takerSide limitPrice price := by
  unfold bestMatchPrice bestMatchPriceFromLevels bestPrice
  rw [find?_takeWhile_eq fun e he => by simpa using hb.level_totalQty_pos he]
  cases (book.levels takerSide.opposite).entries.head? with
  | none => rfl
  | some e =>
    simp only [Option.filter_some, Option.map_some]
    split_ifs <;> rfl

theorem WellFormed.bestPrice_spec {book : OrderBook} (hb : book.WellFormed) {side : Side}
    {price : ℤ} (h : book.bestPrice side = some price) :
    (∃ order ∈ book.sideOrders side, order.price = price) ∧
      ∀ order ∈ book.sideOrders side, order.price = price ∨ side.before price order.price := by
  obtain ⟨e, he, rfl⟩ := Option.map_eq_some_iff.mp h
  obtain ⟨fill, levels, index, maker, rest, -, hprice, hfill⟩ :=
    hb.bestFill_of_head he (show (0 : ℤ) < 1 by omega)
  exact ⟨⟨maker, hb.mem_sideOrders.mpr ⟨hfill.found, hfill.placed.side⟩, hprice⟩,
    fun order horder => hb.head_best he horder⟩

theorem bestPrice_eq_none {book : OrderBook} {side : Side} (h : book.bestPrice side = none) :
    book.sideOrders side = [] := by
  rw [bestPrice, Option.map_eq_none_iff, List.head?_eq_none_iff] at h
  simp [sideOrders, h]

/-- The engine's search ends exactly where nothing more is executable. -/
theorem WellFormed.bestMatchPrice_eq_none {book : OrderBook} (hb : book.WellFormed)
    {takerSide : Side} {limitPrice : ℤ} : book.bestMatchPrice takerSide limitPrice = none ↔
      book.executableQty takerSide limitPrice = 0 := by
  rw [hb.bestMatchPrice_eq, hb.executableQty_eq_zero]
  cases hbest : book.bestPrice takerSide.opposite with
  | none => simp [bestPrice_eq_none hbest]
  | some price =>
    obtain ⟨⟨order, horder, rfl⟩, hall⟩ := hb.bestPrice_spec hbest
    rw [Option.filter_some]
    constructor
    · intro hnone other hother hcross
      split_ifs at hnone with hbad
      rcases hall other hother with h | h
      · exact hbad (by simpa [h] using hcross)
      · exact hbad (by simpa using crosses_of_before h hcross)
    · intro h
      rw [if_neg (by simpa using h order horder)]

/-! The displayed part of a side. -/

/-- The front order of the best displayed level shows some quantity. -/
theorem WellFormed.front_of_bestDisplayed {book : OrderBook} (hb : book.WellFormed) {side : Side}
    {price : ℤ} (h : bestDisplayedPrice (book.levels side) = some price) {order : Order}
    (horder : book.frontOfLevel side price = some order) :
    order ∈ book.sideOrders side ∧ order.price = price ∧ 0 < order.qty := by
  obtain ⟨⟨price', level⟩, he, rfl⟩ := Option.map_eq_some_iff.mp h
  obtain ⟨hfind, hshown, -⟩ := OrderedMap.findFirst_some he
  simp only [decide_eq_true_eq] at hshown
  unfold frontOfLevel at horder
  rw [hfind, Option.bind_some] at horder
  have hlevel := hb.level hfind
  have hplaced : ∀ kind, order ∈ level.queue kind → kind ≠ .hidden →
      order ∈ book.sideOrders side ∧ order.price = price' ∧ 0 < order.qty := by
    intro kind hmem hkind
    have hp := hlevel.placed kind order hmem
    have hv := hp.visible
    rw [if_neg hkind] at hv
    refine ⟨OrderBook.mem_sideOrders.mpr ⟨price', kind, ?_⟩, hp.price, hv.2⟩
    rwa [queueAt_of_level hfind]
  unfold Level.orders at horder
  cases hd : level.displayedOrders with
  | cons head rest =>
    rw [hd] at horder
    cases horder
    exact hplaced .displayed (by simp [Level.queue, hd]) (by simp)
  | nil =>
    cases hi : level.icebergOrders with
    | cons head rest =>
      rw [hd, hi] at horder
      cases horder
      exact hplaced .iceberg (by simp [Level.queue, hi]) (by simp)
    | nil =>
      have hzero : (level.orders.map visibleQty).sum = 0 := by
        refine List.sum_eq_zero fun x hx => ?_
        obtain ⟨other, hother, rfl⟩ := List.mem_map.mp hx
        simp only [Level.orders, hd, hi, List.nil_append] at hother
        have hv := (hlevel.placed .hidden other hother).visible
        rwa [if_pos rfl] at hv
      have := hlevel.aggregate
      omega

/-- A first order that shows is the front of the best displayed level. -/
theorem WellFormed.front_of_head {book : OrderBook} (hb : book.WellFormed) {side : Side}
    {order : Order} (hhead : (book.sideOrders side).head? = some order)
    (hvisible : order.visibility ≠ .hidden) :
    bestDisplayedPrice (book.levels side) = some order.price ∧
      book.frontOfLevel side order.price = some order := by
  cases hentries : (book.levels side).entries with
  | nil => simp [sideOrders, hentries] at hhead
  | cons e entries =>
    have he : (book.levels side).entries.head? = some e := by rw [hentries]; rfl
    have hfind : (book.levels side).find? e.1 = some e.2 :=
      OrderedMap.mem_entries_iff.mp (List.mem_of_mem_head? he)
    have hlevel := hb.level hfind
    have horders : e.2.orders.head? = some order := by
      cases horders : e.2.orders with
      | nil => exact absurd hlevel.nonempty (by simp [Level.isEmpty, horders])
      | cons first others =>
        rw [sideOrders, hentries, List.flatMap_cons, horders] at hhead
        exact hhead
    have hmem : order ∈ e.2.orders := List.mem_of_mem_head? horders
    obtain ⟨kind, hkind⟩ := Level.mem_orders.mp hmem
    have hplaced := hlevel.placed kind order hkind
    have hshown : 0 < e.2.aggregateQty := by
      have hvis := hplaced.visible
      have hne : kind ≠ .hidden := by
        rintro rfl
        have hk := hplaced.kind
        cases hv : order.visibility <;> simp_all [queueKind]
      rw [if_neg hne] at hvis
      have hle := List.single_le_sum (l := e.2.orders.map visibleQty) (fun x hx => by
        obtain ⟨other, hother, rfl⟩ := List.mem_map.mp hx
        obtain ⟨kind', hkind'⟩ := Level.mem_orders.mp hother
        exact (hlevel.placed kind' other hkind').wellFormed.visible_nonneg) _
        (List.mem_map_of_mem hmem)
      have haggregate := hlevel.aggregate
      omega
    have hprice : order.price = e.1 := hplaced.price
    constructor
    · unfold bestDisplayedPrice OrderedMap.findFirst
      rw [hentries, List.find?_cons_of_pos (by simpa using hshown), hprice]
      rfl
    · rw [frontOfLevel, hprice, hfind, Option.bind_some, horders]

end OrderBook
end Tes
