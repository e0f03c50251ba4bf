import Tes.Book.Liquidity

/-! The displayed depth: what shows at each price, and which operations change it. -/
namespace Tes
namespace OrderBook

/-- The quantity that the resting orders of a side show at a price. -/
def visibleAt (book : OrderBook) (side : Side) (price : ℤ) : ℤ :=
  book.sideTotal side fun order => if order.price = price then visibleQty order else 0

/-- The price levels of a side as `depth` lists them without a limit. -/
def shown (book : OrderBook) (side : Side) : List (ℤ × ℤ) := appendLevels (book.levels side) none

theorem depth_none (book : OrderBook) : book.depth none = ⟨book.shown .bid, book.shown .ask⟩ := rfl

/-- A limit cuts the list short. -/
theorem depth_some (book : OrderBook) (n : ℕ) :
    book.depth (some n) = ⟨(book.shown .bid).take n, (book.shown .ask).take n⟩ := rfl

section WellFormed
variable {book book' : OrderBook} {side : Side} {price : ℤ}

/-- What shows at a price is the cached total of its level. -/
theorem WellFormed.visibleAt_eq (hb : book.WellFormed) (side : Side) (price : ℤ) :
    book.visibleAt side price = (book.level? side price).elim 0 Level.aggregateQty := by
  have hlevel : ∀ {price' : ℤ} {level : Level}, book.level? side price' = some level →
      (level.orders.map fun order => if order.price = price then visibleQty order else 0).sum =
        if price' = price then level.aggregateQty else 0 := by
    intro price' level hl
    have hprice : ∀ order ∈ level.orders, order.price = price' := fun order horder => by
      obtain ⟨kind, hkind⟩ := Level.mem_orders.mp horder
      exact ((hb.level hl).placed kind order hkind).price
    split_ifs with h
    · rw [(hb.level hl).aggregate]
      exact congrArg List.sum (List.map_congr_left fun order horder =>
        if_pos ((hprice order horder).trans h))
    · refine List.sum_eq_zero fun x hx => ?_
      obtain ⟨order, horder, rfl⟩ := List.mem_map.mp hx
      exact if_neg fun heq => h ((hprice order horder).symm.trans heq)
  rw [visibleAt, sideTotal_eq]
  refine (OrderedMap.total_single (k := price) fun price' level hl hne => ?_).trans ?_
  · rw [hlevel hl, if_neg hne]
  · show (book.level? side price).elim 0 _ = _
    cases hl : book.level? side price with
    | none => rfl
    | some level => exact (hlevel hl).trans (if_pos rfl)

/-- The depth lists the prices at which something shows, with what shows there. -/
theorem WellFormed.mem_shown (hb : book.WellFormed) {qty : ℤ} :
    (price, qty) ∈ book.shown side ↔ 0 < qty ∧ book.visibleAt side price = qty := by
  rw [hb.visibleAt_eq]
  simp only [shown, appendLevels, List.mem_map, List.mem_filter, decide_eq_true_eq]
  constructor
  · rintro ⟨⟨price', level⟩, ⟨he, hpos⟩, heq⟩
    cases heq
    have hl : book.level? side price' = some level := OrderedMap.mem_entries_iff.mp he
    rw [hl]
    exact ⟨hpos, rfl⟩
  · rintro ⟨hpos, hqty⟩
    cases hl : book.level? side price with
    | none =>
      rw [hl] at hqty
      have hzero : qty = 0 := hqty.symm
      omega
    | some level =>
      rw [hl] at hqty
      have hagg : level.aggregateQty = qty := hqty
      exact ⟨(price, level), ⟨OrderedMap.mem_entries_iff.mpr hl, hagg ▸ hpos⟩, by rw [hagg]⟩

/-- Best price first, and no price twice. -/
theorem shown_sorted (book : OrderBook) (side : Side) :
    (book.shown side).Pairwise fun a b => side.before a.1 b.1 := by
  unfold shown appendLevels
  exact List.pairwise_map.mpr ((book.levels side).sorted.filter _)

theorem shown_congr (hb : book.WellFormed) (hb' : book'.WellFormed)
    (h : ∀ price, book'.visibleAt side price = book.visibleAt side price) :
    book'.shown side = book.shown side := by
  have hmem : ∀ e, e ∈ book'.shown side ↔ e ∈ book.shown side := fun e => by
    obtain ⟨price, qty⟩ := e
    rw [hb'.mem_shown, hb.mem_shown, h]
  have hnodup : ∀ book : OrderBook, (book.shown side).Nodup := fun book =>
    (shown_sorted book side).imp fun hlt => by
      rintro rfl
      exact irrefl_of side.before _ hlt
  refine List.Perm.eq_of_pairwise (fun a b _ _ hab hba => ?_) (shown_sorted book' side)
    (shown_sorted book side) ((List.perm_ext_iff_of_nodup (hnodup book') (hnodup book)).mpr hmem)
  exact absurd (trans_of side.before hab hba) (irrefl_of side.before _)

/-- Books that show the same at every price have the same depth. -/
theorem depth_congr (hb : book.WellFormed) (hb' : book'.WellFormed)
    (h : ∀ side price, book'.visibleAt side price = book.visibleAt side price)
    (limit : Option ℕ) : book'.depth limit = book.depth limit := by
  have hbid := shown_congr hb hb' (h .bid)
  have hask := shown_congr hb hb' (h .ask)
  cases limit with
  | none => rw [depth_none, depth_none, hbid, hask]
  | some n => rw [depth_some, depth_some, hbid, hask]

end WellFormed
end OrderBook
end Tes
