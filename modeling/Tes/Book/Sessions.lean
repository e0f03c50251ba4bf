import Tes.Book.Depth
import Tes.Book.Validation

/-! A book in use: any sequence of its public operations, with the list nodes that hold its
orders and a tally of what fills take from each. -/
namespace Tes
open OrderBook

/-- The public operations of a book. -/
inductive BookOp
  | addLimitOrder (order : Order)
  | addHiddenOrder (order : Order)
  | addIcebergOrder (order : Order)
  | cancel (id : OrderId)
  | fillBest (side : Side) (qty : ℤ)
  | fillBestAtOrBetter (side : Side) (auctionPrice qty : ℤ)

/-- A book with the nodes of each queue from its front, the node that the index keeps for
each id, and what each id was added with and what fills have taken from it since. -/
structure BookSession where
  book : OrderBook := {}
  nodes : IndexEntry → List ℕ := fun _ => []
  iterator : OrderId → ℕ := fun _ => 0
  allocated : ℕ := 0
  added : OrderId → ℤ := fun _ => 0
  taken : OrderId → ℤ := fun _ => 0

namespace BookSession

/-- A new node at the back of a queue, kept for the id. -/
def pushNode (s : BookSession) (place : IndexEntry) (id : OrderId) : BookSession :=
  { s with
    nodes := Function.update s.nodes place (s.nodes place ++ [s.allocated])
    iterator := Function.update s.iterator id s.allocated
    allocated := s.allocated + 1 }

/-- The book took the order if it returned an event. -/
def add (s : BookSession) (order : Order) (visibility : OrderVisibility) : BookSession :=
  match s.book.addOrder order visibility with
  | ([], book) => { s with book }
  | (_ :: _, book) =>
    { s.pushNode ⟨order.side, order.price, queueKind visibility⟩ order.id with
      book
      added := Function.update s.added order.id order.qty
      taken := Function.update s.taken order.id 0 }

/-- The node to erase is the one that the index keeps. -/
def cancel (s : BookSession) (id : OrderId) : BookSession :=
  match s.book.orderIndex.lookup id with
  | none => { s with book := (s.book.cancel id).2 }
  | some place =>
    { s with
      book := (s.book.cancel id).2
      nodes := Function.update s.nodes place ((s.nodes place).erase (s.iterator id)) }

/-- The front node of the queue goes, gives way to a new one at the back, or stays. -/
def moveNodes (s : BookSession) (side : Side) (fill : FillResult) : BookSession :=
  let place : IndexEntry := ⟨side, fill.price, queueKind fill.makerVisibility⟩
  let popped := { s with nodes := Function.update s.nodes place (s.nodes place).tail }
  if fill.makerFilled then popped
  else if fill.replenished.isSome then popped.pushNode place fill.makerId
  else s

def fill (s : BookSession) (side : Side) (result : Option (FillResult × OrderBook)) : BookSession :=
  match result with
  | none => s
  | some (fill, book) =>
    { s.moveNodes side fill with
      book
      taken := Function.update s.taken fill.makerId (s.taken fill.makerId + fill.qty) }

def step (s : BookSession) : BookOp → BookSession
  | .addLimitOrder order => s.add order .displayed
  | .addHiddenOrder order => s.add order .hidden
  | .addIcebergOrder order => s.add order .iceberg
  | .cancel id => s.cancel id
  | .fillBest side qty => s.fill side (s.book.fillBest side qty)
  | .fillBestAtOrBetter side auctionPrice qty =>
    s.fill side (s.book.fillBestAtOrBetter side auctionPrice qty)

/-- The session after some operations on an empty book. -/
def run (ops : List BookOp) : BookSession := ops.foldl step {}

/-- The queue at a place. -/
def queue (s : BookSession) (place : IndexEntry) : List Order :=
  s.book.queueAt place.side place.price place.queue

/-- What every operation keeps. -/
structure Tracks (s : BookSession) : Prop where
  book : s.book.WellFormed
  nodes : ∀ place, s.nodes place = (s.queue place).map fun order => s.iterator order.id
  lt : ∀ {id}, s.book.findOrder id ≠ none → s.iterator id < s.allocated
  unique : ∀ {id id'}, s.book.findOrder id ≠ none → s.book.findOrder id' ≠ none →
    s.iterator id = s.iterator id' → id = id'
  tally : ∀ {id order}, s.book.findOrder id = some order →
    s.added id = totalRemainingQty order + s.taken id

theorem tracks_empty : Tracks {} where
  book := wellFormed_empty
  nodes place := by
    obtain ⟨side, price, kind⟩ := place
    cases side <;> cases kind <;> rfl
  lt h := absurd rfl h
  unique h := absurd rfl h
  tally h := by cases h

/-- A new iterator of one id leaves the queues of the others alone. -/
theorem map_iterator (iterator : OrderId → ℕ) {id : OrderId} (node : ℕ) (orders : List Order)
    (h : ∀ order ∈ orders, order.id ≠ id) :
    orders.map (fun order => Function.update iterator id node order.id) =
      orders.map fun order => iterator order.id :=
  List.map_congr_left fun order horder => Function.update_of_ne (h order horder) _ _

section Steps
variable {s : BookSession}

theorem Tracks.found (h : s.Tracks) {place : IndexEntry} {order : Order}
    (horder : order ∈ s.queue place) : s.book.findOrder order.id = some order :=
  h.book.findOrder_of_mem horder

/-- Every operation on a queue leaves the other queues and their nodes alone. -/
theorem queue_withQueue (book : OrderBook) (place : IndexEntry) (orders : List Order) (delta : ℤ)
    (index : OrderIndex) (place' : IndexEntry) :
    (book.withQueue place.side place.price place.queue orders delta index).queueAt place'.side
      place'.price place'.queue =
      if place' = place then orders else book.queueAt place'.side place'.price place'.queue := by
  rw [queueAt_withQueue]
  refine if_congr ?_ rfl rfl
  obtain ⟨side, price, kind⟩ := place
  obtain ⟨side', price', kind'⟩ := place'
  simp only [IndexEntry.mk.injEq]

theorem Tracks.add (h : s.Tracks) (order : Order) (visibility : OrderVisibility) :
    (s.add order visibility).Tracks := by
  unfold BookSession.add OrderBook.addOrder
  split_ifs with hrefuses
  · exact ⟨h.book, h.nodes, h.lt, h.unique, h.tally⟩
  unfold refuses at hrefuses
  push Not at hrefuses
  obtain ⟨hprice, hqty, hfresh, hdisplay⟩ := hrefuses
  have hnone : s.book.orderIndex.lookup order.id = none := Finmap.lookup_eq_none.mpr hfresh
  have hplaced : (arrange order visibility).Placed order.side order.price (queueKind visibility) :=
    arrange_placed hqty hdisplay
  have hsame : (arrange order visibility).Placed (arrange order visibility).side
      (arrange order visibility).price (queueKind (arrange order visibility).visibility) := by
    simpa using hplaced
  have hfree : s.book.orderIndex.lookup (arrange order visibility).id = none := by
    rw [arrange_id, hnone]
  have hfind := findOrder_insertOrder h.book hsame hfree
  rw [arrange_id] at hfind
  have hrests : ∀ {id}, id ≠ order.id →
      ((s.book.insertOrder (arrange order visibility)).findOrder id ≠ none ↔
        s.book.findOrder id ≠ none) := fun hid => by rw [hfind, if_neg hid]
  have hother : ∀ {place order'}, order' ∈ s.queue place → order'.id ≠ order.id :=
    fun hmem heq => by
      have hfound := h.found hmem
      rw [heq, h.book.findOrder_eq_none.mpr hnone] at hfound
      cases hfound
  refine ⟨h.book.insertOrder hsame hfree, fun place => ?_, fun {id} hid => ?_,
    fun {id id'} hid hid' heq => ?_, fun {id found} hfound => ?_⟩
  · unfold queue
    dsimp only [pushNode]
    rw [insertOrder_eq, arrange_side, arrange_price, arrange_visibility]
    have hqueue := queue_withQueue s.book ⟨order.side, order.price, queueKind visibility⟩
      (s.queue ⟨order.side, order.price, queueKind visibility⟩ ++ [arrange order visibility])
      (visibleQty (arrange order visibility)) (s.book.orderIndex.insert
        (arrange order visibility).id ⟨order.side, order.price, queueKind visibility⟩) place
    unfold queue at hqueue
    dsimp only at hqueue
    rw [hqueue, Function.update_apply]
    split_ifs with hplace
    · have hold := map_iterator s.iterator s.allocated
        (s.queue ⟨order.side, order.price, queueKind visibility⟩) fun _ => hother
      unfold queue at hold
      rw [List.map_append, hold, h.nodes]
      simp [queue]
    · rw [h.nodes]
      exact (map_iterator _ _ _ fun _ => hother).symm
  · dsimp only [pushNode]
    by_cases heq : id = order.id
    · rw [heq, Function.update_self]
      exact Nat.lt_succ_self _
    · rw [Function.update_of_ne heq]
      exact Nat.lt_succ_of_lt (h.lt ((hrests heq).mp hid))
  · dsimp only [pushNode] at heq
    by_cases hnew : id = order.id
    · by_cases hnew' : id' = order.id
      · rw [hnew, hnew']
      · rw [hnew, Function.update_self, Function.update_of_ne hnew'] at heq
        have := h.lt ((hrests hnew').mp hid')
        omega
    · by_cases hnew' : id' = order.id
      · rw [hnew', Function.update_self, Function.update_of_ne hnew] at heq
        have := h.lt ((hrests hnew).mp hid)
        omega
      · rw [Function.update_of_ne hnew, Function.update_of_ne hnew'] at heq
        exact h.unique ((hrests hnew).mp hid) ((hrests hnew').mp hid') heq
  · dsimp only at hfound ⊢
    rw [hfind] at hfound
    split_ifs at hfound with heq
    · cases hfound
      rw [heq, Function.update_self, Function.update_self, totalRemainingQty_arrange, add_zero]
    · rw [Function.update_of_ne heq, Function.update_of_ne heq]
      exact h.tally hfound

theorem Tracks.cancel (h : s.Tracks) (id : OrderId) : (s.cancel id).Tracks := by
  unfold BookSession.cancel
  cases hentry : s.book.orderIndex.lookup id with
  | none =>
    dsimp only
    rw [cancel_of_lookup_none hentry]
    exact ⟨h.book, h.nodes, h.lt, h.unique, h.tally⟩
  | some place =>
    obtain ⟨order, horder, rfl⟩ := List.mem_map.mp (h.book.indexed_queueAt.mp hentry)
    have hplaced := h.book.placed horder
    have hplace : place = ⟨order.side, order.price, queueKind order.visibility⟩ := by
      rw [hplaced.side, hplaced.price, hplaced.kind]
    subst hplace
    have hfound := h.book.findOrder_of_mem horder
    have hfind := findOrder_cancel h.book hfound
    have hleft : ∀ {id'}, (s.book.cancel order.id).2.findOrder id' ≠ none →
        s.book.findOrder id' ≠ none := fun {id'} hid => by
      rw [hfind] at hid
      split_ifs at hid
      · exact absurd rfl hid
      · exact hid
    obtain ⟨front, back, hqueue, herase, hne⟩ := eraseP_id_eq (h.book.nodup_queueAt _ _ _) horder
    have hnodes : (s.nodes ⟨order.side, order.price, queueKind order.visibility⟩).erase
        (s.iterator order.id) = (front ++ back).map fun order => s.iterator order.id := by
      have hfront : s.iterator order.id ∉ front.map fun order => s.iterator order.id := fun hmem => by
        obtain ⟨other, hother, heq⟩ := List.mem_map.mp hmem
        have hrests : other ∈ s.book.queueAt order.side order.price (queueKind order.visibility) := by
          rw [hqueue]
          exact List.mem_append_left _ hother
        have hother' := h.book.findOrder_of_mem hrests
        exact hne other (List.mem_append_left _ hother)
          (h.unique (by rw [hother']; exact Option.some_ne_none _)
            (by rw [hfound]; exact Option.some_ne_none _) heq)
      rw [h.nodes, queue, hqueue, List.map_append, List.map_cons, List.erase_append_right _ hfront,
        List.erase_cons_head, List.map_append]
    refine ⟨h.book.cancel hfound, fun place => ?_, fun hid => h.lt (hleft hid),
      fun hid hid' heq => h.unique (hleft hid) (hleft hid') heq, fun {id' found} hfound' => ?_⟩
    · unfold queue
      dsimp only
      have hafter := queue_withQueue s.book ⟨order.side, order.price, queueKind order.visibility⟩
        (front ++ back) (-visibleQty order) (s.book.orderIndex.erase order.id) place
      dsimp only at hafter
      rw [cancel_eq h.book hfound, herase, hafter, Function.update_apply]
      split_ifs
      · exact hnodes
      · exact h.nodes place
    · dsimp only at hfound' ⊢
      rw [hfind] at hfound'
      split_ifs at hfound'
      exact h.tally hfound'

/-- How the queue of the maker and the report of the fill go together. -/
theorem FillStep.queue_cases {book book' : OrderBook} {side : Side} {qty : ℤ} {fill : FillResult}
    {maker : Order} {rest : List Order} (h : FillStep book book' side qty fill maker rest) :
    (fill.makerFilled = true ∧ queueAfter maker rest fill.qty = rest) ∨
      fill.makerFilled = false ∧ ∃ left, survivor maker fill.qty = some left ∧
        ((fill.replenished.isSome = true ∧ queueAfter maker rest fill.qty = rest ++ [left]) ∨
          fill.replenished.isSome = false ∧ queueAfter maker rest fill.qty = left :: rest) := by
  have htotal := totalRemainingQty_takeFrom (queueKind maker.visibility) maker fill.qty
  rw [h.result] at htotal ⊢
  unfold fillResult at htotal ⊢
  unfold queueAfter survivor
  dsimp only at htotal ⊢
  by_cases hzero : min qty (available maker) = totalRemainingQty maker
  · left
    rw [if_pos (by omega)]
    exact ⟨decide_eq_true hzero, rfl⟩
  · right
    have hleft : ¬ totalRemainingQty (takeFrom (queueKind maker.visibility) maker
        (min qty (available maker))) = 0 := by omega
    rw [if_neg hleft, if_neg hleft]
    refine ⟨decide_eq_false hzero, ?_⟩
    split_ifs
    · exact ⟨_, rfl, Or.inl ⟨rfl, rfl⟩⟩
    · exact ⟨_, rfl, Or.inr ⟨rfl, rfl⟩⟩

/-- After a fill the nodes are again those of the queues. -/
theorem Tracks.moveNodes (h : s.Tracks) {book' : OrderBook} {side : Side} {qty : ℤ}
    {fill : FillResult} {maker : Order} {rest : List Order}
    (hfill : FillStep s.book book' side qty fill maker rest) (taken : OrderId → ℤ)
    (htaken : ∀ id, taken id = s.taken id + if id = maker.id then fill.qty else 0) :
    { s.moveNodes side fill with book := book', taken := taken }.Tracks := by
  have hfind := hfill.findOrder_after
  have hmaker : s.book.findOrder maker.id ≠ none := by
    rw [hfill.found]
    exact Option.some_ne_none _
  have hleft : ∀ {id}, book'.findOrder id ≠ none → s.book.findOrder id ≠ none := fun {id} hid => by
    rw [hfind] at hid
    split_ifs at hid with heq
    · exact heq ▸ hmaker
    · exact hid
  have hplace : (⟨side, fill.price, queueKind fill.makerVisibility⟩ : IndexEntry) =
      ⟨side, maker.price, queueKind maker.visibility⟩ := by rw [hfill.result]; rfl
  have hafter : ∀ place : IndexEntry, book'.queueAt place.side place.price place.queue =
      if place = ⟨side, maker.price, queueKind maker.visibility⟩ then queueAfter maker rest fill.qty
      else s.queue place := fun place => by
    rw [hfill.left]
    exact queue_withQueue _ ⟨side, maker.price, queueKind maker.visibility⟩ _ _ _ place
  have hnodes : s.nodes ⟨side, maker.price, queueKind maker.visibility⟩ =
      s.iterator maker.id :: rest.map fun order => s.iterator order.id := by
    rw [h.nodes, queue, hfill.front, List.map_cons]
  have hrest : ∀ order ∈ rest, order.id ≠ maker.id := by
    have hnodup := h.book.nodup_queueAt side maker.price (queueKind maker.visibility)
    rw [hfill.front, List.map_cons, List.nodup_cons] at hnodup
    exact fun order horder heq => hnodup.1 (heq ▸ List.mem_map_of_mem horder)
  have htally : ∀ {id order}, book'.findOrder id = some order →
      s.added id = totalRemainingQty order + taken id := fun {id order} hfound => by
    rw [htaken]
    rw [hfind] at hfound
    split_ifs at hfound ⊢ with heq
    · have hbefore := h.tally hfill.found
      have htotal := (survivor_some hfound).total
      rw [heq]
      omega
    · rw [add_zero]
      exact h.tally hfound
  unfold BookSession.moveNodes
  rw [hplace]
  dsimp only
  rcases FillStep.queue_cases hfill with ⟨hgone, hqueue⟩ | ⟨hstays, left, hsurvivor, hqueue⟩
  · rw [if_pos hgone]
    refine ⟨hfill.wellFormed_after, fun place => ?_, fun hid => h.lt (hleft hid),
      fun hid hid' heq => h.unique (hleft hid) (hleft hid') heq, htally⟩
    unfold queue
    dsimp only
    rw [hafter, Function.update_apply]
    split_ifs
    · rw [hnodes, hqueue, List.tail_cons]
    · exact h.nodes place
  have hid : left.id = maker.id := (survivor_some hsurvivor).id
  rw [if_neg (by rw [hstays]; exact Bool.false_ne_true)]
  rcases hqueue with ⟨hrenewed, hqueue⟩ | ⟨hkept, hqueue⟩
  · rw [if_pos hrenewed]
    refine ⟨hfill.wellFormed_after, fun place => ?_, fun {id} hid' => ?_, fun {id id'} hid hid' heq => ?_,
      htally⟩
    · unfold queue
      dsimp only [pushNode]
      have hmakerId := hfill.makerId
      rw [hafter, Function.update_apply, hmakerId]
      split_ifs with hcase
      · rw [Function.update_self, hnodes, hqueue, List.tail_cons, List.map_append,
          map_iterator _ _ _ hrest, List.map_singleton, hid, Function.update_self]
      · have hother : ∀ order ∈ s.queue place, order.id ≠ maker.id := fun order horder heq => by
          have hplaced := h.book.placed horder
          have hfront : maker ∈ s.book.queueAt side maker.price (queueKind maker.visibility) := by
            rw [hfill.front]
            exact List.mem_cons_self
          obtain ⟨hside, hprice, hkind⟩ := h.book.place_unique horder hfront heq
          refine hcase ?_
          obtain ⟨side', price', kind'⟩ := place
          exact (IndexEntry.mk.injEq _ _ _ _ _ _).mpr ⟨hside, hprice, hkind⟩
        rw [Function.update_of_ne hcase, map_iterator _ _ _ hother]
        exact h.nodes place
    · dsimp only [pushNode]
      rw [hfill.makerId, Function.update_apply]
      split_ifs
      · exact Nat.lt_succ_self _
      · exact Nat.lt_succ_of_lt (h.lt (hleft hid'))
    · dsimp only [pushNode] at heq
      have hlt := h.lt (hleft hid)
      have hlt' := h.lt (hleft hid')
      rw [hfill.makerId, Function.update_apply, Function.update_apply] at heq
      split_ifs at heq with hcase hcase'
      · rw [hcase, hcase']
      · omega
      · omega
      · exact h.unique (hleft hid) (hleft hid') heq
  · rw [if_neg (by rw [hkept]; exact Bool.false_ne_true)]
    refine ⟨hfill.wellFormed_after, fun place => ?_, fun hid => h.lt (hleft hid),
      fun hid hid' heq => h.unique (hleft hid) (hleft hid') heq, htally⟩
    unfold queue
    dsimp only
    rw [hafter]
    split_ifs with hcase
    · rw [hcase, hnodes, hqueue, List.map_cons, hid]
    · exact h.nodes place

theorem Tracks.fill (h : s.Tracks) {side : Side} {result : Option (FillResult × OrderBook)}
    (hresult : ∀ {fill book'}, result = some (fill, book') →
      ∃ qty maker rest, FillStep s.book book' side qty fill maker rest) :
    (s.fill side result).Tracks := by
  cases result with
  | none => exact h
  | some next =>
    obtain ⟨fill, book'⟩ := next
    obtain ⟨qty, maker, rest, hfill⟩ := hresult rfl
    refine h.moveNodes hfill _ fun id => ?_
    rw [hfill.makerId, Function.update_apply]
    split_ifs with heq
    · rw [heq]
    · rw [add_zero]

theorem Tracks.step (h : s.Tracks) (op : BookOp) : (s.step op).Tracks := by
  cases op with
  | addLimitOrder order => exact h.add order .displayed
  | addHiddenOrder order => exact h.add order .hidden
  | addIcebergOrder order => exact h.add order .iceberg
  | cancel id => exact h.cancel id
  | fillBest side qty =>
    refine h.fill fun hsome => ?_
    obtain ⟨maker, rest, hfill, -⟩ := fillBest_some h.book hsome
    exact ⟨qty, maker, rest, hfill.toFillStep⟩
  | fillBestAtOrBetter side auctionPrice qty =>
    refine h.fill fun hsome => ?_
    obtain ⟨maker, rest, hfill, -⟩ := fillBestAtOrBetter_some h.book hsome
    exact ⟨qty, maker, rest, hfill.toFillStep⟩

theorem tracks_run (ops : List BookOp) : (run ops).Tracks := by
  have hfold : ∀ (ops : List BookOp) (s : BookSession), s.Tracks → (ops.foldl BookSession.step s).Tracks := by
    intro ops
    induction ops with
    | nil => exact fun s h => h
    | cons op rest ih => exact fun s h => ih _ (h.step op)
  exact hfold ops {} tracks_empty

/-- The representation of a book in use is consistent. -/
structure Consistent (s : BookSession) : Prop where
  validates : s.book.validateInvariants = true
  ids : (s.book.resting.map Order.id).Nodup
  /-- The index has the ids of the resting orders, each with its side, price and queue. -/
  indexed : ∀ {id place}, s.book.orderIndex.lookup id = some place ↔
    ∃ order ∈ s.queue place, order.id = id
  placed : ∀ {place order}, order ∈ s.queue place →
    place = ⟨order.side, order.price, queueKind order.visibility⟩
  found : ∀ {place order}, order ∈ s.queue place → s.book.findOrder order.id = some order
  /-- The index keeps the node that holds the order, and no two orders share a node. -/
  nodes : ∀ place, s.nodes place = (s.queue place).map fun order => s.iterator order.id
  apart : ∀ order ∈ s.book.resting, ∀ order' ∈ s.book.resting,
    s.iterator order.id = s.iterator order'.id → order = order'
  levels : ∀ {side price level}, s.book.level? side price = some level → level.orders ≠ []
  quantities : ∀ order ∈ s.book.resting, order.WellFormed
  tally : ∀ order ∈ s.book.resting,
    s.added order.id = totalRemainingQty order + s.taken order.id
  /-- The depth is cut from the list of what shows, best price first. -/
  depth : ∃ shown : Side → List (ℤ × ℤ),
    (∀ side, (shown side).Pairwise fun a b => side.before a.1 b.1) ∧
    (∀ side price qty, (price, qty) ∈ shown side ↔ 0 < qty ∧ s.book.visibleAt side price = qty) ∧
    ∀ n, s.book.depth (some n) = ⟨(shown .bid).take n, (shown .ask).take n⟩

theorem Tracks.consistent (h : s.Tracks) : s.Consistent where
  validates := h.book.validateInvariants
  ids := h.book.nodup_resting
  indexed := by
    intro id place
    rw [h.book.indexed_queueAt, List.mem_map]
    rfl
  placed := by
    rintro ⟨side, price, kind⟩ order horder
    have hplaced := h.book.placed horder
    rw [hplaced.side, hplaced.price, hplaced.kind]
  found horder := h.found horder
  nodes := h.nodes
  apart order horder order' horder' heq := by
    obtain ⟨side, hside⟩ := mem_resting.mp horder
    obtain ⟨side', hside'⟩ := mem_resting.mp horder'
    have hfound := (h.book.mem_sideOrders.mp hside).1
    have hfound' := (h.book.mem_sideOrders.mp hside').1
    have hid := h.unique (by rw [hfound]; exact Option.some_ne_none _)
      (by rw [hfound']; exact Option.some_ne_none _) heq
    rw [hid, hfound', Option.some.injEq] at hfound
    exact hfound.symm
  levels hl hnil := by
    have hempty := (h.book.level hl).nonempty
    unfold Level.isEmpty at hempty
    rw [hnil] at hempty
    cases hempty
  quantities order horder := by
    obtain ⟨side, hside⟩ := mem_resting.mp horder
    exact h.book.wellFormed_of_mem hside
  tally order horder := by
    obtain ⟨side, hside⟩ := mem_resting.mp horder
    exact h.tally (h.book.mem_sideOrders.mp hside).1
  depth := ⟨s.book.shown, shown_sorted s.book, fun _ _ _ => h.book.mem_shown, depth_some s.book⟩

end Steps

end BookSession
end Tes
