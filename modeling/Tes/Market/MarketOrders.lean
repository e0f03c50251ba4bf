import Tes.Book.Depth
import Tes.Market.Replacement

/-! Market orders: the limit that the displayed depth gives them, and the quantity they take up to
that limit, hidden and reserve quantity included. -/
namespace Tes
open OrderBook MatchingEngine EStateM

namespace OrderBook

/-- What the opposite side shows at or better than a taker's limit. -/
def shownWithin (book : OrderBook) (side : Side) (limit : ℤ) : ℤ :=
  (((book.shown side.opposite).filter fun level => crosses side limit level.1).map Prod.snd).sum

/-- What the opposite side shows. -/
def shownTotal (book : OrderBook) (side : Side) : ℤ :=
  ((book.shown side.opposite).map Prod.snd).sum

/-- The worst displayed price that a taker needs for a quantity: no better one shows enough, and
this one does, or it is the worst there is. -/
structure WorstNeeded (book : OrderBook) (side : Side) (qty limit : ℤ) : Prop where
  shown : ∃ shownQty, (limit, shownQty) ∈ book.shown side.opposite
  needed : ∀ level ∈ book.shown side.opposite, side.opposite.before level.1 limit →
    book.shownWithin side level.1 < qty
  enough : qty ≤ book.shownWithin side limit ∨
    ∀ level ∈ book.shown side.opposite, crosses side limit level.1

section Sweep
variable {book : OrderBook} {side : Side} {limit qty : ℤ}

/-- Where the sweep of the levels stops: before it they do not cover the quantity, with it they do,
or it is the last. -/
theorem marketLimit_split {levels : List (ℤ × ℤ)} {remaining start : ℤ} (hne : levels ≠ [])
    (hpos : 0 < remaining) : ∃ better shownQty worse,
      levels = better ++ (marketLimit levels remaining start, shownQty) :: worse ∧
      (better.map Prod.snd).sum < remaining ∧
      (remaining ≤ (better.map Prod.snd).sum + shownQty ∨ worse = []) := by
  induction levels generalizing remaining start with
  | nil => exact absurd rfl hne
  | cons level rest ih =>
    obtain ⟨price, shownQty⟩ := level
    rw [marketLimit]
    split_ifs with hdone
    · exact ⟨[], shownQty, rest, rfl, hpos, .inl (by simp; omega)⟩
    · rcases eq_or_ne rest [] with rfl | hrest
      · exact ⟨[], shownQty, [], rfl, hpos, .inr rfl⟩
      · obtain ⟨better, shownQty', worse, hlevels, hshort, henough⟩ :=
          @ih _ price hrest (show 0 < remaining - min remaining shownQty by omega)
        refine ⟨(price, shownQty) :: better, shownQty', worse, congrArg _ hlevels, ?_, ?_⟩
        · rw [List.map_cons, List.sum_cons]
          omega
        · rw [List.map_cons, List.sum_cons]
          exact henough.imp_left fun h => by omega

theorem crosses_iff {price : ℤ} :
    crosses side limit price ↔ price = limit ∨ side.opposite.before price limit := by
  cases side <;> simp only [crosses, Side.opposite, Side.before] <;> omega

/-- What shows at a price of the depth is positive. -/
theorem WellFormed.shown_pos (hb : book.WellFormed) : ∀ level ∈ book.shown side, 0 < level.2 :=
  fun _ hlevel => (hb.mem_shown.mp hlevel).1

/-- A filter that keeps a front part of the levels and nothing of the rest. -/
theorem filter_front {better worse : List (ℤ × ℤ)} {keep : ℤ × ℤ → Bool}
    (hbetter : ∀ level ∈ better, keep level = true) (hworse : ∀ level ∈ worse, keep level = false) :
    (better ++ worse).filter keep = better := by
  rw [List.filter_append, List.filter_eq_self.mpr hbetter,
    List.filter_eq_nil_iff.mpr fun level hlevel => by simp [hworse level hlevel], List.append_nil]

theorem sum_filter_le {levels : List (ℤ × ℤ)} (hpos : ∀ level ∈ levels, 0 < level.2)
    (keep : ℤ × ℤ → Bool) : ((levels.filter keep).map Prod.snd).sum ≤ (levels.map Prod.snd).sum := by
  induction levels with
  | nil => exact le_rfl
  | cons level rest ih =>
    have hrest := ih fun level hlevel => hpos level (List.mem_cons_of_mem _ hlevel)
    have hlevel := hpos level List.mem_cons_self
    rw [List.filter_cons]
    split_ifs
    · simp only [List.map_cons, List.sum_cons]
      omega
    · simp only [List.map_cons, List.sum_cons]
      omega

/-- The limit of a market order is the worst displayed price that it needs. -/
theorem WellFormed.worstNeeded_marketLimit (hb : book.WellFormed)
    (hshown : book.shown side.opposite ≠ []) (hpos : 0 < qty) {start : ℤ} :
    book.WorstNeeded side qty (marketLimit (book.shown side.opposite) qty start) := by
  obtain ⟨better, shownQty, worse, hlevels, hshort, henough⟩ :=
    @marketLimit_split _ _ start hshown hpos
  set limit := marketLimit (book.shown side.opposite) qty start
  have hsorted := shown_sorted book side.opposite
  have hqty : ∀ level ∈ book.shown side.opposite, 0 < level.2 := hb.shown_pos
  rw [hlevels] at hsorted hqty
  obtain ⟨-, hrest, hacross⟩ := List.pairwise_append.mp hsorted
  have hbetter : ∀ level ∈ better, side.opposite.before level.1 limit :=
    fun level hlevel => hacross level hlevel _ List.mem_cons_self
  have hworse : ∀ level ∈ worse, side.opposite.before limit level.1 :=
    (List.pairwise_cons.mp hrest).1
  have hasymm : ∀ {a b : ℤ}, side.opposite.before a b → ¬ (b = a ∨ side.opposite.before b a) := by
    intro a b hab hba
    cases side <;> simp only [Side.opposite, Side.before] at hab hba <;> omega
  have hwithin : book.shownWithin side limit = (better.map Prod.snd).sum + shownQty := by
    have hkept : (better ++ (limit, shownQty) :: worse).filter
        (fun level => crosses side limit level.1) = better ++ [(limit, shownQty)] := by
      rw [List.append_cons]
      refine filter_front (fun level hlevel => ?_) fun level hlevel => ?_
      · rw [decide_eq_true_eq, crosses_iff]
        rcases List.mem_append.mp hlevel with hlevel | hlevel
        · exact .inr (hbetter level hlevel)
        · exact .inl (congrArg Prod.fst (List.mem_singleton.mp hlevel))
      · rw [decide_eq_false_iff_not, crosses_iff]
        exact hasymm (hworse level hlevel)
    rw [shownWithin, hlevels, hkept]
    simp
  constructor
  · refine ⟨shownQty, ?_⟩
    rw [hlevels]
    exact List.mem_append_right _ List.mem_cons_self
  · intro level _ hbefore
    refine lt_of_le_of_lt ?_ hshort
    have hnone : ((limit, shownQty) :: worse).filter
        (fun other => crosses side level.1 other.1) = [] := by
      refine List.filter_eq_nil_iff.mpr fun other hother => ?_
      rw [decide_eq_true_eq, crosses_iff]
      rcases List.mem_cons.mp hother with rfl | hother
      · exact hasymm hbefore
      · exact hasymm (trans_of side.opposite.before hbefore (hworse other hother))
    rw [shownWithin, hlevels, List.filter_append, hnone, List.append_nil]
    exact sum_filter_le (fun other hother => hqty other (List.mem_append_left _ hother)) _
  · refine henough.imp (fun h => hwithin ▸ h) fun hnone level hlevel => ?_
    rw [hlevels, hnone] at hlevel
    rw [crosses_iff]
    rcases List.mem_append.mp hlevel with hlevel | hlevel
    · exact .inr (hbetter level hlevel)
    · exact .inl (congrArg Prod.fst (List.mem_singleton.mp hlevel))

/-- A side with a best displayed price shows something. -/
theorem shown_ne_nil (h : bestDisplayedPrice (book.levels side) ≠ none) : book.shown side ≠ [] := by
  intro hnil
  refine h ?_
  rw [shown, appendLevels, List.map_eq_nil_iff] at hnil
  rw [bestDisplayedPrice, OrderedMap.findFirst, ← List.head?_filter, hnil]
  rfl

/-- A level shows no more than it holds. -/
theorem WellFormed.aggregateQty_le (hb : book.WellFormed) {e : ℤ × Level}
    (he : e ∈ (book.levels side).entries) : e.2.aggregateQty ≤ e.2.totalQty := by
  have hlevel := hb.level (OrderedMap.mem_entries_iff.mp he)
  rw [hlevel.aggregate, Level.totalQty]
  refine List.sum_le_sum fun order horder => ?_
  obtain ⟨kind, hkind⟩ := Level.mem_orders.mp horder
  have hwf := (hlevel.placed kind order hkind).wellFormed
  unfold Order.WellFormed at hwf
  unfold visibleQty totalRemainingQty
  split at hwf <;> split_ifs <;> omega

/-- What shows within a limit can be executed within it. -/
theorem WellFormed.shownWithin_le (hb : book.WellFormed) :
    book.shownWithin side limit ≤ book.executableQty side limit := by
  have hsum : ∀ entries : List (ℤ × Level), (∀ e ∈ entries, e ∈ (book.levels side.opposite).entries) →
      ((((entries.filter fun e => 0 < e.2.aggregateQty).map fun e => (e.1, e.2.aggregateQty)).filter
        fun level => crosses side limit level.1).map Prod.snd).sum ≤
      ((entries.filter fun e => crosses side limit e.1).map fun e => e.2.totalQty).sum := by
    intro entries hentries
    induction entries with
    | nil => exact le_rfl
    | cons e rest ih =>
      have hrest := ih fun e he => hentries e (List.mem_cons_of_mem _ he)
      have hmem := hentries e List.mem_cons_self
      have hle := hb.aggregateQty_le hmem
      have hheld := hb.level_totalQty_pos hmem
      rw [List.filter_cons, List.filter_cons]
      by_cases hshows : 0 < e.2.aggregateQty
      · by_cases hcross : crosses side limit e.1
        · simp only [hshows, hcross, decide_true, if_true, List.map_cons, List.filter_cons,
            List.sum_cons]
          omega
        · simpa only [hshows, hcross, decide_true, decide_false, if_true, if_false, List.map_cons,
            List.filter_cons, Bool.false_eq_true] using hrest
      · by_cases hcross : crosses side limit e.1
        · simp only [hshows, hcross, decide_true, decide_false, if_true, if_false, List.map_cons,
            List.sum_cons, Bool.false_eq_true]
          omega
        · simpa only [hshows, hcross, decide_false, if_false, Bool.false_eq_true] using hrest
  unfold shownWithin executableQty shown appendLevels
  rw [takeWhile_eq_filter (book.levels side.opposite).sorted fun a b hab hb => by
    simpa using crosses_of_before hab (by simpa using hb)]
  exact hsum _ fun _ he => he

/-- Within the worst price needed the book holds the quantity, or all that it shows. -/
theorem WorstNeeded.min_le (hb : book.WellFormed) (h : book.WorstNeeded side qty limit) :
    min qty (book.shownTotal side) ≤ book.executableQty side limit := by
  have hle : book.shownWithin side limit ≤ book.executableQty side limit := hb.shownWithin_le
  rcases h.enough with henough | hall
  · exact (min_le_left _ _).trans (henough.trans hle)
  · have htotal : book.shownWithin side limit = book.shownTotal side := by
      rw [shownWithin, List.filter_eq_self.mpr fun level hlevel => by simpa using hall level hlevel]
      rfl
    exact (min_le_right _ _).trans (htotal ▸ hle)

end Sweep
end OrderBook

/-- A trade that the order makes as taker is at its limit or better. -/
def Event.takesWithin (side : Side) (limit : ℤ) (id : OrderId) : Event → Prop
  | .tradeExecuted takerId _ _ price _ _ => takerId = id → crosses side limit price
  | _ => True

/-- The event says that a circuit breaker tripped. -/
def Event.breaks : Event → Prop
  | .circuitBreakerTriggered .. => True
  | _ => False

/-- A market order has taken what the book promises: all that it holds at or better than the worst
displayed price needed, up to the quantity of the order. The rest has expired. -/
structure MatchingEngine.KeepsPromise (s : MatchingEngine) (symbol : Symbol) (side : Side)
    (id : OrderId) (qty limit : ℤ) (events : List Event) (s' : MatchingEngine) : Prop where
  needed : (s.bookFor symbol).WorstNeeded side qty limit
  traded : takenBy id events = min qty ((s.bookFor symbol).executableQty side limit)
  atLeast : min qty ((s.bookFor symbol).shownTotal side) ≤ takenBy id events
  within : ∀ e ∈ events, e.takesWithin side limit id
  expired : takenBy id events < qty → .orderExpired id symbol ∈ events
  traceless : s'.Traceless id

section Fills
variable {G : Guard} {s s' : MatchingEngine} {t t' : Taker} {events : List Event}

/-- Inside the price band an order takes what can be executed, up to its quantity. -/
theorem Fillings.taken (hs : s.Sound G) (h : Fillings s t events s' t') (hpos : 0 ≤ t.remaining) :
    takenBy t.id events = min t.remaining ((s.bookFor t.symbol).executableQty t.side t.price) := by
  induction h with
  | @done s t hnext =>
    have hover := (nextFill_eq_none (hs.book _)).mp hnext
    have hheld := (hs.book t.symbol).executableQty_nonneg t.side t.price
    rw [takenBy, List.map_nil, List.sum_nil]
    omega
  | @fill s s' t t' fill book events hnext _ _ _ ih =>
    obtain ⟨maker, rest, hfill, hcross⟩ := nextFill_some (hs.book t.symbol) hnext
    have hle := hfill.fill_qty_le
    have hbook : (s.filled t fill book).bookFor t.symbol = book := by
      rw [bookFor_filled]
      exact if_pos rfl
    have hrest := ih ((narrows_filled hs hnext).sound hs) (by unfold Taker.after; dsimp only; omega)
    have htaken : takenBy t.id events = min (t.remaining - fill.qty)
        (((s.filled t fill book).bookFor t.symbol).executableQty t.side t.price) := hrest
    rw [hbook, hfill.executableQty_after hcross] at htaken
    rw [List.cons_append, ← List.singleton_append, takenBy_append, takenBy_append,
      takenBy_tradeEvent, takenBy_of_inert inert_fillReport, htaken]
    omega

theorem takesWithin_of_inert {side : Side} {limit : ℤ} {id : OrderId} {e : Event} (h : e.inert) :
    e.takesWithin side limit id := by
  cases e with
  | tradeExecuted => exact h.elim
  | _ => trivial

/-- Every fill is at the limit or better. -/
theorem Matches.takesWithin (hs : s.Sound G) (h : Matches s t events s' t') :
    ∀ e ∈ events, e.takesWithin t.side t.price t.id := by
  have htrade : ∀ {s : MatchingEngine} {t : Taker} {fill : FillResult} {book : OrderBook},
      s.Sound G → s.nextFill t = some (fill, book) →
      (tradeEvent t fill).takesWithin t.side t.price t.id := by
    intro s t fill book hs hnext _
    obtain ⟨maker, rest, hfill, hcross⟩ := nextFill_some (hs.book t.symbol) hnext
    rw [hfill.toFillStep.price]
    exact hcross
  induction h with
  | done => exact List.forall_mem_nil _
  | breach hnext =>
    refine List.forall_mem_cons.mpr ⟨htrade hs hnext, fun e he => takesWithin_of_inert ?_⟩
    simp only [circuitBreakerEvents, List.mem_cons, List.not_mem_nil, or_false] at he
    rcases he with rfl | rfl <;> trivial
  | fill hnext _ _ _ ih =>
    refine List.forall_mem_cons.mpr ⟨htrade hs hnext, fun e he => ?_⟩
    rcases List.mem_append.mp he with he | he
    · exact takesWithin_of_inert (inert_fillReport e he)
    · exact ih ((narrows_filled hs hnext).sound hs) e he

end Fills

section Entry
variable {s : MatchingEngine} {a : AccountId} {symbol : Symbol} {side : Side} {qty : ℤ}

/-- The entry of a market order that is let in. -/
theorem placeMarketLimit_outcome {limit : ℤ} (hs : s.Sound {})
    (hopen : ¬ s.inAuction symbol) (hneeded : (s.bookFor symbol).WorstNeeded side qty limit) :
    Outcome (placeLimitOrderWithAccountAndId a symbol s.nextOrderId side limit qty .ioc) s.allocated
      (fun events s' => Unrejected events → (∀ e ∈ events, ¬ e.breaks) →
        s.KeepsPromise symbol side s.nextOrderId qty limit events s')
      fun _ s' => ∃ b, s'.HasNegativeReserve symbol b := by
  set t := limitTaker a symbol s.nextOrderId side limit qty .ioc with ht
  set s₁ := s.allocated.touchAccount a symbol with hs₁
  have hsound : s₁.Sound {} := by
    have hallocate := hs.allocated
    exact (Narrows.of_frame hallocate (frame_touchAccount _ _ _) id).sound hallocate
  have htrace : s₁.Traceless s.nextOrderId := by
    have hallocated : s.allocated.Traceless s.nextOrderId :=
      ⟨hs.traceless_next.rests, hs.traceless_next.owner, hs.traceless_next.unreserved⟩
    exact hallocated.of_frame (frame_touchAccount _ _ _) fun h => h
  have hrejected : ∀ {event : Event} {P : Prop}, event.rejection → Unrejected [event] → P :=
    fun hevent h => absurd hevent (h _ List.mem_cons_self)
  unfold placeLimitOrderWithAccountAndId placeVisibleOrderWithAccountAndId
  simp only [outcome_bind, outcome_get]
  cases hvalid : s.allocated.validateEntry symbol limit qty .displayed 0 with
  | some failure => exact hrejected trivial
  | none =>
    dsimp only
    rw [← hs₁]
    cases hrisk : s₁.validateOrderRisk a symbol side limit qty none with
    | some failure =>
      simp only [outcome_bind, outcome_set, outcome_pure]
      exact hrejected trivial
    | none =>
      have hadmits : s₁.Admits t := ⟨hvalid, hrisk, (hs.free_next a symbol).of_touch⟩
      obtain ⟨hflight, hpos⟩ := hadmits.inFlight
      have hopen₁ : ¬ s₁.inAuction t.symbol := hopen
      dsimp only
      rw [outcome_bind, outcome_set, if_neg (show ¬ s₁.inAuction symbol from hopen),
        if_neg (show ¬ (TimeInForce.ioc = .fok ∧ _) from fun h => by cases h.1), outcome_bind]
      refine (matchLoop_matches (t := t) (hsound.book t.symbol) (Int.self_le_toNat _)).mono
        (fun r s₂ hmatches => ?_) fun e s₂ hfails => hfails.first_inBand.2
      rw [outcome_bind]
      refine (finishEntry_finishes s₂ r.1).mono (fun rested s' hfinishes => ?_) fun _ _ h => h.elim
      rw [outcome_pure]
      intro _ hunbroken
      have hid := hmatches.id_eq
      have hrest := hmatches.takenBy
      have hwithin := hmatches.takesWithin hsound
      have htraceless : s'.Traceless s.nextOrderId := by
        have hnarrows := hmatches.narrows hsound
        exact hfinishes.traceless (hnarrows.sound hsound) (hmatches.inFlight hsound hflight)
          (hnarrows.traceless htrace) fun _ => hid.2
      rcases hadmits.matches (hsound.book _) hopen₁ hmatches with
        ⟨-, hfillings⟩ | ⟨-, fill, book, -, -, hevents, -, -⟩
      · have htaken := hfillings.taken hsound hpos.le
        have hbook : s₁.bookFor symbol = s.bookFor symbol := rfl
        have htaken : takenBy s.nextOrderId r.2 =
            min qty ((s.bookFor symbol).executableQty side limit) := htaken
        have hmin := hneeded.min_le (hs.book symbol)
        have hleast : min qty ((s.bookFor symbol).shownTotal side) ≤ takenBy s.nextOrderId r.2 := by
          rw [htaken]
          exact le_min (min_le_left _ _) hmin
        have hleft : takenBy s.nextOrderId r.2 + r.1.remaining = qty := hrest
        cases hfinishes with
        | rest _ htif => exact absurd hid.2 htif
        | expire hremains _ =>
          have hexpired : takenBy s.nextOrderId [.orderExpired r.1.id r.1.symbol] = 0 :=
            takenBy_of_inert (by simp [Event.inert])
          have hall : takenBy s.nextOrderId (r.2 ++ [.orderExpired r.1.id r.1.symbol]) =
              takenBy s.nextOrderId r.2 := by
            rw [takenBy_append, hexpired, add_zero]
          refine ⟨hneeded, hall.trans htaken, hall.symm ▸ hleast, ?_, fun _ => ?_, htraceless⟩
          · intro e he
            rcases List.mem_append.mp he with he | he
            · exact hwithin e he
            · rw [List.mem_singleton.mp he]
              trivial
          · rw [hid.1, hmatches.symbol_eq]
            exact List.mem_append_right _ List.mem_cons_self
        | done hnone =>
          rw [List.append_nil]
          exact ⟨hneeded, htaken, hleast, hwithin, fun hless => by omega, htraceless⟩
      · refine absurd ?_ (hunbroken (.circuitBreakerTriggered symbol fill.price "TradePriceBandBreach") ?_)
        · trivial
        · rw [hevents]
          exact List.mem_append_left _ (List.mem_cons_of_mem _ (by simp [circuitBreakerEvents, ht, limitTaker]))

/-- The entry of a market order. -/
theorem placeMarket_outcome (hs : s.Sound {}) (hopen : ¬ s.inAuction symbol) :
    Outcome (placeMarketOrderWithAccountAndId a symbol s.nextOrderId side qty) s.allocated
      (fun events s' => Unrejected events → (∀ e ∈ events, ¬ e.breaks) →
        ∃ limit, s.KeepsPromise symbol side s.nextOrderId qty limit events s')
      fun _ s' => ∃ b, s'.HasNegativeReserve symbol b := by
  have hrejected : ∀ {event : Event} {P : Prop}, event.rejection → Unrejected [event] → P :=
    fun hevent h => absurd hevent (h _ List.mem_cons_self)
  have hlet : ∀ side : Side, bestDisplayedPrice ((s.bookFor symbol).levels side.opposite) ≠ none →
      isValidQty qty → Outcome (placeLimitOrderWithAccountAndId a symbol s.nextOrderId side
        (marketLimit ((s.bookFor symbol).shown side.opposite) qty 0) qty .ioc) s.allocated
      (fun events s' => Unrejected events → (∀ e ∈ events, ¬ e.breaks) →
        ∃ limit, s.KeepsPromise symbol side s.nextOrderId qty limit events s')
      fun _ s' => ∃ b, s'.HasNegativeReserve symbol b := by
    intro side hbest hqty
    have hneeded : (s.bookFor symbol).WorstNeeded side qty
        (marketLimit ((s.bookFor symbol).shown side.opposite) qty 0) :=
      (hs.book symbol).worstNeeded_marketLimit (shown_ne_nil hbest) hqty
    exact (placeMarketLimit_outcome hs hopen hneeded).mono
      (fun _ _ h hunrejected hunbroken => ⟨_, h hunrejected hunbroken⟩) fun _ _ h => h
  unfold placeMarketOrderWithAccountAndId
  simp only [outcome_bind, outcome_get]
  cases side with
  | bid =>
    dsimp only
    split_ifs with hqty hhalted hbest hband
    · exact hrejected trivial
    · exact hrejected trivial
    · exact hlet .bid hbest hqty
    · exact hrejected trivial
    · exact hrejected trivial
  | ask =>
    dsimp only
    split_ifs with hqty hhalted hbest hband
    · exact hrejected trivial
    · exact hrejected trivial
    · exact hlet .ask hbest hqty
    · exact hrejected trivial
    · exact hrejected trivial

end Entry

/-- An offer of 3 and an iceberg of 4 that shows 2, at one price. -/
def icebergBehindOffer : List Op :=
  [.setAccountState 1 "X" 0 20, .setAccountState 2 "X" 5000 0,
    .placeLimitOrder 1 "X" .ask 100 3 .gtc, .placeIcebergOrder 1 "X" .ask 100 4 2]

/-- The events of an entry, unless it throws. -/
def entryEvents (entry : Engine (List Event)) (s : MatchingEngine) : Option (List Event) :=
  match entry s with
  | .ok events _ => some events
  | .error _ _ => none

/-- An account with a negative margin requirement has two bids. -/
def overdrawnBids : List Op :=
  [.setAccountState 1 "X" 0 10, .setAccountState 2 "X" 5000 0,
    .setAccountRiskConfig 2
      { mode := .margin, maxLeverage := 2, initialMarginRequirement := 1 / 2,
        initialMarginRequirementBySymbol := Finmap.singleton "X" (-1) },
    .placeLimitOrder 2 "X" .bid 100 5 .gtc, .placeLimitOrder 2 "X" .bid 90 5 .gtc]

/-- The position that an entry leaves an account with, if it throws. -/
def positionAtThrow (entry : Engine (List Event)) (s : MatchingEngine) (a : AccountId)
    (symbol : Symbol) : Option ℤ :=
  match entry s with
  | .ok _ _ => none
  | .error _ s' => some ((s'.account a).position symbol)

end Tes
