import Tes.Engine.StopRegistry
import Tes.Ledger.Isolation
import Tes.Market.Halts

/-! Once its symbol has a mark, no triggered stop is left waiting by an operation that evaluates
stops. -/
namespace Tes
open OrderBook MatchingEngine Flight Transition EStateM

/-! What moves the mark. -/
section Marks
variable {G : Guard} {symbol : Symbol} {s s' : MatchingEngine} {events : List Event}
  {made : List Entry}

/-- Some of the events trade. -/
def Traded (events : List Event) : Prop := ∃ e ∈ events, isTrade e = true

theorem Traded.left (h : Traded events) (more : List Event) : Traded (events ++ more) := by
  obtain ⟨e, he, htrade⟩ := h
  exact ⟨e, List.mem_append_left _ he, htrade⟩

theorem Traded.right {more : List Event} (h : Traded more) (events : List Event) :
    Traded (events ++ more) := by
  obtain ⟨e, he, htrade⟩ := h
  exact ⟨e, List.mem_append_right _ he, htrade⟩

theorem traded_iff_any : Traded events ↔ events.any isTrade = true := List.any_eq_true.symm

theorem marks_of_unjournaled (h : s'.unjournaled = s.unjournaled) :
    s'.latestMarkBySymbol = s.latestMarkBySymbol := by
  have hmarks : s'.unjournaled.latestMarkBySymbol = s.unjournaled.latestMarkBySymbol :=
    congrArg MatchingEngine.latestMarkBySymbol h
  exact hmarks

/-- An order that matches trades, or leaves the engine alone. -/
theorem Matches.traded_or_idle {t t' : Taker} (h : Matches s t events s' t') :
    Traded events ∨ s' = s := by
  cases h with
  | done => exact Or.inr rfl
  | breach => exact Or.inl ⟨_, List.mem_cons_self, rfl⟩
  | fill => exact Or.inl ⟨_, List.mem_cons_self, rfl⟩

theorem Finishes.marks {t : Taker} (h : Finishes s t events s') :
    s'.latestMarkBySymbol = s.latestMarkBySymbol := by
  cases h with
  | rest => exact marks_rested s t
  | expire => exact marks_of_unjournaled (unjournaled_appendLedgerEntry s _)
  | done => rfl

/-- Only trades move the mark. -/
theorem Placing.marks (h : Placing G symbol s events made s') :
    Traded events ∨ s'.latestMarkBySymbol = s.latestMarkBySymbol := by
  cases h with
  | touch => exact Or.inr rfl
  | report => exact Or.inr rfl
  | audit => exact Or.inr (marks_of_unjournaled (unjournaled_appendLedgerEntry s _))
  | restAuction => exact Or.inr (marks_rested s _)
  | enter _ _ _ _ _ hmatches hfinishes =>
    rcases hmatches.traded_or_idle with htraded | rfl
    · exact Or.inl (htraded.left _)
    · exact Or.inr hfinishes.marks

theorem Steps.marks (h : Steps (Placing G symbol) s events made s') :
    Traded events ∨ s'.latestMarkBySymbol = s.latestMarkBySymbol := by
  induction h with
  | refl => exact Or.inr rfl
  | step hr _ ih =>
    rcases hr.marks with htraded | hmarks
    · exact Or.inl (htraded.left _)
    · rcases ih with htraded | hmore
      · exact Or.inl (htraded.right _)
      · exact Or.inr (hmore.trans hmarks)

end Marks

namespace MatchingEngine
variable {G : Guard} {symbol : Symbol} {s s' : MatchingEngine}

/-- What a round of triggers leaves of the stops, and of the mark if nothing trades. -/
structure Round (symbol : Symbol) (s : MatchingEngine) (traded : Bool) (s' : MatchingEngine) :
    Prop where
  stops : ∀ id stop, s'.stopOrdersById.lookup id = some stop → s.stopOrdersById.lookup id = some stop
  pending : ∀ id ∈ s'.pendingStopIds symbol, id ∈ s.pendingStopIds symbol
  marks : traded = false → s'.latestMarkBySymbol = s.latestMarkBySymbol

theorem triggerAll_round {ready : List OrderId} (hs : s.Sound G)
    (hready : ∀ id ∈ ready, ∀ stop, s.stopOrdersById.lookup id = some stop → stop.symbol = symbol) :
    Outcome (triggerAll symbol ready) s (fun r s' => s.Round symbol r.1 s') fun _ _ => True := by
  induction ready generalizing s with
  | nil => exact ⟨fun _ _ h => h, fun _ h => h, fun _ => rfl⟩
  | cons id ready ih =>
    rw [triggerAll]
    simp only [outcome_bind, outcome_get]
    cases hstop : s.stopOrdersById.lookup id with
    | none => exact ih hs fun id' hid' => hready id' (List.mem_cons_of_mem _ hid')
    | some stop =>
      simp only [outcome_bind, outcome_set]
      have hsymbol := hready id List.mem_cons_self stop hstop
      have hs₁ := (Step.trigger hstop hsymbol).sound hs
      have hchild := placeChild_entering hs₁ (hs.stop_account hstop) (hs.free_triggered hstop hsymbol)
      refine hchild.mono (fun child s₂ hsteps => ?_) fun _ _ _ => trivial
      have hstops : s₂.stopOrdersById = s.stopOrdersById.erase id := hsteps.reads aside_stops
      have hpending : s₂.pendingStopIds symbol =
          (s.pendingStopIds symbol).filter fun other => other ≠ id := by
        have hsame : s₂.pendingStopIdsBySymbol = s.pendingStopIdsBySymbol.insert symbol
            ((s.pendingStopIds symbol).filter fun other => other ≠ id) :=
          hsteps.reads aside_pendingStops
        rw [pendingStopIds, hsame, Finmap.valueD_insert, if_pos rfl]
      have hs₂ := (hsteps.mono Step.placing).sound hs₁
      refine (ih hs₂ fun id' hid' stop' hstop' => ?_).mono (fun r s₃ h => ?_) fun _ _ _ => trivial
      · rw [hstops, Finmap.lookup_erase_ite] at hstop'
        split_ifs at hstop'
        exact hready id' (List.mem_cons_of_mem _ hid') stop' hstop'
      · refine ⟨fun id' stop' hstop' => ?_, fun id' hid' => ?_, fun hquiet => ?_⟩
        · have hleft := h.stops id' stop' hstop'
          rw [hstops, Finmap.lookup_erase_ite] at hleft
          split_ifs at hleft
          exact hleft
        · have hleft := h.pending id' hid'
          rw [hpending, List.mem_filter] at hleft
          exact hleft.1
        · obtain ⟨hchild, hrest⟩ := Bool.or_eq_false_iff.mp hquiet
          have hmarks := hsteps.marks.resolve_left fun htraded => by
            rw [traded_iff_any, hchild] at htraded
            cases htraded
          have hnoted : (s.triggerStop symbol id stop).latestMarkBySymbol = s.latestMarkBySymbol := rfl
          exact (h.marks hrest).trans (hmarks.trans hnoted)

theorem mem_readyStops {current : ℤ} {id : OrderId} : id ∈ s.readyStops symbol current ↔
    id ∈ s.pendingStopIds symbol ∧ ∃ stop, s.stopOrdersById.lookup id = some stop ∧
      stop.triggers current := by
  unfold readyStops
  rw [(List.perm_insertionSort _ _).mem_iff, List.mem_filter]
  simp

/-- What is ready after a round was ready before, at the same price. -/
theorem Round.readyStops {traded : Bool} (h : s.Round symbol traded s') {current : ℤ} {id : OrderId}
    (hid : id ∈ s'.readyStops symbol current) : id ∈ s.readyStops symbol current := by
  rw [mem_readyStops] at hid ⊢
  obtain ⟨hpending, stop, hstop, htriggers⟩ := hid
  exact ⟨h.pending id hpending, stop, h.stops id stop hstop, htriggers⟩

/-- The rounds of a cascade end when none is ready, or when a round of the stops that were has left
the mark alone. The induction is on the stops that are left on record. -/
theorem cascade_settles {fuel : ℕ} (hs : s.Sound G) (hfuel : s.stopOrdersById.keys.card < fuel) :
    Outcome (cascade symbol fuel) s (fun events s' =>
      s'.latestMarkBySymbol.lookup symbol ≠ none ∨ ¬ Triggered events → s'.NoneReady symbol)
      fun _ _ => True := by
  induction fuel generalizing s with
  | zero => exact absurd hfuel (Nat.not_lt_zero _)
  | succ fuel ih =>
    rw [cascade]
    simp only [outcome_bind, outcome_get]
    cases hcurrent : s.triggerPrice symbol with
    | none =>
      intro _ current hprice
      rw [hcurrent] at hprice
      cases hprice
    | some current =>
      dsimp only
      split
      · rename_i hnil
        intro _ other hprice
        rw [hcurrent] at hprice
        cases hprice
        exact hnil
      rename_i hsome
      obtain ⟨id, rest, hcons⟩ := List.exists_cons_of_ne_nil hsome
      obtain ⟨stop, hstop⟩ := readyStops_head hcons
      have hid : id ∈ s.readyStops symbol current := hcons ▸ List.mem_cons_self
      have hready : ∀ id ∈ s.readyStops symbol current, ∀ stop,
        s.stopOrdersById.lookup id = some stop → stop.symbol = symbol := hs.readyStops
      have htriggered : Outcome (triggerAll symbol (s.readyStops symbol current)) s
          (fun r _ => Triggered r.2) fun _ _ => True := hcons ▸ triggerAll_triggered hstop
      have hround := htriggered.and ((triggerAll_round hs hready).and ((triggerAll_stops hs hready).and
        ((triggerAll_building hs hready).mono (fun _ _ h => h.mono Adding.step) fun _ _ _ => trivial)))
      rw [outcome_bind]
      refine hround.mono (fun r s₁ hround => ?_) fun _ _ _ => trivial
      obtain ⟨traded, events⟩ := r
      obtain ⟨htriggered, hround, hstops, hsteps⟩ := hround
      cases traded with
      | false =>
        rw [if_neg (by simp)]
        intro hknown other hprice
        have hmark := hknown.resolve_right (not_not.mpr htriggered)
        have hmarks := hround.marks rfl
        rw [hmarks] at hmark
        have hsame : other = current := by
          obtain ⟨mark, hlookup⟩ := Option.ne_none_iff_exists'.mp hmark
          unfold triggerPrice at hcurrent hprice
          rw [hmarks, hlookup] at hprice
          rw [hlookup] at hcurrent
          exact Option.some.inj (hprice.symm.trans hcurrent)
        rw [hsame]
        refine List.eq_nil_iff_forall_not_mem.mpr fun other hother => ?_
        have hgone := hstops.2 other (hround.readyStops hother)
        obtain ⟨-, stop, hstop, -⟩ := mem_readyStops.mp hother
        rw [hgone] at hstop
        cases hstop
      | true =>
        have hless : s₁.stopOrdersById.keys.card < fuel := by
          have := card_stops_lt hid (by rw [hstop]; exact Option.some_ne_none _) hstops.1 hstops.2
          omega
        simp only [if_true, outcome_bind]
        refine (ih (hsteps.sound hs) hless).mono (fun more s₂ hmore => ?_) fun _ _ _ => trivial
        rw [outcome_pure]
        rintro (hmark | hquiet)
        · exact hmore (Or.inl hmark)
        · exact absurd (htriggered.left more) hquiet

theorem NoneReady.tracked {events : List Event} (h : s.NoneReady symbol) :
    (s.trackEvents events).NoneReady symbol := by
  have hjournal := unjournaled_trackEvents s events
  have hframe := frame_of_unjournaled hjournal
  have hprice : (s.trackEvents events).triggerPrice symbol = s.triggerPrice symbol := by
    unfold triggerPrice
    rw [marks_of_unjournaled hjournal, bookFor_of_frame hframe]
  intro current hcurrent
  rw [hprice] at hcurrent
  rw [readyStops, pendingStopIds, pendingStops_of_frame hframe, stops_of_frame hframe]
  exact h current hcurrent

/-- The symbol is halted, nobody knows its price though stops have triggered, or no stop that has
triggered waits. -/
def StopsSettled (symbol : Symbol) (events : List Event) (s' : MatchingEngine) : Prop :=
  ¬ s'.isHalted symbol → s'.latestMarkBySymbol.lookup symbol ≠ none ∨ ¬ Triggered events →
    s'.NoneReady symbol

theorem followEntry_settles {entry : Engine (List Event)}
    (hx : Outcome entry s (fun _ s₁ => s₁.Sound G) fun _ _ => True) :
    Outcome (followEntry symbol entry) s (StopsSettled symbol) fun _ _ => True := by
  unfold followEntry
  rw [outcome_bind]
  refine hx.mono (fun events s₁ hs₁ => ?_) fun _ _ _ => trivial
  rw [outcome_bind]
  unfold evaluateStopOrders
  simp only [outcome_bind, outcome_get]
  have hhalts : ∀ all, (s₁.trackEvents all).isHalted symbol ↔ s₁.isHalted symbol := fun all =>
    isHalted_congr (phases_of_frame (frame_of_unjournaled (unjournaled_trackEvents s₁ all)))
  split_ifs with hhalted
  · simp only [outcome_pure, outcome_modify]
    exact fun hopen => absurd ((hhalts _).mpr hhalted) hopen
  · refine (cascade_settles hs₁ (Nat.lt_succ_self _)).mono (fun triggered s₂ hsettles => ?_)
      fun _ _ _ => trivial
    simp only [outcome_modify, outcome_pure]
    intro hopen hknown
    rw [marks_of_unjournaled (unjournaled_trackEvents s₂ _)] at hknown
    exact (hsettles (hknown.imp_right fun h htriggered => h (htriggered.right events))).tracked

/-- An entry under the next id, and the stops it triggers. -/
theorem numbered_settles (hs : s.Sound G) {made : List Entry} {entry : OrderId → Engine (List Event)}
    (hx : Building G symbol s.allocated made (entry s.nextOrderId)) :
    Outcome (do let id ← takeOrderId; followEntry symbol (entry id)) s (StopsSettled symbol)
      fun _ _ => True := by
  unfold takeOrderId
  simp only [outcome_bind, outcome_get, outcome_set, outcome_pure]
  exact followEntry_settles (hx.mono (fun _ _ h => h.sound_adding hs.allocated) fun _ _ _ => trivial)

/-- A stop with new parameters, and the stops it triggers. -/
theorem replaceStop_settles (hs : s.Sound G) {a : AccountId} {id : OrderId} {stop : StopOrderState}
    (hstop : s.stopOrdersById.lookup id = some stop) (newStopPrice newQty : ℤ)
    (newLimitPrice : Option ℤ) (reason : String) :
    Outcome (replaceStop a id stop newStopPrice newQty newLimitPrice reason) s
      (fun events s' => (∃ e ∈ events, e.acceptedStop = some id) →
        StopsSettled stop.symbol events s') fun _ _ => True := by
  have hrejected : ∀ {side : Side} {price qty : ℤ} {reason : RejectReason} {symbol : Symbol}
      {P : Prop}, (∃ e ∈ [Event.orderRejected side price qty reason symbol],
        e.acceptedStop = some id) → P := by
    rintro side price qty reason symbol P ⟨e, he, hid⟩
    rw [List.mem_singleton.mp he] at hid
    cases hid
  unfold replaceStop
  simp only [outcome_bind, outcome_get]
  by_cases hprice : ¬ isValidPrice newStopPrice ∨ ∃ limit ∈ newLimitPrice, ¬ isValidPrice limit
  · rw [if_pos hprice]
    exact hrejected
  rw [if_neg hprice]
  by_cases hqty : ¬ isValidQty newQty
  · rw [if_pos hqty]
    exact hrejected
  rw [if_neg hqty]
  cases s.validateOrderRisk a stop.symbol stop.side (newLimitPrice.getD newStopPrice) newQty none with
  | some failure => exact hrejected
  | none =>
    have hreplaced : (s.withReplacedStop id stop newStopPrice newQty newLimitPrice).Sound G :=
      (Step.replaceStop hstop rfl).sound hs
    simp only [outcome_bind, outcome_set]
    exact (followEntry_settles (outcome_pure.mpr hreplaced)).mono (fun _ _ h _ => h)
      fun _ _ _ => trivial

theorem replaceStopLimit_settles (hs : s.Sound G) (a : AccountId) (id : OrderId)
    (newStopPrice newLimitPrice newQty : ℤ) :
    Outcome (replaceStopLimitOrder a id newStopPrice newLimitPrice newQty) s
      (fun events s' => (∃ e ∈ events, e.acceptedStop = some id) →
        StopsSettled (s.stopSymbol id) events s') fun _ _ => True := by
  have hrejected : ∀ {reason : RejectReason} {symbol : Symbol} {P : Prop},
      (∃ e ∈ [Event.cancelRejected id reason symbol], e.acceptedStop = some id) → P := by
    rintro reason symbol P ⟨e, he, hid⟩
    rw [List.mem_singleton.mp he] at hid
    cases hid
  unfold replaceStopLimitOrder stopSymbol
  simp only [outcome_bind, outcome_get]
  cases hstop : s.stopOrdersById.lookup id with
  | none => exact hrejected
  | some stop =>
    dsimp only
    split_ifs
    · exact hrejected
    · exact replaceStop_settles hs hstop _ _ _ _

theorem replaceStopOrder_settles (hs : s.Sound G) (a : AccountId) (id : OrderId)
    (newStopPrice newQty : ℤ) :
    Outcome (replaceStopOrder a id newStopPrice newQty) s
      (fun events s' => (∃ e ∈ events, e.acceptedStop = some id) →
        StopsSettled (s.stopSymbol id) events s') fun _ _ => True := by
  have hrejected : ∀ {reason : RejectReason} {symbol : Symbol} {P : Prop},
      (∃ e ∈ [Event.cancelRejected id reason symbol], e.acceptedStop = some id) → P := by
    rintro reason symbol P ⟨e, he, hid⟩
    rw [List.mem_singleton.mp he] at hid
    cases hid
  have hlimit := fun limit => replaceStopLimit_settles hs a id newStopPrice limit newQty
  unfold replaceStopOrder
  simp only [outcome_bind, outcome_get]
  unfold stopSymbol at hlimit ⊢
  cases hstop : s.stopOrdersById.lookup id with
  | none => exact hrejected
  | some stop =>
    rw [hstop] at hlimit
    dsimp only
    split_ifs
    · exact hrejected
    · cases stop.limitPrice with
      | some limit => exact hlimit limit
      | none => exact replaceStop_settles hs hstop _ _ _ _

end MatchingEngine

namespace Op

/-- The operation evaluates the stops of its symbol: it places an order, or has replaced a stop. -/
def evaluates (op : Op) (events : List Event) : Prop :=
  match op with
  | .placeLimitOrder .. | .placeHiddenOrder .. | .placeIcebergOrder .. | .placeMarketOrder ..
  | .placeStopOrder .. | .placeStopLimitOrder .. => True
  | .replaceStopOrder _ id .. | .replaceStopLimitOrder _ id .. =>
    ∃ e ∈ events, e.acceptedStop = some id
  | _ => False

theorem exec_settles {s : MatchingEngine} (hs : s.Sound {}) (op : Op) :
    Outcome op.exec s (fun events s' => op.evaluates events → StopsSettled (op.symbol s) events s')
      fun _ _ => True := by
  have hs' := hs.allocated
  have hfree := fun a symbol => hs.free_next a symbol
  have howner : s.allocated.orderOwnershipById.lookup s.nextOrderId = none :=
    Option.eq_none_iff_forall_ne_some.mpr fun _ h => lt_irrefl _ (hs.owner_lt h)
  have hplaced : ∀ {symbol : Symbol} {made : List Entry} {entry : OrderId → Engine (List Event)},
      Building {} symbol s.allocated made (entry s.nextOrderId) →
      Outcome (do let id ← takeOrderId; followEntry symbol (entry id)) s
        (fun events s' => True → StopsSettled symbol events s') fun _ _ => True := fun hx =>
    (numbered_settles hs hx).mono (fun _ _ h _ => h) fun _ _ _ => trivial
  have hidle : ∀ {symbol : Symbol} (x : Engine (List Event)),
      Outcome x s (fun events s' => False → StopsSettled symbol events s') fun _ _ => True := by
    intro symbol x
    unfold Outcome
    cases x s with
    | ok => exact False.elim
    | error => trivial
  cases op with
  | setFeeModel | setAccountRiskConfig | setAccountState | haltSymbol | resumeSymbol | setPriceBands
  | clearPriceBands | setTradingPhase | cancel | replaceOrder | uncross => exact hidle _
  | placeLimitOrder a symbol side price qty tif =>
    exact hplaced (placeVisible_entering (t := limitTaker a symbol s.nextOrderId side price qty tif) hs'
      trivial (hfree a symbol)).building
  | placeHiddenOrder a symbol side price qty =>
    exact hplaced (placeVisible_entering
      (t := ⟨a, symbol, s.nextOrderId, side, price, qty, .gtc, .hidden, 0⟩) hs' trivial
      (hfree a symbol)).building
  | placeIcebergOrder a symbol side price totalQty displayQty =>
    exact hplaced (placeVisible_entering
      (t := ⟨a, symbol, s.nextOrderId, side, price, totalQty, .gtc, .iceberg, displayQty⟩) hs'
      trivial (hfree a symbol)).building
  | placeMarketOrder a symbol side qty =>
    exact hplaced (placeMarket_entering hs' trivial (hfree a symbol)).building
  | placeStopOrder a symbol side stopPrice qty =>
    exact hplaced (placeStop_building trivial (hfree a symbol).toFree howner)
  | placeStopLimitOrder a symbol side stopPrice limitPrice qty =>
    exact hplaced (placeStop_building trivial (hfree a symbol).toFree howner)
  | replaceStopOrder a id newStopPrice newQty => exact replaceStopOrder_settles hs a id newStopPrice newQty
  | replaceStopLimitOrder a id newStopPrice newLimitPrice newQty =>
    exact replaceStopLimit_settles hs a id newStopPrice newLimitPrice newQty

/-- No triggered stop waits: once a symbol has a mark, what evaluates its stops leaves none pending
that is triggered at the price the symbol then has, unless it leaves the symbol halted. -/
theorem triggered_stops_leave {s s' : MatchingEngine} (h : Reachable s) {op : Op}
    {events : List Event} (hexec : op.exec s = .ok events s') (hevaluates : op.evaluates events)
    (hopen : ¬ s'.isHalted (op.symbol s))
    (hknown : s'.latestMarkBySymbol.lookup (op.symbol s) ≠ none ∨ ∀ e ∈ events, e.isTrigger = false)
    {current : ℤ} (hprice : s'.triggerPrice (op.symbol s) = some current) :
    ∀ id ∈ s'.pendingStopIds (op.symbol s), ∀ stop,
      s'.stopOrdersById.lookup id = some stop → ¬ stop.triggers current := by
  intro id hpending stop hstop htriggers
  have hsettled := (exec_settles h.sound op).returns hexec hevaluates
  have hquiet : s'.latestMarkBySymbol.lookup (op.symbol s) ≠ none ∨ ¬ Triggered events := by
    refine hknown.imp_right fun hnone htriggered => ?_
    obtain ⟨e, he, htrigger⟩ := htriggered
    rw [hnone e he] at htrigger
    cases htrigger
  have hnone : s'.readyStops (op.symbol s) current = [] := hsettled hopen hquiet current hprice
  have hready : id ∈ s'.readyStops (op.symbol s) current :=
    mem_readyStops.mpr ⟨hpending, stop, hstop, htriggers⟩
  rw [hnone] at hready
  cases hready

/-- A mark at 100, more to buy at 105, and stops to buy at 103 and at 106. -/
def twoStops : List Op :=
  [.setAccountState 1 "X" 0 20, .setAccountState 2 "X" 5000 0, .placeLimitOrder 1 "X" .ask 100 1 .gtc,
    .placeLimitOrder 2 "X" .bid 100 1 .gtc, .placeLimitOrder 1 "X" .ask 105 5 .gtc,
    .placeStopOrder 2 "X" .bid 103 1, .placeStopOrder 2 "X" .bid 106 1]

theorem triggered_stops_leave_twoStops :
    let s' := (Op.placeLimitOrder 2 "X" .bid 105 1 .gtc).apply (fresh.applyAll twoStops)
    ∀ id ∈ s'.pendingStopIds "X", ∀ stop, s'.stopOrdersById.lookup id = some stop →
      ¬ stop.triggers 105 := by
  have hreturned : (Op.placeLimitOrder 2 "X" .bid 105 1 .gtc).returned (fresh.applyAll twoStops) =
      some [.tradeExecuted 6 3 .bid 105 1 "X", .orderFilled 6 1 "X",
        .stopOrderTriggered 4 7 .bid 103 1 none "X", .tradeExecuted 7 3 .bid 105 1 "X",
        .orderFilled 7 1 "X"] := by decide +kernel
  exact triggered_stops_leave (reachable_applyAll twoStops) (exec_of_returned hreturned) trivial
    (by decide +kernel) (Or.inl (by decide +kernel)) (by decide +kernel)

end Op
end Tes
