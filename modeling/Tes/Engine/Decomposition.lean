import Tes.Engine.Steps

/-! Every operation is a sequence of steps on its symbol, whether it returns or throws, with
its events in order where it returns and with the entries it makes. -/
namespace Tes
open OrderBook MatchingEngine Flight Transition EStateM

variable {G : Guard} {symbol : Symbol}

/-- Some steps, and then a throw that leaves the engine in `s'`. -/
def Broken (G : Guard) (symbol : Symbol) (s : MatchingEngine) (entries : List Entry)
    (s' : MatchingEngine) : Prop :=
  ∃ events s₁ made more, Steps (Step G symbol) s events made s₁ ∧ Breaks G symbol s₁ more s' ∧
    made ++ more = entries

theorem Broken.after {s s₁ s' : MatchingEngine} {events : List Event} {made entries : List Entry}
    (hsteps : Steps (Step G symbol) s events made s₁) (h : Broken G symbol s₁ entries s') :
    Broken G symbol s (made ++ entries) s' := by
  obtain ⟨events', s₂, made', more, hsteps', hbreaks, hmade⟩ := h
  exact ⟨_, s₂, made ++ made', more, hsteps.trans hsteps', hbreaks, by
    rw [List.append_assoc, hmade]⟩

/-- A computation that takes the engine from `s` along steps that make `entries`. -/
def Stepping (G : Guard) (symbol : Symbol) (s : MatchingEngine) (entries : List Entry)
    (x : Engine (List Event)) : Prop :=
  Outcome x s (fun events s' => Steps (Step G symbol) s events entries s')
    fun _ s' => Broken G symbol s entries s'

/-- The same of an order entry. -/
def Entering (G : Guard) (symbol : Symbol) (s : MatchingEngine) (entries : List Entry)
    (x : Engine (List Event)) : Prop :=
  Outcome x s (fun events s' => Steps (Placing G symbol) s events entries s')
    fun _ s' => Broken G symbol s entries s'

/-- The same of a computation that takes orders out of the book by trades only. -/
def Building (G : Guard) (symbol : Symbol) (s : MatchingEngine) (entries : List Entry)
    (x : Engine (List Event)) : Prop :=
  Outcome x s (fun events s' => Steps (Adding G symbol) s events entries s')
    fun _ s' => Broken G symbol s entries s'

theorem Entering.building {s : MatchingEngine} {entries : List Entry} {x : Engine (List Event)}
    (h : Entering G symbol s entries x) : Building G symbol s entries x :=
  h.mono (fun _ _ hsteps => hsteps.mono .placing) fun _ _ hbroken => hbroken

theorem Building.stepping {s : MatchingEngine} {entries : List Entry} {x : Engine (List Event)}
    (h : Building G symbol s entries x) : Stepping G symbol s entries x :=
  h.mono (fun _ _ hsteps => hsteps.mono Adding.step) fun _ _ hbroken => hbroken

theorem Building.after {s s₁ : MatchingEngine} {events : List Event} {made entries : List Entry}
    {x : Engine (List Event)} (hsteps : Steps (Adding G symbol) s events made s₁)
    (h : Building G symbol s₁ entries x) :
    Outcome x s₁ (fun more s' => Steps (Adding G symbol) s (events ++ more) (made ++ entries) s')
      fun _ s' => Broken G symbol s (made ++ entries) s' :=
  h.mono (fun _ _ hmore => hsteps.trans hmore) fun _ _ hbroken =>
    hbroken.after (hsteps.mono Adding.step)

/-- A report that nothing came of an order. -/
theorem steps_report {s : MatchingEngine} {event : Event} (hverdict : event.verdict)
    (hsymbol : event.symbol = symbol) : Steps (Placing G symbol) s [event] [] s :=
  .single (.report hverdict hsymbol)

theorem adding_report {s : MatchingEngine} {event : Event} (hverdict : event.verdict)
    (hsymbol : event.symbol = symbol) : Steps (Adding G symbol) s [event] [] s :=
  .single (.placing (.report hverdict hsymbol))

theorem adding_audit {s : MatchingEngine} {event : Event} {entry : AccountLedgerEntry}
    (hverdict : event.verdict) (hsymbol : event.symbol = symbol) (haudit : entry.Audit) :
    Steps (Adding G symbol) s [event] [] (s.appendLedgerEntry entry) :=
  .silent (.placing (.audit s haudit)) (adding_report hverdict hsymbol)

theorem step_report {s : MatchingEngine} {event : Event} (hverdict : event.verdict)
    (hsymbol : event.symbol = symbol) : Steps (Step G symbol) s [event] [] s :=
  .single (.placing (.report hverdict hsymbol))

/-- The same, put on record. -/
theorem steps_audit {s : MatchingEngine} {event : Event} {entry : AccountLedgerEntry}
    (hverdict : event.verdict) (hsymbol : event.symbol = symbol) (haudit : entry.Audit) :
    Steps (Placing G symbol) s [event] [] (s.appendLedgerEntry entry) :=
  .silent (.audit s haudit) (steps_report hverdict hsymbol)

namespace MatchingEngine

/-! Order entry. -/

theorem finishEntry_finishes (s : MatchingEngine) (t : Taker) :
    Outcome (finishEntry t) s (fun events s' => Finishes s t events s') fun _ _ => False := by
  unfold finishEntry
  split_ifs with hpos htif
  · simp only [outcome_bind, outcome_modify, outcome_pure]
    exact .expire hpos htif
  · simp only [outcome_bind, outcome_get, outcome_set, outcome_pure]
    exact .rest hpos htif
  · exact .done (not_lt.mp hpos)

theorem Free.of_frame {s s' : MatchingEngine} {id : OrderId} (h : s.Free symbol id)
    (hframe : s'.frame = s.frame) : s'.Free symbol id where
  lt := nextOrderId_of_frame hframe ▸ h.lt
  stop := stops_of_frame hframe ▸ h.stop
  rests symbol := by unfold Rests; rw [bookFor_of_frame hframe]; exact h.rests symbol
  owner owner ho := h.owner owner (owners_of_frame hframe ▸ ho)

/-- An id without a record is any account's to claim. -/
theorem Claimable.of_unowned {s s' : MatchingEngine} {a : AccountId} {id : OrderId}
    (h : s.Free symbol id) (howner : s.orderOwnershipById.lookup id = none)
    (hnone : s.Unreserved id) (hs : s'.unjournaled = s.unjournaled) : s'.Claimable a symbol id where
  toFree := h.of_frame (frame_of_unjournaled hs)
  unreserved _ := hnone.of_unjournaled hs
  account owner ho := by
    rw [owners_of_frame (frame_of_unjournaled hs), howner] at ho
    cases ho

theorem Claimable.of_touch {s : MatchingEngine} {a b : AccountId} {symbol' : Symbol}
    {id : OrderId} (h : s.Claimable a symbol id) : (s.touchAccount b symbol').Claimable a symbol id where
  toFree := h.toFree.of_frame (frame_touchAccount s b symbol')
  unreserved := h.unreserved
  account := h.account

theorem restVisibleOrder_steps {s : MatchingEngine} {t : Taker} (hadmits : s.Admits t)
    (haccount : G.account t.accountId) (hphase : s.inAuction t.symbol) :
    Outcome (restVisibleOrder t.accountId t.symbol t.id t.side t.price t.remaining t.visibility
      t.displayQty) s (fun events s' => Steps (Placing G t.symbol) s events [(s, t)] s')
      fun _ _ => False := by
  unfold restVisibleOrder
  simp only [outcome_bind, outcome_get, outcome_set]
  have hrest : Steps (Placing G t.symbol) s (t.restedEvents s) [(s, t)] (t.rested s) :=
    .single (.restAuction rfl hadmits haccount hphase)
  split_ifs
  · exact hrest.trans (steps_report trivial rfl)
  · exact hrest

theorem validateMarketControl_eq_none {s : MatchingEngine} {price : ℤ} :
    s.validateMarketControl symbol price = none ↔ ¬ s.isHalted symbol ∧ s.priceInBand symbol price := by
  unfold validateMarketControl
  by_cases hhalted : s.isHalted symbol
  · simp [hhalted]
  · by_cases hband : s.priceInBand symbol price
    · simp [hhalted, hband]
    · simp [hhalted, hband]

theorem validateEntry_eq_none {s : MatchingEngine} {price qty displayQty : ℤ}
    {visibility : OrderVisibility} :
    s.validateEntry symbol price qty visibility displayQty = none ↔
      isValidPrice price ∧ isValidQty qty ∧
        (visibility = .iceberg → isValidQty displayQty ∧ displayQty ≤ qty) ∧
        ¬ s.isHalted symbol ∧ s.priceInBand symbol price := by
  rw [← validateMarketControl_eq_none]
  have hdisplay : ¬ (visibility = .iceberg ∧ (¬ isValidQty displayQty ∨ qty < displayQty)) ↔
      (visibility = .iceberg → isValidQty displayQty ∧ displayQty ≤ qty) := by
    rw [not_and]
    exact imp_congr_right fun _ => by rw [not_or, not_not, not_lt]
  rw [← hdisplay]
  unfold validateEntry
  by_cases hprice : isValidPrice price
  · rw [if_neg (not_not.mpr hprice)]
    by_cases hqty : isValidQty qty
    · rw [if_neg (not_not.mpr hqty)]
      by_cases hbad : visibility = .iceberg ∧ (¬ isValidQty displayQty ∨ qty < displayQty)
      · rw [if_pos hbad]
        exact iff_of_false (by simp) fun h => absurd hbad h.2.2.1
      · rw [if_neg hbad]
        exact ⟨fun h => ⟨hprice, hqty, hbad, h⟩, fun h => h.2.2.2⟩
    · rw [if_pos hqty]
      exact iff_of_false (by simp) fun h => absurd h.2.1 hqty
  · rw [if_pos hprice]
    exact iff_of_false (by simp) fun h => absurd h.1 hprice

/-- The book does not turn away what validation has let through. -/
theorem Admits.not_refused {s : MatchingEngine} {t : Taker} (h : s.Admits t) : ¬ t.refused := fun ⟨hv, hlt⟩ => by
  have hdisplay := ((validateEntry_eq_none.mp h.valid).2.2.1 hv).2
  omega

theorem entries_of_admits {s : MatchingEngine} {t : Taker}
    (h : (s.touchAccount t.accountId t.symbol).Admits t)
    (hphase : (s.touchAccount t.accountId t.symbol).inAuction t.symbol ∨ ¬ (t.tif = .fok ∧
      ((s.touchAccount t.accountId t.symbol).bookFor t.symbol).executableQty t.side t.price <
        t.remaining)) : s.entries t = [(s.touchAccount t.accountId t.symbol, t)] :=
  if_pos ⟨h.valid, h.risk, hphase⟩

/-- The order that the arguments of an order entry make. -/
theorem placeVisible_entering {s : MatchingEngine} {t : Taker} (hs : s.Sound G)
    (haccount : G.account t.accountId) (hfree : s.Claimable t.accountId t.symbol t.id) :
    Entering G t.symbol s (s.entries t) (placeVisibleOrderWithAccountAndId t.accountId t.symbol t.id
      t.side t.price t.remaining t.tif t.visibility t.displayQty) := by
  unfold Entering placeVisibleOrderWithAccountAndId
  simp only [outcome_bind, outcome_get]
  have htouch : Placing G t.symbol s [] [] (s.touchAccount t.accountId t.symbol) :=
    .touch s haccount
  cases hvalid : s.validateEntry t.symbol t.price t.remaining t.visibility t.displayQty with
  | some failure =>
    have hnone : s.entries t = [] := if_neg fun h => by
      rw [hvalid] at h
      cases h.1
    rw [hnone]
    exact steps_report trivial rfl
  | none =>
  dsimp only
  cases hrisk : (s.touchAccount t.accountId t.symbol).validateOrderRisk t.accountId t.symbol t.side
      t.price t.remaining none with
  | some failure =>
    have hnone : s.entries t = [] := if_neg fun h => by
      rw [hrisk] at h
      cases h.2.1
    rw [hnone]
    simp only [outcome_bind, outcome_set, outcome_pure]
    exact .silent htouch (steps_audit trivial rfl ⟨rfl, rfl, rfl, rfl, rfl⟩)
  | none =>
  simp only [outcome_bind, outcome_set]
  have hframe := frame_touchAccount s t.accountId t.symbol
  have hs' := (Narrows.of_frame hs hframe id).sound hs
  have hadmits : (s.touchAccount t.accountId t.symbol).Admits t := ⟨hvalid, hrisk, hfree.of_touch⟩
  by_cases hphase : (s.touchAccount t.accountId t.symbol).inAuction t.symbol
  · rw [if_pos hphase, entries_of_admits hadmits (Or.inl hphase)]
    exact (restVisibleOrder_steps hadmits haccount hphase).mono
      (fun _ _ hrest => .silent htouch hrest) fun _ _ h => h.elim
  · rw [if_neg hphase]
    by_cases hfok : t.tif = .fok ∧
        ((s.touchAccount t.accountId t.symbol).bookFor t.symbol).executableQty t.side t.price <
          t.remaining
    · have hnone : s.entries t = [] := if_neg fun h => h.2.2.elim hphase fun h => h hfok
      rw [if_pos hfok, hnone]
      exact .silent htouch (steps_report trivial rfl)
    · rw [if_neg hfok, entries_of_admits hadmits (Or.inr hfok), outcome_bind]
      refine (matchLoop_matches (hs'.book _) (by simp)).mono (fun r s₁ hmatches => ?_)
        fun e s₁ hfails => ?_
      · obtain ⟨taker, events⟩ := r
        rw [outcome_bind]
        refine (finishEntry_finishes s₁ taker).mono (fun rested s₂ hfinishes => ?_)
          fun e s₂ h => h.elim
        have henter := Placing.enter rfl hadmits haccount hphase hfok hmatches hfinishes
        exact .silent htouch (.single henter)
      · exact ⟨[], _, [], [_], .single (.placing htouch),
          .entry rfl hadmits haccount hphase hfok hfails, rfl⟩

theorem placeMarket_entering {s : MatchingEngine} {a : AccountId} {id : OrderId} {side : Side}
    {qty : ℤ} (hs : s.Sound G) (haccount : G.account a) (hfree : s.Claimable a symbol id) :
    Entering G symbol s (s.marketEntries a symbol id side qty)
      (placeMarketOrderWithAccountAndId a symbol id side qty) := by
  have hplace := fun limit => placeVisible_entering
    (t := limitTaker a symbol id side limit qty .ioc) hs haccount hfree
  have hinvalid : ∀ limit, ¬ isValidQty qty →
      s.entries (limitTaker a symbol id side limit qty .ioc) = [] := fun limit hqty =>
    if_neg fun h => hqty (validateEntry_eq_none.mp h.1).2.1
  have hcontrol : ∀ limit, ¬ (¬ s.isHalted symbol ∧ s.priceInBand symbol limit) →
      s.entries (limitTaker a symbol id side limit qty .ioc) = [] := fun limit hnot =>
    if_neg fun h => hnot (validateEntry_eq_none.mp h.1).2.2.2
  unfold Entering placeMarketOrderWithAccountAndId marketEntries
  simp only [outcome_bind, outcome_get]
  cases side <;> dsimp only
  all_goals
    by_cases hqty : ¬ isValidQty qty
    · rw [if_pos hqty, hinvalid _ hqty, ite_self]
      exact steps_report trivial rfl
    rw [if_neg hqty]
    by_cases hhalted : s.isHalted symbol
    · rw [if_pos hhalted, hcontrol _ fun h => h.1 hhalted, ite_self]
      exact steps_report trivial rfl
    rw [if_neg hhalted]
    split
    · exact steps_report trivial rfl
    split
    · rename_i hband
      rw [hcontrol _ fun h => hband h.2]
      exact steps_report trivial rfl
    · exact hplace _

/-- A triggered stop's child. -/
theorem placeChild_entering {s : MatchingEngine} {stop : StopOrderState} {id : OrderId}
    (hs : s.Sound G) (haccount : G.account stop.accountId)
    (hfree : s.Claimable stop.accountId symbol id) :
    Entering G symbol s (s.childEntries stop symbol id) (placeChild stop symbol id) := by
  unfold childEntries placeChild
  cases stop.limitPrice with
  | some limit =>
    exact placeVisible_entering
      (t := limitTaker stop.accountId symbol id stop.side limit stop.qty .gtc) hs haccount hfree
  | none => exact placeMarket_entering hs haccount hfree

/-! Stops. -/

/-- The next id is free. -/
theorem Sound.free_next {s : MatchingEngine} (hs : s.Sound G) (a : AccountId) (symbol : Symbol) :
    s.allocated.Claimable a symbol s.nextOrderId where
  lt := Nat.lt_succ_self _
  stop := Option.eq_none_iff_forall_ne_some.mpr fun _ h => lt_irrefl _ (hs.stop_lt h)
  rests _ h := lt_irrefl _ (hs.rests_lt h)
  owner _ h := absurd (hs.owner_lt h) (lt_irrefl _)
  unreserved _ := hs.unreserved le_rfl
  account _ h := absurd (hs.owner_lt h) (lt_irrefl _)

/-- A triggered stop leaves, and its child takes the next id. -/
theorem Sound.free_triggered {s : MatchingEngine} (hs : s.Sound G) {id : OrderId}
    {stop : StopOrderState} (hstop : s.stopOrdersById.lookup id = some stop)
    (hsymbol : stop.symbol = symbol) :
    (s.triggerStop symbol id stop).Claimable stop.accountId symbol s.nextOrderId := by
  have hdrop := Step.sound hs (Step.dropStop hstop hsymbol)
  have hfree := hdrop.free_next stop.accountId symbol
  exact ⟨hfree.toFree.of_frame rfl, hfree.unreserved, hfree.account⟩

theorem triggerAll_building {ready : List OrderId} {s : MatchingEngine} (hs : s.Sound G)
    (hready : ∀ id ∈ ready, ∀ stop, s.stopOrdersById.lookup id = some stop → stop.symbol = symbol) :
    Outcome (triggerAll symbol ready) s
      (fun r s' => Steps (Adding G symbol) s r.2 (triggerEntries symbol ready s) s')
      fun _ s' => Broken G symbol s (triggerEntries symbol ready s) s' := by
  induction ready generalizing s with
  | nil => exact .refl _
  | cons id ready ih =>
    rw [triggerAll, triggerEntries]
    simp only [outcome_bind, outcome_get]
    cases hstop : s.stopOrdersById.lookup id with
    | none => exact ih hs fun id' hid' => hready id' (List.mem_cons_of_mem _ hid')
    | some stop =>
      simp only [outcome_bind, outcome_set]
      have hsymbol := hready id List.mem_cons_self stop hstop
      have htrigger : Steps (Adding G symbol) s [s.triggeredEvent symbol id stop] []
        (s.triggerStop symbol id stop) := .single (.trigger hstop hsymbol)
      have hs₁ := htrigger.sound_adding hs
      have hchild := placeChild_entering hs₁ (hs.stop_account hstop) (hs.free_triggered hstop hsymbol)
      refine hchild.with_eq.mono (fun child s₂ hchild => ?_) fun e s₂ hchild => by
        obtain ⟨heq, hbroken⟩ := hchild
        rw [heq, List.append_nil]
        exact hbroken.after (htrigger.mono Adding.step)
      obtain ⟨heq, hsteps⟩ := hchild
      have hstops : s₂.stopOrdersById = s.stopOrdersById.erase id := hsteps.reads aside_stops
      have hpath := htrigger.trans (hsteps.mono Adding.placing)
      have hs₂ := hpath.sound_adding hs
      rw [heq]
      refine (ih hs₂ fun id' hid' stop' hstop' => ?_).mono (fun r s₃ hrest => ?_)
        fun e s₃ hbroken => hbroken.after (hpath.mono Adding.step)
      · rw [hstops, Finmap.lookup_erase_ite] at hstop'
        split_ifs at hstop'
        exact hready id' (List.mem_cons_of_mem _ hid') stop' hstop'
      · exact hpath.trans hrest

/-- The stops of a round of the cascade are stops on the symbol. -/
theorem Sound.readyStops {s : MatchingEngine} (hs : s.Sound G) {current : ℤ} :
    ∀ id ∈ s.readyStops symbol current, ∀ stop, s.stopOrdersById.lookup id = some stop →
      stop.symbol = symbol := by
  intro id hid stop hstop
  have hmem : id ∈ s.pendingStopIds symbol := by
    unfold MatchingEngine.readyStops at hid
    rw [(List.perm_insertionSort _ _).mem_iff] at hid
    exact List.mem_of_mem_filter hid
  obtain ⟨stop', hstop', hsymbol⟩ := hs.pending hmem
  rw [hstop] at hstop'
  cases hstop'
  exact hsymbol

theorem cascade_building {fuel : ℕ} {s : MatchingEngine} (hs : s.Sound G) :
    Building G symbol s (cascadeEntries symbol fuel s) (cascade symbol fuel) := by
  induction fuel generalizing s with
  | zero => exact .refl _
  | succ fuel ih =>
    unfold Building
    rw [cascade, cascadeEntries]
    simp only [outcome_bind, outcome_get]
    cases hprice : s.triggerPrice symbol with
    | none => exact .refl _
    | some current =>
      dsimp only
      by_cases hready : s.readyStops symbol current = []
      · rw [if_pos hready, hready]
        exact .refl _
      · rw [if_neg hready, outcome_bind]
        refine (triggerAll_building hs hs.readyStops).with_eq.mono (fun r s₁ hround => ?_)
          fun e s₁ hround => by
            obtain ⟨heq, hbroken⟩ := hround
            rw [heq, List.append_nil]
            exact hbroken
        obtain ⟨traded, events⟩ := r
        obtain ⟨heq, hsteps⟩ := hround
        rw [heq]
        cases traded with
        | false =>
          simp only [Bool.false_eq_true, if_false, outcome_pure, List.append_nil]
          exact hsteps
        | true =>
          simp only [if_true, outcome_bind]
          exact (Building.after hsteps (ih (hsteps.sound_adding hs))).mono (fun _ _ h => h) fun _ _ h => h

/-- An entry that has come along steps from `s₀`, and the stops it triggers. -/
theorem followEntry_building {s₀ s : MatchingEngine} {entry : Engine (List Event)}
    {made : List Entry} (hs : s₀.Sound G)
    (hx : Outcome entry s (fun events s' => Steps (Adding G symbol) s₀ events made s')
      fun _ s' => Broken G symbol s₀ made s') :
    Outcome (followEntry symbol entry) s
      (fun events s' => Steps (Adding G symbol) s₀ events (made ++ followEntries symbol entry s) s')
      fun _ s' => Broken G symbol s₀ (made ++ followEntries symbol entry s) s' := by
  unfold followEntry
  rw [outcome_bind]
  refine hx.with_eq.mono (fun events s₁ hentry => ?_) fun e s₁ hentry => by
    obtain ⟨heq, hbroken⟩ := hentry
    unfold followEntries
    rw [heq, List.append_nil]
    exact hbroken
  obtain ⟨heq, hsteps⟩ := hentry
  have hs₁ := hsteps.sound_adding hs
  have hstops : Building G symbol s₁ (followEntries symbol entry s) (evaluateStopOrders symbol) := by
    unfold Building evaluateStopOrders followEntries
    rw [heq]
    simp only [outcome_bind, outcome_get]
    by_cases hhalted : s₁.isHalted symbol
    · rw [if_pos hhalted, if_pos hhalted]
      exact .refl _
    · rw [if_neg hhalted, if_neg hhalted]
      exact cascade_building hs₁
  rw [outcome_bind]
  refine (Building.after hsteps hstops).mono (fun triggered s₂ hall => ?_) fun _ _ h => h
  simp only [outcome_bind, outcome_modify, outcome_pure]
  exact hall.snoc_silent (.track s₂ (hall.mono Adding.step).tagged)

/-! Cancelling and replacing. -/

theorem rests_of_cancel {book : OrderBook} (hb : book.WellFormed) {id : OrderId} :
    (book.cancel id).1 = [] ↔ book.findOrder id = none := by
  rw [hb.findOrder_eq_none]
  unfold OrderBook.cancel
  cases book.orderIndex.lookup id <;> simp

/-- Cancelling takes the id out of every book. -/
theorem cancel_steps {s : MatchingEngine} (hs : s.Sound G) (a : AccountId) (id : OrderId) :
    Outcome (cancel a id) s (fun events s' => Steps (Step G (s.cancelSymbol id)) s events [] s' ∧
      ∀ owner, s.orderOwnershipById.lookup id = some owner → owner.accountId = a →
        s'.Claimable a owner.symbol id) fun _ _ => False := by
  unfold cancel cancelSymbol orderSymbol
  simp only [outcome_bind, outcome_get]
  cases hstop : s.stopOrdersById.lookup id with
  | some stop =>
    have hnone := hs.stop_owner hstop
    have hno : ∀ s' : MatchingEngine, ∀ owner, s.orderOwnershipById.lookup id = some owner →
        owner.accountId = a → s'.Claimable a owner.symbol id := fun s' owner ho => by
      rw [hnone] at ho
      cases ho
    dsimp only
    split_ifs
    · exact ⟨step_report trivial rfl, hno _⟩
    · simp only [outcome_bind, outcome_set, outcome_pure]
      have hdrop : Steps (Step G stop.symbol) s _ [] _ := .single (.dropStop hstop rfl)
      have haudit : Step G stop.symbol (s.dropStop stop.symbol id) [] []
          ((s.dropStop stop.symbol id).appendLedgerEntry
            { accountId := a, symbol := stop.symbol, reason := "stop_order_canceled",
              relatedOrderId := some id }) := .placing (.audit _ ⟨rfl, rfl, rfl, rfl, rfl⟩)
      exact ⟨(hdrop.snoc_silent haudit).snoc_silent (.track _ (by simp [Event.symbol])), hno _⟩
  | none =>
    dsimp only
    cases howner : s.orderOwnershipById.lookup id with
    | none => exact ⟨step_report trivial rfl, fun owner ho => by cases ho⟩
    | some owner =>
      have hothers : ∀ {symbol}, s.Rests symbol id → symbol = owner.symbol := fun hr =>
        (hs.owner_symbol howner hr).symm
      dsimp only
      split_ifs with haccount hempty
      · exact ⟨step_report trivial rfl, fun owner' ho ha => by
          cases ho; exact absurd ha haccount⟩
      · refine ⟨step_report trivial rfl, fun owner' ho ha => ?_⟩
        cases ho
        have hnone := (rests_of_cancel (hs.book owner.symbol)).mp hempty
        refine ⟨⟨hs.owner_lt howner, hstop, fun symbol hr => ?_, fun other ho => ?_⟩,
          fun ho => ?_, fun other ho => ?_⟩
        · rw [Rests, hothers hr] at hr
          exact hr hnone
        · rw [howner] at ho
          cases ho
          rfl
        · rw [howner] at ho
          cases ho
        · rw [howner] at ho
          cases ho
          exact ha
      · simp only [outcome_bind, outcome_set, outcome_pure]
        have hrests : s.Rests owner.symbol id :=
          fun hnone => hempty ((rests_of_cancel (hs.book owner.symbol)).mpr hnone)
        have haccount : owner.accountId = a := not_not.mp haccount
        subst haccount
        have hcancel : Steps (Step G owner.symbol) s _ [] _ := .single (.cancel howner rfl hrests)
        refine ⟨hcancel.snoc_silent (.track _ (symbol_cancel _ _)), fun owner' ho _ => ?_⟩
        cases ho
        have hn := narrows_cancelResting hs (a := owner.accountId) hrests
        have hbook : (s.cancelResting owner.accountId owner.symbol id).bookFor owner.symbol =
            ((s.bookFor owner.symbol).cancel id).2 := by
          rw [bookFor_cancelResting, if_pos rfl]
        have hgone : (s.cancelResting owner.accountId owner.symbol id).orderOwnershipById.lookup id =
            none := Finmap.lookup_erase _ _
        refine Claimable.of_unowned (s := s.cancelResting owner.accountId owner.symbol id) ?_ hgone
          (unreserved_releaseAll (s.setBook owner.symbol ((s.bookFor owner.symbol).cancel id).2)
            owner.accountId owner.symbol id).1 (unjournaled_trackEvents _ _)
        refine ⟨Nat.lt_of_lt_of_le (hs.owner_lt howner) hn.nextOrderId, hn.stops ▸ hstop,
          fun symbol hr => ?_, fun other ho => ?_⟩
        · obtain ⟨order, horder⟩ := Option.ne_none_iff_exists'.mp hrests
          have hsymbol := hothers (hn.rests hr)
          rw [hsymbol, Rests, hbook, OrderBook.findOrder_cancel (hs.book _) horder, if_pos rfl] at hr
          exact hr rfl
        · rw [hgone] at ho
          cases ho

/-- A replacement first takes the order out of the book. -/
theorem replaceOrder_parts {s : MatchingEngine} (hs : s.Sound G) {a : AccountId} {id : OrderId}
    {newPrice newQty : ℤ} (hreplace : G.owner a → G.account a) :
    Outcome (replaceOrder a id newPrice newQty) s (fun events s' => ∃ removed added s₁,
        events = removed ++ added ∧ Steps (Step G (s.orderSymbol id)) s removed [] s₁ ∧
        Steps (Adding G (s.orderSymbol id)) s₁ added (s.replaceEntries a id newPrice newQty) s')
      fun _ s' => Broken G (s.orderSymbol id) s (s.replaceEntries a id newPrice newQty) s' := by
  have hreport : ∀ {symbol : Symbol} {event : Event}, event.verdict → event.symbol = symbol →
      ∃ removed added s₁, [event] = removed ++ added ∧ Steps (Step G symbol) s removed [] s₁ ∧
        Steps (Adding G symbol) s₁ added [] s := fun hverdict hsymbol =>
    ⟨[], _, s, rfl, .refl s, adding_report hverdict hsymbol⟩
  unfold replaceOrder replaceEntries orderSymbol
  simp only [outcome_bind, outcome_get]
  cases howner : s.orderOwnershipById.lookup id with
  | none => exact hreport trivial rfl
  | some owner =>
    simp only [Option.elim_some]
    by_cases hwrong : owner.accountId ≠ a
    · rw [if_pos hwrong, if_neg fun h => hwrong h.1]
      exact hreport trivial rfl
    have howns : owner.accountId = a := not_not.mp hwrong
    have haccount : G.account a := hreplace (howns ▸ hs.owner_account howner)
    rw [if_neg hwrong]
    cases hvalid : s.validateReplace owner newPrice newQty with
    | some failure =>
      rw [if_neg fun h => by cases h.2.1]
      exact hreport trivial rfl
    | none =>
      dsimp only
      cases hrisk : s.validateOrderRisk a owner.symbol owner.side newPrice newQty (some id) with
      | some failure =>
        rw [if_neg fun h => by cases h.2.2]
        simp only [outcome_bind, outcome_set, outcome_pure]
        exact ⟨[], _, s, rfl, .refl s, adding_audit trivial rfl ⟨rfl, rfl, rfl, rfl, rfl⟩⟩
      | none =>
        rw [if_pos ⟨howns, rfl, rfl⟩]
        simp only [outcome_bind, outcome_set]
        have hrecord : Steps (Step G owner.symbol) s [] [] (s.replaceReleased a owner.symbol id) :=
          .single (.placing (.audit s ⟨rfl, rfl, rfl, rfl, rfl⟩))
        have hs₁ := hrecord.sound hs
        have hsymbol : (s.replaceReleased a owner.symbol id).cancelSymbol id = owner.symbol := by
          have hstop : (s.replaceReleased a owner.symbol id).stopOrdersById.lookup id = none := by
            cases hstop : s.stopOrdersById.lookup id with
            | none => exact hstop
            | some stop =>
              rw [hs.stop_owner hstop] at howner
              cases howner
          have howner' : (s.replaceReleased a owner.symbol id).orderOwnershipById.lookup id =
              some owner := howner
          rw [cancelSymbol, hstop]
          dsimp only
          rw [orderSymbol, howner']
          rfl
        have hcancel := cancel_steps hs₁ a id
        rw [hsymbol] at hcancel
        refine hcancel.with_eq.mono (fun events s₂ hcanceled => ?_) fun e s₂ h => h.2.elim
        obtain ⟨heq, hsteps, hfree⟩ := hcanceled
        rw [heq]
        have hboth := hrecord.trans hsteps
        have hchild := placeVisible_entering
          (t := limitTaker a owner.symbol id owner.side newPrice newQty .gtc) (hboth.sound hs)
          haccount (hfree owner howner howns)
        refine hchild.mono (fun rest s₃ hrest => ?_) fun e s₃ hbroken => hbroken.after hboth
        simp only [outcome_modify, outcome_pure]
        have hplaced := hrest.mono (Adding.placing (G := G))
        have htagged := (hplaced.mono Adding.step).tagged
        exact ⟨events, rest, s₂, rfl, hboth, hplaced.snoc_silent (.track s₃ htagged)⟩

theorem replaceOrder_steps {s : MatchingEngine} (hs : s.Sound G) {a : AccountId} {id : OrderId}
    {newPrice newQty : ℤ} (hreplace : G.owner a → G.account a) :
    Stepping G (s.orderSymbol id) s (s.replaceEntries a id newPrice newQty)
      (replaceOrder a id newPrice newQty) := by
  refine (replaceOrder_parts hs hreplace).mono (fun events s' hparts => ?_) fun _ _ hbroken => hbroken
  obtain ⟨removed, added, s₁, rfl, hremoved, hadded⟩ := hparts
  exact hremoved.trans (hadded.mono Adding.step)

/-! Stop orders. -/

theorem placeStop_building {s : MatchingEngine} {a : AccountId} {id : OrderId} {side : Side}
    {stopPrice qty : ℤ} {limitPrice : Option ℤ} (haccount : G.account a) (hfree : s.Free symbol id)
    (howner : s.orderOwnershipById.lookup id = none) :
    Building G symbol s [] (placeStopOrderWithAccountAndId a symbol id side stopPrice qty
      limitPrice) := by
  unfold Building placeStopOrderWithAccountAndId
  simp only [outcome_bind, outcome_get]
  have htouch : Placing G symbol s [] [] (s.touchAccount a symbol) := .touch s haccount
  split
  · exact adding_report trivial rfl
  split
  · exact adding_report trivial rfl
  split
  · simp only [outcome_bind, outcome_set, outcome_pure]
    exact .silent (.placing htouch) (adding_report trivial rfl)
  split
  · simp only [outcome_bind, outcome_set, outcome_pure]
    exact .silent (.placing htouch) (adding_audit trivial rfl ⟨rfl, rfl, rfl, rfl, rfl⟩)
  · simp only [outcome_bind, outcome_set, outcome_pure]
    have hadd := @Adding.addStop G symbol (s.touchAccount a symbol)
      { accountId := a, symbol, side, stopPrice, qty, limitPrice, sequence := id } rfl haccount
      (hfree.of_frame (frame_touchAccount s a symbol)) howner
    exact .silent (.placing htouch) ((Steps.single hadd).snoc_silent (.placing (.audit _ ⟨rfl, rfl, rfl, rfl, rfl⟩)))

theorem replaceStop_building {s : MatchingEngine} (hs : s.Sound G) {a : AccountId} {id : OrderId}
    {stop : StopOrderState} {newStopPrice newQty : ℤ} {newLimitPrice : Option ℤ} {reason : String}
    {entries : List Entry} (hstop : s.stopOrdersById.lookup id = some stop)
    (haccepted : isValidPrice newStopPrice → (∀ limit ∈ newLimitPrice, isValidPrice limit) →
      isValidQty newQty → s.validateOrderRisk a stop.symbol stop.side
        (newLimitPrice.getD newStopPrice) newQty none = none →
      entries = followEntries stop.symbol (pure [])
        (s.withReplacedStop id stop newStopPrice newQty newLimitPrice))
    (hrejected : ¬ (isValidPrice newStopPrice ∧ (∀ limit ∈ newLimitPrice, isValidPrice limit) ∧
      isValidQty newQty ∧ s.validateOrderRisk a stop.symbol stop.side
        (newLimitPrice.getD newStopPrice) newQty none = none) → entries = []) :
    Building G stop.symbol s entries
      (replaceStop a id stop newStopPrice newQty newLimitPrice reason) := by
  unfold Building replaceStop
  simp only [outcome_bind, outcome_get]
  by_cases hprice : ¬ isValidPrice newStopPrice ∨ ∃ limit ∈ newLimitPrice, ¬ isValidPrice limit
  · rw [if_pos hprice, hrejected fun h => hprice.elim (fun hn => hn h.1)
      fun hn => hn.elim fun limit hlimit => hlimit.2 (h.2.1 limit hlimit.1)]
    exact adding_report trivial rfl
  rw [if_neg hprice]
  by_cases hqty : ¬ isValidQty newQty
  · rw [if_pos hqty, hrejected fun h => hqty h.2.2.1]
    exact adding_report trivial rfl
  rw [if_neg hqty]
  cases hrisk : s.validateOrderRisk a stop.symbol stop.side (newLimitPrice.getD newStopPrice) newQty
      none with
  | some failure =>
    rw [hrejected fun h => by rw [hrisk] at h; cases h.2.2.2]
    simp only [outcome_bind, outcome_set, outcome_pure]
    exact adding_audit trivial rfl ⟨rfl, rfl, rfl, rfl, rfl⟩
  | none =>
    push Not at hprice hqty
    rw [haccepted hprice.1 hprice.2 hqty hrisk]
    simp only [outcome_bind, outcome_set]
    have hreplaced : Steps (Adding G stop.symbol) s _ []
        (s.withReplacedStop id stop newStopPrice newQty newLimitPrice) :=
      .single (.replaceStop hstop rfl)
    exact followEntry_building hs (outcome_pure.mpr hreplaced)

theorem replaceStopLimit_building {s : MatchingEngine} (hs : s.Sound G) {a : AccountId} {id : OrderId}
    {newStopPrice newLimitPrice newQty : ℤ} :
    Building G (s.stopSymbol id) s
      (s.replaceStopEntries a id newStopPrice (some newLimitPrice) newQty)
      (replaceStopLimitOrder a id newStopPrice newLimitPrice newQty) := by
  unfold Building replaceStopLimitOrder replaceStopEntries stopSymbol
  simp only [outcome_bind, outcome_get]
  cases hstop : s.stopOrdersById.lookup id with
  | none => exact adding_report trivial rfl
  | some stop =>
    simp only [Option.elim_some]
    by_cases hwrong : stop.accountId ≠ a
    · rw [if_pos hwrong, if_neg fun h => hwrong h.1]
      exact adding_report trivial rfl
    · rw [if_neg hwrong]
      exact replaceStop_building hs hstop
        (fun hprice hlimit hqty hrisk => if_pos ⟨not_not.mp hwrong, hprice, hlimit, hqty, hrisk⟩)
        fun hnot => if_neg fun h => hnot h.2

theorem replaceStopOrder_building {s : MatchingEngine} (hs : s.Sound G) {a : AccountId} {id : OrderId}
    {newStopPrice newQty : ℤ} :
    Building G (s.stopSymbol id) s (s.replaceStopEntries a id newStopPrice none newQty)
      (replaceStopOrder a id newStopPrice newQty) := by
  have hlimited : ∀ stop limit, s.stopOrdersById.lookup id = some stop →
      stop.limitPrice = some limit → s.replaceStopEntries a id newStopPrice none newQty =
        s.replaceStopEntries a id newStopPrice (some limit) newQty := fun stop limit hstop hlimit => by
    unfold replaceStopEntries
    rw [hstop]
    have hsame : (none.orElse fun _ => stop.limitPrice) = some limit := hlimit
    dsimp only
    rw [hsame]
    rfl
  unfold Building replaceStopOrder
  simp only [outcome_bind, outcome_get]
  cases hstop : s.stopOrdersById.lookup id with
  | none =>
    unfold replaceStopEntries stopSymbol
    rw [hstop]
    exact adding_report trivial rfl
  | some stop =>
    dsimp only
    by_cases hwrong : stop.accountId ≠ a
    · unfold replaceStopEntries stopSymbol
      rw [if_pos hwrong, hstop]
      dsimp only
      rw [if_neg fun h => hwrong h.1]
      exact adding_report trivial rfl
    rw [if_neg hwrong]
    cases hlimit : stop.limitPrice with
    | some limit =>
      rw [hlimited stop limit hstop hlimit]
      exact replaceStopLimit_building hs
    | none =>
      have hsame : (none.orElse fun _ => stop.limitPrice) = none := hlimit
      unfold replaceStopEntries stopSymbol
      rw [hstop]
      simp only [Option.elim_some, hsame]
      exact replaceStop_building hs hstop
        (fun hprice hlimits hqty hrisk => if_pos ⟨not_not.mp hwrong, hprice, hlimits, hqty, hrisk⟩)
        fun hnot => if_neg fun h => hnot h.2

/-! The uncross. -/

theorem nextAuctionQty_some {book : OrderBook} (hb : book.WellFormed) {price remaining traded : ℤ}
    (h : nextAuctionQty book price remaining = some traded) :
    0 < traded ∧ traded ≤ remaining ∧
      (∃ order ∈ book.sideOrders .bid, price ≤ order.price ∧ traded ≤ order.qty) ∧
      ∃ order ∈ book.sideOrders .ask, order.price ≤ price ∧ traded ≤ order.qty := by
  unfold nextAuctionQty at h
  cases hbid : book.bestBid with
  | none => rw [hbid] at h; cases h
  | some bestBid =>
  cases hask : book.bestAsk with
  | none => rw [hbid, hask] at h; cases h
  | some bestAsk =>
    simp only [hbid, hask, Option.bind_eq_bind, Option.bind_some] at h
    split_ifs at h with hstop
    cases hbidOrder : book.frontOfLevel .bid bestBid with
    | none => rw [hbidOrder] at h; cases h
    | some bidOrder =>
    cases haskOrder : book.frontOfLevel .ask bestAsk with
    | none => rw [hbidOrder, haskOrder] at h; cases h
    | some askOrder =>
      simp only [hbidOrder, haskOrder, Option.bind_some, Option.some.injEq] at h
      obtain ⟨hbidMem, hbidPrice, hbidQty⟩ := hb.front_of_bestDisplayed hbid hbidOrder
      obtain ⟨haskMem, haskPrice, haskQty⟩ := hb.front_of_bestDisplayed hask haskOrder
      refine ⟨by omega, by omega, ⟨bidOrder, hbidMem, by omega, by omega⟩,
        askOrder, haskMem, by omega, by omega⟩

/-- The trade is no larger than the first order of a side, where that order shows. -/
theorem nextAuctionQty_le_front {book : OrderBook} (hb : book.WellFormed)
    {price remaining traded : ℤ} (h : nextAuctionQty book price remaining = some traded)
    {side : Side} {order : Order} (hhead : (book.sideOrders side).head? = some order)
    (hvisible : order.visibility ≠ .hidden) : traded ≤ available order := by
  obtain ⟨hbest, hfront⟩ := hb.front_of_head hhead hvisible
  have havailable : available order = order.qty := by
    unfold available availableQty
    cases hv : order.visibility <;> simp_all [queueKind]
  rw [havailable]
  unfold nextAuctionQty at h
  cases hbid : book.bestBid with
  | none => rw [hbid] at h; cases h
  | some bestBid =>
  cases hask : book.bestAsk with
  | none => rw [hbid, hask] at h; cases h
  | some bestAsk =>
    simp only [hbid, hask, Option.bind_eq_bind, Option.bind_some] at h
    split_ifs at h with hstop
    cases hbidOrder : book.frontOfLevel .bid bestBid with
    | none => rw [hbidOrder] at h; cases h
    | some bidOrder =>
    cases haskOrder : book.frontOfLevel .ask bestAsk with
    | none => rw [hbidOrder, haskOrder] at h; cases h
    | some askOrder =>
      simp only [hbidOrder, haskOrder, Option.bind_some, Option.some.injEq] at h
      cases side with
      | bid =>
        have hprice : bestBid = order.price := Option.some.inj (hbid.symm.trans hbest)
        rw [hprice, hfront, Option.some.injEq] at hbidOrder
        rw [hbidOrder]
        omega
      | ask =>
        have hprice : bestAsk = order.price := Option.some.inj (hask.symm.trans hbest)
        rw [hprice, hfront, Option.some.injEq] at haskOrder
        rw [haskOrder]
        omega

/-- Where there is a quantity to trade, both sides give a fill. -/
theorem auction_fills {book : OrderBook} (hb : book.WellFormed) {price remaining traded : ℤ}
    (h : nextAuctionQty book price remaining = some traded) :
    ∃ bid book₁ ask book₂, book.fillBestAtOrBetter .bid price traded = some (bid, book₁) ∧
      book₁.fillBestAtOrBetter .ask price traded = some (ask, book₂) := by
  obtain ⟨hpos, -, ⟨bidOrder, hbidOrder, hbidPrice, -⟩, askOrder, haskOrder, haskPrice, -⟩ :=
    nextAuctionQty_some hb h
  obtain ⟨⟨bid, book₁⟩, hbid⟩ := Option.ne_none_iff_exists'.mp
    (hb.fillBestAtOrBetter_ne_none hpos hbidOrder (show crosses .ask price _ from hbidPrice))
  obtain ⟨maker, rest, hfill, -⟩ := fillBestAtOrBetter_some hb hbid
  obtain ⟨⟨ask, book₂⟩, hask⟩ := Option.ne_none_iff_exists'.mp
    (hfill.wellFormed_after.fillBestAtOrBetter_ne_none hpos
      (hfill.mem_opposite haskOrder) (show crosses .bid price _ from haskPrice))
  exact ⟨bid, book₁, ask, book₂, hbid, hask⟩

/-- The auction loop trades while there is a quantity to trade. -/
theorem auctionLoop_crosses {price : ℤ} {fuel : ℕ} {remaining : ℤ} {s : MatchingEngine}
    (hs : s.Sound G) (hfuel : remaining ≤ fuel) :
    Outcome (auctionLoop symbol price fuel remaining) s
      (fun r s' => Crosses symbol price s remaining r.2
          (auctionSteps price fuel (s.bookFor symbol) remaining) s' r.1 ∧
        nextAuctionQty (s'.bookFor symbol) price r.1 = none)
      fun _ s' => ∃ trades steps remaining' a b,
        Crosses symbol price s remaining trades steps s' remaining' ∧
        steps ⊆ auctionSteps price fuel (s.bookFor symbol) remaining ∧
        s'.accounts.lookup a ≠ none ∧ s'.accounts.lookup b ≠ none ∧
        ¬ s'.InvariantsHold symbol a b := by
  induction fuel generalizing s remaining with
  | zero =>
    refine ⟨.refl s remaining, Option.eq_none_iff_forall_ne_some.mpr fun traded h => ?_⟩
    obtain ⟨hpos, hle, -⟩ := nextAuctionQty_some (hs.book symbol) h
    push_cast at hfuel
    omega
  | succ fuel ih =>
    rw [auctionLoop, auctionSteps]
    simp only [outcome_bind, outcome_get]
    cases hqty : nextAuctionQty (s.bookFor symbol) price remaining with
    | none => exact ⟨.refl s remaining, hqty⟩
    | some traded =>
      obtain ⟨bid, book₁, ask, book₂, hbid, hask⟩ := auction_fills (hs.book symbol) hqty
      have hbidFill : auctionFill (s.bookFor symbol) .bid price traded = (some bid, book₁) := by
        rw [auctionFill, hbid]
      have haskFill : auctionFill book₁ .ask price traded = (some ask, book₂) := by
        rw [auctionFill, hask]
      dsimp only
      rw [hbidFill]
      dsimp only
      rw [haskFill]
      simp only [settleAuctionTrade, outcome_bind, outcome_get, outcome_set]
      have hs' : (s.auctionTraded symbol price traded bid.makerId ask.makerId book₂).Sound G :=
        (narrows_auctionTraded hs hbid hask).sound hs
      have hbook : (s.auctionTraded symbol price traded bid.makerId ask.makerId book₂).bookFor symbol =
          book₂ := by rw [bookFor_auctionTraded, if_pos rfl]
      obtain ⟨hpos, -⟩ := nextAuctionQty_some (hs.book symbol) hqty
      by_cases hhold : (s.auctionTraded symbol price traded bid.makerId ask.makerId
          book₂).InvariantsHold symbol ((s.setBook symbol book₂).ownerAccountId bid.makerId)
          ((s.setBook symbol book₂).ownerAccountId ask.makerId)
      · refine (outcome_assert_of_hold hhold).mpr (outcome_pure.mpr ?_)
        have hleft : remaining - traded ≤ fuel := by
          push_cast at hfuel
          omega
        have hrest := ih hs' hleft
        rw [hbook] at hrest
        refine hrest.mono (fun r s₁ h => ⟨.trade hqty hbid hask h.1, h.2⟩) fun e s₁ h => ?_
        obtain ⟨trades, steps, remaining', a, b, hcrosses, hsub, hfails⟩ := h
        exact ⟨_, _, remaining', a, b, .trade hqty hbid hask hcrosses, List.cons_subset_cons _ hsub,
          hfails⟩
      · refine outcome_assert_of_not hhold fun e => ⟨_, _, _, _, _,
          .trade hqty hbid hask (.refl _ _), by simp, ?_, ?_, hhold⟩
        · exact present_auctionTraded _ _ _ _ _ _ (Or.inl rfl)
        · exact present_auctionTraded _ _ _ _ _ _ (Or.inr rfl)

theorem endAuction_steps (s : MatchingEngine) (symbol : Symbol) :
    Outcome (endAuction symbol) s (fun events s' => Steps (Step G symbol) s events [] s')
      fun _ _ => False := by
  unfold endAuction
  simp only [outcome_bind, outcome_get]
  split_ifs with hphase
  · exact .single (.endAuction hphase)
  · exact .refl s

theorem uncross_steps {s : MatchingEngine} (hs : s.Sound G)
    (hguard : ∀ step ∈ s.uncrossSteps symbol, G.auction step.1 step.2.1 step.2.2) :
    Stepping G symbol s [] (uncross symbol) := by
  unfold Stepping uncross
  unfold uncrossSteps at hguard
  simp only [outcome_bind, outcome_get]
  cases hprice : (s.computeAuctionIndicative symbol).price with
  | none => exact step_report trivial rfl
  | some price =>
    simp only [hprice] at hguard
    dsimp only
    split
    · exact step_report trivial rfl
    split
    · simp only [outcome_bind, outcome_set, outcome_pure]
      exact .single .haltAuction
    · rename_i hqty hband
      rw [if_pos (not_not.mp hband)] at hguard
      have hsteps : ∀ step ∈ auctionSteps price (s.computeAuctionIndicative symbol).qty.toNat
          (s.bookFor symbol) (s.computeAuctionIndicative symbol).qty, G.auction step.1 price step.2 :=
        fun step hstep => hguard (step.1, price, step.2) (List.mem_map.mpr ⟨step, hstep, rfl⟩)
      rw [outcome_bind]
      refine (auctionLoop_crosses hs (by omega)).mono (fun r s₁ hloop => ?_) ?_
      · obtain ⟨remaining, trades⟩ := r
        obtain ⟨hcrosses, hdone⟩ := hloop
        simp only [outcome_bind, outcome_get]
        refine (endAuction_steps (G := G) s₁ symbol).mono (fun ended s₂ hended => ?_)
          fun e s₂ h => h.elim
        simp only [outcome_modify, outcome_pure]
        have hcross : Steps (Step G symbol) s (.auctionUncross symbol price
            ((s.computeAuctionIndicative symbol).qty - remaining)
            (s₁.computeAuctionIndicative symbol).imbalance :: trades ++
              s₁.maybeEmitTopOfBookChange symbol (s.bookFor symbol).bestBid
                (s.bookFor symbol).bestAsk) [] s₁ :=
          .single (.cross hsteps hcrosses hdone)
        have hall := hcross.trans hended
        have htagged := hall.tagged
        simp only [List.cons_append, List.append_assoc] at hall htagged ⊢
        exact hall.snoc_silent (.track s₂ htagged)
      · rintro e s₁ ⟨trades, steps, remaining, a, b, hcrosses, hsub, ha, hb, hnot⟩
        exact ⟨[], s, [], [], .refl s, .auction (fun step hstep => hsteps step (hsub hstep)) hcrosses
          ha hb hnot, rfl⟩

end MatchingEngine

/-- What an operation needs for its ticks to meet the guard. -/
structure Op.Guarded (G : Guard) (op : Op) (s : MatchingEngine) : Prop where
  account : ∀ a ∈ op.submitter, G.account a
  replace : ∀ a ∈ op.replacer, G.owner a → G.account a
  entry : ∀ e ∈ op.entries s, G.entry e.1 e.2
  auction : ∀ step ∈ op.auctionSteps s, G.auction step.1 step.2.1 step.2.2

/-- An entry under the next order id, and the stops it triggers. -/
theorem numbered_building {s : MatchingEngine} {made : List Entry} (hs : s.Sound G)
    (entry : OrderId → Engine (List Event))
    (hx : Building G symbol s.allocated made (entry s.nextOrderId)) :
    Building G symbol s (made ++ followEntries symbol (entry s.nextOrderId) s.allocated) (do
      let id ← takeOrderId
      followEntry symbol (entry id)) := by
  have hallocate : Steps (Adding G symbol) s [] [] s.allocated := .single (.allocate s)
  unfold Building takeOrderId
  simp only [outcome_bind, outcome_get, outcome_set, outcome_pure]
  exact followEntry_building hs (Building.after hallocate hx)

/-- The operations that place orders and stops, or give stops new parameters. -/
def Op.isAddition : Op → Prop
  | .placeLimitOrder .. | .placeHiddenOrder .. | .placeIcebergOrder .. | .placeMarketOrder ..
  | .placeStopOrder .. | .placeStopLimitOrder .. | .replaceStopOrder ..
  | .replaceStopLimitOrder .. => True
  | _ => False

/-- These take orders out of the book by trades only. -/
theorem Op.exec_building {s : MatchingEngine} {op : Op} (hs : s.Sound G)
    (haccount : ∀ a ∈ op.submitter, G.account a) (hop : op.isAddition) :
    Building G (op.symbol s) s (op.entries s) op.exec := by
  have hs' := hs.allocated
  have hfree := fun a symbol => hs.free_next a symbol
  have howner : s.allocated.orderOwnershipById.lookup s.nextOrderId = none :=
    Option.eq_none_iff_forall_ne_some.mpr fun _ h => lt_irrefl _ (hs.owner_lt h)
  cases op with
  | placeLimitOrder a symbol side price qty tif =>
    exact numbered_building hs _ (placeVisible_entering
      (t := limitTaker a symbol s.nextOrderId side price qty tif) hs' (haccount a rfl)
      (hfree a symbol)).building
  | placeHiddenOrder a symbol side price qty =>
    exact numbered_building hs _ (placeVisible_entering
      (t := ⟨a, symbol, s.nextOrderId, side, price, qty, .gtc, .hidden, 0⟩) hs' (haccount a rfl)
      (hfree a symbol)).building
  | placeIcebergOrder a symbol side price totalQty displayQty =>
    exact numbered_building hs _ (placeVisible_entering
      (t := ⟨a, symbol, s.nextOrderId, side, price, totalQty, .gtc, .iceberg, displayQty⟩) hs'
      (haccount a rfl) (hfree a symbol)).building
  | placeMarketOrder a symbol side qty =>
    exact numbered_building hs _ (placeMarket_entering hs' (haccount a rfl) (hfree a symbol)).building
  | placeStopOrder a symbol side stopPrice qty =>
    exact numbered_building hs
      (fun id => placeStopOrderWithAccountAndId a symbol id side stopPrice qty none)
      (placeStop_building (haccount a rfl) (hfree a symbol).toFree howner)
  | placeStopLimitOrder a symbol side stopPrice limitPrice qty =>
    exact numbered_building hs
      (fun id => placeStopOrderWithAccountAndId a symbol id side stopPrice qty limitPrice)
      (placeStop_building (haccount a rfl) (hfree a symbol).toFree howner)
  | replaceStopOrder a id newStopPrice newQty => exact replaceStopOrder_building hs
  | replaceStopLimitOrder a id newStopPrice newLimitPrice newQty =>
    exact replaceStopLimit_building hs
  | _ => exact hop.elim

/-- Order entry, cancels, replacements and uncrosses are sequences of steps. -/
theorem Op.exec_steps {s : MatchingEngine} {op : Op} (hs : s.Sound G)
    (haccount : ∀ a ∈ op.submitter, G.account a)
    (hreplace : ∀ a ∈ op.replacer, G.owner a → G.account a)
    (hauction : ∀ step ∈ op.auctionSteps s, G.auction step.1 step.2.1 step.2.2)
    (hsetting : ¬ op.isSetting) (hstate : ∀ a symbol cash qty, op ≠ .setAccountState a symbol cash qty) :
    Stepping G (op.symbol s) s (op.entries s) op.exec := by
  cases op with
  | setFeeModel | setAccountRiskConfig | haltSymbol | resumeSymbol | setPriceBands
  | clearPriceBands | setTradingPhase => exact absurd trivial hsetting
  | setAccountState a symbol cash qty => exact absurd rfl (hstate a symbol cash qty)
  | cancel a id =>
    exact (cancel_steps hs a id).mono (fun _ _ h => h.1) fun _ _ h => h.elim
  | replaceOrder a id newPrice newQty => exact replaceOrder_steps hs (hreplace a rfl)
  | uncross symbol => exact uncross_steps hs hauction
  | _ => exact (Op.exec_building hs haccount trivial).stepping

/-- Orders are cancelled before others come in. -/
theorem Op.exec_parts {s : MatchingEngine} {op : Op} (hs : s.Sound G)
    (haccount : ∀ a ∈ op.submitter, G.account a)
    (hreplace : ∀ a ∈ op.replacer, G.owner a → G.account a)
    (hauction : ∀ step ∈ op.auctionSteps s, G.auction step.1 step.2.1 step.2.2)
    (hsetup : ¬ op.isSetting) (hstate : ∀ a symbol cash qty, op ≠ .setAccountState a symbol cash qty) :
    Outcome op.exec s (fun events s' => ∃ removed added s₁, events = removed ++ added ∧
      Steps (Step G (op.symbol s)) s removed [] s₁ ∧
      Steps (Adding G (op.symbol s)) s₁ added (op.entries s) s') fun _ _ => True := by
  cases op with
  | setFeeModel | setAccountRiskConfig | haltSymbol | resumeSymbol | setPriceBands
  | clearPriceBands | setTradingPhase => exact absurd trivial hsetup
  | setAccountState a symbol cash qty => exact absurd rfl (hstate a symbol cash qty)
  | cancel a id =>
    refine (cancel_steps hs a id).mono (fun events s' h => ?_) fun _ _ h => h.elim
    exact ⟨events, [], s', (List.append_nil _).symm, h.1, .refl s'⟩
  | uncross symbol =>
    refine (uncross_steps hs hauction).mono (fun events s' h => ?_) fun _ _ _ => trivial
    exact ⟨events, [], s', (List.append_nil _).symm, h, .refl s'⟩
  | replaceOrder a id newPrice newQty =>
    exact (replaceOrder_parts hs (hreplace a rfl)).mono (fun _ _ h => h) fun _ _ _ => trivial
  | _ =>
    refine (Op.exec_building hs haccount trivial).mono (fun events s' h => ?_) fun _ _ _ => trivial
    exact ⟨[], events, s, rfl, .refl s, h⟩

/-- Some ticks, and then a throw that leaves the engine in `s'`. -/
def Aborts (G : Guard) (c : Config) (s' : MatchingEngine) : Prop :=
  ∃ events c', Path (Tick G) c events c' ∧ c'.AbortsTo s'

theorem Aborts.after {c c' : Config} {events : List Event} {s' : MatchingEngine}
    (h : Aborts G c' s') (hpath : Path (Tick G) c events c') : Aborts G c s' := by
  obtain ⟨more, c'', hmore, habort⟩ := h
  exact ⟨_, c'', hpath.trans hmore, habort⟩

theorem Broken.aborts {s s' : MatchingEngine} {entries : List Entry} (hs : s.Sound G)
    (h : Broken G symbol s entries s') (hentry : ∀ e ∈ entries, G.entry e.1 e.2) :
    Aborts G ⟨s, idle⟩ s' := by
  obtain ⟨events, s₁, made, more, hsteps, hbreaks, rfl⟩ := h
  have hpath := hsteps.path hs fun e he => hentry e (List.mem_append_left _ he)
  exact Aborts.after (hbreaks.aborts fun e he => hentry e (List.mem_append_right _ he)) hpath

/-- A computation that takes the engine along ticks from `c` to rest, unless it throws. -/
def Traces (G : Guard) (c : Config) (x : Engine (List Event)) : Prop :=
  Outcome x c.engine (fun events s' => Path (Tick G) c events ⟨s', idle⟩) fun _ => Aborts G c

/-- And so paths of ticks. -/
theorem Op.exec_traces {s : MatchingEngine} {op : Op} (hs : s.Sound G) (hguard : op.Guarded G s)
    (hsetting : ¬ op.isSetting) (hstate : ∀ a symbol cash qty, op ≠ .setAccountState a symbol cash qty) :
    Traces G ⟨s, idle⟩ op.exec :=
  (Op.exec_steps hs hguard.account hguard.replace hguard.auction hsetting hstate).mono
    (fun _ _ hsteps => hsteps.path hs hguard.entry) fun _ _ hbroken => hbroken.aborts hs hguard.entry

theorem sound_of_path {s s' : MatchingEngine} {events : List Event} (hs : s.Sound G)
    (h : Path (Tick G) ⟨s, idle⟩ events ⟨s', idle⟩) : s'.Sound G :=
  (h.invariant (I := Config.Sound G) Tick.sound ⟨hs, trivial⟩).1

end Tes
