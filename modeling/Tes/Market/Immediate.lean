import Tes.Market.Halts

/-! Immediate orders: outside auctions, market orders and limit orders that do not rest leave
nothing behind. -/
namespace Tes
open OrderBook MatchingEngine EStateM

namespace MatchingEngine
variable {G : Guard} {s s' s'' : MatchingEngine} {id : OrderId}

/-- Nothing is left of an order: it rests nowhere, nobody owns it, nothing is reserved for it. -/
structure Traceless (s : MatchingEngine) (id : OrderId) : Prop where
  rests : ∀ symbol, ¬ s.Rests symbol id
  owner : s.orderOwnershipById.lookup id = none
  unreserved : s.Unreserved id

theorem Narrows.refl (hs : s.Sound G) : s.Narrows s :=
  ⟨hs.book, fun h => h, fun ho => ⟨_, ho, rfl, rfl⟩, rfl, le_rfl, fun h => h, rfl⟩

theorem Narrows.trans (h : s.Narrows s') (h' : s'.Narrows s'') : s.Narrows s'' where
  book := h'.book
  rests hr := h.rests (h'.rests hr)
  owner ho := by
    obtain ⟨owner', howner', hsymbol', haccount'⟩ := h'.owner ho
    obtain ⟨owner, howner, hsymbol, haccount⟩ := h.owner howner'
    exact ⟨owner, howner, hsymbol'.trans hsymbol, haccount'.trans haccount⟩
  stops := h'.stops.trans h.stops
  nextOrderId := h.nextOrderId.trans h'.nextOrderId
  unreserved hid := h'.unreserved (h.unreserved hid)
  pending := h'.pending.trans h.pending

theorem Narrows.traceless (h : s.Narrows s') (hid : s.Traceless id) : s'.Traceless id where
  rests symbol hr := hid.rests symbol (h.rests hr)
  owner := Option.eq_none_iff_forall_ne_some.mpr fun owner' ho => by
    obtain ⟨owner, howner, -⟩ := h.owner ho
    rw [hid.owner] at howner
    cases howner
  unreserved := h.unreserved hid.unreserved

/-- The next id has left no trace. -/
theorem Sound.traceless_next (hs : s.Sound G) : s.Traceless s.nextOrderId where
  rests _ hr := lt_irrefl _ (hs.rests_lt hr)
  owner := Option.eq_none_iff_forall_ne_some.mpr fun _ ho => lt_irrefl _ (hs.owner_lt ho)
  unreserved := hs.unreserved le_rfl

theorem Traceless.of_frame (h : s.Traceless id) (hframe : s'.frame = s.frame)
    (hreserves : s.Unreserved id → s'.Unreserved id) : s'.Traceless id where
  rests symbol := by
    unfold Rests
    rw [bookFor_of_frame hframe]
    exact h.rests symbol
  owner := owners_of_frame hframe ▸ h.owner
  unreserved := hreserves h.unreserved

theorem Traceless.of_unjournaled (h : s.Traceless id) (hs : s'.unjournaled = s.unjournaled) :
    s'.Traceless id :=
  h.of_frame (frame_of_unjournaled hs) fun hid => hid.of_unjournaled hs

/-- An order that comes to rest leaves its own trace only. -/
theorem Traceless.rested {t : Taker} (h : s.Traceless id) (hs : s.Sound G) (hflight : s.InFlight t)
    (hpos : 0 < t.remaining) (hne : id ≠ t.id) : (t.rested s).Traceless id where
  rests symbol := by
    unfold Rests
    rw [bookFor_rested]
    split_ifs with hsymbol
    · rw [findOrder_addRemainder (hs.book t.symbol) hflight.valid hpos
        (not_not.mp (hflight.free.rests t.symbol)), if_neg fun hid => hne hid.1]
      exact h.rests t.symbol
    · exact h.rests symbol
  owner := by rw [owners_rested, if_neg hne, h.owner]
  unreserved := h.unreserved.restOrder hne _ _ _ _ _

end MatchingEngine

section Steps
variable {G : Guard} {symbol : Symbol} {s s' : MatchingEngine} {events more : List Event}
  {entries : List Entry} {id : OrderId}

/-- Fills take orders out of the book and put none in. -/
theorem Matches.narrows {t t' : Taker} (hs : s.Sound G) (h : Matches s t events s' t') :
    s.Narrows s' := by
  induction h with
  | done => exact .refl hs
  | breach hnext => exact narrows_breached hs hnext
  | fill hnext _ _ _ ih =>
    have hfirst := narrows_filled hs hnext
    exact hfirst.trans (ih (hfirst.sound hs))

theorem Matches.id_eq {t t' : Taker} (h : Matches s t events s' t') : t'.id = t.id ∧ t'.tif = t.tif := by
  induction h with
  | done => exact ⟨rfl, rfl⟩
  | breach => exact ⟨rfl, rfl⟩
  | fill _ _ _ _ ih => exact ih

/-- Matching takes the order along. -/
theorem Matches.inFlight {t t' : Taker} (hs : s.Sound G) (hflight : s.InFlight t)
    (h : Matches s t events s' t') : s'.InFlight t' := by
  induction h with
  | done => exact hflight
  | breach hnext => exact hflight.after hs hnext (narrows_breached hs hnext)
  | fill hnext _ _ _ ih =>
    have hfirst := narrows_filled hs hnext
    exact ih (hfirst.sound hs) (hflight.after hs hnext hfirst)

theorem Finishes.traceless {t : Taker} (hs : s.Sound G) (hflight : s.InFlight t)
    (h : Finishes s t events s') (hid : s.Traceless id) (hioc : id = t.id → t.tif = .ioc) :
    s'.Traceless id := by
  cases h with
  | rest hpos htif => exact hid.rested hs hflight hpos fun heq => htif (hioc heq)
  | expire => exact hid.of_unjournaled (unjournaled_appendLedgerEntry s _)
  | done => exact hid

theorem triggered_append : Triggered (events ++ more) ↔ Triggered events ∨ Triggered more := by
  simp only [Triggered, List.mem_append, or_and_right, exists_or]

theorem not_triggered_singleton {e : Event} (h : e.isTrigger = false) : ¬ Triggered [e] := by
  simp [Triggered, h]

theorem not_triggered_of_still (h : Still events) : ¬ Triggered events := by
  rintro ⟨e, he, htrigger⟩
  have hmove := (h e he).2
  rw [Event.isMove, htrigger, Bool.or_true] at hmove
  cases hmove

theorem not_triggered_fillReport {t : Taker} {fill : FillResult} {book : OrderBook} :
    ¬ Triggered (s.fillReport t fill book) := by
  have hfill : ¬ Triggered (fillEvents t fill) := by
    rintro ⟨e, he, htrigger⟩
    unfold fillEvents at he
    rcases List.mem_append.mp he with he | he
    · split at he
      · rw [List.mem_singleton.mp he] at htrigger
        cases htrigger
      · cases he
    · split_ifs at he <;> rw [List.mem_singleton.mp he] at htrigger <;> cases htrigger
  unfold fillReport
  rw [triggered_append]
  exact not_or.mpr ⟨hfill, not_triggered_of_still (still_topOfBook _ _ _ _)⟩

theorem Matches.not_triggered {t t' : Taker} (h : Matches s t events s' t') : ¬ Triggered events := by
  induction h with
  | done => simp [Triggered]
  | breach => simp [Triggered, tradeEvent, circuitBreakerEvents, Event.isTrigger]
  | fill _ _ _ _ ih =>
    have htrade : ∀ (t : Taker) fill, ¬ Triggered [tradeEvent t fill] := by
      simp [Triggered, tradeEvent, Event.isTrigger]
    rw [List.cons_append, ← List.singleton_append, triggered_append, triggered_append]
    exact not_or.mpr ⟨htrade _ _, not_or.mpr ⟨not_triggered_fillReport, ih⟩⟩

theorem Finishes.not_triggered {t : Taker} (h : Finishes s t events s') : ¬ Triggered events := by
  cases h with
  | rest => exact not_triggered_of_still restedEvents_still
  | expire => simp [Triggered, Event.isTrigger]
  | done => simp [Triggered]

theorem Placing.not_triggered (h : Placing G symbol s events entries s') : ¬ Triggered events := by
  cases h with
  | touch => simp [Triggered]
  | @report event hverdict =>
    have hnot : event.isTrigger = false := by
      cases event <;> first | rfl | exact hverdict.elim
    simp [Triggered, hnot]
  | audit => simp [Triggered]
  | restAuction => exact not_triggered_of_still restedEvents_still
  | enter _ _ _ _ _ hmatches hfinishes =>
    rw [triggered_append]
    exact not_or.mpr ⟨hmatches.not_triggered, hfinishes.not_triggered⟩

theorem Steps.not_triggered (h : Steps (Placing G symbol) s events entries s') :
    ¬ Triggered events := by
  induction h with
  | refl => simp [Triggered]
  | step hr _ ih =>
    rw [triggered_append]
    exact not_or.mpr ⟨hr.not_triggered, ih⟩

/-- Outside auctions an order entry leaves no new trace but that of an order that may rest. -/
structure Vanishes (symbol : Symbol) (s : MatchingEngine) (events : List Event)
    (entries : List Entry) (s' : MatchingEngine) : Prop where
  phase : ¬ s'.inAuction symbol
  nextOrderId : s'.nextOrderId = s.nextOrderId
  traceless : ∀ id, s.Traceless id → (∀ e ∈ entries, e.2.id = id → e.2.tif = .ioc) →
    s'.Traceless id

theorem inAuction_congr (h : s'.tradingPhasesBySymbol = s.tradingPhasesBySymbol) :
    s'.inAuction symbol ↔ s.inAuction symbol := by
  unfold inAuction tradingPhase
  rw [h]

theorem not_inAuction_of_halted (h : s.isHalted symbol) : ¬ s.inAuction symbol := by
  unfold isHalted at h
  rintro (hphase | hphase) <;> rw [h] at hphase <;> cases hphase

theorem aside_nextOrderId : Aside MatchingEngine.nextOrderId :=
  ⟨nextOrderId_of_frame, fun _ _ _ => rfl, fun _ _ => rfl, fun _ _ _ => rfl⟩

theorem Placing.vanishes (hs : s.Sound G) (hopen : ¬ s.inAuction symbol)
    (h : Placing G symbol s events entries s') : Vanishes symbol s events entries s' := by
  refine ⟨?_, h.reads aside_nextOrderId, fun id hid hioc => ?_⟩
  · cases h with
    | touch => exact hopen
    | report => exact hopen
    | audit => exact hopen
    | restAuction hsymbol _ _ hphase => exact absurd (hsymbol ▸ hphase) hopen
    | enter hsymbol hadmits haccount hphase hfok hmatches hfinishes =>
      subst hsymbol
      have hlast := hfinishes.still.2.2
      rcases hadmits.matches (hs.book _) hphase hmatches with
        ⟨-, hfillings⟩ | ⟨-, fill, book, -, -, -, rfl, rfl⟩
      · exact (inAuction_congr (hlast.trans hfillings.still.2)).not.mpr hopen
      · exact not_inAuction_of_halted ((isHalted_congr hlast).mpr (isHalted_withHalt _ _ _))
  · cases h with
    | touch => exact hid.of_frame (frame_touchAccount _ _ _) fun h => h
    | report => exact hid
    | audit => exact hid.of_unjournaled (unjournaled_appendLedgerEntry s _)
    | restAuction hsymbol _ _ hphase => exact absurd (hsymbol ▸ hphase) hopen
    | enter hsymbol hadmits haccount hphase hfok hmatches hfinishes =>
      have hnarrows := hmatches.narrows hs
      obtain ⟨hsame, htif⟩ := hmatches.id_eq
      refine hfinishes.traceless (hnarrows.sound hs) (hmatches.inFlight hs hadmits.inFlight.1)
        (hnarrows.traceless hid) fun heq => ?_
      rw [htif]
      exact hioc _ List.mem_cons_self (heq.trans hsame).symm

theorem Steps.vanishes (hs : s.Sound G) (hopen : ¬ s.inAuction symbol)
    (h : Steps (Placing G symbol) s events entries s') : Vanishes symbol s events entries s' := by
  induction h with
  | refl s => exact ⟨hopen, rfl, fun _ hid _ => hid⟩
  | step hr _ ih =>
    have hfirst := hr.vanishes hs hopen
    have hrest := ih ((Step.placing hr).sound hs) hfirst.phase
    refine ⟨hrest.phase, hrest.nextOrderId.trans hfirst.nextOrderId, fun id hid hioc => ?_⟩
    exact hrest.traceless id (hfirst.traceless id hid fun e he =>
      hioc e (List.mem_append_left _ he)) fun e he => hioc e (List.mem_append_right _ he)

end Steps

/-- The market order that the event says a stop has become. -/
def Event.marketChild : Event → Option OrderId
  | .stopOrderTriggered _ childId _ _ _ none _ => some childId
  | _ => none

/-- The operation places an order that may not rest. -/
def Op.placesImmediate : Op → Prop
  | .placeLimitOrder _ _ _ _ _ tif => tif = .ioc
  | .placeMarketOrder .. => True
  | _ => False

/-- The orders of the operation that may not rest: its own and the market orders that stops
become. -/
def Op.Immediate (op : Op) (s : MatchingEngine) (events : List Event) (id : OrderId) : Prop :=
  op.placesImmediate ∧ id = s.nextOrderId ∨ id ∈ events.filterMap Event.marketChild

section Cascade
variable {G : Guard} {symbol : Symbol} {s s' s'' : MatchingEngine} {events more : List Event}
  {entries : List Entry}

theorem marketChild_of_not_triggered (h : ¬ Triggered events) :
    events.filterMap Event.marketChild = [] := by
  refine List.filterMap_eq_nil_iff.mpr fun e he => ?_
  cases e with
  | stopOrderTriggered => exact absurd ⟨_, he, rfl⟩ h
  | _ => rfl

/-- Outside auctions the stops of a symbol leave no new trace but those of their limit orders. -/
structure Tidies (symbol : Symbol) (s : MatchingEngine) (events : List Event)
    (s' : MatchingEngine) : Prop where
  phase : ¬ s'.inAuction symbol
  nextOrderId : s.nextOrderId ≤ s'.nextOrderId
  traceless : ∀ id < s.nextOrderId, s.Traceless id → s'.Traceless id
  children : ∀ id ∈ events.filterMap Event.marketChild, id < s'.nextOrderId ∧ s'.Traceless id

theorem Tidies.refl (hopen : ¬ s.inAuction symbol) : Tidies symbol s [] s :=
  ⟨hopen, le_rfl, fun _ _ hid => hid, by simp⟩

theorem Tidies.trans (h : Tidies symbol s events s') (h' : Tidies symbol s' more s'') :
    Tidies symbol s (events ++ more) s'' where
  phase := h'.phase
  nextOrderId := h.nextOrderId.trans h'.nextOrderId
  traceless id hlt hid := h'.traceless id (hlt.trans_le h.nextOrderId) (h.traceless id hlt hid)
  children id hid := by
    rw [List.filterMap_append] at hid
    rcases List.mem_append.mp hid with hid | hid
    · obtain ⟨hlt, htrace⟩ := h.children id hid
      exact ⟨hlt.trans_le h'.nextOrderId, h'.traceless id hlt htrace⟩
    · exact h'.children id hid

theorem Tidies.track (h : Tidies symbol s events s') (all : List Event) :
    Tidies symbol s events (s'.trackEvents all) := by
  have hsame := unjournaled_trackEvents s' all
  have hnext := nextOrderId_of_frame (frame_of_unjournaled hsame)
  refine ⟨(inAuction_congr (phases_of_frame (frame_of_unjournaled hsame))).not.mpr h.phase, ?_,
    fun id hlt hid => (h.traceless id hlt hid).of_unjournaled hsame, fun id hid => ?_⟩
  · rw [hnext]
    exact h.nextOrderId
  · rw [hnext]
    obtain ⟨hlt, htrace⟩ := h.children id hid
    exact ⟨hlt, htrace.of_unjournaled hsame⟩

theorem entries_spec {t : Taker} {e : Entry} (he : e ∈ s.entries t) : e.2 = t := by
  unfold MatchingEngine.entries at he
  dsimp only at he
  split_ifs at he
  · rw [List.mem_singleton.mp he]
  · cases he

theorem marketEntries_spec {a : AccountId} {id : OrderId} {side : Side} {qty : ℤ} {e : Entry}
    (he : e ∈ s.marketEntries a symbol id side qty) : e.2.id = id ∧ e.2.tif = .ioc := by
  unfold marketEntries at he
  dsimp only at he
  split at he
  all_goals
    split_ifs at he
    · cases he
    · rw [entries_spec he]
      exact ⟨rfl, rfl⟩

/-- The order that a stop becomes takes the next id, and may not rest without a limit price. -/
theorem childEntries_spec {stop : StopOrderState} {id : OrderId} {e : Entry}
    (he : e ∈ s.childEntries stop symbol id) :
    e.2.id = id ∧ (stop.limitPrice = none → e.2.tif = .ioc) := by
  unfold childEntries at he
  cases hlimit : stop.limitPrice with
  | some limit =>
    rw [hlimit] at he
    rw [entries_spec he]
    exact ⟨rfl, fun hnone => absurd hnone (Option.some_ne_none limit)⟩
  | none =>
    rw [hlimit] at he
    obtain ⟨hid, htif⟩ := marketEntries_spec he
    exact ⟨hid, fun _ => htif⟩

theorem triggerAll_tidies {ready : List OrderId} (hs : s.Sound G) (hopen : ¬ s.inAuction symbol)
    (hready : ∀ id ∈ ready, ∀ stop, s.stopOrdersById.lookup id = some stop → stop.symbol = symbol) :
    Outcome (triggerAll symbol ready) s (fun r s' => s'.Sound G ∧ Tidies symbol s r.2 s')
      fun _ _ => True := by
  induction ready generalizing s with
  | nil => exact ⟨hs, .refl hopen⟩
  | cons id ready ih =>
    rw [triggerAll]
    simp only [outcome_bind, outcome_get]
    cases hstop : s.stopOrdersById.lookup id with
    | none => exact ih hs hopen fun id' hid' => hready id' (List.mem_cons_of_mem _ hid')
    | some stop =>
      simp only [outcome_bind, outcome_set]
      have hsymbol := hready id List.mem_cons_self stop hstop
      have hs₁ := (Step.trigger hstop hsymbol).sound hs
      have hchild := placeChild_entering hs₁ (hs.stop_account hstop) (hs.free_triggered hstop hsymbol)
      refine hchild.mono (fun child s₂ hsteps => ?_) fun _ _ _ => trivial
      have hvanishes := hsteps.vanishes hs₁ hopen
      have hstops : s₂.stopOrdersById = s.stopOrdersById.erase id := hsteps.reads aside_stops
      have hs₂ := (hsteps.mono Step.placing).sound hs₁
      have hnext : s₂.nextOrderId = s.nextOrderId + 1 := hvanishes.nextOrderId
      have htrace : ∀ {id'}, s.Traceless id' → (id' = s.nextOrderId → stop.limitPrice = none) →
          s₂.Traceless id' := fun {id'} hid' hlimit => by
        refine hvanishes.traceless id' ⟨hid'.rests, hid'.owner, hid'.unreserved⟩ fun e he heq => ?_
        obtain ⟨hchildId, htif⟩ := childEntries_spec he
        exact htif (hlimit (heq.symm.trans hchildId))
      have hfirst : Tidies symbol s (s.triggeredEvent symbol id stop :: child) s₂ := by
        refine ⟨hvanishes.phase, hnext ▸ Nat.le_succ _, fun id' hlt hid' => htrace hid' fun heq => ?_,
          fun id' hid' => ?_⟩
        · exact absurd heq hlt.ne
        · rw [List.filterMap_cons, marketChild_of_not_triggered hsteps.not_triggered,
            triggeredEvent] at hid'
          cases hlimit : stop.limitPrice with
          | some limit =>
            rw [hlimit] at hid'
            cases hid'
          | none =>
            rw [hlimit] at hid'
            rw [List.mem_singleton.mp hid', hnext]
            exact ⟨Nat.lt_succ_self _, htrace hs.traceless_next fun _ => hlimit⟩
      refine (ih hs₂ hvanishes.phase fun id' hid' stop' hstop' => ?_).mono
        (fun r s₃ hrest => ⟨hrest.1, hfirst.trans hrest.2⟩) fun _ _ _ => trivial
      rw [hstops, Finmap.lookup_erase_ite] at hstop'
      split_ifs at hstop'
      exact hready id' (List.mem_cons_of_mem _ hid') stop' hstop'

theorem cascade_tidies {fuel : ℕ} (hs : s.Sound G) (hopen : ¬ s.inAuction symbol) :
    Outcome (cascade symbol fuel) s (fun events s' => Tidies symbol s events s') fun _ _ => True := by
  induction fuel generalizing s with
  | zero => exact .refl hopen
  | succ fuel ih =>
    rw [cascade]
    simp only [outcome_bind, outcome_get]
    split
    · exact .refl hopen
    · split_ifs
      · exact .refl hopen
      · rw [outcome_bind]
        refine (triggerAll_tidies hs hopen hs.readyStops).mono (fun r s₁ hround => ?_)
          fun _ _ _ => trivial
        obtain ⟨traded, events⟩ := r
        cases traded with
        | false => exact hround.2
        | true =>
          simp only [if_true, outcome_bind]
          exact (ih hround.1 hround.2.phase).mono (fun _ _ hrest => hround.2.trans hrest)
            fun _ _ _ => trivial

/-- What an order entry outside auctions leaves; where the order may not rest, no trace of it. -/
structure EntryTidies (symbol : Symbol) (immediate : Prop) (id : OrderId) (events : List Event)
    (s' : MatchingEngine) : Prop where
  sound : s'.Sound {}
  phase : ¬ s'.inAuction symbol
  untriggered : ¬ Triggered events
  traceless : immediate → id < s'.nextOrderId ∧ s'.Traceless id

theorem followEntry_tidies {entry : Engine (List Event)} {immediate : Prop} {id : OrderId}
    (hentry : Outcome entry s (EntryTidies symbol immediate id) fun _ _ => True) :
    Outcome (followEntry symbol entry) s (fun events s' => (immediate → s'.Traceless id) ∧
      ∀ child ∈ events.filterMap Event.marketChild, s'.Traceless child) fun _ _ => True := by
  unfold followEntry
  rw [outcome_bind]
  refine hentry.mono (fun events s₁ h => ?_) fun _ _ _ => trivial
  have hstops : Outcome (evaluateStopOrders symbol) s₁
      (fun triggered s' => Tidies symbol s₁ triggered s') fun _ _ => True := by
    unfold evaluateStopOrders
    simp only [outcome_bind, outcome_get]
    split_ifs
    · exact .refl h.phase
    · exact cascade_tidies h.sound h.phase
  rw [outcome_bind]
  refine hstops.mono (fun triggered s₂ htidies => ?_) fun _ _ _ => trivial
  simp only [outcome_bind, outcome_modify, outcome_pure]
  have hlast := htidies.track (events ++ triggered)
  refine ⟨fun himmediate => ?_, fun child hchild => ?_⟩
  · obtain ⟨hlt, htrace⟩ := h.traceless himmediate
    exact hlast.traceless id hlt htrace
  · rw [List.filterMap_append, marketChild_of_not_triggered h.untriggered, List.nil_append] at hchild
    exact (hlast.children child hchild).2

end Cascade

section Operations
variable {symbol : Symbol} {s s' : MatchingEngine} {op : Op} {events : List Event}

/-- An order entry under the next id. -/
theorem numbered_tidies {immediate : Prop} (entry : OrderId → Engine (List Event))
    (hentry : Outcome (entry s.nextOrderId) s.allocated
      (EntryTidies symbol immediate s.nextOrderId) fun _ _ => True) :
    Outcome (do let id ← takeOrderId; followEntry symbol (entry id)) s
      (fun events s' => (immediate → s'.Traceless s.nextOrderId) ∧
        ∀ child ∈ events.filterMap Event.marketChild, s'.Traceless child) fun _ _ => True := by
  unfold takeOrderId
  simp only [outcome_bind, outcome_get, outcome_set, outcome_pure]
  exact followEntry_tidies hentry

theorem entering_tidies (hs : s.Sound {}) (hopen : ¬ s.inAuction symbol) {immediate : Prop}
    {entries : List Entry} {entry : Engine (List Event)}
    (h : Entering {} symbol s.allocated entries entry)
    (hioc : immediate → ∀ e ∈ entries, e.2.tif = .ioc) :
    Outcome entry s.allocated (EntryTidies symbol immediate s.nextOrderId) fun _ _ => True := by
  have hs' := hs.allocated
  refine h.mono (fun events s' hsteps => ?_) fun _ _ _ => trivial
  have hvanishes := hsteps.vanishes hs' hopen
  refine ⟨(hsteps.mono Step.placing).sound hs', hvanishes.phase, hsteps.not_triggered,
    fun himmediate => ⟨?_, hvanishes.traceless _ ?_ fun e he _ => hioc himmediate e he⟩⟩
  · rw [hvanishes.nextOrderId]
    exact Nat.lt_succ_self _
  · exact ⟨hs.traceless_next.rests, hs.traceless_next.owner, hs.traceless_next.unreserved⟩

theorem placeStop_tidies (hs : s.Sound {}) (hopen : ¬ s.inAuction symbol) (a : AccountId)
    (side : Side) (stopPrice qty : ℤ) (limitPrice : Option ℤ) :
    Outcome (placeStopOrderWithAccountAndId a symbol s.nextOrderId side stopPrice qty limitPrice)
      s.allocated (EntryTidies symbol False s.nextOrderId) fun _ _ => True := by
  have hs' := hs.allocated
  have howner : s.allocated.orderOwnershipById.lookup s.nextOrderId = none :=
    hs.traceless_next.owner
  have hsteps : Stepping {} symbol s.allocated [] (placeStopOrderWithAccountAndId a symbol
      s.nextOrderId side stopPrice qty limitPrice) :=
    (placeStop_building trivial (hs.free_next a symbol).toFree howner).stepping
  refine ((hsteps.mono (fun _ _ h => h) fun _ _ _ => trivial).and
    (placeStop_rests s.allocated a s.nextOrderId side stopPrice qty limitPrice)).mono
    (fun events s' h => ?_) fun _ _ _ => trivial
  obtain ⟨hsteps, hstill, hphases⟩ := h
  exact ⟨hsteps.sound hs', (inAuction_congr hphases).not.mpr hopen, not_triggered_of_still hstill,
    False.elim⟩

/-- An event that makes no market order says nothing about one. -/
theorem childless {event : Event} (h : event.marketChild = none) (P : OrderId → Prop) :
    ∀ child ∈ [event].filterMap Event.marketChild, P child := by
  simp [h]

theorem replaceStop_tidies (hs : s.Sound {}) {a : AccountId} {id : OrderId} {stop : StopOrderState}
    (hstop : s.stopOrdersById.lookup id = some stop) (hopen : ¬ s.inAuction stop.symbol)
    (newStopPrice newQty : ℤ) (newLimitPrice : Option ℤ) (reason : String) :
    Outcome (replaceStop a id stop newStopPrice newQty newLimitPrice reason) s
      (fun events s' => ∀ child ∈ events.filterMap Event.marketChild, s'.Traceless child)
      fun _ _ => True := by
  unfold replaceStop
  simp only [outcome_bind, outcome_get]
  split
  · exact childless rfl _
  split
  · exact childless rfl _
  split
  · exact childless rfl _
  simp only [outcome_bind, outcome_set]
  have hreplaced : Step {} stop.symbol s _ []
      (s.withReplacedStop id stop newStopPrice newQty newLimitPrice) := .replaceStop hstop rfl
  have hentry : EntryTidies stop.symbol False id [.orderCanceled id stop.symbol,
      .stopOrderAccepted id stop.side newStopPrice newQty newLimitPrice stop.symbol]
      (s.withReplacedStop id stop newStopPrice newQty newLimitPrice) :=
    ⟨hreplaced.sound hs, hopen, by simp [Triggered, Event.isTrigger], False.elim⟩
  exact (followEntry_tidies (outcome_pure.mpr hentry)).mono (fun _ _ h => h.2) fun _ _ _ => trivial

theorem replaceStopLimit_tidies (hs : s.Sound {}) (a : AccountId) (id : OrderId)
    (newStopPrice newLimitPrice newQty : ℤ) (hopen : ¬ s.inAuction (s.stopSymbol id)) :
    Outcome (replaceStopLimitOrder a id newStopPrice newLimitPrice newQty) s
      (fun events s' => ∀ child ∈ events.filterMap Event.marketChild, s'.Traceless child)
      fun _ _ => True := by
  unfold replaceStopLimitOrder
  unfold stopSymbol at hopen
  simp only [outcome_bind, outcome_get]
  cases hstop : s.stopOrdersById.lookup id with
  | none => exact childless rfl _
  | some stop =>
    rw [hstop] at hopen
    dsimp only
    split_ifs
    · exact childless rfl _
    · exact replaceStop_tidies hs hstop hopen _ _ _ _

theorem replaceStopOrder_tidies (hs : s.Sound {}) (a : AccountId) (id : OrderId)
    (newStopPrice newQty : ℤ) (hopen : ¬ s.inAuction (s.stopSymbol id)) :
    Outcome (replaceStopOrder a id newStopPrice newQty) s
      (fun events s' => ∀ child ∈ events.filterMap Event.marketChild, s'.Traceless child)
      fun _ _ => True := by
  unfold replaceStopOrder
  simp only [outcome_bind, outcome_get]
  cases hstop : s.stopOrdersById.lookup id with
  | none => exact childless rfl _
  | some stop =>
    dsimp only
    split_ifs
    · exact childless rfl _
    · cases stop.limitPrice with
      | some limit => exact replaceStopLimit_tidies hs a id _ _ _ hopen
      | none =>
        unfold stopSymbol at hopen
        rw [hstop] at hopen
        exact replaceStop_tidies hs hstop hopen _ _ _ _

theorem Crosses.not_triggered {price qty remaining : ℤ} {steps : List (OrderBook × ℤ)}
    (h : Crosses symbol price s qty events steps s' remaining) : ¬ Triggered events := by
  induction h with
  | refl => simp [Triggered]
  | trade _ _ _ _ ih =>
    rw [triggered_append]
    exact not_or.mpr ⟨by simp [Triggered, auctionTradeEvents, Event.isTrigger], ih⟩

theorem uncross_not_triggered (hs : s.Sound {}) :
    Outcome (uncross symbol) s (fun events _ => ¬ Triggered events) fun _ _ => True := by
  unfold uncross
  simp only [outcome_bind, outcome_get]
  split
  · exact not_triggered_singleton rfl
  rename_i price hprice
  split
  · exact not_triggered_singleton rfl
  split
  · exact show ¬ Triggered _ by simp [Triggered, circuitBreakerEvents, Event.isTrigger]
  rw [outcome_bind]
  refine (auctionLoop_crosses hs (by omega)).mono (fun r s₁ hloop => ?_) fun _ _ _ => trivial
  obtain ⟨remaining, trades⟩ := r
  have hended : Outcome (endAuction symbol) s₁ (fun events _ => ¬ Triggered events)
      fun _ _ => True := by
    unfold endAuction
    simp only [outcome_bind, outcome_get]
    split_ifs
    · exact not_triggered_singleton rfl
    · exact show ¬ Triggered [] by simp [Triggered]
  simp only [outcome_bind, outcome_get]
  refine hended.mono (fun ended s₂ hended => ?_) fun _ _ _ => trivial
  simp only [outcome_modify, outcome_pure]
  have htop : ¬ Triggered (s₁.maybeEmitTopOfBookChange symbol (s.bookFor symbol).bestBid
      (s.bookFor symbol).bestAsk) := not_triggered_of_still (still_topOfBook _ _ _ _)
  have hhead : ∀ qty imbalance, ¬ Triggered [Event.auctionUncross symbol price qty imbalance] := by
    simp [Triggered, Event.isTrigger]
  rw [List.cons_append, List.cons_append, ← List.singleton_append, triggered_append,
    triggered_append, triggered_append]
  exact not_or.mpr ⟨hhead _ _, not_or.mpr ⟨not_or.mpr ⟨hloop.1.not_triggered, htop⟩, hended⟩⟩

theorem replaceOrder_not_triggered (hs : s.Sound {}) (a : AccountId) (id : OrderId)
    (newPrice newQty : ℤ) :
    Outcome (replaceOrder a id newPrice newQty) s (fun events _ => ¬ Triggered events)
      fun _ _ => True := by
  unfold replaceOrder
  simp only [outcome_bind, outcome_get]
  cases howner : s.orderOwnershipById.lookup id with
  | none => exact not_triggered_singleton rfl
  | some owner =>
    dsimp only
    split
    · exact not_triggered_singleton rfl
    rename_i hwrong
    split
    · exact not_triggered_singleton rfl
    split
    · exact not_triggered_singleton rfl
    have hrecord : Step {} owner.symbol s [] [] (s.replaceReleased a owner.symbol id) :=
      .placing (.audit s ⟨rfl, rfl, rfl, rfl, rfl⟩)
    simp only [outcome_bind, outcome_set]
    have hcancel := ((cancel_steps (hrecord.sound hs) a id).mono (fun _ _ h => h)
      fun _ _ h => h.elim).and (E := fun _ _ => True) (cancel_rests _ a id)
    refine hcancel.mono (fun canceled s₂ hcanceled => ?_) fun _ _ _ => trivial
    obtain ⟨⟨hsteps, hfree⟩, hstill⟩ := hcanceled
    have hplace := placeVisible_entering
      (t := limitTaker a owner.symbol id owner.side newPrice newQty .gtc)
      (hsteps.sound (hrecord.sound hs)) trivial (hfree owner howner (not_not.mp hwrong))
    refine hplace.mono (fun placed s₃ hplaced => ?_) fun _ _ _ => trivial
    simp only [outcome_modify, outcome_pure]
    rw [triggered_append]
    exact not_or.mpr ⟨not_triggered_of_still hstill.1, hplaced.not_triggered⟩

/-- The operations that evaluate no stops trigger none. -/
theorem Op.exec_not_triggered (hs : s.Sound {}) (hop : ¬ op.isAddition) :
    Outcome op.exec s (fun events _ => ¬ Triggered events) fun _ _ => True := by
  have hsetting : ∀ {op : Op}, op.isSetting →
      Outcome op.exec s (fun events _ => ¬ Triggered events) fun _ _ => True := fun hsetting => by
    refine (Op.exec_controls hsetting s).mono (fun events _ h => ?_) fun _ _ _ => trivial
    rintro ⟨e, he, htrigger⟩
    have hcontrol := (h e he).1
    cases e <;> first | exact hcontrol.elim | cases htrigger
  cases op with
  | setAccountState a symbol cash qty => exact show ¬ Triggered [] by simp [Triggered]
  | cancel a id =>
    exact (cancel_rests s a id).mono (fun _ _ h => not_triggered_of_still h.1) fun _ _ _ => trivial
  | replaceOrder a id newPrice newQty => exact replaceOrder_not_triggered hs a id newPrice newQty
  | uncross symbol => exact uncross_not_triggered hs
  | setFeeModel | setAccountRiskConfig | haltSymbol | resumeSymbol | setPriceBands
  | clearPriceBands | setTradingPhase => exact hsetting trivial
  | _ => exact absurd trivial hop

theorem Op.exec_tidies (hs : s.Sound {}) (hopen : ¬ s.inAuction (op.symbol s)) :
    Outcome op.exec s (fun events s' => (op.placesImmediate → s'.Traceless s.nextOrderId) ∧
      ∀ child ∈ events.filterMap Event.marketChild, s'.Traceless child) fun _ _ => True := by
  have hs' := hs.allocated
  have hfree := fun a symbol => hs.free_next a symbol
  by_cases hop : op.isAddition
  · cases op with
    | placeLimitOrder a symbol side price qty tif =>
      refine numbered_tidies _ (entering_tidies hs hopen (placeVisible_entering
        (t := limitTaker a symbol s.nextOrderId side price qty tif) hs' trivial
        (hfree a symbol)) fun htif e he => ?_)
      rw [entries_spec he]
      exact htif
    | placeHiddenOrder a symbol side price qty =>
      exact numbered_tidies _ (entering_tidies hs hopen (placeVisible_entering
        (t := ⟨a, symbol, s.nextOrderId, side, price, qty, .gtc, .hidden, 0⟩) hs' trivial
        (hfree a symbol)) False.elim)
    | placeIcebergOrder a symbol side price totalQty displayQty =>
      exact numbered_tidies _ (entering_tidies hs hopen (placeVisible_entering
        (t := ⟨a, symbol, s.nextOrderId, side, price, totalQty, .gtc, .iceberg, displayQty⟩)
        hs' trivial (hfree a symbol)) False.elim)
    | placeMarketOrder a symbol side qty =>
      exact numbered_tidies _ (entering_tidies hs hopen (placeMarket_entering hs' trivial
        (hfree a symbol)) fun _ e he => (marketEntries_spec he).2)
    | placeStopOrder a symbol side stopPrice qty =>
      exact numbered_tidies
        (fun id => placeStopOrderWithAccountAndId a symbol id side stopPrice qty none)
        (placeStop_tidies hs hopen a side stopPrice qty none)
    | placeStopLimitOrder a symbol side stopPrice limitPrice qty =>
      exact numbered_tidies
        (fun id => placeStopOrderWithAccountAndId a symbol id side stopPrice qty limitPrice)
        (placeStop_tidies hs hopen a side stopPrice qty limitPrice)
    | replaceStopOrder a id newStopPrice newQty =>
      exact (replaceStopOrder_tidies hs a id newStopPrice newQty hopen).mono
        (fun _ _ h => ⟨False.elim, h⟩) fun _ _ _ => trivial
    | replaceStopLimitOrder a id newStopPrice newLimitPrice newQty =>
      exact (replaceStopLimit_tidies hs a id newStopPrice newLimitPrice newQty hopen).mono
        (fun _ _ h => ⟨False.elim, h⟩) fun _ _ _ => trivial
    | _ => exact hop.elim
  · have hnot : ¬ op.placesImmediate := fun h => by
      cases op with
      | placeLimitOrder | placeMarketOrder => exact hop trivial
      | _ => exact h
    refine (Op.exec_not_triggered hs hop).mono (fun events s' huntriggered => ⟨fun h => absurd h hnot, ?_⟩)
      fun _ _ _ => trivial
    rw [marketChild_of_not_triggered huntriggered]
    exact List.forall_mem_nil _

/-- Outside auctions an immediate order leaves no trace. -/
theorem immediate_leaves_no_trace (h : Reachable s) (hopen : ¬ s.inAuction (op.symbol s))
    (hexec : op.exec s = .ok events s') {id : OrderId} (himmediate : op.Immediate s events id) :
    s'.Traceless id := by
  obtain ⟨hplaced, hchildren⟩ := (Op.exec_tidies h.sound hopen).returns hexec
  rcases himmediate with ⟨hplaces, rfl⟩ | hchild
  · exact hplaced hplaces
  · exact hchildren id hchild

end Operations

/-- An offer of 4, and a stop that a trade at its price triggers. -/
def stopBehindOffer : List Op :=
  [.setAccountState 1 "X" 0 10, .setAccountState 2 "X" 5000 10,
    .placeLimitOrder 1 "X" .ask 100 4 .gtc, .placeLimitOrder 1 "X" .ask 101 4 .gtc,
    .placeStopOrder 2 "X" .bid 100 6]

/-- An order for more than the offer expires, and so does the market order of the stop. -/
theorem immediate_leaves_no_trace_stopBehindOffer :
    ((Op.placeLimitOrder 2 "X" .bid 100 5 .ioc).apply (fresh.applyAll stopBehindOffer)).Traceless 4 ∧
    ((Op.placeLimitOrder 2 "X" .bid 100 5 .ioc).apply
      (fresh.applyAll stopBehindOffer)).Traceless 5 := by
  have hevents : (Op.placeLimitOrder 2 "X" .bid 100 5 .ioc).returned (fresh.applyAll stopBehindOffer) =
      some [.tradeExecuted 4 1 .bid 100 4 "X", .orderPartiallyFilled 4 4 1 "X",
        .topOfBook none (some 101) "X", .orderExpired 4 "X",
        .stopOrderTriggered 3 5 .bid 100 6 none "X", .tradeExecuted 5 2 .bid 101 4 "X",
        .orderPartiallyFilled 5 4 2 "X", .topOfBook none none "X", .orderExpired 5 "X"] := by
    decide +kernel
  have hopen : ¬ (fresh.applyAll stopBehindOffer).inAuction "X" := by decide +kernel
  have hnext : (fresh.applyAll stopBehindOffer).nextOrderId = 4 := by decide +kernel
  have hleaves := fun id => @immediate_leaves_no_trace _ _ (.placeLimitOrder 2 "X" .bid 100 5 .ioc) _
    (reachable_applyAll stopBehindOffer) hopen (Op.exec_of_returned hevents) id
  exact ⟨hleaves 4 (Or.inl ⟨rfl, hnext.symm⟩), hleaves 5 (Or.inr (by decide))⟩

/-- An account with cash, and a symbol that collects orders for an auction. -/
def collecting : List Op := [.setAccountState 2 "X" 5000 10, .setTradingPhase "X" .openingAuction]

/-- In an auction an order that may not rest rests. -/
theorem immediate_rests_collecting :
    ¬ ∀ (s : MatchingEngine) (op : Op) (events : List Event) (s' : MatchingEngine) (id : OrderId),
      Reachable s → op.exec s = .ok events s' → op.Immediate s events id → s'.Traceless id := by
  intro h
  have hevents : (Op.placeLimitOrder 2 "X" .bid 100 5 .ioc).returned (fresh.applyAll collecting) =
      some [.orderAccepted 1 .bid 100 5 "X", .topOfBook (some 100) none "X",
        .indicativePriceUpdated "X" none 0 0] := by decide +kernel
  have hnext : (fresh.applyAll collecting).nextOrderId = 1 := by decide +kernel
  have htrace := h _ _ _ _ 1 (reachable_applyAll collecting) (Op.exec_of_returned hevents)
    (Or.inl ⟨rfl, hnext.symm⟩)
  exact htrace.rests "X" (by unfold Rests; decide +kernel)

end Tes
