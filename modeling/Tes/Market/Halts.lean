import Tes.Engine.Breaches
import Tes.Engine.Triggers
import Tes.Ledger.Isolation

/-! Halts: what trades or triggers once a symbol is halted, and when that can happen. -/
namespace Tes
open OrderBook MatchingEngine EStateM

def Event.isHalt : Event → Bool
  | .symbolHalted .. => true
  | _ => false

/-- A trade, or a stop that triggers. -/
def Event.isMove (e : Event) : Bool := isTrade e || e.isTrigger

def HasHalt (events : List Event) : Prop := ∃ e ∈ events, e.isHalt = true

def HasMove (events : List Event) : Prop := ∃ e ∈ events, e.isMove = true

/-- After a halt nothing moves. -/
def HaltsLast (events : List Event) : Prop :=
  events.Pairwise fun a b => a.isHalt = true → b.isMove = false

section Lists
variable {events more : List Event}

theorem hasHalt_append : HasHalt (events ++ more) ↔ HasHalt events ∨ HasHalt more := by
  simp only [HasHalt, List.mem_append, or_and_right, exists_or]

theorem hasMove_append : HasMove (events ++ more) ↔ HasMove events ∨ HasMove more := by
  simp only [HasMove, List.mem_append, or_and_right, exists_or]

theorem haltsLast_append : HaltsLast (events ++ more) ↔
    HaltsLast events ∧ HaltsLast more ∧ (HasHalt events → ¬ HasMove more) := by
  unfold HaltsLast HasHalt HasMove
  rw [List.pairwise_append]
  refine and_congr_right fun _ => and_congr_right fun _ => ?_
  constructor
  · rintro h ⟨a, ha, hhalt⟩ ⟨b, hb, hmove⟩
    rw [h a ha b hb hhalt] at hmove
    cases hmove
  · intro h a ha b hb hhalt
    exact Bool.eq_false_iff.mpr fun hmove => h ⟨a, ha, hhalt⟩ ⟨b, hb, hmove⟩

theorem haltsLast_of_no_halt (h : ¬ HasHalt events) : HaltsLast events :=
  List.pairwise_of_forall_mem_list (fun a ha _ _ hhalt => absurd ⟨a, ha, hhalt⟩ h)

/-- Events that neither halt nor move. -/
def Still (events : List Event) : Prop := ∀ e ∈ events, e.isHalt = false ∧ e.isMove = false

theorem Still.quiet (h : Still events) : ¬ HasHalt events ∧ ¬ HasMove events := by
  refine ⟨fun ⟨e, he, hhalt⟩ => ?_, fun ⟨e, he, hmove⟩ => ?_⟩
  · rw [(h e he).1] at hhalt
    cases hhalt
  · rw [(h e he).2] at hmove
    cases hmove

theorem Still.map {f : Event → Event} (hf : ∀ e, (f e).isHalt = e.isHalt ∧ (f e).isMove = e.isMove)
    (h : Still events) : Still (events.map f) := by
  intro e he
  obtain ⟨event, hevent, rfl⟩ := List.mem_map.mp he
  rw [(hf event).1, (hf event).2]
  exact h event hevent

theorem still_singleton {event : Event} (h : event.isHalt = false ∧ event.isMove = false) :
    Still [event] := fun e he => by
  rw [List.mem_singleton.mp he]
  exact h

theorem still_topOfBook (book : OrderBook) (symbol : Symbol) (bid ask : Option ℤ) :
    Still (book.maybeEmitTopOfBookChange symbol bid ask) := by
  unfold OrderBook.maybeEmitTopOfBookChange
  split_ifs
  · exact still_singleton ⟨rfl, rfl⟩
  · exact fun e he => by cases he

theorem still_addOrder (book : OrderBook) (order : Order) (visibility : OrderVisibility) :
    Still (book.addOrder order visibility).1 := by
  unfold OrderBook.addOrder
  split_ifs
  · exact fun e he => by cases he
  · intro e he
    rcases List.mem_cons.mp he with rfl | htop
    · unfold acceptedEvent
      split <;> exact ⟨rfl, rfl⟩
    · exact still_topOfBook _ _ _ _ e htop

end Lists

section Steps
variable {G : Guard} {symbol : Symbol} {s s' : MatchingEngine} {events : List Event}
  {entries : List Entry}

/-- Some order of those let in has its first fill outside the price band. -/
def Breach (entries : List Entry) : Prop := ∃ e ∈ entries, e.2.Breaches e.1

instance (entries : List Entry) : Decidable (Breach entries) :=
  inferInstanceAs (Decidable (∃ e ∈ entries, _))

/-- An order entry halts its symbol by a breach, reports it, and then nothing moves. -/
structure HaltsByBreach (symbol : Symbol) (events : List Event) (entries : List Entry)
    (s' : MatchingEngine) : Prop where
  last : HaltsLast events
  reported : HasHalt events ↔ s'.isHalted symbol
  breach : s'.isHalted symbol ↔ Breach entries
  traded : HasHalt events → events.any isTrade = true

theorem breach_append {entries others : List Entry} :
    Breach (entries ++ others) ↔ Breach entries ∨ Breach others := by
  simp only [Breach, List.mem_append, or_and_right, exists_or]

theorem restedEvents_still {t : Taker} : Still (t.restedEvents s) := by
  have hadd : ∀ (book : OrderBook) (order : Order) (visibility : OrderVisibility),
      Still ((book.addOrder order visibility).1.map (Event.tagAccepted t.symbol)) :=
    fun book order visibility =>
      (still_addOrder book order visibility).map fun e => by cases e <;> exact ⟨rfl, rfl⟩
  intro e he
  obtain ⟨event, hevent, rfl⟩ := List.mem_map.mp he
  unfold bookAdd at hevent
  split at hevent <;> exact hadd _ _ _ _ (List.mem_map_of_mem hevent)

theorem Finishes.still {t : Taker} (h : Finishes s t events s') :
    ¬ HasHalt events ∧ ¬ HasMove events ∧ s'.tradingPhasesBySymbol = s.tradingPhasesBySymbol := by
  cases h with
  | rest => exact ⟨restedEvents_still.quiet.1, restedEvents_still.quiet.2, phases_rested s t⟩
  | expire => simp [HasHalt, HasMove, Event.isHalt, Event.isMove, isTrade, Event.isTrigger,
      appendLedgerEntry]
  | done => simp [HasHalt, HasMove]

theorem Fillings.still {t t' : Taker} (h : Fillings s t events s' t') :
    ¬ HasHalt events ∧ s'.tradingPhasesBySymbol = s.tradingPhasesBySymbol := by
  induction h with
  | done => simp [HasHalt]
  | @fill s s' t t' fill book events hnext hband hhold _ ih =>
    refine ⟨fun hhalt => ?_, ih.2.trans (phases_filled _ _ _ _)⟩
    rcases hasHalt_append.mp hhalt with ⟨e, he, htrue⟩ | hrest
    · have hinert : e.isHalt = false := by
        rcases List.mem_cons.mp he with rfl | he
        · rfl
        rcases List.mem_append.mp he with he | he
        · unfold fillEvents at he
          rcases List.mem_append.mp he with he | he
          · split at he
            · rw [List.mem_singleton.mp he]
              rfl
            · cases he
          · split_ifs at he <;> rw [List.mem_singleton.mp he] <;> rfl
        · exact (still_topOfBook _ _ _ _ e he).1
      rw [hinert] at htrue
      cases htrue
    · exact ih.1 hrest

theorem Placing.halts (h : Placing G symbol s events entries s') (hs : s.Sound G)
    (hopen : ¬ s.isHalted symbol) : HaltsByBreach symbol events entries s' := by
  have hnone : ¬ Breach [] := fun ⟨_, he, _⟩ => by cases he
  have hquiet : ∀ {events : List Event} {s' : MatchingEngine}, ¬ HasHalt events →
      (s'.isHalted symbol ↔ s.isHalted symbol) → HaltsByBreach symbol events [] s' :=
    fun hhalt hsame => ⟨haltsLast_of_no_halt hhalt, iff_of_false hhalt (hsame.not.mpr hopen),
      iff_of_false (hsame.not.mpr hopen) hnone, fun h => absurd h hhalt⟩
  cases h with
  | touch => exact hquiet (by simp [HasHalt]) Iff.rfl
  | report hverdict =>
    refine hquiet ?_ Iff.rfl
    rintro ⟨e, he, hhalt⟩
    rw [List.mem_singleton.mp he] at hhalt
    rename_i event hsymbol
    cases event <;> first | exact hverdict.elim | cases hhalt
  | audit => exact hquiet (by simp [HasHalt]) Iff.rfl
  | @restAuction t hsymbol hadmits haccount hphase =>
    subst hsymbol
    have hsame : (t.rested s).isHalted t.symbol ↔ _ := isHalted_congr (phases_rested s t)
    have hquiet := (restedEvents_still (s := s) (t := t)).quiet.1
    refine ⟨haltsLast_of_no_halt hquiet, iff_of_false hquiet (hsame.not.mpr hopen),
      iff_of_false (hsame.not.mpr hopen) ?_, fun h => absurd h hquiet⟩
    rintro ⟨e, he, hbreach⟩
    rw [List.mem_singleton.mp he] at hbreach
    exact hbreach.1 hphase
  | @enter s₁ _ t t' matched rested hsymbol hadmits haccount hphase hfok hmatches hfinishes =>
    subst hsymbol
    have hmem : ∀ {P : Entry → Prop}, (∃ e ∈ [((s, t) : Entry)], P e) ↔ P (s, t) := by simp
    obtain ⟨hhalt, hmove, hphases⟩ := hfinishes.still
    rcases hadmits.matches (hs.book _) hphase hmatches with
      ⟨hnot, hfillings⟩ | ⟨hbreach, fill, book, hnext, hband, rfl, rfl, rfl⟩
    · obtain ⟨hno, hsame⟩ := hfillings.still
      have hopen' : ¬ s'.isHalted t.symbol := (isHalted_congr (hphases.trans hsame)).not.mpr hopen
      have hevents : ¬ HasHalt (matched ++ rested) := fun h =>
        (hasHalt_append.mp h).elim hno hhalt
      exact ⟨haltsLast_of_no_halt hevents, iff_of_false hevents hopen',
        iff_of_false hopen' fun h => hnot (hmem.mp h), fun h => absurd h hevents⟩
    · have hhalted : s'.isHalted t.symbol := (isHalted_congr hphases).mpr (isHalted_withHalt _ _ _)
      refine ⟨haltsLast_append.mpr ⟨?_, haltsLast_of_no_halt hhalt, fun _ => hmove⟩,
        iff_of_true (hasHalt_append.mpr (Or.inl ?_)) hhalted, iff_of_true hhalted (hmem.mpr hbreach),
        fun _ => rfl⟩
      · simp [HaltsLast, circuitBreakerEvents, tradeEvent, Event.isHalt, Event.isMove, isTrade,
          Event.isTrigger]
      · exact ⟨_, List.mem_cons_of_mem _ (List.mem_cons_of_mem _ List.mem_cons_self), rfl⟩

/-- While the symbol is halted an order entry only reports. -/
theorem Placing.still (h : Placing G symbol s events entries s') (hhalted : s.isHalted symbol) :
    ¬ HasHalt events ∧ ¬ HasMove events := by
  have hentries := (Step.placing h).halted hhalted
  cases h with
  | touch => simp [HasHalt, HasMove]
  | report hverdict =>
    rename_i event hsymbol
    have hevent : event.isHalt = false ∧ event.isMove = false := by
      cases event <;> first | exact hverdict.elim | exact ⟨rfl, rfl⟩
    simp [HasHalt, HasMove, hevent.1, hevent.2]
  | audit => simp [HasHalt, HasMove]
  | restAuction => cases hentries.1
  | enter => cases hentries.1

theorem Steps.still (h : Steps (Placing G symbol) s events entries s')
    (hhalted : s.isHalted symbol) : ¬ HasHalt events ∧ ¬ HasMove events := by
  induction h with
  | refl => simp [HasHalt, HasMove]
  | step hr _ ih =>
    have hfirst := hr.still hhalted
    have hrest := ih ((Step.placing hr).halted hhalted).2
    rw [hasHalt_append, hasMove_append]
    exact ⟨not_or.mpr ⟨hfirst.1, hrest.1⟩, not_or.mpr ⟨hfirst.2, hrest.2⟩⟩

theorem Steps.halts (h : Steps (Placing G symbol) s events entries s') (hs : s.Sound G)
    (hopen : ¬ s.isHalted symbol) : HaltsByBreach symbol events entries s' := by
  induction h with
  | refl s =>
    have hnone : ¬ HasHalt [] := by simp [HasHalt]
    refine ⟨List.Pairwise.nil, iff_of_false hnone hopen, iff_of_false hopen ?_,
      fun h => absurd h hnone⟩
    simp [Breach]
  | @step s s₁ s' events more entries others hr hrest ih =>
    have hfirst := hr.halts hs hopen
    by_cases hhalted : s₁.isHalted symbol
    · have hstill := hrest.still hhalted
      have hafter := (hrest.mono Step.placing).halted hhalted
      refine ⟨haltsLast_append.mpr ⟨hfirst.last, haltsLast_of_no_halt hstill.1, fun _ => hstill.2⟩,
        iff_of_true (hasHalt_append.mpr (Or.inl (hfirst.reported.mpr hhalted))) hafter.2,
        iff_of_true hafter.2 (breach_append.mpr (Or.inl (hfirst.breach.mp hhalted))), fun _ => ?_⟩
      rw [List.any_append, hfirst.traded (hfirst.reported.mpr hhalted)]
      rfl
    · have hlater := ih ((Step.placing hr).sound hs) hhalted
      have hnone := hfirst.reported.not.mpr hhalted
      refine ⟨haltsLast_append.mpr ⟨hfirst.last, hlater.last, fun h => absurd h hnone⟩,
        ?_, ?_, fun h => ?_⟩
      · rw [hasHalt_append, or_iff_right hnone]
        exact hlater.reported
      · rw [breach_append, or_iff_right (hfirst.breach.not.mp hhalted)]
        exact hlater.breach
      · rw [List.any_append, hlater.traded ((hasHalt_append.mp h).resolve_left hnone)]
        exact Bool.or_true _

end Steps

/-! Conditions on a cascade: an order outside the band comes last. -/
namespace MatchingEngine

/-- No child of the ready stops that breaches the band has another of them behind it. -/
def triggerClear (symbol : Symbol) : List OrderId → MatchingEngine → Prop
  | [], _ => True
  | id :: ready, s =>
    match s.stopOrdersById.lookup id with
    | none => triggerClear symbol ready s
    | some stop =>
      (Breach ((s.triggerStop symbol id stop).childEntries stop symbol s.nextOrderId) →
        ∀ later ∈ ready, (s.triggerStop symbol id stop).stopOrdersById.lookup later = none) ∧
      match placeChild stop symbol s.nextOrderId (s.triggerStop symbol id stop) with
      | .ok _ s' => triggerClear symbol ready s'
      | .error _ _ => True

/-- No stop is ready. -/
def NoneReady (s : MatchingEngine) (symbol : Symbol) : Prop :=
  ∀ current ∈ s.triggerPrice symbol, s.readyStops symbol current = []

/-- And after a round with such a child no stop is ready. -/
def cascadeClear (symbol : Symbol) : ℕ → MatchingEngine → Prop
  | 0, _ => True
  | fuel + 1, s =>
    match s.triggerPrice symbol with
    | none => True
    | some current =>
      triggerClear symbol (s.readyStops symbol current) s ∧
      match triggerAll symbol (s.readyStops symbol current) s with
      | .ok (true, _) s' =>
        (Breach (triggerEntries symbol (s.readyStops symbol current) s) → s'.NoneReady symbol) ∧
          cascadeClear symbol fuel s'
      | _ => True

theorem triggerClear_of_none {symbol : Symbol} {ready : List OrderId} {s : MatchingEngine}
    (h : ∀ id ∈ ready, s.stopOrdersById.lookup id = none) : triggerClear symbol ready s := by
  induction ready with
  | nil => trivial
  | cons id ready ih =>
    unfold triggerClear
    rw [h id List.mem_cons_self]
    exact ih fun id' hid' => h id' (List.mem_cons_of_mem _ hid')

theorem cascadeClear_of_none {symbol : Symbol} (fuel : ℕ) {s : MatchingEngine}
    (h : s.NoneReady symbol) : cascadeClear symbol fuel s := by
  cases fuel with
  | zero => trivial
  | succ fuel =>
    unfold cascadeClear
    cases hcurrent : s.triggerPrice symbol with
    | none => trivial
    | some current =>
      dsimp only
      rw [h current hcurrent]
      exact ⟨trivial, trivial⟩

section Cascade
variable {G : Guard} {symbol : Symbol} {s : MatchingEngine}

/-- A round takes its stops off record, and adds none. -/
theorem triggerAll_stops {ready : List OrderId} (hs : s.Sound G)
    (hready : ∀ id ∈ ready, ∀ stop, s.stopOrdersById.lookup id = some stop → stop.symbol = symbol) :
    Outcome (triggerAll symbol ready) s (fun _ s' =>
      (∀ id, s.stopOrdersById.lookup id = none → s'.stopOrdersById.lookup id = none) ∧
        ∀ id ∈ ready, s'.stopOrdersById.lookup id = none) fun _ _ => True := by
  induction ready generalizing s with
  | nil => exact ⟨fun _ h => h, by simp⟩
  | cons id ready ih =>
    rw [triggerAll]
    simp only [outcome_bind, outcome_get]
    cases hstop : s.stopOrdersById.lookup id with
    | none =>
      refine (ih hs fun id' hid' => hready id' (List.mem_cons_of_mem _ hid')).mono
        (fun r s' h => ⟨h.1, fun id' hid' => ?_⟩) fun _ _ _ => trivial
      rcases List.mem_cons.mp hid' with rfl | hid'
      · exact h.1 _ hstop
      · exact h.2 id' hid'
    | some stop =>
      simp only [outcome_bind, outcome_set]
      have hsymbol := hready id List.mem_cons_self stop hstop
      have hs₁ := (Step.trigger hstop hsymbol).sound hs
      have hchild := placeChild_entering hs₁ (hs.stop_account hstop) (hs.free_triggered hstop hsymbol)
      refine hchild.mono (fun child s₂ hsteps => ?_) fun _ _ _ => trivial
      have hstops : s₂.stopOrdersById = s.stopOrdersById.erase id := hsteps.reads aside_stops
      have hs₂ := (hsteps.mono Step.placing).sound hs₁
      refine (ih hs₂ fun id' hid' stop' hstop' => ?_).mono (fun r s₃ h => ?_) fun _ _ _ => trivial
      · rw [hstops, Finmap.lookup_erase_ite] at hstop'
        split_ifs at hstop'
        exact hready id' (List.mem_cons_of_mem _ hid') stop' hstop'
      · have herased : ∀ id', s.stopOrdersById.lookup id' = none ∨ id' = id →
            s₃.stopOrdersById.lookup id' = none := fun id' hid' => by
          refine h.1 id' ?_
          rw [hstops, Finmap.lookup_erase_ite]
          split_ifs with heq
          · rfl
          · exact hid'.resolve_right heq
        refine ⟨fun id' hnone => herased id' (Or.inl hnone), fun id' hid' => ?_⟩
        rcases List.mem_cons.mp hid' with rfl | hid'
        · exact herased _ (Or.inr rfl)
        · exact h.2 id' hid'

theorem no_trade_of_no_move {events : List Event} (h : ¬ HasMove events) :
    events.any isTrade = false := by
  refine Bool.eq_false_iff.mpr fun hany => ?_
  obtain ⟨e, he, htrade⟩ := List.any_eq_true.mp hany
  exact h ⟨e, he, by rw [Event.isMove, htrade]; rfl⟩

/-- A round on a halted symbol triggers what is on record, and nothing trades. -/
theorem triggerAll_halted {ready : List OrderId} (hs : s.Sound G)
    (hready : ∀ id ∈ ready, ∀ stop, s.stopOrdersById.lookup id = some stop → stop.symbol = symbol)
    (hhalted : s.isHalted symbol) :
    Outcome (triggerAll symbol ready) s (fun r s' => r.1 = false ∧ ¬ HasHalt r.2 ∧ s'.isHalted symbol ∧
        triggerEntries symbol ready s = [] ∧
        (HasMove r.2 ↔ ∃ id ∈ ready, s.stopOrdersById.lookup id ≠ none)) fun _ _ => True := by
  induction ready generalizing s with
  | nil => exact ⟨rfl, by simp [HasHalt], hhalted, rfl, by simp [HasMove]⟩
  | cons id ready ih =>
    rw [triggerAll, triggerEntries]
    simp only [outcome_bind, outcome_get]
    cases hstop : s.stopOrdersById.lookup id with
    | none =>
      refine (ih hs (fun id' hid' => hready id' (List.mem_cons_of_mem _ hid')) hhalted).mono
        (fun r s' hrest => ?_) fun _ _ _ => trivial
      obtain ⟨htraded, hhalt, hafter, hnone, hmove⟩ := hrest
      refine ⟨htraded, hhalt, hafter, hnone, ?_⟩
      rw [hmove]
      simp [hstop]
    | some stop =>
      simp only [outcome_bind, outcome_set]
      have hsymbol := hready id List.mem_cons_self stop hstop
      have htrigger : Step G symbol s [s.triggeredEvent symbol id stop] []
        (s.triggerStop symbol id stop) := .trigger hstop hsymbol
      have hs₁ := htrigger.sound hs
      have hhalted₁ := (htrigger.halted hhalted).2
      have hchild := placeChild_entering hs₁ (hs.stop_account hstop) (hs.free_triggered hstop hsymbol)
      refine hchild.with_eq.mono (fun child s₂ hplaced => ?_) fun _ _ _ => trivial
      obtain ⟨heq, hsteps⟩ := hplaced
      have hstops : s₂.stopOrdersById = s.stopOrdersById.erase id := hsteps.reads aside_stops
      have hs₂ := (hsteps.mono Step.placing).sound hs₁
      have hhalted₂ := (hsteps.mono Step.placing).halted hhalted₁
      have hstill := hsteps.still hhalted₁
      rw [heq]
      refine (ih hs₂ (fun id' hid' stop' hstop' => ?_) hhalted₂.2).mono
        (fun r s₃ hrest => ?_) fun _ _ _ => trivial
      · rw [hstops, Finmap.lookup_erase_ite] at hstop'
        split_ifs at hstop'
        exact hready id' (List.mem_cons_of_mem _ hid') stop' hstop'
      obtain ⟨htraded, hhalt, hafter, hnone, hmove⟩ := hrest
      refine ⟨?_, ?_, hafter, ?_, ?_⟩
      · show (child.any isTrade || r.1) = false
        rw [htraded, no_trade_of_no_move hstill.2]
        rfl
      · rintro ⟨e, he, htrue⟩
        rcases List.mem_cons.mp he with rfl | he
        · cases htrue
        · exact (hasHalt_append.mp ⟨e, he, htrue⟩).elim hstill.1 hhalt
      · dsimp only
        rw [hhalted₂.1, hnone]
        rfl
      · exact iff_of_true ⟨_, List.mem_cons_self, rfl⟩
          ⟨id, List.mem_cons_self, by rw [hstop]; exact Option.some_ne_none _⟩

/-- A round on an open symbol: its halt, if there is one, is a breach that it reports, and
nothing moves after it exactly if no stop is behind the breach. -/
theorem triggerAll_halts {ready : List OrderId} (hs : s.Sound G)
    (hready : ∀ id ∈ ready, ∀ stop, s.stopOrdersById.lookup id = some stop → stop.symbol = symbol)
    (hopen : ¬ s.isHalted symbol) :
    Outcome (triggerAll symbol ready) s (fun r s' =>
        (HaltsLast r.2 ↔ triggerClear symbol ready s) ∧ (HasHalt r.2 ↔ s'.isHalted symbol) ∧
        (s'.isHalted symbol ↔ Breach (triggerEntries symbol ready s)) ∧
        (HasHalt r.2 → r.1 = true)) fun _ _ => True := by
  induction ready generalizing s with
  | nil =>
    have hnone : ¬ HasHalt [] := by simp [HasHalt]
    refine ⟨iff_of_true List.Pairwise.nil trivial, iff_of_false hnone hopen,
      iff_of_false hopen ?_, fun h => absurd h hnone⟩
    simp [Breach, triggerEntries]
  | cons id ready ih =>
    rw [triggerAll, triggerEntries, triggerClear]
    simp only [outcome_bind, outcome_get]
    cases hstop : s.stopOrdersById.lookup id with
    | none => exact ih hs (fun id' hid' => hready id' (List.mem_cons_of_mem _ hid')) hopen
    | some stop =>
      simp only [outcome_bind, outcome_set]
      have hsymbol := hready id List.mem_cons_self stop hstop
      have htrigger : Step G symbol s [s.triggeredEvent symbol id stop] []
        (s.triggerStop symbol id stop) := .trigger hstop hsymbol
      have hs₁ := htrigger.sound hs
      have hopen₁ : ¬ (s.triggerStop symbol id stop).isHalted symbol := hopen
      have hchild := placeChild_entering hs₁ (hs.stop_account hstop) (hs.free_triggered hstop hsymbol)
      refine hchild.with_eq.mono (fun child s₂ hplaced => ?_) fun _ _ _ => trivial
      obtain ⟨heq, hsteps⟩ := hplaced
      have hstops : s₂.stopOrdersById = (s.triggerStop symbol id stop).stopOrdersById :=
        hsteps.reads aside_stops
      have hs₂ := (hsteps.mono Step.placing).sound hs₁
      have hfirst := hsteps.halts hs₁ hopen₁
      have hready₂ : ∀ id' ∈ ready, ∀ stop', s₂.stopOrdersById.lookup id' = some stop' →
          stop'.symbol = symbol := fun id' hid' stop' hstop' => by
        rw [hstops] at hstop'
        have hlookup : (s.stopOrdersById.erase id).lookup id' = some stop' := hstop'
        rw [Finmap.lookup_erase_ite] at hlookup
        split_ifs at hlookup
        exact hready id' (List.mem_cons_of_mem _ hid') stop' hlookup
      have hcons : ∀ events : List Event,
          (HaltsLast (s.triggeredEvent symbol id stop :: child ++ events) ↔
            HaltsLast events ∧ (HasHalt child → ¬ HasMove events)) ∧
          (HasHalt (s.triggeredEvent symbol id stop :: child ++ events) ↔
            HasHalt child ∨ HasHalt events) := fun events => by
        have htrue : ¬ HasHalt [s.triggeredEvent symbol id stop] := by
          simp [HasHalt, triggeredEvent, Event.isHalt]
        have hsplit : s.triggeredEvent symbol id stop :: child ++ events =
            [s.triggeredEvent symbol id stop] ++ (child ++ events) := rfl
        rw [hsplit, haltsLast_append, haltsLast_append, hasHalt_append, hasHalt_append,
          or_iff_right htrue]
        refine ⟨?_, Iff.rfl⟩
        constructor
        · rintro ⟨-, ⟨-, hlast, hquiet⟩, -⟩
          exact ⟨hlast, hquiet⟩
        · rintro ⟨hlast, hquiet⟩
          exact ⟨haltsLast_of_no_halt htrue, ⟨hfirst.last, hlast, hquiet⟩, fun h => absurd h htrue⟩
      rw [heq]
      by_cases hhalted : s₂.isHalted symbol
      · have hhalt := hfirst.reported.mpr hhalted
        have hbreach := hfirst.breach.mp hhalted
        refine (triggerAll_halted hs₂ hready₂ hhalted).mono (fun r s₃ hrest => ?_)
          fun _ _ _ => trivial
        obtain ⟨-, hnone, hafter, -, hmove⟩ := hrest
        rw [outcome_pure, (hcons r.2).1, (hcons r.2).2]
        dsimp only
        refine ⟨?_, iff_of_true (Or.inl hhalt) hafter,
          iff_of_true hafter (breach_append.mpr (Or.inl hbreach)), fun _ => ?_⟩
        · have hlater : ¬ HasMove r.2 ↔
              ∀ later ∈ ready, (s.triggerStop symbol id stop).stopOrdersById.lookup later = none := by
            rw [hmove, hstops]
            push Not
            rfl
          rw [forall_prop_of_true hhalt, forall_prop_of_true hbreach, hlater]
          constructor
          · rintro ⟨-, hquiet⟩
            refine ⟨hquiet, triggerClear_of_none fun id' hid' => ?_⟩
            rw [hstops]
            exact hquiet id' hid'
          · rintro ⟨hquiet, -⟩
            exact ⟨haltsLast_of_no_halt hnone, hquiet⟩
        · show (child.any isTrade || r.1) = true
          rw [hfirst.traded hhalt]
          rfl
      · have hhalt := hfirst.reported.not.mpr hhalted
        have hbreach := hfirst.breach.not.mp hhalted
        refine (ih hs₂ hready₂ hhalted).mono (fun r s₃ hrest => ?_) fun _ _ _ => trivial
        obtain ⟨hlast, hreported, hentries, htraded⟩ := hrest
        rw [outcome_pure, (hcons r.2).1, (hcons r.2).2, or_iff_right hhalt, breach_append,
          or_iff_right hbreach]
        dsimp only
        refine ⟨?_, hreported, hentries, fun h => ?_⟩
        · rw [hlast]
          exact ⟨fun h => ⟨fun hb => absurd hb hbreach, h.1⟩, fun h => ⟨h.2, fun hh => absurd hh hhalt⟩⟩
        · show (child.any isTrade || r.1) = true
          rw [htraded h]
          exact Bool.or_true _

/-- While the symbol is halted a round is the last, and moves exactly if a stop is ready. -/
theorem cascade_halted (fuel : ℕ) (hs : s.Sound G) (hhalted : s.isHalted symbol) :
    Outcome (cascade symbol (fuel + 1)) s
      (fun events _ => ¬ HasHalt events ∧ (HasMove events ↔ ¬ s.NoneReady symbol)) fun _ _ => True := by
  have hnone : ¬ HasHalt [] ∧ ¬ HasMove [] := by simp [HasHalt, HasMove]
  rw [cascade]
  simp only [outcome_bind, outcome_get]
  cases hcurrent : s.triggerPrice symbol with
  | none =>
    refine ⟨hnone.1, iff_of_false hnone.2 (not_not.mpr fun current h => ?_)⟩
    rw [hcurrent] at h
    cases h
  | some current =>
    have hready : s.NoneReady symbol ↔ s.readyStops symbol current = [] := by
      unfold NoneReady
      rw [hcurrent]
      exact ⟨fun h => h current rfl, fun h _ hmem => by cases hmem; exact h⟩
    dsimp only
    split
    · rename_i hnil
      exact ⟨hnone.1, iff_of_false hnone.2 (not_not.mpr (hready.mpr hnil))⟩
    · rename_i hsome
      rw [outcome_bind]
      refine (triggerAll_halted hs hs.readyStops hhalted).mono (fun r s₁ hround => ?_)
        fun _ _ _ => trivial
      obtain ⟨traded, events⟩ := r
      obtain ⟨htraded, hhalt, -, -, hmove⟩ := hround
      dsimp only at htraded
      subst htraded
      refine ⟨hhalt, iff_of_true (hmove.mpr ?_) (hready.not.mpr hsome)⟩
      obtain ⟨id, rest, hcons⟩ := List.exists_cons_of_ne_nil hsome
      obtain ⟨stop, hstop⟩ := readyStops_head hcons
      exact ⟨id, hcons ▸ List.mem_cons_self, by rw [hstop]; exact Option.some_ne_none _⟩

/-- A round with a stop on record leaves fewer on record. -/
theorem card_stops_lt {s' : MatchingEngine} {ready : List OrderId} {id : OrderId}
    (hid : id ∈ ready) (hstop : s.stopOrdersById.lookup id ≠ none)
    (hkeep : ∀ id, s.stopOrdersById.lookup id = none → s'.stopOrdersById.lookup id = none)
    (hgone : ∀ id ∈ ready, s'.stopOrdersById.lookup id = none) :
    s'.stopOrdersById.keys.card < s.stopOrdersById.keys.card := by
  refine Finset.card_lt_card (Finset.ssubset_iff_subset_ne.mpr ⟨fun other hother => ?_, fun heq => ?_⟩)
  · rw [Finmap.mem_keys] at hother ⊢
    by_contra hnot
    exact Finmap.lookup_eq_none.mp (hkeep other (Finmap.lookup_eq_none.mpr hnot)) hother
  · have hmem : id ∈ s.stopOrdersById.keys :=
      Finmap.mem_keys.mpr (not_not.mp (Finmap.lookup_eq_none.not.mp hstop))
    rw [← heq, Finmap.mem_keys] at hmem
    exact Finmap.lookup_eq_none.mp (hgone id hid) hmem

/-- Once a cascade halts its symbol it moves no more, exactly if it is clear. -/
theorem cascade_halts {fuel : ℕ} (hs : s.Sound G) (hopen : ¬ s.isHalted symbol)
    (hfuel : s.stopOrdersById.keys.card < fuel) :
    Outcome (cascade symbol fuel) s (fun events _ => HaltsLast events ↔ cascadeClear symbol fuel s)
      fun _ _ => True := by
  induction fuel generalizing s with
  | zero => exact iff_of_true List.Pairwise.nil trivial
  | succ fuel ih =>
    rw [cascade, cascadeClear]
    simp only [outcome_bind, outcome_get]
    cases hcurrent : s.triggerPrice symbol with
    | none => exact iff_of_true List.Pairwise.nil trivial
    | some current =>
      dsimp only
      split
      · rename_i hnil
        rw [hnil]
        exact iff_of_true List.Pairwise.nil ⟨trivial, trivial⟩
      rename_i hsome
      obtain ⟨id, rest, hcons⟩ := List.exists_cons_of_ne_nil hsome
      obtain ⟨stop, hstop⟩ := readyStops_head hcons
      have hid : id ∈ s.readyStops symbol current := hcons ▸ List.mem_cons_self
      have hready : ∀ id ∈ s.readyStops symbol current, ∀ stop,
        s.stopOrdersById.lookup id = some stop → stop.symbol = symbol := hs.readyStops
      have hround := (triggerAll_halts hs hready hopen).and ((triggerAll_stops hs hready).and
        ((triggerAll_building hs hready).mono (fun _ _ h => h.mono Adding.step) fun _ _ _ => trivial))
      rw [outcome_bind]
      refine hround.with_eq.mono (fun r s₁ hround => ?_) fun _ _ _ => trivial
      obtain ⟨traded, events⟩ := r
      obtain ⟨heq, ⟨hlast, hreported, hbreach, htraded⟩, hstops, hsteps⟩ := hround
      rw [heq]
      cases traded with
      | false =>
        rw [if_neg (by simp)]
        exact hlast.trans (and_iff_left trivial).symm
      | true =>
        have hs₁ := hsteps.sound hs
        have hless : s₁.stopOrdersById.keys.card < fuel := by
          have := card_stops_lt hid (by rw [hstop]; exact Option.some_ne_none _) hstops.1 hstops.2
          omega
        simp only [if_true, outcome_bind]
        by_cases hhalted : s₁.isHalted symbol
        · obtain ⟨fuel, rfl⟩ : ∃ n, fuel = n + 1 := ⟨fuel - 1, by omega⟩
          refine (cascade_halted fuel hs₁ hhalted).mono (fun more s₂ hmore => ?_)
            fun _ _ _ => trivial
          obtain ⟨hhalt, hmove⟩ := hmore
          rw [outcome_pure, haltsLast_append, hlast, forall_prop_of_true (hreported.mpr hhalted),
            forall_prop_of_true (hbreach.mp hhalted), hmove, not_not]
          refine and_congr_right fun _ => ?_
          exact ⟨fun h => ⟨h.2, cascadeClear_of_none _ h.2⟩, fun h => ⟨haltsLast_of_no_halt hhalt, h.1⟩⟩
        · refine (ih hs₁ hhalted hless).mono (fun more s₂ hmore => ?_) fun _ _ _ => trivial
          rw [outcome_pure, haltsLast_append, hlast, hmore]
          refine and_congr_right fun _ => ?_
          exact ⟨fun h => ⟨fun hb => absurd (hbreach.mpr hb) hhalted, h.1⟩,
            fun h => ⟨h.2, fun hh => absurd (hreported.mp hh) hhalted⟩⟩

end Cascade

/-! The stops an operation evaluates, and what it may do while its symbol is halted. -/

/-- The stops that an entry triggers are clear. -/
def followClear (symbol : Symbol) (entry : Engine (List Event)) (s : MatchingEngine) : Prop :=
  match entry s with
  | .ok _ s' =>
    s'.isHalted symbol ∨ cascadeClear symbol (s'.stopOrdersById.keys.card + 1) s'
  | .error _ _ => True

/-- The stops that a replaced stop order triggers are clear. -/
def replaceStopClear (s : MatchingEngine) (accountId : AccountId) (id : OrderId)
    (newStopPrice : ℤ) (newLimitPrice : Option ℤ) (newQty : ℤ) : Prop :=
  match s.stopOrdersById.lookup id with
  | none => True
  | some stop =>
    let limitPrice := newLimitPrice.orElse fun _ => stop.limitPrice
    stop.accountId = accountId ∧ isValidPrice newStopPrice ∧
        (∀ limit ∈ limitPrice, isValidPrice limit) ∧ isValidQty newQty ∧
        s.validateOrderRisk accountId stop.symbol stop.side (limitPrice.getD newStopPrice) newQty
          none = none →
      followClear stop.symbol (pure [])
        (s.withReplacedStop id stop newStopPrice newQty limitPrice)

end MatchingEngine

section Operations
variable {G : Guard} {symbol : Symbol} {s s' : MatchingEngine} {events : List Event}

/-- An entry is still while the symbol is halted, and else reports a halt last. -/
structure EntryHalts (symbol : Symbol) (s : MatchingEngine) (events : List Event)
    (s' : MatchingEngine) : Prop where
  still : s.isHalted symbol → ¬ HasMove events ∧ s'.isHalted symbol
  last : HaltsLast events
  reported : ¬ s.isHalted symbol → (HasHalt events ↔ s'.isHalted symbol)

theorem EntryHalts.of_quiet (hhalt : ¬ HasHalt events) (hmove : ¬ HasMove events)
    (hphases : s'.tradingPhasesBySymbol = s.tradingPhasesBySymbol) :
    EntryHalts symbol s events s' where
  still := fun h => ⟨hmove, (isHalted_congr hphases).mpr h⟩
  last := haltsLast_of_no_halt hhalt
  reported := fun h => iff_of_false hhalt ((isHalted_congr hphases).not.mpr h)

theorem Steps.entryHalts {entries : List Entry} (hs : s.Sound G)
    (h : Steps (Placing G symbol) s events entries s') : EntryHalts symbol s events s' := by
  by_cases hhalted : s.isHalted symbol
  · have hstill := h.still hhalted
    exact ⟨fun _ => ⟨hstill.2, ((h.mono Step.placing).halted hhalted).2⟩,
      haltsLast_of_no_halt hstill.1, fun hopen => absurd hhalted hopen⟩
  · have hhalts := h.halts hs hhalted
    exact ⟨fun h => absurd h hhalted, hhalts.last, fun _ => hhalts.reported⟩

/-- Nothing moves while the symbol is halted. -/
def Safe (symbol : Symbol) (s : MatchingEngine) (events : List Event) : Prop :=
  (s.isHalted symbol → ¬ HasMove events) ∧ HaltsLast events

theorem EntryHalts.safe (h : EntryHalts symbol s events s') : Safe symbol s events :=
  ⟨fun hhalted => (h.still hhalted).1, h.last⟩

theorem followEntry_halts {s₀ : MatchingEngine} {entry : Engine (List Event)}
    (hentry : Outcome entry s (fun events s' => s'.Sound G ∧ EntryHalts symbol s₀ events s')
      fun _ _ => True) :
    Outcome (followEntry symbol entry) s
      (fun events _ => Safe symbol s₀ events ↔ followClear symbol entry s) fun _ _ => True := by
  unfold followEntry
  rw [outcome_bind]
  refine hentry.with_eq.mono (fun events s₁ hentered => ?_) fun _ _ _ => trivial
  obtain ⟨heq, hs₁, h⟩ := hentered
  unfold evaluateStopOrders followClear
  rw [heq]
  simp only [outcome_bind, outcome_get]
  split
  · rename_i hhalted
    simp only [outcome_pure, outcome_modify, List.append_nil]
    exact iff_of_true h.safe (Or.inl hhalted)
  · rename_i hopen
    have hopen₀ : ¬ s₀.isHalted symbol := fun hhalted => hopen (h.still hhalted).2
    have hhalt := (h.reported hopen₀).not.mpr hopen
    refine (cascade_halts hs₁ hopen (Nat.lt_succ_self _)).mono (fun triggered s₂ hlast => ?_)
      fun _ _ _ => trivial
    simp only [outcome_pure, outcome_modify]
    rw [Safe, haltsLast_append, hlast, or_iff_right hopen]
    exact ⟨fun hsafe => hsafe.2.2.1,
      fun hclear => ⟨fun hhalted => absurd hhalted hopen₀, h.last, hclear, fun hh => absurd hh hhalt⟩⟩

theorem numbered_halts (entry : OrderId → Engine (List Event))
    (hentry : Outcome (entry s.nextOrderId) s.allocated
      (fun events s' => s'.Sound G ∧ EntryHalts symbol s events s') fun _ _ => True) :
    Outcome (do let id ← takeOrderId; followEntry symbol (entry id)) s
      (fun events _ => Safe symbol s events ↔
        followClear symbol (entry s.nextOrderId) s.allocated) fun _ _ => True := by
  unfold takeOrderId
  simp only [outcome_bind, outcome_get, outcome_set, outcome_pure]
  exact followEntry_halts hentry

/-! The entries that let no order in. -/

/-- Events that neither halt nor move, and the phases kept. -/
def Rest (s : MatchingEngine) (events : List Event) (s' : MatchingEngine) : Prop :=
  Still events ∧ s'.tradingPhasesBySymbol = s.tradingPhasesBySymbol

theorem Rest.entryHalts (h : Rest s events s') : EntryHalts symbol s events s' :=
  .of_quiet h.1.quiet.1 h.1.quiet.2 h.2

theorem still_cancel (book : OrderBook) (id : OrderId) :
    Still ((book.cancel id).1.map (Event.tagCanceled symbol)) := by
  refine Still.map (fun e => by cases e <;> exact ⟨rfl, rfl⟩) fun e he => ?_
  unfold OrderBook.cancel at he
  split at he
  · cases he
  · rcases List.mem_cons.mp he with rfl | htop
    · exact ⟨rfl, rfl⟩
    · exact still_topOfBook _ _ _ _ e htop

theorem cancel_rests (s : MatchingEngine) (a : AccountId) (id : OrderId) :
    Outcome (MatchingEngine.cancel a id) s (fun events s' => Rest s events s') fun _ _ => True := by
  have hreport : ∀ reason symbol, Rest s [.cancelRejected id reason symbol] s :=
    fun _ _ => ⟨still_singleton ⟨rfl, rfl⟩, rfl⟩
  unfold MatchingEngine.cancel
  simp only [outcome_bind, outcome_get]
  split
  · split_ifs
    · exact hreport _ _
    · refine ⟨still_singleton ⟨rfl, rfl⟩, ?_⟩
      rw [phases_of_frame (frame_of_unjournaled (unjournaled_trackEvents _ _))]
      rfl
  · split
    · exact hreport _ _
    · split_ifs
      · exact hreport _ _
      · exact hreport _ _
      · refine ⟨still_cancel _ _, ?_⟩
        rw [phases_of_frame (frame_of_unjournaled (unjournaled_trackEvents _ _)),
          phases_cancelResting]

theorem placeStop_rests (s : MatchingEngine) (a : AccountId) (id : OrderId) (side : Side)
    (stopPrice qty : ℤ) (limitPrice : Option ℤ) :
    Outcome (placeStopOrderWithAccountAndId a symbol id side stopPrice qty limitPrice) s
      (fun events s' => Rest s events s') fun _ _ => True := by
  have hreject : ∀ {s' : MatchingEngine} price reason,
      s'.tradingPhasesBySymbol = s.tradingPhasesBySymbol →
      Rest s [.orderRejected side price qty reason symbol] s' :=
    fun _ _ h => ⟨still_singleton ⟨rfl, rfl⟩, h⟩
  unfold placeStopOrderWithAccountAndId
  simp only [outcome_bind, outcome_get]
  split
  · exact hreject _ _ rfl
  split
  · exact hreject _ _ rfl
  split
  · exact hreject _ _ rfl
  split
  · exact hreject _ _ rfl
  · exact ⟨still_singleton ⟨rfl, rfl⟩, rfl⟩

/-- A replacement is out of reach while the symbol is halted. -/
theorem replaceOrder_safe (hs : s.Sound {}) (a : AccountId) (id : OrderId) (newPrice newQty : ℤ) :
    Outcome (replaceOrder a id newPrice newQty) s
      (fun events _ => Safe (s.orderSymbol id) s events) fun _ _ => True := by
  have hreport : ∀ {event : Event} {symbol : Symbol}, event.isHalt = false ∧ event.isMove = false →
      Safe symbol s [event] := fun h =>
    ⟨fun _ => (still_singleton h).quiet.2, haltsLast_of_no_halt (still_singleton h).quiet.1⟩
  unfold replaceOrder orderSymbol
  simp only [outcome_bind, outcome_get]
  cases howner : s.orderOwnershipById.lookup id with
  | none => exact hreport ⟨rfl, rfl⟩
  | some owner =>
  simp only [Option.elim_some]
  split
  · exact hreport ⟨rfl, rfl⟩
  rename_i hwrong
  cases hvalid : s.validateReplace owner newPrice newQty with
  | some failure => exact hreport ⟨rfl, rfl⟩
  | none =>
  dsimp only
  split
  · exact hreport ⟨rfl, rfl⟩
  have hopen : ¬ s.isHalted owner.symbol := by
    unfold validateReplace at hvalid
    split_ifs at hvalid
    exact (validateMarketControl_eq_none.mp hvalid).1
  have hrecord : Step {} owner.symbol s [] [] (s.replaceReleased a owner.symbol id) :=
    .placing (.audit s ⟨rfl, rfl, rfl, rfl, rfl⟩)
  simp only [outcome_bind, outcome_set]
  have hcancel := ((cancel_steps (hrecord.sound hs) a id).mono (fun _ _ h => h)
    fun _ _ h => h.elim).and (E := fun _ _ => True) (cancel_rests _ a id)
  refine hcancel.mono (fun canceled s₂ hcanceled => ?_) fun _ _ _ => trivial
  obtain ⟨⟨hsteps, hfree⟩, hstill, hphases⟩ := hcanceled
  have hs₂ := hsteps.sound (hrecord.sound hs)
  have hplace := placeVisible_entering
    (t := limitTaker a owner.symbol id owner.side newPrice newQty .gtc) hs₂ trivial
    (hfree owner howner (not_not.mp hwrong))
  refine hplace.mono (fun placed s₃ hplaced => ?_) fun _ _ _ => trivial
  simp only [outcome_modify, outcome_pure]
  have hlast := (hplaced.entryHalts hs₂).last
  exact ⟨fun hhalted => absurd hhalted hopen, haltsLast_append.mpr
    ⟨haltsLast_of_no_halt hstill.quiet.1, hlast, fun h => absurd h hstill.quiet.1⟩⟩

theorem safe_report {event : Event} (h : event.isHalt = false ∧ event.isMove = false) :
    Safe symbol s [event] :=
  ⟨fun _ => (still_singleton h).quiet.2, haltsLast_of_no_halt (still_singleton h).quiet.1⟩

theorem replaceStop_safe (hs : s.Sound {}) {a : AccountId} {id : OrderId} {stop : StopOrderState}
    {newStopPrice newQty : ℤ} {newLimitPrice : Option ℤ} {reason : String} {clear : Prop}
    (hstop : s.stopOrdersById.lookup id = some stop)
    (haccepted : isValidPrice newStopPrice → (∀ limit ∈ newLimitPrice, isValidPrice limit) →
      isValidQty newQty → s.validateOrderRisk a stop.symbol stop.side
        (newLimitPrice.getD newStopPrice) newQty none = none →
      (clear ↔ followClear stop.symbol (pure [])
        (s.withReplacedStop id stop newStopPrice newQty newLimitPrice)))
    (hrejected : ¬ (isValidPrice newStopPrice ∧ (∀ limit ∈ newLimitPrice, isValidPrice limit) ∧
      isValidQty newQty ∧ s.validateOrderRisk a stop.symbol stop.side
        (newLimitPrice.getD newStopPrice) newQty none = none) → clear) :
    Outcome (replaceStop a id stop newStopPrice newQty newLimitPrice reason) s
      (fun events _ => Safe stop.symbol s events ↔ clear) fun _ _ => True := by
  unfold replaceStop
  simp only [outcome_bind, outcome_get]
  by_cases hprice : ¬ isValidPrice newStopPrice ∨ ∃ limit ∈ newLimitPrice, ¬ isValidPrice limit
  · rw [if_pos hprice]
    refine iff_of_true (safe_report ⟨rfl, rfl⟩) (hrejected fun h => ?_)
    exact hprice.elim (fun hn => hn h.1)
      fun hn => hn.elim fun limit hlimit => hlimit.2 (h.2.1 limit hlimit.1)
  rw [if_neg hprice]
  by_cases hqty : ¬ isValidQty newQty
  · rw [if_pos hqty]
    exact iff_of_true (safe_report ⟨rfl, rfl⟩) (hrejected fun h => hqty h.2.2.1)
  rw [if_neg hqty]
  cases hrisk : s.validateOrderRisk a stop.symbol stop.side (newLimitPrice.getD newStopPrice) newQty
      none with
  | some failure =>
    refine iff_of_true (safe_report ⟨rfl, rfl⟩) (hrejected fun h => ?_)
    rw [hrisk] at h
    cases h.2.2.2
  | none =>
    push Not at hprice hqty
    have hreplaced : Step {} stop.symbol s _ []
        (s.withReplacedStop id stop newStopPrice newQty newLimitPrice) := .replaceStop hstop rfl
    have hentry : Rest s [.orderCanceled id stop.symbol,
        .stopOrderAccepted id stop.side newStopPrice newQty newLimitPrice stop.symbol]
        (s.withReplacedStop id stop newStopPrice newQty newLimitPrice) := by
      refine ⟨fun e he => ?_, rfl⟩
      rcases List.mem_cons.mp he with rfl | he
      · exact ⟨rfl, rfl⟩
      · rw [List.mem_singleton.mp he]
        exact ⟨rfl, rfl⟩
    simp only [outcome_bind, outcome_set]
    refine (followEntry_halts (outcome_pure.mpr ⟨hreplaced.sound hs, hentry.entryHalts⟩)).mono
      (fun events _ h => ?_) fun _ _ _ => trivial
    rw [haccepted hprice.1 hprice.2 hqty hrisk, h]
    rfl

theorem replaceStopLimit_safe (hs : s.Sound {}) (a : AccountId) (id : OrderId)
    (newStopPrice newLimitPrice newQty : ℤ) :
    Outcome (replaceStopLimitOrder a id newStopPrice newLimitPrice newQty) s
      (fun events _ => Safe (s.stopSymbol id) s events ↔
        s.replaceStopClear a id newStopPrice (some newLimitPrice) newQty) fun _ _ => True := by
  unfold replaceStopLimitOrder replaceStopClear stopSymbol
  simp only [outcome_bind, outcome_get]
  cases hstop : s.stopOrdersById.lookup id with
  | none => exact iff_of_true (safe_report ⟨rfl, rfl⟩) trivial
  | some stop =>
    simp only [Option.elim_some]
    by_cases hwrong : stop.accountId ≠ a
    · rw [if_pos hwrong]
      exact iff_of_true (safe_report ⟨rfl, rfl⟩) fun h => absurd h.1 hwrong
    · rw [if_neg hwrong]
      exact replaceStop_safe hs hstop
        (fun hprice hlimit hqty hrisk =>
          ⟨fun h => h ⟨not_not.mp hwrong, hprice, hlimit, hqty, hrisk⟩, fun h _ => h⟩)
        fun hnot h => absurd h.2 hnot

theorem replaceStopOrder_safe (hs : s.Sound {}) (a : AccountId) (id : OrderId)
    (newStopPrice newQty : ℤ) :
    Outcome (replaceStopOrder a id newStopPrice newQty) s
      (fun events _ => Safe (s.stopSymbol id) s events ↔
        s.replaceStopClear a id newStopPrice none newQty) fun _ _ => True := by
  unfold replaceStopOrder
  simp only [outcome_bind, outcome_get]
  cases hstop : s.stopOrdersById.lookup id with
  | none =>
    unfold replaceStopClear
    rw [hstop]
    exact iff_of_true (safe_report ⟨rfl, rfl⟩) trivial
  | some stop =>
    dsimp only
    by_cases hwrong : stop.accountId ≠ a
    · unfold replaceStopClear
      rw [if_pos hwrong, hstop]
      exact iff_of_true (safe_report ⟨rfl, rfl⟩) fun h => absurd h.1 hwrong
    rw [if_neg hwrong]
    cases hlimit : stop.limitPrice with
    | some limit =>
      have hsame : (none.orElse fun _ => stop.limitPrice) = some limit := hlimit
      have hclear : s.replaceStopClear a id newStopPrice none newQty =
          s.replaceStopClear a id newStopPrice (some limit) newQty := by
        unfold replaceStopClear
        rw [hstop]
        dsimp only
        rw [hsame]
        rfl
      rw [hclear]
      exact replaceStopLimit_safe hs a id newStopPrice limit newQty
    | none =>
      have hsame : (none.orElse fun _ => stop.limitPrice) = none := hlimit
      unfold replaceStopClear stopSymbol
      rw [hstop]
      simp only [Option.elim_some, hsame]
      exact replaceStop_safe hs hstop
        (fun hprice hlimits hqty hrisk =>
          ⟨fun h => h ⟨not_not.mp hwrong, hprice, hlimits, hqty, hrisk⟩, fun h _ => h⟩)
        fun hnot h => absurd h.2 hnot

/-! The uncross, which does not look at the phase. -/

theorem Crosses.no_halt {price qty remaining : ℤ} {steps : List (OrderBook × ℤ)}
    (h : Crosses symbol price s qty events steps s' remaining) : ¬ HasHalt events := by
  induction h with
  | refl => simp [HasHalt]
  | trade _ _ _ _ ih =>
    rw [hasHalt_append]
    exact not_or.mpr ⟨by simp [HasHalt, auctionTradeEvents, Event.isHalt], ih⟩

theorem Crosses.moves {price qty remaining : ℤ} {steps : List (OrderBook × ℤ)}
    (h : Crosses symbol price s qty events steps s' remaining) : HasMove events ↔ steps ≠ [] := by
  cases h with
  | refl => simp [HasMove]
  | trade => exact iff_of_true ⟨_, List.mem_cons_self, rfl⟩ (List.cons_ne_nil _ _)

theorem safe_crosses {price qty remaining : ℤ} {steps : List (OrderBook × ℤ)}
    {head : Event} {top ended : List Event} (h : Crosses symbol price s qty events steps s' remaining)
    (hhead : Still [head]) (htop : Still top) (hended : Still ended) :
    Safe symbol s (head :: events ++ top ++ ended) ↔ (s.isHalted symbol → ¬ steps ≠ []) := by
  have hsplit : head :: events ++ top ++ ended = [head] ++ (events ++ (top ++ ended)) := by simp
  have hhalt : ¬ HasHalt (head :: events ++ top ++ ended) := by
    rw [hsplit, hasHalt_append, hasHalt_append, hasHalt_append]
    exact not_or.mpr ⟨hhead.quiet.1, not_or.mpr ⟨h.no_halt, not_or.mpr ⟨htop.quiet.1, hended.quiet.1⟩⟩⟩
  have hmove : HasMove (head :: events ++ top ++ ended) ↔ steps ≠ [] := by
    rw [hsplit, hasMove_append, hasMove_append, hasMove_append, or_iff_right hhead.quiet.2, h.moves,
      or_iff_left (not_or.mpr ⟨htop.quiet.2, hended.quiet.2⟩)]
  rw [Safe, hmove]
  exact and_iff_left (haltsLast_of_no_halt hhalt)

theorem uncross_safe (hs : s.Sound {}) :
    Outcome (uncross symbol) s (fun events _ =>
      Safe symbol s events ↔ (s.isHalted symbol → s.uncrossSteps symbol = [])) fun _ _ => True := by
  unfold uncross uncrossSteps
  simp only [outcome_bind, outcome_get]
  cases hprice : (s.computeAuctionIndicative symbol).price with
  | none => exact iff_of_true (safe_report ⟨rfl, rfl⟩) fun _ => rfl
  | some price =>
    dsimp only
    by_cases hqty : (s.computeAuctionIndicative symbol).qty ≤ 0
    · rw [if_pos hqty, Int.toNat_of_nonpos hqty]
      refine iff_of_true (safe_report ⟨rfl, rfl⟩) fun _ => ?_
      rw [auctionSteps, List.map_nil, ite_self]
    rw [if_neg hqty]
    by_cases hband : s.priceInBand symbol price
    · rw [if_neg (not_not.mpr hband), if_pos hband, outcome_bind]
      refine (auctionLoop_crosses hs (by omega)).mono (fun r s₁ hloop => ?_)
        fun _ _ _ => trivial
      obtain ⟨remaining, trades⟩ := r
      obtain ⟨hcrosses, -⟩ := hloop
      have hended : Outcome (endAuction symbol) s₁ (fun events _ => Still events) fun _ _ => True := by
        unfold endAuction
        simp only [outcome_bind, outcome_get]
        split_ifs
        · exact still_singleton ⟨rfl, rfl⟩
        · exact fun e he => by cases he
      simp only [outcome_bind, outcome_get]
      refine hended.mono (fun ended s₂ hstill => ?_) fun _ _ _ => trivial
      simp only [outcome_modify, outcome_pure]
      have htop := still_topOfBook (s₁.bookFor symbol) symbol (s.bookFor symbol).bestBid
        (s.bookFor symbol).bestAsk
      have hsafe := fun qty imbalance => safe_crosses hcrosses
        (still_singleton ⟨rfl, rfl⟩ : Still [.auctionUncross symbol price qty imbalance]) htop hstill
      refine (hsafe _ _).trans ?_
      rw [ne_eq, not_not, List.map_eq_nil_iff]
    · rw [if_pos hband, if_neg hband]
      refine iff_of_true ⟨fun _ => ?_, ?_⟩ fun _ => rfl
      · simp [HasMove, circuitBreakerEvents, Event.isMove, isTrade, Event.isTrigger]
      · simp [HaltsLast, circuitBreakerEvents, Event.isHalt, Event.isMove, isTrade, Event.isTrigger]

/-! Stops stay on record until they trigger or are cancelled. -/

/-- The event takes the stop order off record. -/
def Event.takesStop (id : OrderId) : Event → Prop
  | .stopOrderTriggered stopOrderId .. => stopOrderId = id
  | .orderCanceled orderId _ => orderId = id
  | _ => False

theorem Crosses.stops {price qty remaining : ℤ} {steps : List (OrderBook × ℤ)}
    (h : Crosses symbol price s qty events steps s' remaining) :
    s'.stopOrdersById = s.stopOrdersById := by
  induction h with
  | refl => rfl
  | trade _ _ _ _ ih =>
    rw [ih, auctionTraded, read_reduceOwner MatchingEngine.stopOrdersById fun _ _ => rfl,
      read_reduceOwner MatchingEngine.stopOrdersById fun _ _ => rfl,
      stops_of_frame (frame_settleAuction _ _ _ _ _ _)]
    rfl

theorem Step.stops {entries : List Entry} (h : Step G symbol s events entries s') {id : OrderId}
    (hstop : s.stopOrdersById.lookup id ≠ none) :
    s'.stopOrdersById.lookup id ≠ none ∨ ∃ e ∈ events, e.takesStop id := by
  have hsame : s'.stopOrdersById = s.stopOrdersById → s'.stopOrdersById.lookup id ≠ none :=
    fun h => by rwa [h]
  have herase : ∀ {other : OrderId}, s'.stopOrdersById = s.stopOrdersById.erase other →
      s'.stopOrdersById.lookup id ≠ none ∨ other = id := fun {other} h => by
    rw [h, Finmap.lookup_erase_ite]
    split_ifs with heq
    · exact Or.inr heq.symm
    · exact Or.inl hstop
  have hinsert : ∀ {other : OrderId} {stop : StopOrderState},
      s'.stopOrdersById = s.stopOrdersById.insert other stop →
      s'.stopOrdersById.lookup id ≠ none := fun h => by
    rw [h, Finmap.lookup_insert_ite]
    split_ifs
    · exact Option.some_ne_none _
    · exact hstop
  cases h with
  | placing h => exact Or.inl (hsame (h.reads aside_stops))
  | track => exact Or.inl (hsame (stops_of_frame (frame_of_unjournaled (unjournaled_trackEvents _ _))))
  | @cancel other owner =>
    have hstops := stops_of_frame (frame_cancelResting s owner.accountId symbol other)
    exact Or.inl (hsame hstops)
  | addStop => exact Or.inl (hinsert rfl)
  | replaceStop => exact Or.inl (hinsert rfl)
  | dropStop => exact (herase rfl).imp_right fun heq => ⟨_, List.mem_cons_self, heq⟩
  | trigger => exact (herase rfl).imp_right fun heq => ⟨_, List.mem_cons_self, heq⟩
  | cross _ hcrosses => exact Or.inl (hsame hcrosses.stops)
  | _ => exact Or.inl (hsame rfl)

theorem Steps.stops {entries : List Entry} (h : Steps (Step G symbol) s events entries s')
    {id : OrderId} (hstop : s.stopOrdersById.lookup id ≠ none) :
    s'.stopOrdersById.lookup id ≠ none ∨ ∃ e ∈ events, e.takesStop id := by
  induction h with
  | refl => exact Or.inl hstop
  | step hr _ ih =>
    rcases hr.stops hstop with hafter | ⟨e, he, htakes⟩
    · exact (ih hafter).imp_right fun ⟨e, he, htakes⟩ => ⟨e, List.mem_append_right _ he, htakes⟩
    · exact Or.inr ⟨e, List.mem_append_left _ he, htakes⟩

end Operations

namespace Op

/-- The stops the operation evaluates are clear, and an uncross finds nothing to trade on a
halted symbol. -/
def Clear (op : Op) (s : MatchingEngine) : Prop :=
  let id := s.nextOrderId
  match op with
  | .placeLimitOrder a symbol side price qty tif =>
    followClear symbol (placeLimitOrderWithAccountAndId a symbol id side price qty tif) s.allocated
  | .placeHiddenOrder a symbol side price qty =>
    followClear symbol (placeVisibleOrderWithAccountAndId a symbol id side price qty .gtc .hidden 0)
      s.allocated
  | .placeIcebergOrder a symbol side price totalQty displayQty =>
    followClear symbol (placeVisibleOrderWithAccountAndId a symbol id side price totalQty .gtc
      .iceberg displayQty) s.allocated
  | .placeMarketOrder a symbol side qty =>
    followClear symbol (placeMarketOrderWithAccountAndId a symbol id side qty) s.allocated
  | .placeStopOrder a symbol side stopPrice qty =>
    followClear symbol (placeStopOrderWithAccountAndId a symbol id side stopPrice qty none)
      s.allocated
  | .placeStopLimitOrder a symbol side stopPrice limitPrice qty =>
    followClear symbol (placeStopOrderWithAccountAndId a symbol id side stopPrice qty limitPrice)
      s.allocated
  | .replaceStopOrder a id newStopPrice newQty => s.replaceStopClear a id newStopPrice none newQty
  | .replaceStopLimitOrder a id newStopPrice newLimitPrice newQty =>
    s.replaceStopClear a id newStopPrice (some newLimitPrice) newQty
  | .uncross symbol => s.isHalted symbol → s.uncrossSteps symbol = []
  | _ => True

/-- The operations that may end a halt. -/
def lifts : Op → Prop
  | .resumeSymbol _ | .setTradingPhase .. => True
  | _ => False

/-- Nothing of a symbol trades or triggers while the symbol is halted. -/
def HaltSafe (op : Op) (s : MatchingEngine) (events : List Event) : Prop :=
  (¬ op.lifts → ∀ symbol, s.isHalted symbol → ∀ e ∈ events, e.symbol = symbol → e.isMove = false) ∧
    events.Pairwise fun a b => a.isHalt = true → b.symbol = a.symbol → b.isMove = false

theorem haltSafe_iff {op : Op} {s : MatchingEngine} {events : List Event}
    (htagged : ∀ e ∈ events, e.symbol = op.symbol s) (hlifts : ¬ op.lifts) :
    op.HaltSafe s events ↔ Safe (op.symbol s) s events := by
  refine and_congr ?_ (List.Pairwise.iff_of_mem fun ha hb => ?_)
  · constructor
    · rintro h hhalted ⟨e, he, hmove⟩
      rw [h hlifts _ hhalted e he (htagged e he)] at hmove
      cases hmove
    · rintro h - symbol hhalted e he rfl
      rw [htagged e he] at hhalted
      exact Bool.eq_false_iff.mpr fun hmove => h hhalted ⟨e, he, hmove⟩
  · have hsame := (htagged _ hb).trans (htagged _ ha).symm
    exact ⟨fun h hhalt => h hhalt hsame, fun h hhalt _ => h hhalt⟩

theorem haltSafe_of_no_move {op : Op} {s : MatchingEngine} {events : List Event}
    (h : ∀ e ∈ events, e.isMove = false) : op.HaltSafe s events :=
  ⟨fun _ _ _ e he _ => h e he, List.pairwise_of_forall_mem_list fun _ _ b hb _ _ => h b hb⟩

theorem exec_safe {s : MatchingEngine} (hs : s.Sound {}) {op : Op} (hsetting : ¬ op.isSetting)
    (hstate : ∀ a symbol cash qty, op ≠ .setAccountState a symbol cash qty) :
    Outcome op.exec s (fun events _ => Safe (op.symbol s) s events ↔ op.Clear s) fun _ _ => True := by
  have hs' := hs.allocated
  have hfree := fun a symbol => hs.free_next a symbol
  have hentering : ∀ {symbol : Symbol} {entries : List Entry} {x : Engine (List Event)},
      Entering {} symbol s.allocated entries x → Outcome x s.allocated
        (fun events s' => s'.Sound {} ∧ EntryHalts symbol s events s') fun _ _ => True := fun h => by
    refine h.mono (fun _ _ hsteps => ⟨(hsteps.mono Step.placing).sound hs', ?_⟩) fun _ _ _ => trivial
    have hhalts := hsteps.entryHalts hs'
    exact ⟨hhalts.still, hhalts.last, hhalts.reported⟩
  have howner : s.allocated.orderOwnershipById.lookup s.nextOrderId = none :=
    Option.eq_none_iff_forall_ne_some.mpr fun _ h => lt_irrefl _ (hs.owner_lt h)
  have hstop : ∀ (a : AccountId) (symbol : Symbol) (side : Side) (stopPrice qty : ℤ)
      (limitPrice : Option ℤ), Outcome (placeStopOrderWithAccountAndId a symbol s.nextOrderId side
        stopPrice qty limitPrice) s.allocated
        (fun events s' => s'.Sound {} ∧ EntryHalts symbol s events s') fun _ _ => True := by
    intro a symbol side stopPrice qty limitPrice
    have hsteps : Stepping {} symbol s.allocated [] (placeStopOrderWithAccountAndId a symbol
        s.nextOrderId side stopPrice qty limitPrice) :=
      (placeStop_building trivial (hfree a symbol).toFree howner).stepping
    refine ((hsteps.mono (fun _ _ h => h) fun _ _ _ => trivial).and
      (placeStop_rests s.allocated a s.nextOrderId side stopPrice qty limitPrice)).mono
      (fun _ _ h => ⟨h.1.sound hs', Rest.entryHalts ⟨h.2.1, h.2.2⟩⟩)
      fun _ _ _ => trivial
  cases op with
  | setFeeModel | setAccountRiskConfig | haltSymbol | resumeSymbol | setPriceBands
  | clearPriceBands | setTradingPhase => exact absurd trivial hsetting
  | setAccountState a symbol cash qty => exact absurd rfl (hstate a symbol cash qty)
  | placeLimitOrder a symbol side price qty tif =>
    exact numbered_halts _ (hentering (placeVisible_entering
      (t := limitTaker a symbol s.nextOrderId side price qty tif) hs' trivial (hfree a symbol)))
  | placeHiddenOrder a symbol side price qty =>
    exact numbered_halts _ (hentering (placeVisible_entering
      (t := ⟨a, symbol, s.nextOrderId, side, price, qty, .gtc, .hidden, 0⟩) hs' trivial
      (hfree a symbol)))
  | placeIcebergOrder a symbol side price totalQty displayQty =>
    exact numbered_halts _ (hentering (placeVisible_entering
      (t := ⟨a, symbol, s.nextOrderId, side, price, totalQty, .gtc, .iceberg, displayQty⟩) hs'
      trivial (hfree a symbol)))
  | placeMarketOrder a symbol side qty =>
    exact numbered_halts _ (hentering (placeMarket_entering hs' trivial (hfree a symbol)))
  | placeStopOrder a symbol side stopPrice qty =>
    exact numbered_halts (fun id => placeStopOrderWithAccountAndId a symbol id side stopPrice qty none)
      (hstop a symbol side stopPrice qty none)
  | placeStopLimitOrder a symbol side stopPrice limitPrice qty =>
    exact numbered_halts
      (fun id => placeStopOrderWithAccountAndId a symbol id side stopPrice qty limitPrice)
      (hstop a symbol side stopPrice qty limitPrice)
  | cancel a id =>
    exact (cancel_rests s a id).mono (fun _ _ h => iff_of_true h.entryHalts.safe trivial)
      fun _ _ _ => trivial
  | replaceOrder a id newPrice newQty =>
    exact (replaceOrder_safe hs a id newPrice newQty).mono (fun _ _ h => iff_of_true h trivial)
      fun _ _ _ => trivial
  | replaceStopOrder a id newStopPrice newQty => exact replaceStopOrder_safe hs a id newStopPrice newQty
  | replaceStopLimitOrder a id newStopPrice newLimitPrice newQty =>
    exact replaceStopLimit_safe hs a id newStopPrice newLimitPrice newQty
  | uncross symbol => exact uncross_safe hs

/-- A stop order stays on record until it triggers or is cancelled, with an event. -/
def KeepsStops (s : MatchingEngine) (events : List Event) (s' : MatchingEngine) : Prop :=
  ∀ id, s.stopOrdersById.lookup id ≠ none →
    s'.stopOrdersById.lookup id ≠ none ∨ ∃ e ∈ events, e.takesStop id

/-- Nothing of a halted symbol moves exactly where the operation is clear, and what does not
move stays pending. -/
theorem exec_haltSafe_iff {s : MatchingEngine} (h : Reachable s) (op : Op) :
    Outcome op.exec s (fun events s' =>
      (op.HaltSafe s events ↔ op.Clear s) ∧ KeepsStops s events s') fun _ _ => True := by
  have hs := h.sound
  have hisolates := Op.exec_isolates h op
  unfold Outcome
  cases hexec : op.exec s with
  | error e s' => trivial
  | ok events s' =>
    have htagged := (hisolates.returns hexec).1
    by_cases hsetting : op.isSetting
    · have hquiet := (Op.exec_setting hsetting s).returns hexec
      have hcontrols := (Op.exec_controls hsetting s).returns hexec
      have hclear : op.Clear s := by
        cases op <;> first | exact trivial | exact hsetting.elim
      refine ⟨iff_of_true (haltSafe_of_no_move fun e he => ?_) hclear, fun id hstop => Or.inl ?_⟩
      · have hcontrol := (hcontrols e he).1
        cases e <;> first | rfl | exact hcontrol.elim
      · have hunset := congrArg MatchingEngine.stopOrdersById hquiet.1
        have hstops : s'.stopOrdersById = s.stopOrdersById := hunset
        rwa [hstops]
    · by_cases hstate : ∃ a symbol cash qty, op = .setAccountState a symbol cash qty
      · obtain ⟨a, symbol, cash, qty, rfl⟩ := hstate
        cases hexec
        exact ⟨iff_of_true (haltSafe_of_no_move fun e he => by cases he) trivial, fun _ => Or.inl⟩
      · push Not at hstate
        have hsteps := (Op.exec_steps hs (fun _ _ => trivial) (fun _ _ _ => trivial)
          (fun _ _ => trivial) hsetting hstate).returns hexec
        have hlifts : ¬ op.lifts := fun hlifts => hsetting (by
          cases op <;> first | exact trivial | exact hlifts.elim)
        exact ⟨(haltSafe_iff htagged hlifts).trans ((exec_safe hs hsetting hstate).returns hexec),
          fun id => hsteps.stops⟩

/-- Two stops that become ready at once, the first of which would trade outside the band. -/
def readyOutsideBand : List Op :=
  [.setAccountState 1 "X" 0 20, .setAccountState 2 "X" 5000 0, .placeLimitOrder 2 "X" .bid 70 1 .gtc,
    .placeLimitOrder 1 "X" .ask 80 1 .gtc, .placeLimitOrder 1 "X" .ask 90 5 .gtc,
    .placeStopLimitOrder 2 "X" .bid 76 105 1, .placeStopLimitOrder 2 "X" .bid 76 105 1,
    .cancel 1 2, .setPriceBands "X" 95 110]

/-- Crossed orders of an auction that is halted. -/
def haltedAuction : List Op :=
  [.setAccountState 1 "X" 0 20, .setAccountState 2 "X" 5000 0, .setTradingPhase "X" .openingAuction,
    .placeLimitOrder 1 "X" .ask 100 1 .gtc, .placeLimitOrder 2 "X" .bid 100 1 .gtc,
    .haltSymbol "X" "News"]

theorem exec_haltSafe_iff_haltedAuction :
    Outcome (Op.uncross "X").exec (fresh.applyAll haltedAuction) (fun events s' =>
      ((Op.uncross "X").HaltSafe (fresh.applyAll haltedAuction) events ↔
        (Op.uncross "X").Clear (fresh.applyAll haltedAuction)) ∧
      KeepsStops (fresh.applyAll haltedAuction) events s') fun _ _ => True := by
  have hreach := reachable_applyAll haltedAuction
  exact exec_haltSafe_iff hreach (.uncross "X")

/-- The second stop triggers after the halt, and the uncross trades during one. -/
theorem not_haltSafe_readyOutsideBand :
    (Reachable (fresh.applyAll readyOutsideBand) ∧
      ∃ events ∈ (Op.placeLimitOrder 1 "X" .ask 100 1 .gtc).returned (fresh.applyAll readyOutsideBand),
        ¬ (Op.placeLimitOrder 1 "X" .ask 100 1 .gtc).HaltSafe (fresh.applyAll readyOutsideBand) events) ∧
    Reachable (fresh.applyAll haltedAuction) ∧
      ∃ events ∈ (Op.uncross "X").returned (fresh.applyAll haltedAuction),
        ¬ (Op.uncross "X").HaltSafe (fresh.applyAll haltedAuction) events := by
  refine ⟨⟨reachable_applyAll _, [.orderAccepted 6 .ask 100 1 "X",
      .stopOrderTriggered 4 7 .bid 76 1 (some 105) "X", .tradeExecuted 7 3 .bid 90 1 "X",
      .circuitBreakerTriggered "X" 90 "TradePriceBandBreach",
      .symbolHalted "X" "TradePriceBandBreach",
      .stopOrderTriggered 5 8 .bid 76 1 (some 105) "X",
      .orderRejected .bid 105 1 .symbolHalted "X"], ?_, fun h => ?_⟩,
    reachable_applyAll _, [.auctionUncross "X" 100 1 0, .tradeExecuted 2 1 .bid 100 1 "X",
      .orderFilled 2 1 "X", .orderFilled 1 1 "X", .topOfBook none none "X"], ?_, fun h => ?_⟩
  · decide +kernel
  · have hlast := h.2
    revert hlast
    decide
  · decide +kernel
  · have hhalted : (fresh.applyAll haltedAuction).isHalted "X" := by decide +kernel
    have hmove := h.1 id "X" hhalted (.tradeExecuted 2 1 .bid 100 1 "X")
      (List.mem_cons_of_mem _ List.mem_cons_self) rfl
    cases hmove

end Op
end Tes
