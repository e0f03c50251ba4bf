import Tes.Ledger.Refit
import Tes.Market.FillOrKill

/-! Replacing an order: it is refused as a whole, or cancelled and accepted again under its id, but
for the second risk check, which may fail after the cancel. -/
namespace Tes
open OrderBook MatchingEngine EStateM

/-- None of the events is a rejection. -/
def Unrejected (events : List Event) : Prop := ∀ e ∈ events, ¬ e.rejection

section Lists
variable {G : Guard} {s s' : MatchingEngine} {t t' : Taker} {events more : List Event}

theorem unrejected_append : Unrejected (events ++ more) ↔ Unrejected events ∧ Unrejected more :=
  List.forall_mem_append

theorem unrejected_topOfBook (book : OrderBook) (symbol : Symbol) (bid ask : Option ℤ) :
    Unrejected (book.maybeEmitTopOfBookChange symbol bid ask) := by
  unfold OrderBook.maybeEmitTopOfBookChange
  split_ifs
  · simp [Unrejected, Event.rejection]
  · simp [Unrejected]

theorem unrejected_fillReport {fill : FillResult} {book : OrderBook} :
    Unrejected (s.fillReport t fill book) := by
  refine unrejected_append.mpr ⟨unrejected_append.mpr ⟨?_, ?_⟩, unrejected_topOfBook _ _ _ _⟩
  · cases fill.replenished <;> simp [Unrejected, Event.rejection]
  · split_ifs <;> simp [Unrejected, Event.rejection]

theorem unrejected_restedEvents : Unrejected (t.restedEvents s) := by
  have hadd : ∀ (book : OrderBook) (order : Order) (visibility : OrderVisibility),
      Unrejected ((book.addOrder order visibility).1.map (Event.tagAccepted t.symbol)) := by
    intro book order visibility e he
    obtain ⟨event, hevent, rfl⟩ := List.mem_map.mp he
    unfold OrderBook.addOrder at hevent
    split_ifs at hevent
    · cases hevent
    · rcases List.mem_cons.mp hevent with rfl | htop
      · exact not_rejection_accepted _ _
      · have hnot := unrejected_topOfBook _ _ _ _ event htop
        cases event <;> exact hnot
  unfold Taker.restedEvents restEvents bookAdd
  cases t.visibility <;> exact hadd _ _ _

theorem unrejected_cancel (book : OrderBook) (symbol : Symbol) (id : OrderId) :
    Unrejected ((book.cancel id).1.map (Event.tagCanceled symbol)) := by
  intro e he
  obtain ⟨event, hevent, rfl⟩ := List.mem_map.mp he
  unfold OrderBook.cancel at hevent
  cases hindex : book.orderIndex.lookup id with
  | none =>
    rw [hindex] at hevent
    cases hevent
  | some entry =>
    rw [hindex] at hevent
    rcases List.mem_cons.mp hevent with rfl | htop
    · exact fun h => h
    · have hnot := unrejected_topOfBook _ _ _ _ event htop
      cases event <;> exact hnot

theorem Matches.unrejected (h : Matches s t events s' t') : Unrejected events := by
  induction h with
  | done => simp [Unrejected]
  | breach => simp [Unrejected, tradeEvent, circuitBreakerEvents, Event.rejection]
  | @fill s s' t t' fill book events _ _ _ _ ih =>
    have htrade : Unrejected [tradeEvent t fill] := by simp [Unrejected, tradeEvent, Event.rejection]
    rw [List.cons_append, ← List.singleton_append]
    exact unrejected_append.mpr ⟨htrade, unrejected_append.mpr ⟨unrejected_fillReport, ih⟩⟩

theorem takenBy_of_still {id : OrderId} (h : Still events) : takenBy id events = 0 := by
  refine List.sum_eq_zero fun x hx => ?_
  obtain ⟨e, he, rfl⟩ := List.mem_map.mp hx
  have hmove := (h e he).2
  cases e with
  | tradeExecuted => cases hmove
  | _ => rfl

theorem Matches.visibility_eq (h : Matches s t events s' t') : t'.visibility = t.visibility := by
  induction h with
  | done => rfl
  | breach => rfl
  | fill _ _ _ _ ih => exact ih

theorem Matches.takenBy (h : Matches s t events s' t') :
    takenBy t.id events + t'.remaining = t.remaining := by
  induction h with
  | done => simp [Tes.takenBy]
  | @breach s t fill book =>
    rw [← List.singleton_append, takenBy_append, takenBy_tradeEvent,
      takenBy_of_inert (by simp [circuitBreakerEvents, Event.inert])]
    show fill.qty + 0 + (t.remaining - fill.qty) = t.remaining
    omega
  | @fill s s' t t' fill book events _ _ _ _ ih =>
    have hrest : Tes.takenBy t.id events + t'.remaining = t.remaining - fill.qty := ih
    rw [List.cons_append, ← List.singleton_append, takenBy_append, takenBy_append,
      takenBy_tradeEvent, takenBy_of_inert inert_fillReport]
    omega

end Lists

/-- What the order still has in the book of a symbol. -/
def MatchingEngine.restingQty (s : MatchingEngine) (symbol : Symbol) (id : OrderId) : ℤ :=
  (s.resting symbol id).elim 0 totalRemainingQty

section Entry
variable {G : Guard} {s s' : MatchingEngine} {t : Taker} {events : List Event}

/-- An order that has come to rest is all in the book. -/
theorem restingQty_rested (hs : s.Sound G) (hflight : s.InFlight t) (hpos : 0 < t.remaining)
    (hrefused : ¬ t.refused) : (t.rested s).restingQty t.symbol t.id = t.remaining := by
  have hresting := (rested_rested hs hflight hpos).resting t.symbol t.id
  rw [if_pos ⟨rfl, rfl, hrefused⟩] at hresting
  rw [restingQty, hresting, Option.elim_some, totalRemainingQty_order]

theorem Finishes.rests (h : Finishes s t events s') (hs : s.Sound G) (hflight : s.InFlight t)
    (htif : t.tif = .gtc) (hrefused : ¬ t.refused) :
    Unrejected events ∧ takenBy t.id events = 0 ∧ s'.restingQty t.symbol t.id = t.remaining := by
  cases h with
  | rest hpos =>
    exact ⟨unrejected_restedEvents, takenBy_of_still restedEvents_still,
      restingQty_rested hs hflight hpos hrefused⟩
  | expire _ hioc =>
    rw [htif] at hioc
    cases hioc
  | done hdone =>
    have hnone : s.resting t.symbol t.id = none := not_not.mp (hflight.free.rests t.symbol)
    have hleft := hflight.remaining
    refine ⟨by simp [Unrejected], by simp [takenBy], ?_⟩
    rw [restingQty, hnone, Option.elim_none]
    omega

/-- The entry of a displayed order without time limit, past its first checks: it is rejected, or it
trades and rests as a whole. -/
theorem placeDisplayed_outcome (hs : s.Sound {}) (hfree : s.Claimable t.accountId t.symbol t.id)
    (htif : t.tif = .gtc) (hdisplayed : t.visibility = .displayed)
    (hvalid : s.validateEntry t.symbol t.price t.remaining t.visibility t.displayQty = none) :
    Outcome (placeVisibleOrderWithAccountAndId t.accountId t.symbol t.id t.side t.price t.remaining
      t.tif t.visibility t.displayQty) s
      (fun events s' =>
        if (s.touched t).validateOrderRisk t.accountId t.symbol t.side t.price t.remaining none = none
        then Unrejected events ∧ takenBy t.id events + s'.restingQty t.symbol t.id = t.remaining
        else ∃ failure, events = [.orderRejected t.side t.price t.remaining failure t.symbol])
      fun _ s' =>
        (s.touched t).validateOrderRisk t.accountId t.symbol t.side t.price t.remaining none = none ∧
          ∃ b, s'.HasNegativeReserve t.symbol b := by
  unfold placeVisibleOrderWithAccountAndId
  simp only [outcome_bind, outcome_get]
  rw [hvalid]
  dsimp only
  rw [← MatchingEngine.touched]
  cases hrisk : (s.touched t).validateOrderRisk t.accountId t.symbol t.side t.price t.remaining
      none with
  | some failure =>
    simp only [outcome_bind, outcome_set, outcome_pure]
    rw [if_neg (Option.some_ne_none _)]
    exact ⟨failure, rfl⟩
  | none =>
  have hs' : (s.touched t).Sound {} :=
    (Narrows.of_frame hs (frame_touchAccount s t.accountId t.symbol) id).sound hs
  have hadmits : (s.touched t).Admits t := ⟨hvalid, hrisk, hfree.of_touch⟩
  obtain ⟨hflight, hpos⟩ := hadmits.inFlight
  simp only [eq_self, if_true, true_and, outcome_bind, outcome_set]
  split
  · -- in an auction the order rests as it is
    have hrested : ∀ tail : List Event, Unrejected tail → takenBy t.id tail = 0 →
        Unrejected (t.restedEvents (s.touched t) ++ tail) ∧
          takenBy t.id (t.restedEvents (s.touched t) ++ tail) +
            (t.rested (s.touched t)).restingQty t.symbol t.id = t.remaining := fun tail hplain htaken => by
      refine ⟨unrejected_append.mpr ⟨unrejected_restedEvents, hplain⟩, ?_⟩
      rw [takenBy_append, takenBy_of_still restedEvents_still, htaken,
        restingQty_rested hs' hflight hpos hadmits.not_refused]
      omega
    unfold restVisibleOrder
    simp only [outcome_bind, outcome_get, outcome_set]
    split_ifs
    · exact hrested _ (by simp [Unrejected, indicativePriceEvent, Event.rejection])
        (by simp [takenBy, indicativePriceEvent, Event.takenBy])
    · have hplain := hrested [] (by simp [Unrejected]) (by simp [takenBy])
      rwa [List.append_nil] at hplain
  rw [if_neg (by rw [htif]; simp), outcome_bind]
  refine (matchLoop_matches (t := t) (hs'.book _) (Int.self_le_toNat _)).mono
    (fun r s₁ hmatches => ?_) fun e s₁ hfails => hfails.first_inBand.2
  obtain ⟨t', matched⟩ := r
  rw [outcome_bind]
  refine (finishEntry_finishes s₁ t').mono (fun rested s₂ hfinishes => ?_) fun _ _ h => h.elim
  have hmatches : Matches (s.touched t) t matched s₁ t' := hmatches
  have htaken := hmatches.takenBy
  have hdisplayed' : ¬ t'.refused := fun h => by
    have hvisibility := h.1
    rw [hmatches.visibility_eq, hdisplayed] at hvisibility
    cases hvisibility
  obtain ⟨hplain, hnone, hresting⟩ := hfinishes.rests ((hmatches.narrows hs').sound hs')
    (hmatches.inFlight hs' hflight) (hmatches.id_eq.2.trans htif) hdisplayed'
  have hid : t'.id = t.id := hmatches.id_eq.1
  have hsymbol : t'.symbol = t.symbol := hmatches.symbol_eq
  rw [hid] at hnone hresting
  rw [hsymbol] at hresting
  have hall : takenBy t.id (matched ++ rested) + s₂.restingQty t.symbol t.id = t.remaining := by
    rw [takenBy_append, hnone, hresting]
    omega
  exact ⟨unrejected_append.mpr ⟨hmatches.unrejected, hplain⟩, hall⟩

end Entry

namespace MatchingEngine

/-- A replacement is refused with one rejection, which leaves the engine alone, or it goes through,
and what the order trades and rests with comes to its new quantity. -/
def ReplacesAtomically (s : MatchingEngine) (symbol : Symbol) (id : OrderId) (newQty : ℤ)
    (events : List Event) (s' : MatchingEngine) : Prop :=
  (∃ event, events = [event] ∧ event.rejection ∧ s.LeftAlone s') ∨
    Unrejected events ∧ takenBy id events + s'.restingQty symbol id = newQty

/-- The replacement fits beside the other orders of its account, once account 0 is topped up, or it
fails a check that is made before the cancel. -/
def ReplacementFits (s : MatchingEngine) (a : AccountId) (id : OrderId) (newPrice newQty : ℤ) :
    Prop :=
  ∀ owner ∈ s.orderOwnershipById.lookup id, owner.accountId = a →
    s.validateReplace owner newPrice newQty = none →
    s.validateOrderRisk a owner.symbol owner.side newPrice newQty (some id) = none →
    (s.touchAccount a owner.symbol).FitsWithout a owner.symbol id owner.side newPrice newQty

end MatchingEngine

section Replace
variable {s s' : MatchingEngine} {a : AccountId} {symbol : Symbol} {id : OrderId}
  {owner : OrderOwnership} {newPrice newQty : ℤ}

/-- What `replaceOrder` checks first is what order entry checks of a displayed order. -/
theorem validateEntry_of_replace (h : s.validateReplace owner newPrice newQty = none) :
    s.validateEntry owner.symbol newPrice newQty .displayed 0 = none := by
  unfold validateReplace at h
  split_ifs at h with hkind hprice hqty
  obtain ⟨hopen, hband⟩ := validateMarketControl_eq_none.mp h
  exact validateEntry_eq_none.mpr
    ⟨hprice, hqty, fun hiceberg => OrderVisibility.noConfusion hiceberg, hopen, hband⟩

theorem validateEntry_of_same {price qty displayQty : ℤ} {visibility : OrderVisibility}
    (hphases : s'.tradingPhasesBySymbol = s.tradingPhasesBySymbol)
    (hbands : s'.priceBandsBySymbol = s.priceBandsBySymbol)
    (h : s.validateEntry symbol price qty visibility displayQty = none) :
    s'.validateEntry symbol price qty visibility displayQty = none := by
  obtain ⟨hprice, hqty, hdisplay, hopen, hband⟩ := validateEntry_eq_none.mp h
  refine validateEntry_eq_none.mpr ⟨hprice, hqty, hdisplay, ?_, ?_⟩
  · rwa [isHalted, tradingPhase, hphases]
  · rwa [priceInBand, hbands]

/-- A cancelled order that comes in again. -/
theorem placeAgain_outcome (hs : s.Sound {}) (howner : s.orderOwnershipById.lookup id = some owner)
    (hrests : s.Rests owner.symbol id) (hvalid : s.validateReplace owner newPrice newQty = none)
    (hrisk : s.validateOrderRisk owner.accountId owner.symbol owner.side newPrice newQty (some id) =
      none) :
    Outcome (do
        let events ← MatchingEngine.cancel owner.accountId id
        let replacement ← placeLimitOrderWithAccountAndId owner.accountId owner.symbol id owner.side
          newPrice newQty .gtc
        modify fun s => s.trackEvents replacement
        pure (events ++ replacement)) (s.replaceReleased owner.accountId owner.symbol id)
      (fun events s' => s.ReplacesAtomically owner.symbol id newQty events s' ↔
        (s.touchAccount owner.accountId owner.symbol).FitsWithout owner.accountId owner.symbol id
          owner.side newPrice newQty)
      fun _ s' => (s.touchAccount owner.accountId owner.symbol).FitsWithout owner.accountId
        owner.symbol id owner.side newPrice newQty ∧ ∃ b, s'.HasNegativeReserve owner.symbol b := by
  have hrecord : Step {} owner.symbol s [] [] (s.replaceReleased owner.accountId owner.symbol id) :=
    .placing (.audit s ⟨rfl, rfl, rfl, rfl, rfl⟩)
  have hs₁ := hrecord.sound hs
  rw [outcome_bind]
  refine ((cancel_owned hs₁ howner hrests).and (cancel_steps hs₁ owner.accountId id)).mono
    (fun canceled s₂ hcanceled => ?_) fun _ _ h => h.elim
  obtain ⟨⟨hevents, hafter⟩, hsteps, hclaim⟩ := hcanceled
  have hjournal : s₂.unjournaled =
      (s.cancelResting owner.accountId owner.symbol id).unjournaled := by
    have hsame : (s.replaceReleased owner.accountId owner.symbol id).unjournaled = s.unjournaled := rfl
    rw [hafter, unjournaled_trackEvents, unjournaled_cancelResting hsame]
  have hfreed := freed_cancelResting hs howner hrests hjournal
  have hfits := hfreed.refit_iff hrisk
  have hs₂ := hsteps.sound hs₁
  have hphases : s₂.tradingPhasesBySymbol = s.tradingPhasesBySymbol :=
    (phases_of_frame (frame_of_unjournaled hjournal)).trans (phases_cancelResting _ _ _ _)
  have hbands : s₂.priceBandsBySymbol = s.priceBandsBySymbol := by
    rw [bands_of_frame (frame_of_unjournaled hjournal),
      bands_of_frame (frame_cancelResting s owner.accountId owner.symbol id)]
  have hplace := placeDisplayed_outcome
    (t := limitTaker owner.accountId owner.symbol id owner.side newPrice newQty .gtc) hs₂
    (hclaim owner howner rfl) rfl rfl
    (validateEntry_of_same hphases hbands (validateEntry_of_replace hvalid))
  rw [outcome_bind]
  refine hplace.mono (fun placed s₃ hplaced => ?_) fun _ _ h => ⟨hfits.mp h.1, h.2⟩
  simp only [outcome_bind, outcome_modify, outcome_pure]
  by_cases hagain : (s₂.touchAccount owner.accountId owner.symbol).validateOrderRisk owner.accountId
      owner.symbol owner.side newPrice newQty none = none
  · have hgoes : Unrejected placed ∧ takenBy id placed + s₃.restingQty owner.symbol id = newQty :=
      (if_pos hagain).mp hplaced
    have hresting : (s₃.trackEvents placed).restingQty owner.symbol id =
        s₃.restingQty owner.symbol id := by
      rw [restingQty, restingQty, resting_of_frame (frame_of_unjournaled (unjournaled_trackEvents _ _))]
    have hcanceled : Unrejected canceled ∧ takenBy id canceled = 0 := by
      rw [hevents]
      exact ⟨unrejected_cancel _ _ _, takenBy_of_still (still_cancel _ _)⟩
    refine iff_of_true (Or.inr ⟨unrejected_append.mpr ⟨hcanceled.1, hgoes.1⟩, ?_⟩) (hfits.mp hagain)
    rw [takenBy_append, hresting, hcanceled.2, ← hgoes.2]
    omega
  · obtain ⟨failure, hrejected⟩ : ∃ failure, placed =
        [.orderRejected owner.side newPrice newQty failure owner.symbol] := (if_neg hagain).mp hplaced
    have hsome : canceled ≠ [] := fun hempty => by
      rw [hevents, List.map_eq_nil_iff] at hempty
      exact hrests ((rests_of_cancel (hs₁.book owner.symbol)).mp hempty)
    refine iff_of_false (fun h => ?_) fun h => hagain (hfits.mpr h)
    rw [hrejected] at h
    rcases h with ⟨event, heq, -⟩ | ⟨hplain, -⟩
    · have hlength := congrArg List.length heq
      rw [List.length_append] at hlength
      exact hsome (List.length_eq_zero_iff.mp (by simpa using hlength))
    · exact hplain _ (List.mem_append_right _ List.mem_cons_self) trivial

theorem replaceOrder_outcome (hs : s.Sound {}) (hrests : s.Rests symbol id) :
    Outcome (replaceOrder a id newPrice newQty) s
      (fun events s' => s.ReplacesAtomically symbol id newQty events s' ↔
        s.ReplacementFits a id newPrice newQty)
      fun _ s' => s.ReplacementFits a id newPrice newQty ∧ ∃ b, s'.HasNegativeReserve symbol b := by
  have hreport : ∀ {event : Event}, event.rejection → s.ReplacesAtomically symbol id newQty [event] s :=
    fun hrejection => Or.inl ⟨_, rfl, hrejection, .refl s⟩
  unfold replaceOrder
  simp only [outcome_bind, outcome_get]
  cases howner : s.orderOwnershipById.lookup id with
  | none =>
    refine iff_of_true (hreport trivial) fun owner h => ?_
    rw [howner] at h
    cases h
  | some owner =>
    have hfits : s.ReplacementFits a id newPrice newQty ↔ (owner.accountId = a →
        s.validateReplace owner newPrice newQty = none →
        s.validateOrderRisk a owner.symbol owner.side newPrice newQty (some id) = none →
        (s.touchAccount a owner.symbol).FitsWithout a owner.symbol id owner.side newPrice newQty) := by
      unfold ReplacementFits
      rw [howner]
      constructor
      · exact fun h => h owner rfl
      · intro h other hother
        cases hother
        exact h
    rw [hfits]
    dsimp only
    split
    · rename_i hwrong
      exact iff_of_true (hreport trivial) fun howns => absurd howns hwrong
    · rename_i hwrong
      have howns := not_not.mp hwrong
      subst howns
      have hsymbol := hs.owner_symbol howner hrests
      subst hsymbol
      cases hvalid : s.validateReplace owner newPrice newQty with
      | some failure => exact iff_of_true (hreport trivial) fun _ h => by cases h
      | none =>
        dsimp only
        cases hrisk : s.validateOrderRisk owner.accountId owner.symbol owner.side newPrice newQty
            (some id) with
        | some failure =>
          have haudit : Placing {} owner.symbol s [] [] (s.appendLedgerEntry
              { accountId := owner.accountId, symbol := owner.symbol,
                reason := "replace_rejected_risk_failure", relatedOrderId := some id }) :=
            .audit s ⟨rfl, rfl, rfl, rfl, rfl⟩
          simp only [outcome_bind, outcome_set, outcome_pure]
          refine iff_of_true (Or.inl ⟨_, rfl, trivial, ?_⟩) fun _ _ h => by cases h
          exact leftAlone_placing hs haudit (by simp)
        | none =>
          refine (placeAgain_outcome hs howner hrests hvalid hrisk).mono (fun events s' h => ?_)
            fun _ s' h => ⟨fun _ _ _ => h.1, h.2⟩
          exact h.trans ⟨fun hfits _ _ _ => hfits, fun hfits => hfits rfl rfl rfl⟩

end Replace

/-! The account on margin of a quarter has used up its limit with a bid for 20. -/

theorem solvent_bidToLimit :
    Run (fun _ s op => op.Solvent s) fresh (fresh.history (quarterMargin ++ [bidToLimit]))
      (fresh.applyAll (quarterMargin ++ [bidToLimit])) :=
  Run.ofOps _ (by decide +kernel)

theorem rests_bidToLimit : (fresh.applyAll (quarterMargin ++ [bidToLimit])).Rests "X" 1 := by
  unfold Rests
  decide +kernel

end Tes
