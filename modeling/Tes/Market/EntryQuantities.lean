import Tes.Market.FillReports
import Tes.Market.Replacement

/-! No quantity is lost on the way in: what an order does not trade rests, expires, or is the part of
an iceberg that the book refuses. -/
namespace Tes
open OrderBook MatchingEngine Flight Transition EStateM

/-- What the order has left after the events. -/
def Entry.left (entry : Entry) (events : List Event) : ℤ :=
  entry.2.remaining - tradedOf entry.2.id events

/-- Where the quantity of an order that came in is. -/
structure Settled (entry : Entry) (events : List Event) (s' : MatchingEngine) : Prop where
  nonneg : 0 ≤ entry.left events
  /-- Outside auctions, an order that is good at once only does not rest. -/
  immediate : entry.2.tif = .ioc → ¬ entry.1.inAuction entry.2.symbol →
    (∀ symbol, ¬ s'.Rests symbol entry.2.id) ∧
      (0 < entry.left events → .orderExpired entry.2.id entry.2.symbol ∈ events)
  /-- Other orders rest, but for less than the clip of an iceberg. -/
  lasting : (entry.2.tif = .ioc → entry.1.inAuction entry.2.symbol) →
    s'.restingQty entry.2.symbol entry.2.id = entry.left events ∨
      entry.2.visibility = .iceberg ∧ 0 < entry.left events ∧
        entry.left events < entry.2.displayQty ∧ ∀ symbol, ¬ s'.Rests symbol entry.2.id

section Matching
variable {G : Guard} {s s' : MatchingEngine} {t t' : Taker} {events : List Event}

theorem restingQty_eq_zero {symbol : Symbol} {id : OrderId} (h : ¬ s.Rests symbol id) :
    s.restingQty symbol id = 0 := by
  have hnone : s.resting symbol id = none := not_not.mp h
  rw [restingQty, hnone, Option.elim_none]

/-- The terms of an order do not change as it trades. -/
theorem Matches.terms (h : Matches s t events s' t') : t' = { t with remaining := t'.remaining } := by
  induction h with
  | done => rfl
  | breach => rfl
  | fill _ _ _ _ ih => exact ih

/-- A fill takes from its order what its trade tells. -/
theorem restingQty_fill (hs : s.Sound G) {fill : FillResult} {book : OrderBook}
    (hnext : s.nextFill t = some (fill, book)) {s₁ : MatchingEngine}
    (hbook : s₁.bookFor t.symbol = book) {id : OrderId} (hid : id ≠ t.id) :
    s₁.restingQty t.symbol id =
      s.restingQty t.symbol id - (tradeEvent t fill).tradedOf id := by
  obtain ⟨maker, rest, hfill, -⟩ := nextFill_some (hs.book t.symbol) hnext
  have hafter := hfill.toFillStep.quantity_after id
  have htraded : (tradeEvent t fill).tradedOf id = if fill.makerId = id then fill.qty else 0 := by
    rw [tradeEvent, Event.tradedOf, if_neg fun heq => hid heq.symm, zero_add]
  unfold restingQty MatchingEngine.resting
  rw [hbook, htraded]
  exact hafter

/-- The orders that the match loop meets lose what their trades tell. -/
theorem Matches.conserves (hs : s.Sound G) (h : Matches s t events s' t') {id : OrderId}
    (hid : id ≠ t.id) :
    s'.restingQty t.symbol id = s.restingQty t.symbol id - tradedOf id events := by
  induction h with
  | done => simp [tradedOf]
  | @breach s t fill book hnext hband =>
    have hquiet : tradedOf id (circuitBreakerEvents t.symbol fill.price "TradePriceBandBreach") = 0 :=
      tradedOf_of_untold (by simp [circuitBreakerEvents, Event.tells]) id
    have hbook : (s.breached t fill book).bookFor t.symbol = book := by
      rw [bookFor_breached, if_pos rfl]
    rw [restingQty_fill hs hnext hbook hid, ← List.singleton_append, tradedOf_append, hquiet]
    simp [tradedOf]
  | @fill s s' t t' fill book events hnext hband hhold _ ih =>
    have hquiet : tradedOf id (s.fillReport t fill book) = 0 :=
      tradedOf_of_untraded fun e he => (inert_fillReport e he).not_trade
    have hbook : (s.filled t fill book).bookFor t.symbol = book := by
      rw [bookFor_filled, if_pos rfl]
    have hrest := ih ((narrows_filled hs hnext).sound hs) hid
    have hsymbol : (t.after fill).symbol = t.symbol := rfl
    rw [hsymbol] at hrest
    rw [hrest, restingQty_fill hs hnext hbook hid, List.cons_append, ← List.singleton_append,
      tradedOf_append, tradedOf_append, hquiet]
    simp [tradedOf]
    omega

/-- Quiet events before the others leave the order as it is. -/
theorem Settled.after {entry : Entry} {more : List Event} (h : Settled entry more s')
    (hquiet : tradedOf entry.2.id events = 0) : Settled entry (events ++ more) s' := by
  have hleft : entry.left (events ++ more) = entry.left more := by
    rw [Entry.left, Entry.left, tradedOf_append, hquiet, zero_add]
  refine ⟨hleft ▸ h.nonneg, fun htif hphase => ?_, fun htif => ?_⟩
  · obtain ⟨hgone, hexpired⟩ := h.immediate htif hphase
    rw [hleft]
    exact ⟨hgone, fun hpos => List.mem_append_right _ (hexpired hpos)⟩
  · rw [hleft]
    exact h.lasting htif

/-- What is left comes to rest, unless it is less than the clip of an iceberg. -/
theorem settled_rested (hs : s.Sound G) (hflight : s.InFlight t)
    (hpos : 0 < t.remaining) :
    (t.rested s).restingQty t.symbol t.id = t.remaining ∨
      t.visibility = .iceberg ∧ t.remaining < t.displayQty ∧ ∀ symbol, ¬ (t.rested s).Rests symbol t.id := by
  by_cases hrefused : t.refused
  · refine Or.inr ⟨hrefused.1, hrefused.2, fun symbol hrests => ?_⟩
    have hresting := (rested_rested hs hflight hpos).resting symbol t.id
    rw [if_neg fun hc => hc.2.2 hrefused] at hresting
    have hnone : (t.rested s).resting symbol t.id ≠ none := hrests
    rw [hresting] at hnone
    exact hflight.free.rests symbol hnone
  · exact Or.inl (restingQty_rested hs hflight hpos hrefused)

/-- Where the quantity goes of an order that matches and then rests, expires or is used up. -/
theorem settled_entered {first rested : List Event} {s'' : MatchingEngine} (hs : s.Sound G)
    (hflight : s.InFlight t) (hphase : ¬ s.inAuction t.symbol) (hmatches : Matches s t first s' t')
    (hfinishes : Finishes s' t' rested s'') : Settled (s, t) (first ++ rested) s'' := by
  have hs' := (hmatches.narrows hs).sound hs
  have hflight' := hmatches.inFlight hs hflight
  have htraded := (hmatches.told hs hflight).traded
  have hquiet := tradedOf_of_untold (hfinishes.untold hs' hflight').1 t.id
  have hleft : Entry.left (s, t) (first ++ rested) = t'.remaining := by
    rw [Entry.left, tradedOf_append, hquiet, htraded]
    show t.remaining - (t.remaining - t'.remaining + 0) = t'.remaining
    omega
  have hterms := hmatches.terms
  have hid : t'.id = t.id := by rw [hterms]
  have hsymbol : t'.symbol = t.symbol := by rw [hterms]
  have htif : t'.tif = t.tif := by rw [hterms]
  have hvisibility : t'.visibility = t.visibility := by rw [hterms]
  have hdisplay : t'.displayQty = t.displayQty := by rw [hterms]
  have hfree : ∀ symbol, ¬ s'.Rests symbol t.id := fun symbol => hid ▸ hflight'.free.rests symbol
  refine ⟨hleft ▸ hflight'.remaining, fun hioc _ => ?_, fun hlasts => ?_⟩
  · rw [hleft]
    cases hfinishes with
    | rest hpos hnot => exact absurd (htif.trans hioc) hnot
    | expire hpos _ =>
      exact ⟨hfree, fun _ => List.mem_append_right _ (by rw [← hid, ← hsymbol]; simp)⟩
    | done hdone => exact ⟨hfree, fun hpos => absurd hpos (by omega)⟩
  · rw [hleft]
    cases hfinishes with
    | rest hpos hnot =>
      have hrests := settled_rested hs' hflight' hpos
      rw [hid, hsymbol, hvisibility, hdisplay] at hrests
      exact hrests.imp_right fun h => ⟨h.1, hpos, h.2.1, h.2.2⟩
    | expire hpos hioc => exact absurd (hlasts (htif.symm.trans hioc)) hphase
    | done hdone =>
      have hnonneg := hflight'.remaining
      left
      rw [restingQty_eq_zero (hfree t.symbol)]
      omega

end Matching

/-! Parts of an operation. -/
section Parts
variable {G : Guard} {symbol : Symbol} {s s' s'' : MatchingEngine} {made others : List Entry}
  {events more : List Event}

/-- What a part of an operation on a symbol does to the quantities of its orders. -/
structure Settles (symbol : Symbol) (made : List Entry) (s : MatchingEngine) (events : List Event)
    (s' : MatchingEngine) : Prop where
  resting : ∀ id, (∀ entry ∈ made, entry.2.id ≠ id) →
    s'.restingQty symbol id = s.restingQty symbol id - tradedOf id events
  settled : ∀ entry ∈ made, entry.2.symbol = symbol ∧ Settled entry events s'

theorem Settles.of_untold (hquiet : ∀ e ∈ events, ∀ id, ¬ e.tells id)
    (hbook : s'.bookFor symbol = s.bookFor symbol) : Settles symbol [] s events s' := by
  refine ⟨fun id _ => ?_, by simp⟩
  unfold restingQty MatchingEngine.resting
  rw [hbook, tradedOf_of_untold hquiet, sub_zero]

/-- An order that comes to rest leaves the others as they are. -/
theorem restingQty_rested_ne {t : Taker} (hs : s.Sound G) (hflight : s.InFlight t)
    (hpos : 0 < t.remaining) {id : OrderId} (hid : t.id ≠ id) (symbol : Symbol) :
    (t.rested s).restingQty symbol id = s.restingQty symbol id := by
  have hresting := (rested_rested hs hflight hpos).resting symbol id
  rw [if_neg fun hc => hid hc.2.1.symm] at hresting
  unfold restingQty
  rw [hresting]

theorem Finishes.conserves {t : Taker} (hs : s.Sound G) (hflight : s.InFlight t)
    (h : Finishes s t events s') {id : OrderId} (hid : t.id ≠ id) (symbol : Symbol) :
    s'.restingQty symbol id = s.restingQty symbol id := by
  cases h with
  | rest hpos => exact restingQty_rested_ne hs hflight hpos hid symbol
  | expire => rfl
  | done => rfl

theorem Placing.settles (hs : s.Sound G) (h : Placing G symbol s events made s') :
    Settles symbol made s events s' := by
  cases h with
  | touch => exact .of_untold (by simp) rfl
  | @report event hverdict hsymbol =>
    refine .of_untold (fun e he id htells => ?_) rfl
    rw [List.mem_singleton.mp he] at htells
    cases event <;> first | exact htells | exact hverdict
  | audit => exact .of_untold (by simp) rfl
  | @restAuction t hsymbol hadmits haccount hphase =>
    obtain ⟨hflight, hpos⟩ := hadmits.inFlight
    have hquiet := tradedOf_of_untold (untold_restedEvents hs hflight hpos)
    refine ⟨fun id hother => ?_, fun entry hentry => ?_⟩
    · rw [restingQty_rested_ne hs hflight hpos (hother _ (List.mem_singleton_self _)), hquiet, sub_zero]
    · rw [List.mem_singleton.mp hentry]
      have hleft : Entry.left (s, t) (t.restedEvents s) = t.remaining := by
        rw [Entry.left, hquiet]
        exact sub_zero _
      refine ⟨hsymbol, hleft ▸ hpos.le, fun _ hnot => absurd hphase hnot, fun _ => Or.inl ?_⟩
      rw [hleft]
      exact restingQty_rested hs hflight hpos hadmits.not_refused
  | @enter s' s'' t t' first rested hsymbol hadmits haccount hphase hfok hmatches hfinishes =>
    have hflight := hadmits.inFlight.1
    have hs' := (hmatches.narrows hs).sound hs
    have hflight' := hmatches.inFlight hs hflight
    have hquiet := tradedOf_of_untold (hfinishes.untold hs' hflight').1
    refine ⟨fun id hother => ?_, fun entry hentry => ?_⟩
    · have hid := hother _ (List.mem_singleton_self _)
      have hid' : t'.id ≠ id := hmatches.id_eq.1 ▸ hid
      subst hsymbol
      rw [hfinishes.conserves hs' hflight' hid', hmatches.conserves hs (Ne.symm hid), tradedOf_append,
        hquiet, add_zero]
    · rw [List.mem_singleton.mp hentry]
      exact ⟨hsymbol, settled_entered hs hflight hphase hmatches hfinishes⟩

theorem Adding.settles (hs : s.Sound G) (h : Adding G symbol s events made s') :
    Settles symbol made s events s' := by
  cases h with
  | placing hplacing => exact hplacing.settles hs
  | allocate => exact .of_untold (by simp) rfl
  | track =>
    exact .of_untold (by simp) (bookFor_of_frame (frame_of_unjournaled (unjournaled_trackEvents _ _)) _)
  | addStop => exact .of_untold (by simp [Event.tells]) rfl
  | replaceStop => exact .of_untold (by simp [Event.tells]) rfl
  | trigger => exact .of_untold (by simp [Event.tells, triggeredEvent]) rfl

theorem restingQty_nonneg (hs : s.Sound G) (symbol : Symbol) (id : OrderId) :
    0 ≤ s.restingQty symbol id := by
  cases horder : s.resting symbol id with
  | none => rw [restingQty, horder, Option.elim_none]
  | some order =>
    have hwf := ((hs.book symbol).findOrder_wellFormed horder).1
    rw [restingQty, horder, Option.elim_some]
    exact hwf.total_pos.le

/-- A later part takes from what rests of an order what it trades of it, and leaves alone an order
that does not rest. -/
theorem Settled.before {entry : Entry} (h : Settled entry events s') (hsymbol : entry.2.symbol = symbol)
    (hs : s''.Sound G) (htells : Tells others s' more s'') (hmore : Settles symbol others s' more s'')
    (hapart : ∀ other ∈ others, other.2.id ≠ entry.2.id) : Settled entry (events ++ more) s'' := by
  have hresting := hmore.resting entry.2.id hapart
  have hleft : entry.left (events ++ more) = entry.left events - tradedOf entry.2.id more := by
    rw [Entry.left, Entry.left, tradedOf_append]
    omega
  have hgone : (∀ symbol, ¬ s'.Rests symbol entry.2.id) →
      tradedOf entry.2.id more = 0 ∧ ∀ symbol, ¬ s''.Rests symbol entry.2.id := by
    intro hnone
    have hother : ¬ ∃ other ∈ others, other.2.id = entry.2.id := fun ⟨other, hother, hid⟩ =>
      hapart other hother hid
    refine ⟨tradedOf_eq_zero fun e he htold => ?_, fun symbol' hrests => ?_⟩
    · rcases htells.named e he _ htold with ⟨symbol', hrests⟩ | hmem
      · exact hnone symbol' hrests
      · exact hother hmem
    · rcases htells.rests symbol' _ hrests with hold | hmem
      · exact hnone symbol' hold
      · exact hother hmem
  subst hsymbol
  by_cases hlasts : entry.2.tif = .ioc → entry.1.inAuction entry.2.symbol
  · rcases h.lasting hlasts with hrests | ⟨hiceberg, hpos, hclip, hnone⟩
    · have hnonneg := restingQty_nonneg hs entry.2.symbol entry.2.id
      rw [hresting, hrests, ← hleft] at hnonneg
      refine ⟨hnonneg, fun hioc hphase => absurd (hlasts hioc) hphase, fun _ => Or.inl ?_⟩
      rw [hresting, hrests, hleft]
    · obtain ⟨huntraded, hnone'⟩ := hgone hnone
      rw [huntraded, sub_zero] at hleft
      refine ⟨hleft ▸ hpos.le, fun hioc hphase => absurd (hlasts hioc) hphase, fun _ => Or.inr ?_⟩
      rw [hleft]
      exact ⟨hiceberg, hpos, hclip, hnone'⟩
  · obtain ⟨hioc, hphase⟩ := not_forall.mp hlasts
    obtain ⟨hnone, hexpired⟩ := h.immediate hioc hphase
    obtain ⟨huntraded, hnone'⟩ := hgone hnone
    rw [huntraded, sub_zero] at hleft
    refine ⟨hleft ▸ h.nonneg, fun _ _ => ⟨hnone', fun hpos => ?_⟩, fun hnot => absurd hnot hlasts⟩
    exact List.mem_append_left _ (hexpired (hleft ▸ hpos))

/-- Steps that let fresh orders in settle them. -/
theorem Steps.settles (hs : s.Sound G) (hfresh : FreshEntries s made)
    (h : Steps (Adding G symbol) s events made s') : Settles symbol made s events s' := by
  induction h with
  | refl => exact .of_untold (by simp) rfl
  | @step s s₁ s' events more made others hr hrest ih =>
    obtain ⟨hapart, hfirst, hlater⟩ := hfresh.append
    have htells := hr.tells hs
    have hs₁ := hr.step.sound hs
    have hothers := hlater htells.rests
    have hsettles := hr.settles hs
    have hmore := ih hs₁ hothers
    have hs' := hrest.invariant (I := fun s => s.Sound G) (fun hs hr => hr.step.sound hs) hs₁
    have htellsMore := hrest.tells hs₁ hothers
    refine ⟨fun id hother => ?_, fun entry hentry => ?_⟩
    · rw [hmore.resting id fun entry hentry => hother entry (List.mem_append_right _ hentry),
        hsettles.resting id fun entry hentry => hother entry (List.mem_append_left _ hentry),
        tradedOf_append]
      omega
    · rcases List.mem_append.mp hentry with hentry | hentry
      · obtain ⟨hsymbol, hsettled⟩ := hsettles.settled entry hentry
        refine ⟨hsymbol, hsettled.before hsymbol hs' htellsMore hmore fun other hother => ?_⟩
        exact (hapart entry hentry other hother).symm
      · obtain ⟨hsymbol, hsettled⟩ := hmore.settled entry hentry
        refine ⟨hsymbol, hsettled.after (tradedOf_eq_zero fun e he htold => ?_)⟩
        rcases htells.named e he _ htold with ⟨symbol', hrests⟩ | ⟨other, hother, hid⟩
        · exact hfresh.rests entry (List.mem_append_right _ hentry) symbol' hrests
        · exact hapart other hother entry hentry hid

end Parts

/-- Whatever an operation lets in trades, rests or expires in full, but for the part of an iceberg
that is less than its clip. -/
theorem entries_settled {s : MatchingEngine} (hreach : Reachable s) (op : Op) :
    Outcome op.exec s (fun events s' => ∀ entry ∈ op.entries s, Settled entry events s')
      fun _ _ => True := by
  have hs := hreach.sound
  by_cases hop : ∃ symbol, op = .uncross symbol
  · obtain ⟨symbol, rfl⟩ := hop
    -- an auction lets nothing in
    unfold Outcome
    cases (Op.uncross symbol).exec s with
    | ok events s' => exact fun entry hentry => absurd hentry List.not_mem_nil
    | error e s' => trivial
  · refine (Op.exec_fresh hs fun symbol heq => hop ⟨symbol, heq⟩).mono (fun events s' h => ?_)
      fun _ _ _ => trivial
    obtain ⟨quiet, added, s₁, rfl, hquiet, hs₁, hfresh, hsteps⟩ := h
    intro entry hentry
    exact ((hsteps.settles hs₁ hfresh).settled entry hentry).2.after
      (tradedOf_of_untold hquiet entry.2.id)

/-- An offer of six of which four sell, and then an iceberg that takes the rest. -/
def clippedIceberg : List Op :=
  [.setAccountState 1 "X" 0 20, .setAccountState 2 "X" 9000 0,
    .placeLimitOrder 1 "X" .ask 100 6 .gtc, .placeLimitOrder 2 "X" .bid 100 4 .gtc]

/-- Of the iceberg of five in clips of four, two trade, and the three that are left are lost. -/
theorem entries_settled_clippedIceberg :
    Outcome (Op.placeIcebergOrder 2 "X" .bid 101 5 4).exec (fresh.applyAll clippedIceberg)
      (fun events s' => ∀ entry ∈ (Op.placeIcebergOrder 2 "X" .bid 101 5 4).entries
        (fresh.applyAll clippedIceberg), Settled entry events s') (fun _ _ => True) ∧
    ((Op.placeIcebergOrder 2 "X" .bid 101 5 4).returned (fresh.applyAll clippedIceberg)).map
      (tradedOf 3) = some 2 ∧
    ((Op.placeIcebergOrder 2 "X" .bid 101 5 4).apply (fresh.applyAll clippedIceberg)).restingQty
      "X" 3 = 0 := by
  refine ⟨?_, ?_, ?_⟩
  · exact entries_settled (reachable_applyAll clippedIceberg) _
  · decide +kernel
  · decide +kernel

end Tes
