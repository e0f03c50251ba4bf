import Tes.Market.Halts
import Tes.Market.Uncross

/-! Outside auctions no bid meets an offer, in runs that set price bands only around what rests and
leave auctions only by an uncross of displayed orders. -/
namespace Tes
open OrderBook MatchingEngine Flight Transition CallAuction EStateM

namespace MatchingEngine

/-- Something rests on a side at a price. -/
def Occupied (s : MatchingEngine) (symbol : Symbol) (side : Side) (price : ℤ) : Prop :=
  ∃ order ∈ (s.bookFor symbol).sideOrders side, order.price = price

/-- All that rests is inside the price band of its symbol. -/
def BandsCover (s : MatchingEngine) : Prop :=
  ∀ symbol side price, s.Occupied symbol side price → s.priceInBand symbol price

/-- No bid meets an offer, displayed or not. -/
def Uncrossed (s : MatchingEngine) (symbol : Symbol) : Prop :=
  ∀ bid ask, s.Occupied symbol .bid bid → s.Occupied symbol .ask ask → bid < ask

/-- Nothing rests where nothing rested. -/
def Vacates (s s' : MatchingEngine) : Prop :=
  ∀ symbol side price, s'.Occupied symbol side price → s.Occupied symbol side price

end MatchingEngine

section Ticks
variable {G : Guard} {s s' : MatchingEngine} {symbol : Symbol}

theorem MatchingEngine.vacates_of_books (h : ∀ symbol, s'.bookFor symbol = s.bookFor symbol) :
    s.Vacates s' := by
  intro symbol side price hoccupied
  unfold Occupied at hoccupied
  rwa [h] at hoccupied

theorem MatchingEngine.vacates_of_fill {book : OrderBook} {side : Side} {qty : ℤ} {fill : FillResult}
    {maker : Order} {rest : List Order}
    (hfill : FillStep (s.bookFor symbol) book side qty fill maker rest)
    (hbooks : ∀ symbol', s'.bookFor symbol' = if symbol' = symbol then book else s.bookFor symbol') :
    s.Vacates s' := by
  intro symbol' side' price hoccupied
  obtain ⟨order, horder, hprice⟩ := hoccupied
  rw [hbooks] at horder
  split_ifs at horder with hsymbol
  · subst hsymbol
    obtain ⟨old, hold, heq⟩ := hfill.price_of_mem horder
    exact ⟨old, hold, heq.trans hprice⟩
  · exact ⟨order, horder, hprice⟩

theorem MatchingEngine.vacates_nextFill {t : Taker} {fill : FillResult} {book : OrderBook}
    (hs : s.Sound G) (hnext : s.nextFill t = some (fill, book))
    (hbooks : ∀ symbol, s'.bookFor symbol = if symbol = t.symbol then book else s.bookFor symbol) :
    s.Vacates s' := by
  obtain ⟨maker, rest, hfill, -⟩ := nextFill_some (hs.book t.symbol) hnext
  exact vacates_of_fill hfill.toFillStep hbooks

theorem MatchingEngine.Vacates.trans {s'' : MatchingEngine} (h : s.Vacates s') (h' : s'.Vacates s'') :
    s.Vacates s'' := fun symbol side price hoccupied =>
  h symbol side price (h' symbol side price hoccupied)

theorem MatchingEngine.vacates_auctionTraded {price traded : ℤ} {bid ask : FillResult}
    {book book' : OrderBook} (hs : s.Sound G)
    (hbid : (s.bookFor symbol).fillBestAtOrBetter .bid price traded = some (bid, book))
    (hask : book.fillBestAtOrBetter .ask price traded = some (ask, book')) :
    s.Vacates (s.auctionTraded symbol price traded bid.makerId ask.makerId book') := by
  obtain ⟨bidOrder, rest, hbidFill, -⟩ := fillBestAtOrBetter_some (hs.book symbol) hbid
  obtain ⟨askOrder, rest', haskFill, -⟩ := fillBestAtOrBetter_some hbidFill.wellFormed_after hask
  have hfirst : s.Vacates (s.setBook symbol book) :=
    vacates_of_fill hbidFill.toFillStep fun symbol' => bookFor_setBook _ _ _ _
  have hbook : (s.setBook symbol book).bookFor symbol = book := by
    rw [bookFor_setBook, if_pos rfl]
  refine hfirst.trans (vacates_of_fill (hbook.symm ▸ haskFill.toFillStep) fun symbol' => ?_)
  rw [bookFor_auctionTraded, bookFor_setBook]
  split_ifs <;> rfl

theorem MatchingEngine.vacates_cancelResting {id : OrderId} {owner : OrderOwnership}
    (hs : s.Sound G) (howner : s.orderOwnershipById.lookup id = some owner)
    (hrests : s.Rests owner.symbol id) :
    s.Vacates (s.cancelResting owner.accountId owner.symbol id) := by
  have hs' := (narrows_cancelResting (a := owner.accountId) hs hrests).sound hs
  have hresting := (cancelResting_cancelled hs howner hrests).resting
  intro symbol side price ⟨order, horder, hprice⟩
  obtain ⟨hfound, hside⟩ := (hs'.book symbol).mem_sideOrders.mp horder
  have hafter := hresting symbol order.id
  rw [resting, hfound] at hafter
  split_ifs at hafter
  exact ⟨order, (hs.book symbol).mem_sideOrders.mpr ⟨hafter.symm, hside⟩, hprice⟩

/-- What comes to rest is one order. -/
theorem MatchingEngine.occupied_rested {t : Taker} (hs : s.Sound G) (hflight : s.InFlight t)
    (hpos : 0 < t.remaining) (hs' : (t.rested s).Sound G) {side : Side} {price : ℤ}
    (h : (t.rested s).Occupied symbol side price) :
    s.Occupied symbol side price ∨ symbol = t.symbol ∧ side = t.side ∧ price = t.price := by
  have hresting := (rested_rested hs hflight hpos).resting
  obtain ⟨order, horder, hprice⟩ := h
  obtain ⟨hfound, hside⟩ := (hs'.book symbol).mem_sideOrders.mp horder
  have hafter := hresting symbol order.id
  rw [resting, hfound] at hafter
  split_ifs at hafter with hnew
  · right
    rw [Option.some.injEq] at hafter
    refine ⟨hnew.1, ?_, ?_⟩
    · rw [← hside, hafter, Taker.order, arrange_side]
    · rw [← hprice, hafter, Taker.order, arrange_price]
  · exact Or.inl ⟨order, (hs.book symbol).mem_sideOrders.mpr ⟨hafter.symm, hside⟩, hprice⟩

theorem MatchingEngine.BandsCover.vacates (h : s.BandsCover) (hvacates : s.Vacates s')
    (hbands : s'.priceBandsBySymbol = s.priceBandsBySymbol) : s'.BandsCover := by
  intro symbol side price hoccupied
  have hin := h symbol side price (hvacates symbol side price hoccupied)
  unfold priceInBand at hin ⊢
  rwa [hbands]

theorem MatchingEngine.Uncrossed.vacates (h : s.Uncrossed symbol) (hvacates : s.Vacates s') :
    s'.Uncrossed symbol := fun bid ask hbid hask =>
  h bid ask (hvacates _ _ _ hbid) (hvacates _ _ _ hask)

/-- What rests is inside the price bands, and so is the limit of the order on its way. -/
def Config.Banded (c : Config) : Prop :=
  c.engine.BandsCover ∧ match c.flight with
    | idle => True
    | matching t | matched t => c.engine.priceInBand t.symbol t.price

/-- A fill is at the price of an order that rests. -/
theorem MatchingEngine.BandsCover.nextFill {t : Taker} {fill : FillResult} {book : OrderBook}
    (h : s.BandsCover) (hs : s.Sound G) (hnext : s.nextFill t = some (fill, book)) :
    s.priceInBand t.symbol fill.price := by
  obtain ⟨maker, rest, hfill, -⟩ := nextFill_some (hs.book t.symbol) hnext
  rw [hfill.price]
  exact h _ _ _ ⟨maker, hfill.wellFormed.mem_sideOrders.mpr ⟨hfill.found, hfill.placed.side⟩, rfl⟩

theorem MatchingEngine.BandsCover.rested {t : Taker} (h : s.BandsCover) (hs : s.Sound G)
    (hflight : s.InFlight t) (hpos : 0 < t.remaining) (hs' : (t.rested s).Sound G)
    (hprice : s.priceInBand t.symbol t.price) : (t.rested s).BandsCover := by
  have hbands : (t.rested s).priceBandsBySymbol = s.priceBandsBySymbol :=
    (rested_rested hs hflight hpos).settings.bands
  intro symbol side price hoccupied
  have hin : s.priceInBand symbol price := by
    rcases occupied_rested hs hflight hpos hs' hoccupied with hold | ⟨rfl, -, rfl⟩
    · exact h symbol side price hold
    · exact hprice
  unfold priceInBand at hin ⊢
  rwa [hbands]

theorem MatchingEngine.priceInBand_congr {price : ℤ}
    (hbands : s'.priceBandsBySymbol = s.priceBandsBySymbol) (h : s.priceInBand symbol price) :
    s'.priceInBand symbol price := by
  unfold priceInBand at h ⊢
  rwa [hbands]

theorem Tick.banded {c c' : Config} {events : List Event} (hc : c.Sound G) (hI : c.Banded)
    (h : Tick G c events c') : c'.Banded := by
  have hbands := (Tick.sameSettings h).bands
  have hsound := Tick.sound hc h
  obtain ⟨hs, hflight⟩ := hc
  obtain ⟨hcover, hprice⟩ := hI
  cases h with
  | @record s s' flight events hjournal hinert =>
    refine ⟨hcover.vacates (vacates_of_books fun symbol =>
      bookFor_of_frame (frame_of_unjournaled hjournal) symbol) hbands, ?_⟩
    cases flight with
    | idle => trivial
    | matching t => exact priceInBand_congr hbands hprice
    | matched t => exact priceInBand_congr hbands hprice
  | allocate s => exact ⟨hcover.vacates (vacates_of_books fun _ => rfl) hbands, trivial⟩
  | touch s symbol ha => exact ⟨hcover.vacates (vacates_of_books fun _ => rfl) hbands, trivial⟩
  | stops hevents hstops hpending =>
    exact ⟨hcover.vacates (vacates_of_books fun _ => rfl) hbands, trivial⟩
  | enter hadmits haccount hentry hphase hfok =>
    exact ⟨hcover, (validateEntry_eq_none.mp hadmits.valid).2.2.2.2⟩
  | fill hnext hin hhold hinert =>
    exact ⟨hcover.vacates (vacates_nextFill hs hnext fun _ => bookFor_filled _ _ _ _ _) hbands,
      priceInBand_congr hbands hprice⟩
  | breach hnext hout hinert => exact absurd (hcover.nextFill hs hnext) hout
  | finish hnext => exact ⟨hcover, hprice⟩
  | rest hpos htif => exact ⟨hcover.rested hs hflight.1 hpos hsound.1 hprice, trivial⟩
  | drop hleft => exact ⟨hcover, trivial⟩
  | restAuction hadmits haccount hentry hphase =>
    exact ⟨hcover.rested hs hadmits.inFlight.1 hadmits.inFlight.2 hsound.1
      (validateEntry_eq_none.mp hadmits.valid).2.2.2.2, trivial⟩
  | cancel howner hrests =>
    exact ⟨hcover.vacates (vacates_cancelResting hs howner hrests) hbands, trivial⟩
  | auctionTrade hqty hguard hbid hask =>
    exact ⟨hcover.vacates (vacates_auctionTraded hs hbid hask) hbands, trivial⟩
  | endAuction hphase => exact ⟨hcover.vacates (vacates_of_books fun _ => rfl) hbands, trivial⟩
  | halt s symbol reason => exact ⟨hcover.vacates (vacates_of_books fun _ => rfl) hbands, trivial⟩

/-- The symbol is outside an auction and uncrossed, and nothing there meets an order that has
matched. -/
def Config.Orderly (symbol : Symbol) (c : Config) : Prop :=
  ¬ c.engine.inAuction symbol ∧ c.engine.Uncrossed symbol ∧ match c.flight with
    | matched t => 0 < t.remaining → t.symbol = symbol →
      ∀ price, c.engine.Occupied symbol t.side.opposite price → ¬ crosses t.side t.price price
    | _ => True

theorem MatchingEngine.Uncrossed.rested {t : Taker} (h : s.Uncrossed symbol) (hs : s.Sound G)
    (hflight : s.InFlight t) (hpos : 0 < t.remaining) (hs' : (t.rested s).Sound G)
    (hapart : t.symbol = symbol →
      ∀ price, s.Occupied symbol t.side.opposite price → ¬ crosses t.side t.price price) :
    (t.rested s).Uncrossed symbol := by
  intro bid ask hbid hask
  have hbidFrom := occupied_rested hs hflight hpos hs' hbid
  have haskFrom := occupied_rested hs hflight hpos hs' hask
  rcases hbidFrom with hbidOld | ⟨hsymbol, hside, hprice⟩
  · rcases haskFrom with haskOld | ⟨hsymbol, hside, hprice⟩
    · exact h bid ask hbidOld haskOld
    · have hnot := hapart hsymbol.symm bid (by rw [← hside]; exact hbidOld)
      rw [← hside, ← hprice] at hnot
      exact not_le.mp hnot
  · rcases haskFrom with haskOld | ⟨-, hside', -⟩
    · have hnot := hapart hsymbol.symm ask (by rw [← hside]; exact haskOld)
      rw [← hside, ← hprice] at hnot
      exact not_le.mp hnot
    · rw [← hside] at hside'
      cases hside'

theorem MatchingEngine.inAuction_congr (h : s'.tradingPhasesBySymbol = s.tradingPhasesBySymbol) :
    s'.inAuction symbol ↔ s.inAuction symbol := by
  unfold inAuction tradingPhase
  rw [h]

theorem Tick.orderly {c c' : Config} {events : List Event} (hc : c.Sound G) (hbanded : c.Banded)
    (hI : c.Orderly symbol) (h : Tick G c events c') : c'.Orderly symbol := by
  have hsound := Tick.sound hc h
  obtain ⟨hs, hflight⟩ := hc
  obtain ⟨hphase, huncrossed, hapart⟩ := hI
  cases h with
  | @record s s' flight events hjournal hinert =>
    have hvacates : s.Vacates s' :=
      vacates_of_books fun symbol => bookFor_of_frame (frame_of_unjournaled hjournal) symbol
    refine ⟨fun h => hphase ((inAuction_congr (phases_of_frame (frame_of_unjournaled hjournal))).mp h),
      huncrossed.vacates hvacates, ?_⟩
    cases flight with
    | idle => trivial
    | matching t => trivial
    | matched t => exact fun hpos hsymbol price h => hapart hpos hsymbol price (hvacates _ _ _ h)
  | allocate s => exact ⟨hphase, huncrossed.vacates (vacates_of_books fun _ => rfl), trivial⟩
  | touch s symbol ha => exact ⟨hphase, huncrossed.vacates (vacates_of_books fun _ => rfl), trivial⟩
  | stops hevents hstops hpending =>
    exact ⟨hphase, huncrossed.vacates (vacates_of_books fun _ => rfl), trivial⟩
  | enter hadmits haccount hentry hopen hfok => exact ⟨hphase, huncrossed, trivial⟩
  | fill hnext hin hhold hinert =>
    exact ⟨fun h => hphase ((inAuction_congr (phases_filled _ _ _ _)).mp h),
      huncrossed.vacates (vacates_nextFill hs hnext fun _ => bookFor_filled _ _ _ _ _), trivial⟩
  | breach hnext hout hinert => exact absurd (hbanded.1.nextFill hs hnext) hout
  | @finish s t hnext =>
    refine ⟨hphase, huncrossed, fun hpos hsymbol price ⟨order, horder, hprice⟩ => ?_⟩
    subst hsymbol
    rcases (nextFill_eq_none (hs.book _)).mp hnext with hmet | hnone
    · omega
    · rw [← hprice]
      exact (hs.book _).executableQty_eq_zero.mp hnone order horder
  | rest hpos htif =>
    exact ⟨fun h => hphase ((inAuction_congr (phases_rested _ _)).mp h),
      huncrossed.rested hs hflight.1 hpos hsound.1 (hapart hpos), trivial⟩
  | drop hleft => exact ⟨hphase, huncrossed, trivial⟩
  | restAuction hadmits haccount hentry hauction =>
    refine ⟨fun h => hphase ((inAuction_congr (phases_rested _ _)).mp h),
      huncrossed.rested hs hadmits.inFlight.1 hadmits.inFlight.2 hsound.1 fun hsymbol => ?_, trivial⟩
    exact absurd (hsymbol ▸ hauction) hphase
  | cancel howner hrests =>
    exact ⟨fun h => hphase ((inAuction_congr (phases_cancelResting _ _ _ _)).mp h),
      huncrossed.vacates (vacates_cancelResting hs howner hrests), trivial⟩
  | auctionTrade hqty hguard hbid hask =>
    exact ⟨fun h => hphase ((inAuction_congr (phases_auctionTraded _ _ _ _ _ _ _)).mp h),
      huncrossed.vacates (vacates_auctionTraded hs hbid hask), trivial⟩
  | @endAuction s ended hauction =>
    refine ⟨fun h => hphase ?_, huncrossed.vacates (vacates_of_books fun _ => rfl), trivial⟩
    unfold inAuction tradingPhase MatchingEngine.auctionEnded at h
    rw [Finmap.valueD_insert] at h
    split_ifs at h with hsymbol
    · simp at h
    · exact h
  | halt s halted reason =>
    refine ⟨fun h => hphase ?_, huncrossed.vacates (vacates_of_books fun _ => rfl), trivial⟩
    unfold inAuction tradingPhase withHalt at h
    dsimp only at h
    rw [Finmap.valueD_insert] at h
    split_ifs at h with hsymbol
    · simp at h
    · exact h

end Ticks
/-! Only an uncross ends an auction. -/

/-- Symbols that are in an auction stay in one. -/
def MatchingEngine.KeepsAuctions (s s' : MatchingEngine) : Prop :=
  ∀ symbol, s.inAuction symbol → s'.inAuction symbol

section Auctions
variable {G : Guard} {s s' : MatchingEngine} {symbol : Symbol} {events : List Event}
  {entries : List Entry}

theorem MatchingEngine.KeepsAuctions.trans {s'' : MatchingEngine} (h : s.KeepsAuctions s')
    (h' : s'.KeepsAuctions s'') : s.KeepsAuctions s'' := fun symbol hauction =>
  h' symbol (h symbol hauction)

theorem MatchingEngine.keepsAuctions_of_phases
    (h : s'.tradingPhasesBySymbol = s.tradingPhasesBySymbol) : s.KeepsAuctions s' :=
  fun _ => (inAuction_congr h).mpr

theorem Matches.keepsAuctions {t t' : Taker} (hphase : ¬ s.inAuction t.symbol)
    (h : Matches s t events s' t') : s.KeepsAuctions s' := by
  induction h with
  | done => exact fun _ => id
  | @breach s t fill book hnext hout =>
    intro symbol hauction
    have hne : symbol ≠ t.symbol := fun heq => hphase (heq ▸ hauction)
    unfold inAuction tradingPhase breached withHalt
    dsimp only
    rw [Finmap.valueD_insert, if_neg hne,
      phases_of_frame (frame_settleFill s t fill book)]
    exact hauction
  | @fill s s' t t' fill book events hnext hin hhold _ ih =>
    have hphases := phases_filled s t fill book
    exact (keepsAuctions_of_phases hphases).trans
      (ih fun hauction => hphase ((inAuction_congr hphases).mp hauction))

theorem Finishes.keepsAuctions {t : Taker} (h : Finishes s t events s') : s.KeepsAuctions s' := by
  cases h with
  | rest hpos htif => exact keepsAuctions_of_phases (phases_rested _ _)
  | expire hpos htif => exact keepsAuctions_of_phases rfl
  | done hdone => exact fun _ => id

theorem Adding.keepsAuctions (h : Adding G symbol s events entries s') : s.KeepsAuctions s' := by
  cases h with
  | placing hplacing =>
    cases hplacing with
    | touch haccount => exact keepsAuctions_of_phases rfl
    | report hverdict hsymbol => exact fun _ => id
    | audit haudit => exact keepsAuctions_of_phases rfl
    | restAuction hsymbol hadmits haccount hphase => exact keepsAuctions_of_phases (phases_rested _ _)
    | enter hsymbol hadmits haccount hphase hfok hmatches hfinishes =>
      exact (hmatches.keepsAuctions hphase).trans hfinishes.keepsAuctions
  | allocate => exact keepsAuctions_of_phases rfl
  | track htagged =>
    exact keepsAuctions_of_phases (phases_of_frame (frame_of_unjournaled (unjournaled_trackEvents _ _)))
  | addStop hsymbol haccount hfree howner => exact keepsAuctions_of_phases rfl
  | replaceStop hstop hsymbol => exact keepsAuctions_of_phases rfl
  | trigger hstop hsymbol => exact keepsAuctions_of_phases rfl

theorem Steps.keepsAuctions (h : Steps (Adding G symbol) s events entries s') : s.KeepsAuctions s' := by
  induction h with
  | refl => exact fun _ => id
  | step hr _ ih => exact hr.keepsAuctions.trans ih

theorem replaceOrder_keepsAuctions (hs : s.Sound {}) (a : AccountId) (id : OrderId)
    (newPrice newQty : ℤ) : Outcome (replaceOrder a id newPrice newQty) s
      (fun _ s' => s.KeepsAuctions s') fun _ _ => True := by
  have hstill : s.KeepsAuctions s := fun _ h => h
  unfold replaceOrder
  simp only [outcome_bind, outcome_get]
  cases howner : s.orderOwnershipById.lookup id with
  | none => exact hstill
  | some owner =>
  dsimp only
  split
  · exact hstill
  rename_i hwrong
  cases s.validateReplace owner newPrice newQty with
  | some failure => exact hstill
  | none =>
  dsimp only
  split
  · simp only [outcome_bind, outcome_set, outcome_pure]
    exact keepsAuctions_of_phases rfl
  have hrecord : Step {} owner.symbol s [] [] (s.replaceReleased a owner.symbol id) :=
    .placing (.audit s ⟨rfl, rfl, rfl, rfl, rfl⟩)
  simp only [outcome_bind, outcome_set]
  have hcancel := ((cancel_steps (hrecord.sound hs) a id).mono (fun _ _ h => h)
    fun _ _ h => h.elim).and (E := fun _ _ => True) (cancel_rests _ a id)
  refine hcancel.mono (fun canceled s₂ hcanceled => ?_) fun _ _ _ => trivial
  obtain ⟨⟨hsteps, hfree⟩, -, hphases⟩ := hcanceled
  have hcanceled : s.KeepsAuctions s₂ := keepsAuctions_of_phases (hphases.trans rfl)
  have hplace := (placeVisible_entering
    (t := limitTaker a owner.symbol id owner.side newPrice newQty .gtc)
    (hsteps.sound (hrecord.sound hs)) trivial (hfree owner howner (not_not.mp hwrong))).building
  refine hplace.mono (fun placed s₃ hplaced => ?_) fun _ _ _ => trivial
  simp only [outcome_modify, outcome_pure]
  exact (hcanceled.trans hplaced.keepsAuctions).trans
    (keepsAuctions_of_phases (phases_of_frame (frame_of_unjournaled (unjournaled_trackEvents _ _))))

/-- No operation other than an uncross or a setting ends an auction. -/
theorem Op.exec_keepsAuctions {op : Op} (hs : s.Sound {}) (hsetting : ¬ op.isSetting)
    (huncross : ∀ symbol, op ≠ .uncross symbol) :
    Outcome op.exec s (fun _ s' => s.KeepsAuctions s') fun _ _ => True := by
  have haddition : op.isAddition → Outcome op.exec s (fun _ s' => s.KeepsAuctions s')
      fun _ _ => True := fun hop =>
    (Op.exec_building hs (fun _ _ => trivial) hop).mono (fun _ _ h => h.keepsAuctions)
      fun _ _ _ => trivial
  cases op with
  | setFeeModel | setAccountRiskConfig | haltSymbol | resumeSymbol | setPriceBands
  | clearPriceBands | setTradingPhase => exact absurd trivial hsetting
  | setAccountState a symbol cash qty => exact keepsAuctions_of_phases rfl
  | cancel a id =>
    exact (cancel_rests s a id).mono (fun _ _ h => keepsAuctions_of_phases h.2) fun _ _ _ => trivial
  | replaceOrder a id newPrice newQty => exact replaceOrder_keepsAuctions hs a id newPrice newQty
  | uncross symbol => exact absurd rfl (huncross symbol)
  | _ => exact haddition trivial

/-! The uncross. -/

/-- Every displayed level has an order. -/
theorem MatchingEngine.occupied_of_displayed (hs : s.Sound G) {price : ℤ}
    (h : price ∈ s.displayedPrices symbol) : ∃ side, s.Occupied symbol side price := by
  have hlevel : ∀ side, price ∈ ((s.bookFor symbol).shown side).map Prod.fst →
      s.Occupied symbol side price := by
    intro side hprice
    unfold shown appendLevels at hprice
    obtain ⟨pair, hpair, rfl⟩ := List.mem_map.mp hprice
    obtain ⟨e, he, rfl⟩ := List.mem_map.mp hpair
    have hmem := (List.mem_filter.mp he).1
    have hne : e.2.orders ≠ [] := by
      have hnonempty := ((hs.book symbol).level (OrderedMap.mem_entries_iff.mp hmem)).nonempty
      simpa [Level.isEmpty] using hnonempty
    obtain ⟨order, horder⟩ := List.exists_mem_of_ne_nil _ hne
    exact ⟨order, List.mem_flatMap.mpr ⟨e, hmem, horder⟩,
      (hs.book symbol).level_prices hmem order horder⟩
  unfold displayedPrices at h
  rw [List.map_append, List.mem_append] at h
  rcases h with hbid | hask
  · exact ⟨.bid, hlevel .bid hbid⟩
  · exact ⟨.ask, hlevel .ask hask⟩

/-- An uncross that clears the displayed book leaves nothing that meets. -/
theorem MatchingEngine.Clears.uncrossed {price : ℤ} (hs : s.Sound G)
    (hdisplayed : (s.bookFor symbol).AllDisplayed)
    (hprice : (s.computeAuctionIndicative symbol).price = some price)
    (h : s.Clears symbol price events s') : s'.Uncrossed symbol := by
  obtain ⟨trades, -, hsum, hbids, hasks, -⟩ := h
  have hb := hs.book symbol
  have hmost := ((s.indicative_optimal symbol).2 price hprice).1
  have hbidsSorted : Sorted ((s.bookFor symbol).queued .bid) :=
    (hb.queued_sorted .bid).imp fun hnot => not_lt.mp hnot
  have hasksSorted : Sorted (α := ℤᵒᵈ) ((s.bookFor symbol).queued .ask) :=
    (hb.queued_sorted .ask).imp fun hnot => not_lt.mp hnot
  rintro _ _ ⟨bid, hbid, rfl⟩ ⟨ask, hask, rfl⟩
  have hbidQueued := List.mem_map_of_mem
    (f := fun order : Order => (order.id, order.price, totalRemainingQty order)) hbid
  have haskQueued := List.mem_map_of_mem
    (f := fun order : Order => (order.id, order.price, totalRemainingQty order)) hask
  refine CallAuction.uncrossed hbids hasks hbidsSorted hasksSorted hb.queued_pos hb.queued_pos ?_
    (fun p => ?_) hbidQueued haskQueued
  · rw [List.map_map, List.map_map]
    rfl
  · rw [List.map_map, ← volumeAt_eq hb hdisplayed]
    have hle := hmost.2 ⟨p, rfl⟩
    rw [← hsum] at hle
    exact hle

/-- An uncross is about its own symbol. -/
theorem uncross_keepsOthers (hs : s.Sound {}) (symbol : Symbol) : Outcome (uncross symbol) s
    (fun _ s' => ∀ other ≠ symbol, s.inAuction other → s'.inAuction other) fun _ _ => True := by
  have hsame : ∀ {s' : MatchingEngine}, s'.tradingPhasesBySymbol = s.tradingPhasesBySymbol →
      ∀ other ≠ symbol, s.inAuction other → s'.inAuction other := fun h other _ =>
    (inAuction_congr h).mpr
  have hinsert : ∀ {s' : MatchingEngine} {phase : TradingPhase},
      s'.tradingPhasesBySymbol = s.tradingPhasesBySymbol.insert symbol phase →
      ∀ other ≠ symbol, s.inAuction other → s'.inAuction other := by
    intro s' phase h other hne hauction
    unfold inAuction tradingPhase at hauction ⊢
    rwa [h, Finmap.valueD_insert, if_neg hne]
  unfold uncross
  simp only [outcome_bind, outcome_get]
  split
  · exact hsame rfl
  split_ifs
  · exact hsame rfl
  · rw [outcome_bind]
    refine (auctionLoop_crosses hs (by omega)).mono (fun r s₁ hloop => ?_) fun _ _ _ => trivial
    have hphases := hloop.1.phases
    have htrack : ∀ (s₂ : MatchingEngine) (all : List Event),
        (s₂.trackEvents all).tradingPhasesBySymbol = s₂.tradingPhasesBySymbol := fun s₂ all =>
      phases_of_frame (frame_of_unjournaled (unjournaled_trackEvents s₂ all))
    unfold endAuction
    simp only [outcome_bind, outcome_get]
    split_ifs
    · simp only [outcome_set, outcome_bind, outcome_modify, outcome_pure]
      exact hinsert ((htrack _ _).trans
        (congrArg (fun phases => phases.insert symbol TradingPhase.continuous) hphases))
    · simp only [outcome_modify, outcome_pure]
      exact hsame ((htrack _ _).trans hphases)
  · simp only [outcome_bind, outcome_set, outcome_pure]
    exact hinsert rfl

/-- An uncross of displayed orders keeps the auction going or leaves nothing that meets. -/
theorem uncross_uncrossed (hs : s.Sound {}) (hcover : s.BandsCover)
    (hdisplayed : (s.bookFor symbol).AllDisplayed) : Outcome (uncross symbol) s
      (fun _ s' => s.inAuction symbol → s'.inAuction symbol ∨ s'.Uncrossed symbol)
      fun _ _ => True := by
  cases hprice : (s.computeAuctionIndicative symbol).price with
  | none =>
    unfold uncross
    simp only [outcome_bind, outcome_get, hprice]
    exact fun hauction => Or.inl hauction
  | some price =>
    have hshown := ((s.indicative_optimal symbol).2 price hprice).2.2.1
    obtain ⟨side, hoccupied⟩ := occupied_of_displayed hs hshown
    have hband := hcover symbol side price hoccupied
    refine (uncross_outcome hs hdisplayed hprice hband).mono (fun events s' hclears => ?_)
      fun _ _ _ => trivial
    exact fun _ => Or.inr (hclears.uncrossed hs hdisplayed hprice)

end Auctions

/-! Whole runs. -/

instance (book : OrderBook) : Decidable book.AllDisplayed :=
  decidable_of_iff ((∀ order ∈ book.sideOrders .bid, order.visibility = .displayed) ∧
      ∀ order ∈ book.sideOrders .ask, order.visibility = .displayed)
    ⟨fun h side => by cases side; exacts [h.1, h.2], fun h => ⟨h .bid, h .ask⟩⟩

/-- The operation returns; a price band is set around all that rests; an auction is left only by an
uncross, and of displayed orders. -/
def Op.KeepsOrder (op : Op) (s : MatchingEngine) : Prop :=
  (op.returned s).isSome ∧ match op with
    | .setPriceBands symbol lowerPrice upperPrice =>
      ∀ order ∈ (s.bookFor symbol).sideOrders .bid ++ (s.bookFor symbol).sideOrders .ask,
        lowerPrice ≤ order.price ∧ order.price ≤ upperPrice
    | .haltSymbol symbol _ | .resumeSymbol symbol => ¬ s.inAuction symbol
    | .setTradingPhase symbol phase => s.inAuction symbol →
      phase = .openingAuction ∨ phase = .closingAuction
    | .uncross symbol => s.inAuction symbol → (s.bookFor symbol).AllDisplayed
    | _ => True

instance (op : Op) (s : MatchingEngine) : Decidable (op.KeepsOrder s) :=
  match op with
  | .setPriceBands symbol lowerPrice upperPrice =>
    inferInstanceAs (Decidable (_ ∧ ∀ order ∈ (s.bookFor symbol).sideOrders .bid ++
      (s.bookFor symbol).sideOrders .ask, lowerPrice ≤ order.price ∧ order.price ≤ upperPrice))
  | .haltSymbol symbol _ | .resumeSymbol symbol =>
    inferInstanceAs (Decidable (_ ∧ ¬ s.inAuction symbol))
  | .setTradingPhase symbol phase => inferInstanceAs (Decidable (_ ∧
    (s.inAuction symbol → phase = .openingAuction ∨ phase = .closingAuction)))
  | .uncross symbol =>
    inferInstanceAs (Decidable (_ ∧ (s.inAuction symbol → (s.bookFor symbol).AllDisplayed)))
  | .setFeeModel .. | .setAccountRiskConfig .. | .setAccountState .. | .clearPriceBands ..
  | .placeLimitOrder .. | .placeHiddenOrder .. | .placeIcebergOrder .. | .placeMarketOrder ..
  | .placeStopOrder .. | .placeStopLimitOrder .. | .cancel .. | .replaceOrder ..
  | .replaceStopOrder .. | .replaceStopLimitOrder .. => inferInstanceAs (Decidable (_ ∧ True))

/-- What holds between operations. -/
structure MatchingEngine.InOrder (s : MatchingEngine) : Prop where
  sound : s.Sound {}
  covered : s.BandsCover
  uncrossed : ∀ symbol, ¬ s.inAuction symbol → s.Uncrossed symbol

section Runs
variable {s s' : MatchingEngine} {op : Op} {events : List Event}

/-- A phase other than an auction's is set on a symbol that is in none. -/
theorem MatchingEngine.keepsAuctions_insert {symbol : Symbol} {phase : TradingPhase}
    (hphases : s'.tradingPhasesBySymbol = s.tradingPhasesBySymbol.insert symbol phase)
    (h : s.inAuction symbol → phase = .openingAuction ∨ phase = .closingAuction) :
    s.KeepsAuctions s' := by
  intro other hauction
  unfold inAuction tradingPhase at *
  rw [hphases, Finmap.valueD_insert]
  split_ifs with hsymbol
  · exact h (hsymbol ▸ hauction)
  · exact hauction

/-- A setting other than a phase's end keeps the auctions. -/
theorem Op.setting_keepsAuctions (hop : op.KeepsOrder s) (hsetting : op.isSetting) :
    Outcome op.exec s (fun _ s' => s.KeepsAuctions s') fun _ _ => True := by
  obtain ⟨-, hkeeps⟩ := hop
  cases op with
  | setFeeModel model =>
    simp only [Op.exec, MatchingEngine.setFeeModel]
    split_ifs
    · trivial
    · trivial
    · exact keepsAuctions_of_phases rfl
  | setAccountRiskConfig a config =>
    simp only [Op.exec, MatchingEngine.setAccountRiskConfig]
    split_ifs
    · trivial
    · trivial
    · exact keepsAuctions_of_phases rfl
  | haltSymbol symbol reason =>
    exact keepsAuctions_insert rfl fun hauction => absurd hauction hkeeps
  | resumeSymbol symbol =>
    simp only [Op.exec, MatchingEngine.resumeSymbol, outcome_bind, outcome_get, outcome_set]
    have hresumed : ∀ {s' : MatchingEngine},
        s'.tradingPhasesBySymbol = s.tradingPhasesBySymbol.insert symbol .continuous →
        s.KeepsAuctions s' := fun h => keepsAuctions_insert h fun hauction => absurd hauction hkeeps
    split_ifs
    · exact hresumed rfl
    · exact hresumed rfl
  | setPriceBands symbol lower upper =>
    simp only [Op.exec, MatchingEngine.setPriceBands]
    split
    · trivial
    · exact keepsAuctions_of_phases rfl
  | clearPriceBands symbol => exact keepsAuctions_of_phases rfl
  | setTradingPhase symbol phase => exact keepsAuctions_insert rfl hkeeps
  | _ => exact hsetting.elim

/-- A price band is set around all that rests. -/
def Op.BandsAround (op : Op) (s : MatchingEngine) : Prop :=
  match op with
  | .setPriceBands symbol lowerPrice upperPrice =>
    ∀ order ∈ (s.bookFor symbol).sideOrders .bid ++ (s.bookFor symbol).sideOrders .ask,
      lowerPrice ≤ order.price ∧ order.price ≤ upperPrice
  | _ => True

theorem Op.KeepsOrder.bandsAround (hop : op.KeepsOrder s) : op.BandsAround s := by
  cases op with
  | setPriceBands symbol lower upper => exact hop.2
  | _ => trivial

/-- What rests stays inside the bands that a setting leaves. -/
theorem Op.setting_covers (hcover : s.BandsCover) (hop : op.BandsAround s) (hsetting : op.isSetting) :
    Outcome op.exec s (fun _ s' =>
      ∀ symbol side price, s.Occupied symbol side price → s'.priceInBand symbol price)
      fun _ _ => True := by
  cases op with
  | setFeeModel model =>
    simp only [Op.exec, MatchingEngine.setFeeModel]
    split_ifs
    · trivial
    · trivial
    · exact hcover
  | setAccountRiskConfig a config =>
    simp only [Op.exec, MatchingEngine.setAccountRiskConfig]
    split_ifs
    · trivial
    · trivial
    · exact hcover
  | haltSymbol symbol reason => exact hcover
  | resumeSymbol symbol =>
    simp only [Op.exec, MatchingEngine.resumeSymbol, outcome_bind, outcome_get, outcome_set]
    split_ifs
    · exact hcover
    · exact hcover
  | setPriceBands symbol lower upper =>
    simp only [Op.exec, MatchingEngine.setPriceBands]
    split
    · trivial
    · intro symbol' side price hoccupied
      have hold := hcover symbol' side price hoccupied
      unfold priceInBand at hold ⊢
      dsimp only
      rw [Finmap.lookup_insert_ite]
      split_ifs with hsymbol
      · obtain ⟨order, horder, rfl⟩ := hoccupied
        subst hsymbol
        have hmem : order ∈ (s.bookFor symbol').sideOrders .bid ++ (s.bookFor symbol').sideOrders .ask := by
          cases side
          · exact List.mem_append_left _ horder
          · exact List.mem_append_right _ horder
        have hbounds := hop order hmem
        simpa using hbounds
      · exact hold
  | clearPriceBands symbol =>
    intro symbol' side price hoccupied
    have hold := hcover symbol' side price hoccupied
    unfold priceInBand at hold ⊢
    intro band hband
    have hband : (s.priceBandsBySymbol.erase symbol).lookup symbol' = some band := hband
    rw [Finmap.lookup_erase_ite] at hband
    split_ifs at hband
    exact hold band hband
  | setTradingPhase symbol phase => exact hcover
  | _ => exact hsetting.elim

theorem Op.exec_inOrder (hs : s.InOrder) (hop : op.KeepsOrder s)
    (hexec : op.exec s = .ok events s') : s'.InOrder := by
  obtain ⟨hsound, hcover, huncrossed⟩ := hs
  have hsound' := (Op.exec_sound hsound (Op.guarded_trivial op s)).returns hexec
  by_cases hsetup : op.isSetup
  · rcases hsetup with hsetting | ⟨a, symbol, cash, qty, rfl⟩
    · have hunset := ((Op.exec_setting hsetting s).returns hexec).1
      have hvacates : s.Vacates s' := vacates_of_books fun symbol => bookFor_of_unset hunset symbol
      have hauctions := (Op.setting_keepsAuctions hop hsetting).returns hexec
      have hbands := (Op.setting_covers hcover hop.bandsAround hsetting).returns hexec
      refine ⟨hsound', fun symbol side price h => hbands symbol side price (hvacates _ _ _ h),
        fun symbol hphase => ?_⟩
      exact (huncrossed symbol fun h => hphase (hauctions symbol h)).vacates hvacates
    · cases hexec
      exact ⟨hsound', hcover, huncrossed⟩
  · have hpath := (Op.exec_ticks hsound (Op.guarded_trivial op s) hsetup).returns hexec
    have hbanded := tick_path_invariant Tick.banded ⟨hsound, trivial⟩ ⟨hcover, trivial⟩ hpath
    refine ⟨hsound', hbanded.1, fun symbol hphase => ?_⟩
    by_cases hauction : s.inAuction symbol
    · by_cases huncross : ∃ other, op = .uncross other
      · obtain ⟨other, rfl⟩ := huncross
        by_cases hother : symbol = other
        · subst hother
          have hclear := (uncross_uncrossed hsound hcover (hop.2 hauction)).returns hexec hauction
          exact hclear.resolve_left hphase
        · exact absurd ((uncross_keepsOthers hsound other).returns hexec symbol hother hauction) hphase
      · have hkeeps := (Op.exec_keepsAuctions hsound (fun h => hsetup (Or.inl h))
          (not_exists.mp huncross)).returns hexec
        exact absurd (hkeeps symbol hauction) hphase
    · have horderly := tick_path_invariant (I := fun c => c.Banded ∧ c.Orderly symbol)
        (fun hc hI htick => ⟨Tick.banded hc hI.1 htick, Tick.orderly hc hI.1 hI.2 htick⟩)
        ⟨hsound, trivial⟩ ⟨⟨hcover, trivial⟩, hauction, huncrossed symbol hauction, trivial⟩ hpath
      exact horderly.2.2.1

theorem MatchingEngine.not_occupied_fresh (symbol : Symbol) (side : Side) (price : ℤ) :
    ¬ fresh.Occupied symbol side price := by
  rintro ⟨order, horder, -⟩
  have hbook : fresh.bookFor symbol = {} := Finmap.valueD_empty _ _
  rw [hbook] at horder
  cases side <;> cases horder

theorem MatchingEngine.bandsCover_fresh : fresh.BandsCover := fun symbol side price hoccupied =>
  absurd hoccupied (not_occupied_fresh symbol side price)

theorem Run.inOrder {ops : List (Op × List Event)}
    (h : Run (fun _ s op => op.KeepsOrder s) fresh ops s) : s.InOrder := by
  refine h.invariant ⟨sound_fresh _, bandsCover_fresh, fun symbol _ => ?_⟩ ?_
  · exact fun bid _ hbid _ => absurd hbid (not_occupied_fresh _ _ _)
  · intro ops s op hs hop
    obtain ⟨hreturns, -⟩ := id hop
    unfold Outcome
    unfold Op.returned at hreturns
    cases hexec : op.exec s with
    | ok events s' => exact Op.exec_inOrder hs hop hexec
    | error e s' =>
      rw [hexec] at hreturns
      cases hreturns

end Runs

/-- An auction, a price band around what it leaves, and hidden orders and icebergs after it. -/
def orderlyDay : List Op :=
  [.setAccountState 1 "X" 0 50, .setAccountState 2 "X" 9000 0,
    .setTradingPhase "X" .openingAuction, .placeLimitOrder 1 "X" .ask 99 5 .gtc,
    .placeLimitOrder 2 "X" .bid 101 8 .gtc, .uncross "X", .setPriceBands "X" 90 110,
    .placeHiddenOrder 1 "X" .ask 103 4, .placeIcebergOrder 2 "X" .bid 99 6 2,
    .placeLimitOrder 2 "X" .bid 104 2 .gtc]

end Tes
