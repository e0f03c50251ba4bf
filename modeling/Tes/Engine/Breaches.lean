import Tes.Engine.Runs

/-! Fills outside the price band: only an order's first fill can be one, and it halts the
symbol, after which nothing is let in. -/
namespace Tes
open OrderBook MatchingEngine

/-- The order's first fill is outside the price band. -/
def Taker.Breaches (t : Taker) (s : MatchingEngine) : Prop :=
  ¬ s.inAuction t.symbol ∧ ∃ next ∈ s.nextFill t, ¬ s.priceInBand t.symbol next.1.price

instance (t : Taker) (s : MatchingEngine) : Decidable (t.Breaches s) :=
  inferInstanceAs (Decidable (_ ∧ _))

/-- All that the order may match is inside the price band. -/
def Taker.InBand (t : Taker) (s : MatchingEngine) : Prop :=
  ∀ order ∈ (s.bookFor t.symbol).sideOrders t.side.opposite, crosses t.side t.price order.price →
    s.priceInBand t.symbol order.price

/-- Matching in which every fill is inside the price band. -/
inductive Fillings : MatchingEngine → Taker → List Event → MatchingEngine → Taker → Prop
  | done {s : MatchingEngine} {t : Taker} : s.nextFill t = none → Fillings s t [] s t
  | fill {s s' : MatchingEngine} {t t' : Taker} {fill : FillResult} {book : OrderBook}
      {events : List Event} :
      s.nextFill t = some (fill, book) → s.priceInBand t.symbol fill.price →
      (s.journaled t fill book).InvariantsHold t.symbol t.accountId
        (s.ownerAccountId fill.makerId) →
      Fillings (s.filled t fill book) (t.after fill) events s' t' →
      Fillings s t (tradeEvent t fill :: s.fillReport t fill book ++ events) s' t'

/-- A price between one in the band and a limit in the band is in the band. -/
theorem MatchingEngine.priceInBand_between {s : MatchingEngine} {symbol : Symbol} {side : Side}
    {best price limit : ℤ} (hbest : s.priceInBand symbol best) (hlimit : s.priceInBand symbol limit)
    (hworse : price = best ∨ side.opposite.before best price) (hcross : crosses side limit price) :
    s.priceInBand symbol price := by
  intro band hband
  obtain ⟨hbestLower, hbestUpper⟩ := hbest band hband
  obtain ⟨hlimitLower, hlimitUpper⟩ := hlimit band hband
  have hprice : best ≤ price ∧ price ≤ limit ∨ limit ≤ price ∧ price ≤ best := by
    cases side <;> simp only [Side.opposite, Side.before, crosses] at hworse hcross <;> omega
  refine ⟨fun lower hl => ?_, fun upper hu => ?_⟩
  · have := hbestLower lower hl
    have := hlimitLower lower hl
    omega
  · have := hbestUpper upper hu
    have := hlimitUpper upper hu
    omega

/-- An order's first fill decides whether all its fills are inside the band. -/
theorem Taker.inBand_of_first {s : MatchingEngine} {t : Taker} {fill : FillResult}
    {book : OrderBook} (hb : (s.bookFor t.symbol).WellFormed) (hlimit : s.priceInBand t.symbol t.price)
    (hnext : s.nextFill t = some (fill, book)) (hband : s.priceInBand t.symbol fill.price) :
    t.InBand s := by
  obtain ⟨maker, rest, hfill, -⟩ := nextFill_some hb hnext
  rw [hfill.toFillStep.price] at hband
  exact fun order horder hcross => priceInBand_between hband hlimit (hfill.best order horder) hcross

theorem Taker.InBand.next {s : MatchingEngine} {t : Taker} {fill : FillResult} {book : OrderBook}
    (h : t.InBand s) (hb : (s.bookFor t.symbol).WellFormed)
    (hnext : s.nextFill t = some (fill, book)) : s.priceInBand t.symbol fill.price := by
  obtain ⟨maker, rest, hfill, hcross⟩ := nextFill_some hb hnext
  have hmem : maker ∈ (s.bookFor t.symbol).sideOrders t.side.opposite :=
    hb.mem_sideOrders.mpr ⟨hfill.found, hfill.placed.side⟩
  rw [hfill.toFillStep.price]
  exact h maker hmem hcross

/-- What rests after a fill rests at a price at which something rested before. -/
theorem OrderBook.FillStep.price_of_mem {book book' : OrderBook} {side : Side} {qty : ℤ}
    {fill : FillResult} {maker : Order} {rest : List Order}
    (h : FillStep book book' side qty fill maker rest) {side' : Side} {order : Order}
    (horder : order ∈ book'.sideOrders side') :
    ∃ old ∈ book.sideOrders side', old.price = order.price := by
  obtain ⟨hfound, hside⟩ := h.wellFormed_after.mem_sideOrders.mp horder
  rw [h.findOrder_after] at hfound
  split_ifs at hfound with hid
  · have hleft := survivor_some hfound
    exact ⟨maker, h.wellFormed.mem_sideOrders.mpr ⟨h.found, hleft.side.symm.trans hside⟩,
      hleft.price.symm⟩
  · exact ⟨order, h.wellFormed.mem_sideOrders.mpr ⟨hfound, hside⟩, rfl⟩

theorem Taker.InBand.filled {s : MatchingEngine} {t : Taker} {fill : FillResult} {book : OrderBook}
    (h : t.InBand s) (hb : (s.bookFor t.symbol).WellFormed)
    (hnext : s.nextFill t = some (fill, book)) : (t.after fill).InBand (s.filled t fill book) := by
  obtain ⟨maker, rest, hfill, -⟩ := nextFill_some hb hnext
  intro order horder hcross
  have hbook : (s.filled t fill book).bookFor (t.after fill).symbol = book := by
    rw [bookFor_filled]
    exact if_pos rfl
  rw [hbook] at horder
  obtain ⟨old, hold, hprice⟩ := hfill.toFillStep.price_of_mem horder
  have hbands : (s.filled t fill book).priceBandsBySymbol = s.priceBandsBySymbol := by
    rw [MatchingEngine.filled, read_updateOwner MatchingEngine.priceBandsBySymbol fun _ _ => rfl,
      bands_of_frame (frame_journaled s t fill book)]
    rfl
  have hin := h old hold (by rw [hprice]; exact hcross)
  unfold priceInBand at hin ⊢
  rw [hbands, ← hprice]
  exact hin

theorem Matches.fillings {s s' : MatchingEngine} {t t' : Taker} {events : List Event}
    (hb : (s.bookFor t.symbol).WellFormed) (hband : t.InBand s) (h : Matches s t events s' t') :
    Fillings s t events s' t' := by
  induction h with
  | done hnext => exact .done hnext
  | breach hnext hout => exact absurd (hband.next hb hnext) hout
  | @fill s s' t t' fill book events hnext hin hhold _ ih =>
    obtain ⟨maker, rest, hfill, -⟩ := nextFill_some hb hnext
    have hbook : (s.filled t fill book).bookFor (t.after fill).symbol = book := by
      rw [bookFor_filled]
      exact if_pos rfl
    have hafter : ((s.filled t fill book).bookFor (t.after fill).symbol).WellFormed := by
      rw [hbook]
      exact hfill.wellFormed_after
    exact .fill hnext hin hhold (ih hafter (hband.filled hb hnext))

/-- An order that is let in matches inside the band, or breaches it at once. -/
theorem MatchingEngine.Admits.matches {s s' : MatchingEngine} {t t' : Taker} {events : List Event}
    (hadmits : s.Admits t) (hb : (s.bookFor t.symbol).WellFormed) (hphase : ¬ s.inAuction t.symbol)
    (h : Matches s t events s' t') :
    ¬ t.Breaches s ∧ Fillings s t events s' t' ∨
      t.Breaches s ∧ ∃ fill book, s.nextFill t = some (fill, book) ∧
        ¬ s.priceInBand t.symbol fill.price ∧
        events = tradeEvent t fill ::
          circuitBreakerEvents t.symbol fill.price "TradePriceBandBreach" ∧
        s' = s.breached t fill book ∧ t' = t.after fill := by
  have hlimit : s.priceInBand t.symbol t.price := (validateEntry_eq_none.mp hadmits.valid).2.2.2.2
  cases hnext : s.nextFill t with
  | none =>
    left
    refine ⟨fun ⟨_, next, hmem, _⟩ => ?_, ?_⟩
    · rw [hnext] at hmem
      cases hmem
    · cases h with
      | done => exact .done hnext
      | breach hsome => rw [hnext] at hsome; cases hsome
      | fill hsome => rw [hnext] at hsome; cases hsome
  | some next =>
    obtain ⟨fill, book⟩ := next
    by_cases hband : s.priceInBand t.symbol fill.price
    · left
      refine ⟨fun ⟨_, next, hmem, hout⟩ => ?_, ?_⟩
      · rw [hnext] at hmem
        cases hmem
        exact hout hband
      · exact h.fillings hb (Taker.inBand_of_first hb hlimit hnext hband)
    · right
      refine ⟨⟨hphase, (fill, book), hnext, hband⟩, fill, book, rfl, hband, ?_⟩
      cases h with
      | done hnone => rw [hnext] at hnone; cases hnone
      | breach hsome hout =>
        rw [hnext] at hsome
        cases hsome
        exact ⟨rfl, rfl, rfl⟩
      | fill hsome hin =>
        rw [hnext] at hsome
        cases hsome
        exact absurd hin hband

/-! Halts. -/

theorem MatchingEngine.isHalted_withHalt (s : MatchingEngine) (symbol : Symbol) (reason : String) :
    (s.withHalt symbol reason).isHalted symbol := by
  unfold isHalted tradingPhase withHalt
  dsimp only
  rw [Finmap.valueD_insert, if_pos rfl]

section Halted
variable {G : Guard} {symbol : Symbol} {s s' : MatchingEngine} {events : List Event}
  {entries : List Entry}

theorem isHalted_congr (h : s'.tradingPhasesBySymbol = s.tradingPhasesBySymbol) :
    s'.isHalted symbol ↔ s.isHalted symbol := by
  unfold isHalted tradingPhase
  rw [h]

theorem phases_rested (s : MatchingEngine) (t : Taker) :
    (t.rested s).tradingPhasesBySymbol = s.tradingPhasesBySymbol := by
  rw [Taker.rested, phases_of_frame (frame_restOrder _ _ _ _ _ _ _ _ _)]
  rfl

theorem phases_filled (s : MatchingEngine) (t : Taker) (fill : FillResult) (book : OrderBook) :
    (s.filled t fill book).tradingPhasesBySymbol = s.tradingPhasesBySymbol := by
  rw [filled, read_updateOwner MatchingEngine.tradingPhasesBySymbol fun _ _ => rfl,
    phases_of_frame (frame_journaled s t fill book)]
  rfl

theorem phases_auctionTraded (s : MatchingEngine) (symbol : Symbol) (price traded : ℤ)
    (bidId askId : OrderId) (book : OrderBook) :
    (s.auctionTraded symbol price traded bidId askId book).tradingPhasesBySymbol =
      s.tradingPhasesBySymbol := by
  rw [auctionTraded, read_reduceOwner MatchingEngine.tradingPhasesBySymbol fun _ _ => rfl,
    read_reduceOwner MatchingEngine.tradingPhasesBySymbol fun _ _ => rfl,
    phases_of_frame (frame_settleAuction _ _ _ _ _ _)]
  rfl

theorem Crosses.phases {price qty remaining : ℤ} {steps : List (OrderBook × ℤ)}
    (h : Crosses symbol price s qty events steps s' remaining) :
    s'.tradingPhasesBySymbol = s.tradingPhasesBySymbol := by
  induction h with
  | refl => rfl
  | trade _ _ _ _ ih => rw [ih, phases_auctionTraded]

theorem phases_cancelResting (s : MatchingEngine) (a : AccountId) (symbol : Symbol) (id : OrderId) :
    (s.cancelResting a symbol id).tradingPhasesBySymbol = s.tradingPhasesBySymbol := by
  rw [phases_of_frame (frame_cancelResting s a symbol id)]

/-- While the symbol is halted nothing is let in, and no step ends the halt. -/
theorem Step.halted (hhalted : s.isHalted symbol) (h : Step G symbol s events entries s') :
    entries = [] ∧ s'.isHalted symbol := by
  have hauction : ¬ s.inAuction symbol := fun h => by
    unfold isHalted at hhalted
    rcases h with h | h <;> rw [hhalted] at h <;> cases h
  have hadmits : ∀ {t : Taker}, t.symbol = symbol → ¬ s.Admits t := fun ht h =>
    (validateEntry_eq_none.mp h.valid).2.2.2.1 (ht ▸ hhalted)
  cases h with
  | placing h =>
    cases h with
    | touch => exact ⟨rfl, hhalted⟩
    | report => exact ⟨rfl, hhalted⟩
    | audit => exact ⟨rfl, hhalted⟩
    | restAuction hsymbol h => exact absurd h (hadmits hsymbol)
    | enter hsymbol h => exact absurd h (hadmits hsymbol)
  | track =>
    exact ⟨rfl, (isHalted_congr (phases_of_frame (frame_of_unjournaled
      (unjournaled_trackEvents _ _)))).mpr hhalted⟩
  | cancel => exact ⟨rfl, (isHalted_congr (phases_cancelResting _ _ _ _)).mpr hhalted⟩
  | haltAuction => exact ⟨rfl, isHalted_withHalt _ _ _⟩
  | cross _ hcrosses => exact ⟨rfl, (isHalted_congr hcrosses.phases).mpr hhalted⟩
  | endAuction hphase => exact absurd hphase hauction
  | _ => exact ⟨rfl, hhalted⟩

theorem Steps.halted (hhalted : s.isHalted symbol)
    (h : Steps (Step G symbol) s events entries s') : entries = [] ∧ s'.isHalted symbol := by
  induction h with
  | refl => exact ⟨rfl, hhalted⟩
  | step hr _ ih =>
    obtain ⟨hnone, hafter⟩ := hr.halted hhalted
    obtain ⟨hmore, hlast⟩ := ih hafter
    exact ⟨by rw [hnone, hmore]; rfl, hlast⟩

end Halted
end Tes
