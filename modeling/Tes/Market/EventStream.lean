import Tes.Market.AuctionQuantities
import Tes.Market.TopOfBook

/-! The events that operations return tell a reader which orders rest in the books. -/
namespace Tes
open OrderBook MatchingEngine Flight Transition EStateM

/-- What a reader knows of a resting order. -/
structure Listed where
  symbol : Symbol
  side : Side
  price : ℤ
  remaining : ℤ
deriving DecidableEq, Repr

/-- The orders that a reader believes to rest. -/
abbrev Listing := OrderId → Option Listed

namespace Listing

def update (listing : Listing) (id : OrderId) (listed : Option Listed) : Listing :=
  fun id' => if id' = id then listed else listing id'

/-- An order has traded: it is dropped when nothing is left of it. -/
def trade (listing : Listing) (id : OrderId) (qty : ℤ) : Listing :=
  listing.update id ((listing id).bind fun listed =>
    if listed.remaining - qty = 0 then none
    else some { listed with remaining := listed.remaining - qty })

/-- The reader takes in an event. -/
def read (listing : Listing) : Event → Listing
  | .orderAccepted id side price qty symbol => listing.update id (some ⟨symbol, side, price, qty⟩)
  | .hiddenOrderAccepted id side price totalQty symbol =>
    listing.update id (some ⟨symbol, side, price, totalQty⟩)
  | .icebergOrderAccepted id side price totalQty _ _ _ symbol =>
    listing.update id (some ⟨symbol, side, price, totalQty⟩)
  | .tradeExecuted takerId makerId _ _ qty _ => (listing.trade takerId qty).trade makerId qty
  | .orderCanceled id _ => listing.update id none
  | _ => listing

def readAll (listing : Listing) (events : List Event) : Listing := events.foldl read listing

theorem readAll_append (listing : Listing) (events more : List Event) :
    listing.readAll (events ++ more) = (listing.readAll events).readAll more :=
  List.foldl_append

theorem readAll_of_still {listing : Listing} {events : List Event}
    (h : ∀ e ∈ events, listing.read e = listing) : listing.readAll events = listing := by
  induction events with
  | nil => rfl
  | cons e rest ih =>
    rw [readAll, List.foldl_cons, h e List.mem_cons_self]
    exact ih fun e he => h e (List.mem_cons_of_mem _ he)

theorem read_of_inert {listing : Listing} {e : Event} (h : e.inert) : listing.read e = listing := by
  cases e <;> first | rfl | exact h.elim

theorem readAll_of_inert (listing : Listing) {events : List Event} (h : ∀ e ∈ events, e.inert) :
    listing.readAll events = listing := by
  apply readAll_of_still
  intro e he
  exact read_of_inert (h e he)

theorem update_none {listing : Listing} {id : OrderId} (h : listing id = none) :
    listing.update id none = listing := by
  funext id'
  rw [update]
  split_ifs with hid
  · rw [hid, h]
  · rfl

theorem trade_of_none {listing : Listing} {id : OrderId} (qty : ℤ) (h : listing id = none) :
    listing.trade id qty = listing := by
  rw [trade, h]
  exact update_none h

end Listing

/-- The entry of a resting order. -/
def Order.listed (order : Order) (symbol : Symbol) : Listed :=
  ⟨symbol, order.side, order.price, totalRemainingQty order⟩

/-- The listing shows every resting order as it is, and no other. -/
def MatchingEngine.ToldBy (s : MatchingEngine) (listing : Listing) : Prop :=
  ∀ id listed, listing id = some listed ↔
    ∃ order, s.resting listed.symbol id = some order ∧ order.listed listed.symbol = listed

section Ticks
variable {G : Guard} {s s' : MatchingEngine} {listing : Listing}

theorem MatchingEngine.ToldBy.congr (h : s.ToldBy listing)
    (hresting : ∀ symbol id, s'.resting symbol id = s.resting symbol id) : s'.ToldBy listing := by
  intro id listed
  rw [hresting]
  exact h id listed

theorem MatchingEngine.ToldBy.eq_none_iff (h : s.ToldBy listing) {id : OrderId} :
    listing id = none ↔ ∀ symbol, s.resting symbol id = none := by
  constructor
  · intro hnone symbol
    by_contra hne
    obtain ⟨order, horder⟩ := Option.ne_none_iff_exists'.mp hne
    have hsome := (h id (order.listed symbol)).mpr ⟨order, horder, rfl⟩
    rw [hnone] at hsome
    cases hsome
  · intro hnone
    by_contra hne
    obtain ⟨listed, hlisted⟩ := Option.ne_none_iff_exists'.mp hne
    obtain ⟨order, horder, -⟩ := (h id listed).mp hlisted
    rw [hnone] at horder
    cases horder

/-- One order of one symbol is another, or gone, and the listing follows. -/
theorem MatchingEngine.ToldBy.update (h : s.ToldBy listing) {symbol : Symbol} {id : OrderId}
    (left : Option Order) (hothers : ∀ symbol', symbol' ≠ symbol → s.resting symbol' id = none)
    (hresting : ∀ symbol' id', s'.resting symbol' id' =
      if symbol' = symbol ∧ id' = id then left else s.resting symbol' id') :
    s'.ToldBy (listing.update id (left.map fun order => order.listed symbol)) := by
  intro id' listed
  rw [hresting, Listing.update]
  by_cases hid : id' = id
  · subst hid
    rw [if_pos rfl]
    by_cases hsymbol : listed.symbol = symbol
    · rw [if_pos ⟨hsymbol, rfl⟩, Option.map_eq_some_iff, hsymbol]
    · rw [if_neg fun hc => hsymbol hc.1, hothers _ hsymbol, Option.map_eq_some_iff]
      constructor
      · rintro ⟨order, -, rfl⟩
        exact absurd rfl hsymbol
      · rintro ⟨order, hnone, -⟩
        cases hnone
  · rw [if_neg hid, if_neg fun hc => hid hc.2]
    exact h id' listed

/-- A resting order trades, and the listing follows. -/
theorem MatchingEngine.ToldBy.trade (h : s.ToldBy listing) (hs : s.Sound G) {symbol : Symbol}
    {maker : Order} {qty : ℤ} (hfound : s.resting symbol maker.id = some maker)
    (hresting : ∀ symbol' id', s'.resting symbol' id' =
      if symbol' = symbol ∧ id' = maker.id then survivor maker qty else s.resting symbol' id') :
    s'.ToldBy (listing.trade maker.id qty) := by
  have hrests : s.Rests symbol maker.id := fun hnone => by
    rw [resting, hnone] at hfound
    cases hfound
  have hothers : ∀ symbol', symbol' ≠ symbol → s.resting symbol' maker.id = none := by
    intro symbol' hne
    by_contra hrests'
    exact hne (hs.rests_unique hrests' hrests)
  have hlisted : listing maker.id = some (maker.listed symbol) :=
    (h maker.id (maker.listed symbol)).mpr ⟨maker, hfound, rfl⟩
  have hleft : listing.trade maker.id qty =
      listing.update maker.id ((survivor maker qty).map fun order => order.listed symbol) := by
    rw [Listing.trade, hlisted, Option.bind_some]
    have htotal := survivor_total maker qty
    congr 1
    cases hsurvivor : survivor maker qty with
    | none =>
      rw [hsurvivor, Option.elim_none] at htotal
      rw [if_pos (show (maker.listed symbol).remaining - qty = 0 from htotal.symm), Option.map_none]
    | some left =>
      have hsurvives := survivor_some hsurvivor
      have hne : (maker.listed symbol).remaining - qty ≠ 0 := fun hzero => by
        have hspent : totalRemainingQty maker - qty = 0 := hzero
        have hnone := survivor_eq_none.mpr (show qty = totalRemainingQty maker by omega)
        rw [hsurvivor] at hnone
        cases hnone
      rw [hsurvivor, Option.elim_some] at htotal
      rw [if_neg hne, Option.map_some, Order.listed, Order.listed, hsurvives.side, hsurvives.price,
        htotal]
  rw [hleft]
  exact h.update _ hothers hresting

/-- An order that comes to rest is reported, and then the best prices if they change. -/
theorem restedEvents_eq {t : Taker} (hs : s.Sound G) (hflight : s.InFlight t)
    (hpos : 0 < t.remaining) : t.restedEvents s =
      if t.refused then []
      else (acceptedEvent t.order).tagAccepted t.symbol ::
        ((s.bookFor t.symbol).insertOrder t.order).maybeEmitTopOfBookChange t.symbol
          (s.bookFor t.symbol).bestBid (s.bookFor t.symbol).bestAsk := by
  have hindex : (s.bookFor t.symbol).orderIndex.lookup t.id = none :=
    (hs.book t.symbol).findOrder_eq_none.mp (not_not.mp (hflight.free.rests t.symbol))
  have hadded := addRemainder_eq hflight.valid hpos hindex
  unfold Taker.restedEvents restEvents
  unfold addRemainder at hadded
  rw [hadded]
  split_ifs with hrefused
  · rfl
  · rw [List.map_cons, topOfBook_tagAccepted]

theorem Listing.read_accepted (listing : Listing) (t : Taker) :
    listing.read ((acceptedEvent t.order).tagAccepted t.symbol) =
      listing.update t.id (some (t.order.listed t.symbol)) := by
  unfold Order.listed
  rw [totalRemainingQty_order]
  unfold Taker.order acceptedEvent
  cases hvisibility : t.visibility <;> rfl

/-- An order that comes to rest is told as it is. -/
theorem MatchingEngine.ToldBy.rested {t : Taker} (h : s.ToldBy listing) (hs : s.Sound G)
    (hflight : s.InFlight t) (hpos : 0 < t.remaining) :
    (t.rested s).ToldBy (listing.readAll (t.restedEvents s)) := by
  have hrested := rested_rested hs hflight hpos
  rw [restedEvents_eq hs hflight hpos]
  split_ifs with hrefused
  · exact h.congr fun symbol id => (hrested.resting symbol id).trans (if_neg fun hc => hc.2.2 hrefused)
  · rw [Listing.readAll, List.foldl_cons, Listing.read_accepted]
    have hinert : ∀ event ∈ ((s.bookFor t.symbol).insertOrder t.order).maybeEmitTopOfBookChange
        t.symbol (s.bookFor t.symbol).bestBid (s.bookFor t.symbol).bestAsk, event.inert :=
      inert_topOfBook
    have hrest := Listing.readAll_of_inert
      (listing.update t.id (some (t.order.listed t.symbol))) hinert
    rw [Listing.readAll] at hrest
    rw [hrest]
    refine h.update (some t.order) (fun symbol' _ => hrested.free symbol') fun symbol' id' => ?_
    rw [hrested.resting]
    simp [hrefused]

/-- A fill of a resting order in the book of its symbol is told as its trade. -/
theorem MatchingEngine.ToldBy.fillStep {symbol : Symbol} {book : OrderBook} {side : Side} {qty : ℤ}
    {fill : FillResult} {maker : Order} {rest : List Order} (h : s.ToldBy listing) (hs : s.Sound G)
    (hfill : FillStep (s.bookFor symbol) book side qty fill maker rest)
    (hbooks : ∀ symbol', s'.bookFor symbol' = if symbol' = symbol then book else s.bookFor symbol') :
    s'.ToldBy (listing.trade fill.makerId fill.qty) := by
  rw [hfill.makerId]
  refine h.trade hs hfill.found fun symbol' id => ?_
  rw [resting, resting, hbooks]
  by_cases hsymbol : symbol' = symbol
  · subst hsymbol
    rw [if_pos rfl, hfill.findOrder_after]
    simp
  · rw [if_neg hsymbol, if_neg fun hc => hsymbol hc.1]

/-- A fill is told as a trade of the resting order alone. -/
theorem MatchingEngine.ToldBy.traded {t : Taker} {fill : FillResult} {book : OrderBook}
    {events : List Event} (h : s.ToldBy listing) (hs : s.Sound G) (hflight : s.InFlight t)
    (hnext : s.nextFill t = some (fill, book)) (hinert : ∀ e ∈ events, e.inert)
    (hbooks : ∀ symbol, s'.bookFor symbol = if symbol = t.symbol then book else s.bookFor symbol) :
    s'.ToldBy (listing.readAll (tradeEvent t fill :: events)) := by
  obtain ⟨maker, rest, hfill, -⟩ := nextFill_some (hs.book t.symbol) hnext
  have hfree : listing t.id = none :=
    h.eq_none_iff.mpr fun symbol => not_not.mp (hflight.free.rests symbol)
  have hrest := Listing.readAll_of_inert (listing.trade fill.makerId fill.qty) hinert
  rw [Listing.readAll] at hrest
  rw [Listing.readAll, List.foldl_cons, tradeEvent, Listing.read, Listing.trade_of_none _ hfree,
    hrest]
  exact h.fillStep hs hfill.toFillStep hbooks

/-- An auction trade that both orders can fill is told as a trade of both. -/
theorem MatchingEngine.ToldBy.auctionTraded {symbol : Symbol} {price traded : ℤ}
    {bid ask : FillResult} {book book' : OrderBook} (h : s.ToldBy listing) (hs : s.Sound G)
    (haligned : (s.bookFor symbol).Aligned traded)
    (hbid : (s.bookFor symbol).fillBestAtOrBetter .bid price traded = some (bid, book))
    (hask : book.fillBestAtOrBetter .ask price traded = some (ask, book')) :
    (s.auctionTraded symbol price traded bid.makerId ask.makerId book').ToldBy
      (listing.readAll (auctionTradeEvents symbol bid.makerId ask.makerId price traded)) := by
  obtain ⟨bidOrder, rest, hbidFill, -⟩ := fillBestAtOrBetter_some (hs.book symbol) hbid
  obtain ⟨askOrder, rest', haskFill, -⟩ := fillBestAtOrBetter_some hbidFill.wellFormed_after hask
  have hsame : book.sideOrders .ask = (s.bookFor symbol).sideOrders .ask :=
    hbidFill.sideOrders_opposite
  have hbidQty : bid.qty = traded := by
    rw [hbidFill.fill_qty, min_eq_left (haligned.1 bidOrder hbidFill.head)]
  have haskQty : ask.qty = traded := by
    rw [haskFill.fill_qty, min_eq_left (haligned.2 askOrder (hsame ▸ haskFill.head))]
  have hs₁ : (s.setBook symbol book).Sound G :=
    (narrows_setBook hs hbidFill.wellFormed_after
      (fun id hid => rests_of_fill hbidFill.toFillStep hid) rfl id).sound hs
  have hfirst : (s.setBook symbol book).ToldBy (listing.trade bid.makerId traded) :=
    hbidQty ▸ h.fillStep hs hbidFill.toFillStep fun symbol' => bookFor_setBook _ _ _ _
  have hbook : (s.setBook symbol book).bookFor symbol = book := by
    rw [bookFor_setBook, if_pos rfl]
  have hsecond : (s.auctionTraded symbol price traded bid.makerId ask.makerId book').ToldBy
      ((listing.trade bid.makerId traded).trade ask.makerId ask.qty) :=
    hfirst.fillStep hs₁ (hbook.symm ▸ haskFill.toFillStep) fun symbol' => by
      rw [bookFor_auctionTraded, bookFor_setBook]
      split_ifs <;> rfl
  rw [haskQty] at hsecond
  exact hsecond

/-- A cancel is told as the order's end. -/
theorem MatchingEngine.ToldBy.cancelled {id : OrderId} {owner : OrderOwnership}
    (h : s.ToldBy listing) (hs : s.Sound G)
    (howner : s.orderOwnershipById.lookup id = some owner) (hrests : s.Rests owner.symbol id) :
    (s.cancelResting owner.accountId owner.symbol id).ToldBy (listing.readAll
      (((s.bookFor owner.symbol).cancel id).1.map (Event.tagCanceled owner.symbol))) := by
  have hcancelled := cancelResting_cancelled hs howner hrests
  obtain ⟨top, hevents, hinert⟩ : ∃ top,
      ((s.bookFor owner.symbol).cancel id).1.map (Event.tagCanceled owner.symbol) =
        .orderCanceled id owner.symbol :: top ∧ ∀ e ∈ top, e.inert := by
    have hindexed : (s.bookFor owner.symbol).orderIndex.lookup id ≠ none :=
      fun hnone => hrests ((hs.book owner.symbol).findOrder_eq_none.mpr hnone)
    obtain ⟨entry, hentry⟩ := Option.ne_none_iff_exists'.mp hindexed
    unfold OrderBook.cancel
    rw [hentry]
    refine ⟨_, congrArg _ (topOfBook_tagCanceled _ _ _ _), inert_topOfBook⟩
  have hrest := Listing.readAll_of_inert (listing.update id none) hinert
  rw [Listing.readAll] at hrest
  rw [hevents, Listing.readAll, List.foldl_cons, Listing.read, hrest]
  refine h.update none (fun symbol' hne => ?_) hcancelled.resting
  by_contra hrests'
  exact hne (hs.rests_unique hrests' hrests)

/-- Every tick is told by its events. -/
theorem Tick.told {c c' : Config} {events : List Event}
    (hauction : ∀ {book price traded}, G.auction book price traded → book.Aligned traded)
    (hc : c.Sound G) (h : c.engine.ToldBy listing) (htick : Tick G c events c') :
    c'.engine.ToldBy (listing.readAll events) := by
  obtain ⟨hs, hflight⟩ := hc
  cases htick with
  | record hjournal hinert =>
    rw [Listing.readAll_of_inert _ hinert]
    exact h.congr fun symbol id => resting_of_frame (frame_of_unjournaled hjournal) symbol id
  | allocate s => exact h.congr fun _ _ => rfl
  | touch s symbol ha => exact h.congr fun _ _ => rfl
  | @stops s m pending events hevents hstops hpending =>
    have hkeep : listing.readAll events = listing := by
      refine Listing.readAll_of_still fun e he => ?_
      rcases hevents e he with hinert | ⟨id, symbol, hstop, rfl⟩
      · exact Listing.read_of_inert hinert
      · obtain ⟨stop, hstop⟩ := Option.ne_none_iff_exists'.mp hstop
        have hnone : listing id = none :=
          h.eq_none_iff.mpr fun symbol => not_not.mp (hs.stop_rests hstop symbol)
        exact Listing.update_none hnone
    rw [hkeep]
    exact h.congr fun _ _ => rfl
  | enter hadmits haccount hentry hphase hfok => exact h
  | fill hnext hin hhold hinert =>
    exact h.traded hs hflight.1 hnext hinert fun symbol => bookFor_filled _ _ _ _ _
  | breach hnext hout hinert =>
    exact h.traded hs hflight.1 hnext hinert fun symbol => bookFor_breached _ _ _ _ _
  | finish hnext => exact h
  | rest hpos htif => exact h.rested hs hflight.1 hpos
  | drop hleft => exact h
  | restAuction hadmits haccount hentry hphase =>
    exact h.rested hs hadmits.inFlight.1 hadmits.inFlight.2
  | cancel howner hrests => exact h.cancelled hs howner hrests
  | auctionTrade hqty hguard hbid hask => exact h.auctionTraded hs (hauction hguard) hbid hask
  | endAuction hphase => exact h.congr fun _ _ => rfl
  | halt s symbol reason => exact h.congr fun _ _ => rfl

end Ticks

/-- The operation returns, and no hidden order rests on the symbol of an auction that it ends. -/
def Op.Tells (op : Op) (s : MatchingEngine) : Prop := (op.returned s).isSome ∧ op.AuctionVisible s

instance (op : Op) (s : MatchingEngine) : Decidable (op.Tells s) :=
  inferInstanceAs (Decidable (_ ∧ _))

/-- What an operation returns tells how it changes the books. -/
theorem Op.told {op : Op} {s s' : MatchingEngine} {events : List Event} {listing : Listing}
    (hs : s.Sound alignedGuard) (hop : op.Tells s) (h : s.ToldBy listing)
    (hexec : op.exec s = .ok events s') : s'.ToldBy (listing.readAll events) := by
  by_cases hsetup : op.isSetup
  · rcases hsetup with hsetting | ⟨a, symbol, cash, qty, rfl⟩
    · obtain ⟨hunset, hinert⟩ := (Op.exec_setting hsetting s).returns hexec
      rw [Listing.readAll_of_inert _ hinert]
      exact h.congr fun symbol id => by
        rw [MatchingEngine.resting, MatchingEngine.resting, bookFor_of_unset hunset]
    · cases hexec
      exact h.congr fun _ _ => rfl
  · have hpath := (Op.exec_ticks hs (hop.2.guarded hs) hsetup).returns hexec
    have hreads := hpath.reads Listing.readAll
      (K := fun c listing => c.Sound alignedGuard ∧ c.engine.ToldBy listing) (fun _ => rfl)
      Listing.readAll_append (fun hK htick => ⟨Tick.sound hK.1 htick, Tick.told id hK.1 hK.2 htick⟩)
      (x := listing) ⟨⟨hs, trivial⟩, h⟩
    exact hreads.2

/-- In every run whose operations return and whose auctions see no hidden order, the events tell
which orders rest, and how much of each. -/
theorem events_tell_books {ops : List (Op × List Event)} {s : MatchingEngine}
    (h : Run (fun _ s op => op.Tells s) fresh ops s) :
    s.ToldBy (Listing.readAll (fun _ => none) (ops.flatMap Prod.snd)) := by
  suffices hall : s.Sound alignedGuard ∧
      s.ToldBy (Listing.readAll (fun _ => none) (ops.flatMap Prod.snd)) from hall.2
  induction h with
  | nil =>
    refine ⟨sound_fresh _, fun id listed => ?_⟩
    constructor
    · intro hnone
      cases hnone
    · rintro ⟨order, horder, -⟩
      cases horder
  | @returns s s' ops op events _ hop hexec ih =>
    obtain ⟨hs, htold⟩ := ih
    refine ⟨(Op.exec_sound hs (hop.2.guarded hs)).returns hexec, ?_⟩
    rw [List.flatMap_append, List.flatMap_singleton, Listing.readAll_append]
    exact Op.told hs hop htold hexec
  | throws _ hop hexec =>
    have hreturns := hop.1
    unfold Op.returned at hreturns
    rw [hexec] at hreturns
    cases hreturns

/-- Offers of every kind, a bid that takes some, a cancel, a replacement and an auction. -/
def mixedDay : List Op :=
  [.setAccountState 1 "X" 0 20, .setAccountState 2 "X" 5000 0,
    .placeLimitOrder 1 "X" .ask 100 3 .gtc, .placeIcebergOrder 1 "X" .ask 100 5 2,
    .placeHiddenOrder 1 "X" .ask 101 4, .placeLimitOrder 2 "X" .bid 100 4 .gtc, .cancel 1 3,
    .placeLimitOrder 2 "X" .bid 98 2 .gtc, .replaceOrder 2 5 99 1,
    .setTradingPhase "X" .openingAuction, .placeLimitOrder 2 "X" .bid 103 3 .gtc, .uncross "X"]

theorem events_tell_mixedDay :
    (fresh.applyAll mixedDay).ToldBy (Listing.readAll (fun _ => none)
      ((fresh.history mixedDay).flatMap Prod.snd)) ∧
    [1, 2, 3, 4, 5, 6].map (Listing.readAll (fun _ => none)
      ((fresh.history mixedDay).flatMap Prod.snd)) =
        [none, some ⟨"X", .ask, 100, 3⟩, none, none, some ⟨"X", .bid, 99, 1⟩,
          some ⟨"X", .bid, 103, 2⟩] := by
  constructor
  · exact events_tell_books (Run.ofOps mixedDay (by decide +kernel))
  · decide +kernel

end Tes
