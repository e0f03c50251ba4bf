import Tes.Ledger.Funding
import Tes.Library.ProRata

/-! The margin that a resting sell order keeps for its short part, through any moves of the engine
that fill it. -/
namespace Tes
open OrderBook MatchingEngine Flight Transition EStateM

/-- The resting order of a trade. -/
def Event.maker : Event → Option OrderId
  | .tradeExecuted _ makerId .. => some makerId
  | _ => none

/-- The trades of an order that rests. -/
def fillsOf (id : OrderId) (events : List Event) : ℕ := events.countP fun e => e.maker = some id

/-- The fill that an operation which throws has no event of. -/
def Config.cutOff (c : Config) (id : OrderId) : ℕ :=
  match c.flight with
  | matching t => if ∃ next ∈ c.engine.nextFill t, next.1.makerId = id then 1 else 0
  | _ => 0

/-- The engine goes on, within an operation or to the next one; the number is that of an order's
fills. -/
inductive Proceeds : Config → (OrderId → ℕ) → Config → Prop
  | tick {c c' : Config} {events : List Event} : Tick {} c events c' →
      Proceeds c (fun id => fillsOf id events) c'
  | abort {c : Config} {s' : MatchingEngine} : c.AbortsTo s' → Proceeds c c.cutOff ⟨s', idle⟩
  | setup {s : MatchingEngine} {op : Op} : op.isSetup → Proceeds ⟨s, idle⟩ (fun _ => 0) ⟨op.apply s, idle⟩

/-- What the engine comes to from a fresh start. -/
inductive Comes : Config → Prop
  | fresh : Comes ⟨fresh, idle⟩
  | move {c c' : Config} {fills : OrderId → ℕ} : Comes c → Proceeds c fills c' → Comes c'

theorem Comes.ticks {c c' : Config} {events : List Event} (hc : Comes c)
    (h : Path (Tick {}) c events c') : Comes c' := by
  induction h with
  | refl => exact hc
  | step htick _ ih => exact ih (hc.move (.tick htick))

theorem Op.exec_comes {s : MatchingEngine} (op : Op) (hs : s.Sound {}) (hc : Comes ⟨s, idle⟩) :
    Outcome op.exec s (fun _ s' => Comes ⟨s', idle⟩) fun _ s' => Comes ⟨s', idle⟩ := by
  by_cases hsetup : op.isSetup
  · have hnext := hc.move (.setup hsetup)
    unfold Op.apply at hnext
    unfold Outcome
    cases hexec : op.exec s with
    | ok events s' =>
      rw [hexec] at hnext
      exact hnext
    | error e s' =>
      rw [hexec] at hnext
      exact hnext
  · refine (Op.exec_ticks hs (Op.guarded_trivial op s) hsetup).mono
      (fun _ _ hpath => hc.ticks hpath) fun _ _ habort => ?_
    obtain ⟨_, c', hpath, hthrow⟩ := habort
    exact (hc.ticks hpath).move (.abort hthrow)

/-- Every run is a sequence of moves. -/
theorem Run.comes {ops : List (Op × List Event)} {s : MatchingEngine}
    (h : Run (fun _ _ _ => True) fresh ops s) : Comes ⟨s, idle⟩ := by
  have hboth : s.Sound {} ∧ Comes ⟨s, idle⟩ := by
    refine h.invariant (I := fun s => s.Sound {} ∧ Comes ⟨s, idle⟩) ⟨sound_fresh _, .fresh⟩ ?_
    intro ops s op hI _
    have hsound := Op.exec_sound hI.1 (Op.guarded_trivial op s)
    have hcomes := op.exec_comes hI.1 hI.2
    unfold Outcome at hsound hcomes ⊢
    cases hexec : op.exec s with
    | ok events s' =>
      rw [hexec] at hsound hcomes
      exact ⟨hsound, hcomes⟩
    | error e s' =>
      rw [hexec] at hsound hcomes
      exact ⟨hsound, hcomes⟩
  exact hboth.2

theorem Op.apply_setup {op : Op} (h : op.isSetup) (s : MatchingEngine) :
    (op.apply s).unset = s.unset ∨
      ∃ a symbol cash qty, op.apply s =
        s.updateAccount a fun account => account.withState symbol cash qty := by
  rcases h with hsetting | ⟨a, symbol, cash, qty, rfl⟩
  · have hkeep := Op.exec_setting hsetting s
    unfold Outcome at hkeep
    unfold Op.apply
    cases hexec : op.exec s with
    | ok events s' =>
      rw [hexec] at hkeep
      exact Or.inl hkeep.1
    | error e s' =>
      rw [hexec] at hkeep
      exact Or.inl (congrArg _ hkeep.1)
  · exact Or.inr ⟨a, symbol, cash, qty, rfl⟩

/-- The entries of short margin and of position are never negative. -/
def MatchingEngine.Nonneg (s : MatchingEngine) : Prop :=
  ∀ kind, kind ≠ .cash → ∀ id, 0 ≤ s.reserveOf kind id

theorem MatchingEngine.Nonneg.congr {s s' : MatchingEngine} (hs : s.Nonneg)
    (h : ∀ kind, s'.reserves kind = s.reserves kind) : s'.Nonneg := by
  intro kind hkind id
  rw [reserveOf, h, ← reserveOf]
  exact hs kind hkind id

theorem Change.nonneg {G : Guard} {aligned clean : Prop} {c c' : Config} (hc : c.engine.Nonneg)
    (h : Change G aligned clean c c') : c'.engine.Nonneg := by
  cases h with
  | still hstill hholdings => exact hc.congr hstill.entries
  | raise haccount hstill hraise => exact hc.congr hstill.entries
  | enter hadmits haccount hentry => exact hc
  | take hstill hpos hle hcross hsettled => exact hc.congr hstill.entries
  | @make s s' flight symbol maker price traded taken fee hmake =>
    intro kind hkind id
    by_cases hid : id = maker.id
    · rw [hid, (hmake.shifts kind).entry]
      exact makerDelta_ge _ _ _ (hc kind hkind maker.id)
    · rw [reserveOf_of_lookup ((hmake.shifts kind).others id hid)]
      exact hc kind hkind id
  | finish => exact hc
  | @rest s s' t hrest =>
    intro kind hkind id
    have hsets := hrest.sets kind
    by_cases hid : id = t.id
    · rw [hid]
      rcases hsets.entry with hset | ⟨-, hsame⟩
      · rw [hset]
        cases kind with
        | cash => exact absurd rfl hkind
        | qty =>
          unfold Taker.reserve
          dsimp only
          split_ifs
          · exact longReserveOf_nonneg _ _ _ hrest.pos.le
          · exact le_rfl
        | shortMargin =>
          unfold Taker.reserve
          dsimp only
          split_ifs
          · exact le_max_left _ _
          · exact le_rfl
      · rw [reserveOf_of_lookup hsame]
        exact hc kind hkind t.id
    · rw [reserveOf_of_lookup (hsets.others id hid)]
      exact hc kind hkind id
  | drop => exact hc
  | @cancel s s' id owner hcancel =>
    intro kind hkind id'
    by_cases hid : id' = id
    · have hzero : s'.reserveOf kind id = 0 := by
        rw [reserveOf, Finmap.valueD, hcancel.cleared]
        rfl
      rw [hid, hzero]
    · rw [reserveOf_of_lookup ((hcancel.shifts kind).others id' hid)]
      exact hc kind hkind id'

/-- What the moves of the engine keep. -/
structure Config.Kept (c : Config) : Prop where
  sound : c.Sound {}
  owned : c.engine.Owned
  nonneg : c.engine.Nonneg

theorem Config.Kept.changes {aligned clean : Prop} {c c' : Config} (hsound : c'.Sound {})
    (hc : c.Kept) (h : Relation.ReflTransGen (Change {} aligned clean) c c') : c'.Kept := by
  refine ⟨hsound, ?_, ?_⟩
  · clear hsound
    induction h with
    | refl => exact hc.owned
    | tail _ hchange ih => exact hchange.owned ih
  · clear hsound
    induction h with
    | refl => exact hc.nonneg
    | tail _ hchange ih => exact hchange.nonneg ih

theorem Proceeds.kept {c c' : Config} {fills : OrderId → ℕ} (hc : c.Kept) (h : Proceeds c fills c') :
    c'.Kept := by
  cases h with
  | tick htick =>
    have hchanges : Relation.ReflTransGen (Change {} False False) c c' :=
      htick.changes (fun h => h.elim) hc.sound fun h => h.elim
    exact hc.changes (Tick.sound hc.sound htick) hchanges
  | abort habort =>
    have hchanges : Relation.ReflTransGen (Change {} False False) c ⟨_, idle⟩ :=
      habort.changes hc.sound
    exact hc.changes ⟨habort.sound hc.sound, trivial⟩ hchanges
  | @setup s op hsetup =>
    have hsound : (op.apply s).Sound {} := by
      have hexec := Op.exec_sound hc.sound.1 (Op.guarded_trivial op s)
      unfold Outcome at hexec
      unfold Op.apply
      split
      · next h =>
        rw [h] at hexec
        exact hexec
      · next h =>
        rw [h] at hexec
        exact hexec
    refine ⟨⟨hsound, trivial⟩, ?_, ?_⟩
    · rcases Op.apply_setup hsetup s with hunset | ⟨a, symbol, cash, qty, hstate⟩
      · refine hc.owned.congr (fun symbol id => ?_) (owners_of_unset hunset)
        change (op.apply s).resting symbol id = s.resting symbol id
        rw [MatchingEngine.resting, MatchingEngine.resting, bookFor_of_unset hunset]
      · change (op.apply s).Owned
        rw [hstate]
        exact hc.owned.congr (fun _ _ => rfl) rfl
    · rcases Op.apply_setup hsetup s with hunset | ⟨a, symbol, cash, qty, hstate⟩
      · exact hc.nonneg.congr (reserves_of_money (money_of_unset hunset))
      · change (op.apply s).Nonneg
        rw [hstate]
        exact hc.nonneg.congr fun kind => by cases kind <;> rfl

theorem Comes.kept {c : Config} (h : Comes c) : c.Kept := by
  induction h with
  | fresh =>
    constructor
    · exact ⟨sound_fresh _, trivial⟩
    · intro symbol id order horder
      cases horder
    · intro kind _ id
      cases kind <;> exact le_rfl
  | move _ hmove ih => exact hmove.kept ih

/-! What a move does to a resting sell order. -/
namespace MatchingEngine

/-- The order, its owner's record and its reserves stay as they are. -/
structure Spares (s s' : MatchingEngine) (symbol : Symbol) (id : OrderId) : Prop where
  resting : s'.resting symbol id = s.resting symbol id
  owner : s'.orderOwnershipById.lookup id = s.orderOwnershipById.lookup id
  entries : ∀ kind, s'.reserveOf kind id = s.reserveOf kind id

/-- The order trades, and gives up its reserved position first but its margin pro rata. -/
structure Serves (s s' : MatchingEngine) (symbol : Symbol) (order : Order) (traded : ℤ) : Prop where
  pos : 0 < traded
  resting : s'.resting symbol order.id = survivor order traded
  qty : s'.reserveOf .qty order.id =
    s.reserveOf .qty order.id - min (s.reserveOf .qty order.id) traded
  margin : s'.reserveOf .shortMargin order.id = s.reserveOf .shortMargin order.id -
    boundedRelease (s.reserveOf .shortMargin order.id) traded (s.ownedQty order.id traded)

section Serves
variable {s s₁ s' : MatchingEngine} {symbol symbol' : Symbol} {id : OrderId} {order maker : Order}
  {price traded taken fee : ℤ} {aligned clean : Prop}

theorem Undisturbed.spares (h : s.Undisturbed s') (symbol : Symbol) (id : OrderId) :
    s.Spares s' symbol id where
  resting := h.resting symbol id
  owner := by rw [h.owners]
  entries kind := by rw [reserveOf, h.entries, ← reserveOf]

theorem Spares.trans {s'' : MatchingEngine} (h : s.Spares s' symbol id)
    (h' : s'.Spares s'' symbol id) : s.Spares s'' symbol id :=
  ⟨h'.resting.trans h.resting, h'.owner.trans h.owner,
    fun kind => (h'.entries kind).trans (h.entries kind)⟩

theorem Makes.spares (h : Makes aligned clean s s' symbol' maker price traded taken fee)
    (hid : id ≠ maker.id) : s.Spares s' symbol id where
  resting := by rw [h.resting, if_neg fun hboth => hid hboth.2]
  owner := h.others id hid
  entries kind := reserveOf_of_lookup ((h.shifts kind).others id hid)

theorem Rested.spares {t : Taker} (h : s.Rested s' t) (hid : id ≠ t.id) :
    s.Spares s' symbol id where
  resting := by rw [h.resting, if_neg fun hboth => hid hboth.2.1]
  owner := by rw [h.owners, if_neg hid]
  entries kind := reserveOf_of_lookup ((h.sets kind).others id hid)

theorem Cancelled.spares {id' : OrderId} {owner : OrderOwnership} (h : s.Cancelled s' id' owner)
    (hid : id ≠ id') : s.Spares s' symbol id where
  resting := by rw [h.resting, if_neg fun hboth => hid hboth.2]
  owner := by rw [h.owners, if_neg hid]
  entries kind := reserveOf_of_lookup ((h.shifts kind).others id hid)

/-- The resting order of a trade, while something is left of it. -/
theorem Makes.serves (h : Makes aligned clean s s' symbol maker price traded taken fee)
    (hside : maker.side = .ask) (hleft : s'.resting symbol maker.id ≠ none) :
    s.Serves s' symbol maker traded := by
  have hresting : s'.resting symbol maker.id = survivor maker taken := by
    rw [h.resting, if_pos ⟨rfl, rfl⟩]
  have htaken : taken = traded := by
    rcases h.covers with heq | ⟨-, hgone⟩
    · exact heq
    · rw [hresting] at hleft
      exact absurd hgone hleft
  have hqty := (h.shifts .qty).entry
  have hmargin := (h.shifts .shortMargin).entry
  rw [hside] at hqty hmargin
  constructor
  · exact htaken ▸ h.pos
  · rw [hresting, htaken]
  · rw [hqty]
    simp only [makerDelta, ReserveKind.side, if_true, releaseOf]
    omega
  · rw [hmargin]
    simp only [makerDelta, ReserveKind.side, if_true, releaseOf]
    omega

theorem Spares.serves (hsame : s.Spares s₁ symbol order.id)
    (h : s₁.Serves s' symbol order traded) : s.Serves s' symbol order traded := by
  have howned : s₁.ownedQty order.id traded = s.ownedQty order.id traded := by
    rw [ownedQty, ownedQty, hsame.owner]
  refine ⟨h.pos, h.resting, ?_, ?_⟩
  · rw [h.qty, hsame.entries]
  · rw [h.margin, hsame.entries, howned]

/-- An id rests in one book only. -/
theorem Sound.symbol_unique (hs : s.Sound {}) (horder : s.resting symbol id = some order)
    (hrests : s.resting symbol' id ≠ none) : symbol' = symbol := by
  apply hs.rests_unique hrests
  unfold Rests
  rw [show (s.bookFor symbol).findOrder id = some order from horder]
  exact Option.some_ne_none order

/-- A trade of some resting order, seen from a sell order that rests before and after. -/
theorem Makes.serves_or_spares (hs : s.Sound {}) (hsame : ∀ symbol, s.Spares s₁ symbol id)
    (h : Makes aligned clean s₁ s' symbol' maker price traded taken fee)
    (horder : s.resting symbol id = some order) (hside : order.side = .ask)
    (hleft : s'.resting symbol id ≠ none) :
    s.Spares s' symbol id ∨ maker.id = id ∧ s.Serves s' symbol order traded := by
  by_cases hid : id = maker.id
  · subst hid
    have hfound := h.found
    rw [(hsame symbol').resting] at hfound
    have hsymbol : symbol' = symbol :=
      hs.symbol_unique horder (by rw [hfound]; exact Option.some_ne_none maker)
    subst hsymbol
    rw [horder] at hfound
    cases hfound
    exact Or.inr ⟨rfl, (hsame symbol').serves (h.serves hside hleft)⟩
  · exact Or.inl ((hsame symbol).trans (h.spares hid))

end Serves
end MatchingEngine

section Moves
variable {c c' : Config} {symbol : Symbol} {id : OrderId} {order : Order}

/-- A fill, with or without what follows it. -/
theorem fill_serves {s r : MatchingEngine} (s' : MatchingEngine) {t : Taker} {fill : FillResult}
    {book : OrderBook} (hs : s.Sound {}) (hnext : s.nextFill t = some (fill, book))
    (hfree : (s.paid t fill book).Frees r (s.ownerAccountId fill.makerId) t.symbol
      t.side.opposite fill.makerId (s.makerDelta t.side.opposite fill.makerId fill.qty
        (s.ownedQty fill.makerId fill.qty)))
    (howners : r.orderOwnershipById = s.orderOwnershipById)
    (hbooks : s'.books = r.books) (haccounts : s'.accounts = r.accounts)
    (hreserves : ∀ kind, s'.reserves kind = r.reserves kind) (hsettings : r.SameSettings s')
    (howner : s' = r.updateOwner fill ∨ s'.orderOwnershipById = r.orderOwnershipById)
    (horder : s.resting symbol id = some order) (hside : order.side = .ask)
    (hleft : s'.resting symbol id ≠ none) :
    s.Spares s' symbol id ∨ fill.makerId = id ∧ s.Serves s' symbol order fill.qty := by
  obtain ⟨maker, hid, -, -, -, hmake⟩ := @fill_makes False False s r s' t fill book
    (hs.book _) hnext hfree howners hbooks haccounts hreserves hsettings
    (howner.imp_right fun hsame => ⟨not_false, hsame⟩)
  have hpaid : s.Undisturbed (s.takerPaid t maker.price fill.qty) := by
    refine ⟨fun _ _ => rfl, rfl, fun kind b symbol => ?_, fun kind => ?_, ⟨rfl, rfl, rfl⟩⟩
    · exact reserved_updateAccount_settle _ _ _ _ _ _ _ _ _ _
    · cases kind <;> rfl
  rw [← hid]
  exact hmake.serves_or_spares hs (fun symbol => hpaid.spares symbol id) horder hside hleft

/-- An order on its way has an id of its own. -/
theorem ne_of_free {s : MatchingEngine} {t : Taker} (hfree : s.Free t.symbol t.id)
    (horder : s.resting symbol id = some order) : id ≠ t.id := by
  rintro rfl
  apply hfree.rests symbol
  unfold Rests
  rw [show (s.bookFor symbol).findOrder t.id = some order from horder]
  exact Option.some_ne_none order

theorem fillsOf_trade {t : Taker} {fill : FillResult} {events : List Event}
    (hid : fill.makerId = id) : 1 ≤ fillsOf id (tradeEvent t fill :: events) := by
  unfold fillsOf
  rw [List.countP_cons_of_pos]
  · omega
  · simp [tradeEvent, Event.maker, hid]

theorem Tick.serves {events : List Event} (hc : c.Kept) (h : Tick {} c events c')
    (horder : c.engine.resting symbol id = some order) (hside : order.side = .ask)
    (hleft : c'.engine.resting symbol id ≠ none) :
    c.engine.Spares c'.engine symbol id ∨
      1 ≤ fillsOf id events ∧ ∃ traded, c.engine.Serves c'.engine symbol order traded := by
  obtain ⟨⟨hs, hflight⟩, howned, -⟩ := hc
  cases h with
  | record hjournal hinert =>
    exact Or.inl ((Undisturbed.of_still (still_journal hjournal)).spares symbol id)
  | allocate s => exact Or.inl ⟨rfl, rfl, fun kind => by cases kind <;> rfl⟩
  | touch s symbol ha => exact Or.inl ⟨rfl, rfl, fun kind => by cases kind <;> rfl⟩
  | stops hevents hstops hpending => exact Or.inl ⟨rfl, rfl, fun kind => by cases kind <;> rfl⟩
  | enter => exact Or.inl ⟨rfl, rfl, fun _ => rfl⟩
  | @fill s t fill book events hnext hin hhold hinert =>
    have hpos := nextFill_qty_pos hs hnext
    have hserves := fill_serves (s.filled t fill book) hs hnext (journaled_frees s t hpos.le book)
      ((owners_of_frame (frame_journaled s t fill book)).trans rfl)
      (read_updateOwner MatchingEngine.books (fun _ _ => rfl) _ _) (accounts_updateOwner _ _)
      (fun kind => read_updateOwner (fun s => s.reserves kind) (fun _ _ => by cases kind <;> rfl) _ _)
      (sameSettings_updateOwner _ _) (Or.inl rfl) horder hside hleft
    exact hserves.imp_right fun hserved => ⟨fillsOf_trade hserved.1, fill.qty, hserved.2⟩
  | @breach s t fill book events hnext hout hinert =>
    have hpos := nextFill_qty_pos hs hnext
    have hserves := fill_serves (s.breached t fill book) hs hnext (settleFill_frees s t hpos.le book)
      ((owners_of_frame (frame_settleFill s t fill book)).trans rfl) rfl rfl
      (fun kind => by cases kind <;> rfl) ⟨rfl, rfl, rfl⟩ (Or.inr rfl) horder hside hleft
    exact hserves.imp_right fun hserved => ⟨fillsOf_trade hserved.1, fill.qty, hserved.2⟩
  | finish hnext => exact Or.inl ⟨rfl, rfl, fun _ => rfl⟩
  | drop => exact Or.inl ⟨rfl, rfl, fun _ => rfl⟩
  | endAuction => exact Or.inl ⟨rfl, rfl, fun kind => by cases kind <;> rfl⟩
  | halt => exact Or.inl ⟨rfl, rfl, fun kind => by cases kind <;> rfl⟩
  | @rest s t hpos htif =>
    exact Or.inl ((rested_rested hs hflight.1 hpos).spares (ne_of_free hflight.1.free horder))
  | @restAuction s t hadmits haccount hentry hphase =>
    have hflight := hadmits.inFlight
    exact Or.inl ((rested_rested hs hflight.1 hflight.2).spares
      (ne_of_free hflight.1.free horder))
  | @cancel s id' owner howner hrests =>
    have hcancelled := cancelResting_cancelled hs howner hrests
    by_cases hid : id = id'
    · -- The order itself is cancelled.
      subst hid
      have hsymbol := hs.symbol_unique horder hrests
      dsimp only at hleft
      rw [hcancelled.resting, if_pos ⟨hsymbol.symm, rfl⟩] at hleft
      exact absurd rfl hleft
    · exact Or.inl (hcancelled.spares hid)
  | @auctionTrade s symbol' price remaining traded bid ask book book' hqty hguard hbid hask =>
    obtain ⟨bidOrder, rest, hbidFill, hbidPrice⟩ := fillBestAtOrBetter_some (hs.book symbol') hbid
    obtain ⟨askOrder, rest', haskFill, haskPrice⟩ :=
      fillBestAtOrBetter_some hbidFill.wellFormed_after hask
    have hsame : book.sideOrders .ask = (s.bookFor symbol').sideOrders .ask :=
      hbidFill.sideOrders_opposite
    have hbidCovers := nextAuctionQty_covered (hs.book symbol') hqty hbidFill rfl
    have haskCovers := nextAuctionQty_covered (hs.book symbol') hqty haskFill hsame
    have hfirst : Makes False False s _ symbol' bidOrder price traded bid.qty _ :=
      bidTraded_makes hbidFill.toFillStep (hbidCovers.imp_right fun h => ⟨h.1, h.2.1⟩)
        (fun h => h.elim) hbidPrice
    have hsecond := askTraded_makes hbidFill.toFillStep haskFill.toFillStep hfirst
      (haskCovers.imp_right fun h => ⟨h.1, h.2.1⟩) (fun h => h.elim) haskPrice
    -- A sell order is not the bid of an auction trade.
    have hne : id ≠ bidOrder.id := by
      rintro rfl
      have hfound := hfirst.found
      have hsymbol : symbol' = symbol :=
        hs.symbol_unique horder (by rw [hfound]; exact Option.some_ne_none bidOrder)
      rw [hsymbol, horder] at hfound
      cases hfound
      have hbidSide := hbidFill.toFillStep.placed.side
      rw [hside] at hbidSide
      cases hbidSide
    rw [hbidFill.makerId, haskFill.makerId] at hleft ⊢
    have hserves := hsecond.serves_or_spares hs (fun symbol => hfirst.spares hne) horder hside hleft
    refine hserves.imp_right fun hserved => ⟨?_, traded, hserved.2⟩
    unfold fillsOf auctionTradeEvents
    rw [List.countP_cons_of_pos]
    · omega
    · simp [Event.maker, hserved.1]

theorem Proceeds.serves {fills : OrderId → ℕ} (hc : c.Kept) (h : Proceeds c fills c')
    (horder : c.engine.resting symbol id = some order) (hside : order.side = .ask)
    (hleft : c'.engine.resting symbol id ≠ none) :
    c.engine.Spares c'.engine symbol id ∨
      1 ≤ fills id ∧ ∃ traded, c.engine.Serves c'.engine symbol order traded := by
  cases h with
  | tick htick => exact htick.serves hc horder hside hleft
  | @abort c s' habort =>
    obtain ⟨s, flight⟩ := c
    cases flight with
    | idle =>
      rw [show s' = s from habort.1]
      exact Or.inl ⟨rfl, rfl, fun _ => rfl⟩
    | matching t =>
      obtain ⟨fill, book, hnext, -, -, rfl⟩ := habort
      have hpos := nextFill_qty_pos hc.sound.1 hnext
      have hserves := fill_serves (s.journaled t fill book) hc.sound.1 hnext
        (journaled_frees s t hpos.le book)
        ((owners_of_frame (frame_journaled s t fill book)).trans rfl) rfl rfl (fun _ => rfl)
        ⟨rfl, rfl, rfl⟩ (Or.inr rfl) horder hside hleft
      refine hserves.imp_right fun hserved => ⟨?_, fill.qty, hserved.2⟩
      have hcut : ∃ next ∈ s.nextFill t, next.1.makerId = id := ⟨_, hnext, hserved.1⟩
      unfold Config.cutOff
      dsimp only
      rw [if_pos hcut]
    | matched t => exact habort.elim
  | @setup s op hsetup =>
    apply Or.inl
    dsimp only
    rcases Op.apply_setup hsetup s with hunset | ⟨a, symbol', cash, qty, hstate⟩
    · constructor
      · rw [MatchingEngine.resting, MatchingEngine.resting, bookFor_of_unset hunset]
      · rw [owners_of_unset hunset]
      · intro kind
        rw [reserveOf, reserves_of_money (money_of_unset hunset), ← reserveOf]
    · rw [hstate]
      exact ⟨rfl, rfl, fun kind => by cases kind <;> rfl⟩

end Moves

/-- The engine goes on while the order rests and its account's risk settings stay as they are; the
number is that of the order's fills. -/
inductive Fills (a : AccountId) (symbol : Symbol) (id : OrderId) : Config → ℕ → Config → Prop
  | refl (c : Config) : Fills a symbol id c 0 c
  | move {c c' c'' : Config} {k : ℕ} {fills : OrderId → ℕ} : Fills a symbol id c k c' →
      Proceeds c' fills c'' → c''.engine.Rests symbol id →
      c''.engine.effectiveRiskConfig a = c'.engine.effectiveRiskConfig a →
      Fills a symbol id c (k + fills id) c''

namespace MatchingEngine

/-- The units of a resting order that no reserved position backs. -/
def shortUnits (s : MatchingEngine) (order : Order) : ℤ :=
  totalRemainingQty order - s.reserveOf .qty order.id

/-- The margin of a resting sell order is that of its short units, but for one unit of rounding for
each fill. -/
def Margined (s : MatchingEngine) (a : AccountId) (symbol : Symbol) (order : Order) (fills : ℕ) :
    Prop :=
  s.shortMarginReserve a symbol order.price (s.shortUnits order) - fills ≤
    s.reserveOf .shortMargin order.id

instance (s : MatchingEngine) (a : AccountId) (symbol : Symbol) (order : Order) (fills : ℕ) :
    Decidable (s.Margined a symbol order fills) := inferInstanceAs (Decidable (_ ≤ _))

/-- The share of the margin that any number of the units keeps is the margin of those of them that
are short, but for one unit of rounding. -/
def SharesSuffice (s : MatchingEngine) (a : AccountId) (symbol : Symbol) (order : Order) : Prop :=
  ∀ n, 0 < n → n < totalRemainingQty order →
    (s.shortMarginReserve a symbol order.price (min (s.shortUnits order) n) - 1) *
      totalRemainingQty order ≤ s.reserveOf .shortMargin order.id * n

/-- The margin of a resting order is ample for its short units. -/
def AmpleFor (s : MatchingEngine) (need : ℤ → ℤ) (slack : ℤ) (order : Order) : Prop :=
  ProRata.Ample need slack (totalRemainingQty order) (s.shortUnits order)
    (s.reserveOf .shortMargin order.id)

section Ample
variable {s s' : MatchingEngine} {symbol : Symbol} {id : OrderId} {order left : Order} {traded : ℤ}
  {need : ℤ → ℤ} {slack : ℤ}

theorem Sound.resting_pos (hs : s.Sound {}) (horder : s.resting symbol id = some order) :
    0 < totalRemainingQty order ∧ order.id = id := by
  obtain ⟨hwf, hid⟩ := (hs.book symbol).findOrder_wellFormed horder
  exact ⟨hwf.total_pos, hid⟩

/-- The position goes first, so what is short stays short until the rest is. -/
theorem shortUnits_serves (hnonneg : s.Nonneg) (h : s.Serves s' symbol order traded)
    (hleft : Survives order traded left) :
    s'.shortUnits left = min (s.shortUnits order) (totalRemainingQty left) := by
  have hqty := h.qty
  have hpos := h.pos
  have hreserved := hnonneg .qty (by decide) order.id
  unfold shortUnits
  rw [hleft.id, hleft.total, hqty]
  omega

theorem boundedRelease_kept {reserved qty whole : ℤ} (hwhole : 0 < whole) :
    reserved - boundedRelease reserved qty whole = ProRata.kept reserved qty whole := by
  unfold boundedRelease ProRata.kept
  rw [if_neg (not_le.mpr hwhole)]

/-- A fill keeps the margin ample, with one more unit of slack. -/
theorem AmpleFor.serves (hs' : s'.Sound {}) (howned : s.Owned) (hnonneg : s.Nonneg)
    (horder : s.resting symbol order.id = some order) (h : s.Serves s' symbol order traded)
    (hleft : s'.resting symbol order.id = some left) (hample : s.AmpleFor need slack order) :
    s'.AmpleFor need (slack + 1) left := by
  have hsurvives := survivor_some (h.resting.symm.trans hleft)
  have htotal := hsurvives.total
  have hpos := h.pos
  obtain ⟨hleftPos, -⟩ := hs'.resting_pos hleft
  obtain ⟨owner, howner, hrecord⟩ := howned symbol order.id order horder
  have hrecorded : s.ownedQty order.id traded = owner.qty := by
    rw [ownedQty, howner]
    rfl
  have hqty := hrecord.qty
  have hmargin : s'.reserveOf .shortMargin left.id =
      ProRata.kept (s.reserveOf .shortMargin order.id) traded owner.qty := by
    rw [hsurvives.id, h.margin, hrecorded, boundedRelease_kept (by omega)]
  unfold AmpleFor
  rw [shortUnits_serves hnonneg h hsurvives, htotal, hmargin]
  apply ProRata.Ample.use hample hpos (by omega)
  exact ProRata.kept_mono (hnonneg .shortMargin (by decide) order.id) (by omega) hpos.le (by omega)
    hqty

theorem AmpleFor.spares (hid : order.id = id) (h : s.Spares s' symbol id)
    (hample : s.AmpleFor need slack order) : s'.AmpleFor need slack order := by
  subst hid
  unfold AmpleFor shortUnits
  rw [h.entries, h.entries]
  exact hample

end Ample
end MatchingEngine

/-- Through any moves that an order outlasts, its margin stays ample, with a unit of slack for every
fill. -/
theorem Fills.ample {a : AccountId} {symbol : Symbol} {order : Order} {c c' : Config} {k : ℕ}
    {need : ℤ → ℤ} (h : Fills a symbol order.id c k c') (hc : Comes c)
    (horder : c.engine.resting symbol order.id = some order) (hside : order.side = .ask)
    (hample : c.engine.AmpleFor need 0 order) :
    Comes c' ∧ c'.engine.effectiveRiskConfig a = c.engine.effectiveRiskConfig a ∧
      ∃ left, c'.engine.resting symbol order.id = some left ∧ left.id = order.id ∧
        left.side = .ask ∧ left.price = order.price ∧ c'.engine.AmpleFor need k left := by
  induction h with
  | refl => exact ⟨hc, rfl, order, horder, rfl, hside, rfl, hample⟩
  | move _ hmove hrests hconfig ih =>
    obtain ⟨hc', hsame, left, hleft, hid, hask, hprice, hample'⟩ := ih
    refine ⟨hc'.move hmove, hconfig.trans hsame, ?_⟩
    rcases hmove.serves hc'.kept hleft hask hrests with hspares | ⟨hcount, traded, hserves⟩
    · refine ⟨left, hspares.resting.trans hleft, hid, hask, hprice, ?_⟩
      exact (AmpleFor.spares hid hspares hample').mono (by push_cast; omega)
    · rw [← hid] at hleft hrests hcount
      obtain ⟨left', hleft'⟩ := Option.ne_none_iff_exists'.mp hrests
      have hsurvives := survivor_some (hserves.resting.symm.trans hleft')
      rw [← hid]
      refine ⟨left', hleft', hsurvives.id, hsurvives.side.trans hask,
        hsurvives.price.trans hprice, ?_⟩
      have hkept := hc'.kept
      have hnext := AmpleFor.serves (hc'.move hmove).kept.sound.1 hkept.owned hkept.nonneg hleft
        hserves hleft' hample'
      exact hnext.mono (by push_cast; omega)

/-- The order comes to rest, when it has matched or in an auction phase. -/
inductive RestsFrom (s : MatchingEngine) (t : Taker) : Prop
  | matched : Comes ⟨s, matched t⟩ → 0 < t.remaining → t.tif ≠ .ioc → RestsFrom s t
  | auction : Comes ⟨s, idle⟩ → s.Admits t → s.inAuction t.symbol → RestsFrom s t

section Rest
variable {s : MatchingEngine} {t : Taker} {order : Order}

theorem RestsFrom.comes (h : RestsFrom s t) : Comes ⟨t.rested s, idle⟩ := by
  cases h with
  | matched hc hpos htif => exact hc.move (.tick (.rest hpos htif))
  | auction hc hadmits hphase => exact hc.move (.tick (.restAuction hadmits trivial trivial hphase))

theorem RestsFrom.rested (h : RestsFrom s t) : s.Rested (t.rested s) t ∧ s.Nonneg := by
  cases h with
  | matched hc hpos htif =>
    obtain ⟨⟨hs, hflight, -⟩, -, hnonneg⟩ := hc.kept
    exact ⟨rested_rested hs hflight hpos, hnonneg⟩
  | auction hc hadmits hphase =>
    obtain ⟨⟨hs, -⟩, -, hnonneg⟩ := hc.kept
    exact ⟨rested_rested hs hadmits.inFlight.1 hadmits.inFlight.2, hnonneg⟩

/-- More units need no less margin, unless they need none. -/
theorem MatchingEngine.shortMarginReserve_le (s : MatchingEngine) (a : AccountId) (symbol : Symbol)
    {price n m : ℤ} (hprice : 0 ≤ price) (hle : n ≤ m) :
    s.shortMarginReserve a symbol price n ≤ max 0 (s.shortMarginReserve a symbol price m) := by
  unfold shortMarginReserve
  by_cases hn : n ≤ 0
  · rw [if_pos hn]
    exact le_max_left _ _
  · rw [if_neg hn, if_neg (by omega)]
    have hnotional : ((price * n : ℤ) : ℚ) ≤ ((price * m : ℤ) : ℚ) := by
      exact_mod_cast mul_le_mul_of_nonneg_left hle hprice
    have hnonneg : (0 : ℚ) ≤ ((price * n : ℤ) : ℚ) := by
      exact_mod_cast mul_nonneg hprice (by omega)
    rcases le_total 0 ((s.effectiveRiskConfig a).shortMarginRequirementFor symbol) with hrate | hrate
    · exact le_max_of_le_right (Int.ceil_le_ceil (mul_le_mul_of_nonneg_right hnotional hrate))
    · apply le_max_of_le_left
      apply Int.ceil_le.mpr
      exact_mod_cast mul_nonpos_of_nonneg_of_nonpos hnonneg hrate

/-- What an order reserves when it comes to rest is the margin of its short units. -/
theorem RestsFrom.margined (h : RestsFrom s t) (hside : t.side = .ask)
    (horder : (t.rested s).resting t.symbol t.id = some order) :
    order = t.order ∧ (t.rested s).Margined t.accountId t.symbol order 0 := by
  obtain ⟨hrested, hnonneg⟩ := h.rested
  have hsame : order = t.order := by
    rw [hrested.resting] at horder
    split_ifs at horder with hnew
    · exact (Option.some.inj horder).symm
    · rw [hrested.free] at horder
      cases horder
  refine ⟨hsame, ?_⟩
  have hid : t.order.id = t.id := by simp only [Taker.order, arrange_id]
  have hprice : t.order.price = t.price := by simp only [Taker.order, arrange_price]
  have htotal : totalRemainingQty t.order = t.remaining := by
    simp only [Taker.order, totalRemainingQty_arrange]
  have hqty := (hrested.sets .qty).entry
  have hmargin := (hrested.sets .shortMargin).entry
  have hconfig : ∀ n, (t.rested s).shortMarginReserve t.accountId t.symbol t.price n =
      s.shortMarginReserve t.accountId t.symbol t.price n := by
    intro n
    rw [shortMarginReserve, shortMarginReserve, effectiveRiskConfig, effectiveRiskConfig,
      hrested.settings.riskConfigs]
  have hlong : (t.rested s).reserveOf .qty t.id ≥ s.longReserveOf t.accountId t.symbol t.remaining := by
    have hold := hnonneg .qty (by decide) t.id
    simp only [Taker.reserve, if_pos hside] at hqty
    rcases hqty with hset | ⟨hzero, hkept⟩
    · exact hset.ge
    · rw [reserveOf_of_lookup hkept, hzero]
      exact hold
  have hreserve : max 0 (s.shortMarginReserve t.accountId t.symbol t.price
      (t.remaining - s.longReserveOf t.accountId t.symbol t.remaining)) ≤
      (t.rested s).reserveOf .shortMargin t.id := by
    have hold := hnonneg .shortMargin (by decide) t.id
    simp only [Taker.reserve, if_pos hside] at hmargin
    rcases hmargin with hset | ⟨hzero, hkept⟩
    · exact hset.ge
    · rw [reserveOf_of_lookup hkept, hzero]
      exact hold
  rw [hsame]
  unfold Margined shortUnits
  rw [hid, hprice, htotal, hconfig]
  have hmore := s.shortMarginReserve_le t.accountId t.symbol hrested.valid.price
    (show t.remaining - (t.rested s).reserveOf .qty t.id ≤
      t.remaining - s.longReserveOf t.accountId t.symbol t.remaining by omega)
  push_cast
  omega

end Rest

namespace MatchingEngine

/-- The margin is that of the short units after every fill, and after a fill of any size that the
order has on show. -/
structure StaysMargined (s : MatchingEngine) (a : AccountId) (symbol : Symbol) (order : Order) :
    Prop where
  always : ∀ k c left, Fills a symbol order.id ⟨s, idle⟩ k c →
    c.engine.resting symbol order.id = some left → c.engine.Margined a symbol left k
  atOnce : ∀ (t : Taker) (fill : FillResult) (book : OrderBook) (left : Order), t.side = .bid →
    fill.makerId = order.id → 0 < fill.qty → fill.qty ≤ available order →
    survivor order fill.qty = some left → (s.filled t fill book).Margined a symbol left 1

section Exact
variable {s : MatchingEngine} {a : AccountId} {symbol : Symbol} {order left : Order}

theorem available_eq_total (hwf : order.WellFormed) (hvisible : order.visibility ≠ .iceberg) :
    available order = totalRemainingQty order := by
  unfold Order.WellFormed at hwf
  unfold available totalRemainingQty
  cases hvisibility : order.visibility with
  | displayed =>
    rw [hvisibility] at hwf
    rw [hwf.2, add_zero]
    rfl
  | iceberg => exact absurd hvisibility hvisible
  | hidden =>
    rw [hvisibility] at hwf
    rw [hwf.1, zero_add]
    rfl

/-- The first fill of an order whose record is exact. -/
theorem filled_serves {t : Taker} {fill : FillResult} {book : OrderBook} (hside : t.side = .bid)
    (hid : fill.makerId = order.id) (hpos : 0 < fill.qty) (kind : ReserveKind)
    (hkind : kind ≠ .cash) : (s.filled t fill book).reserveOf kind order.id =
      s.reserveOf kind order.id - s.releaseOf order.id fill.qty (s.ownedQty order.id fill.qty) kind := by
  have hread : (s.filled t fill book).reserves kind = (s.journaled t fill book).reserves kind :=
    read_updateOwner (fun s => s.reserves kind) (fun _ _ => by cases kind <;> rfl) _ _
  have hentry := ((s.journaled_frees t hpos.le book).shifts kind).entry
  have hpaid : (s.paid t fill book).reserveOf kind fill.makerId = s.reserveOf kind fill.makerId := by
    cases kind <;> rfl
  rw [hpaid, hid, hside] at hentry
  rw [reserveOf, hread, ← reserveOf, hentry]
  unfold makerDelta
  cases kind with
  | cash => exact absurd rfl hkind
  | qty => exact (sub_eq_add_neg _ _).symm
  | shortMargin => exact (sub_eq_add_neg _ _).symm

theorem filled_margined_iff {t : Taker} {fill : FillResult} {book : OrderBook}
    (hnonneg : s.Nonneg) (hrecord : s.ownedQty order.id fill.qty = totalRemainingQty order)
    (hside : t.side = .bid) (hid : fill.makerId = order.id) (hpos : 0 < fill.qty)
    (hlt : fill.qty < totalRemainingQty order) (hleft : survivor order fill.qty = some left) :
    (s.filled t fill book).Margined a symbol left 1 ↔
      (s.shortMarginReserve a symbol order.price
        (min (s.shortUnits order) (totalRemainingQty order - fill.qty)) - 1) *
          totalRemainingQty order ≤
        s.reserveOf .shortMargin order.id * (totalRemainingQty order - fill.qty) := by
  have hsurvives := survivor_some hleft
  have hconfigs : (s.filled t fill book).riskConfigs = s.riskConfigs :=
    ((((sameSettings_setBook s t.symbol book).trans
      (.of_frame (frame_journaled s t fill book))).trans (sameSettings_updateOwner _ _))).riskConfigs
  have hreserve : ∀ n, (s.filled t fill book).shortMarginReserve a symbol order.price n =
      s.shortMarginReserve a symbol order.price n := by
    intro n
    rw [shortMarginReserve, shortMarginReserve, effectiveRiskConfig, effectiveRiskConfig, hconfigs]
  have hqty := @filled_serves s order t fill book hside hid hpos .qty (by decide)
  have hmargin := @filled_serves s order t fill book hside hid hpos .shortMargin (by decide)
  have hreserved := hnonneg .qty (by decide) order.id
  have hunits : (s.filled t fill book).shortUnits left =
      min (s.shortUnits order) (totalRemainingQty order - fill.qty) := by
    simp only [releaseOf] at hqty
    unfold shortUnits
    rw [hsurvives.id, hsurvives.total, hqty]
    omega
  simp only [releaseOf] at hmargin
  rw [hrecord, boundedRelease_kept (by omega)] at hmargin
  unfold Margined
  rw [hunits, hsurvives.id, hsurvives.price, hmargin, hreserve, Nat.cast_one]
  exact ProRata.le_kept_iff (hnonneg .shortMargin (by decide) order.id) (by omega) hlt.le

end Exact
end MatchingEngine

/-- A resting sell order stays margined through every fill if the share of its margin that any number
of its units keeps suffices for them; a displayed or a hidden order does not otherwise. -/
theorem short_staysMargined {s : MatchingEngine} {t : Taker} {order : Order} (h : RestsFrom s t)
    (hside : t.side = .ask) (horder : (t.rested s).resting t.symbol t.id = some order) :
    ((t.rested s).SharesSuffice t.accountId t.symbol order →
      (t.rested s).StaysMargined t.accountId t.symbol order) ∧
    (order.visibility ≠ .iceberg → (t.rested s).StaysMargined t.accountId t.symbol order →
      (t.rested s).SharesSuffice t.accountId t.symbol order) := by
  obtain ⟨hsame, hfirst⟩ := h.margined hside horder
  have hkept := h.comes.kept
  obtain ⟨htotal, hid⟩ := hkept.sound.1.resting_pos horder
  have hwf := ((hkept.sound.1.book t.symbol).findOrder_wellFormed horder).1
  have hask : order.side = .ask := by
    rw [hsame]
    simp only [Taker.order, arrange_side]
    exact hside
  have hunits : (t.rested s).shortUnits order ≤ totalRemainingQty order := by
    have hreserved : 0 ≤ (t.rested s).reserveOf .qty order.id :=
      hkept.nonneg .qty (by decide) order.id
    unfold shortUnits
    omega
  have hmargin : 0 ≤ (t.rested s).reserveOf .shortMargin order.id :=
    hkept.nonneg .shortMargin (by decide) order.id
  have hrecord : ∀ qty, (t.rested s).ownedQty order.id qty = totalRemainingQty order := by
    intro qty
    rw [ownedQty, hid, h.rested.1.owners, if_pos rfl, hsame]
    simp only [Taker.order, totalRemainingQty_arrange]
    rfl
  rw [← hid] at horder
  constructor
  · intro hshares
    have hample : (t.rested s).AmpleFor
        ((t.rested s).shortMarginReserve t.accountId t.symbol order.price) 0 order := by
      unfold Margined at hfirst
      apply (ProRata.ample_iff hmargin htotal hunits (by simpa using hfirst)).mpr
      intro n hpos hlt
      rw [sub_zero]
      exact hshares n hpos hlt
    constructor
    · intro k c left hfills hleft
      obtain ⟨-, hconfig, left', hleft', hid', -, hprice, hample'⟩ :=
        hfills.ample h.comes horder hask hample
      have heq : left' = left := Option.some.inj (hleft'.symm.trans hleft)
      subst heq
      have hbound := hample'.bound
      unfold Margined
      rw [hprice, shortMarginReserve, hconfig, ← shortMarginReserve]
      exact hbound
    · intro t' fill book left hbid hmaker hpos hle hleft
      have havailable := available_le_total hwf
      have hne : fill.qty ≠ totalRemainingQty order := by
        intro heq
        rw [survivor_eq_none.mpr heq] at hleft
        cases hleft
      apply (filled_margined_iff hkept.nonneg (hrecord _) hbid hmaker hpos (by omega) hleft).mpr
      exact hshares _ (by omega) (by omega)
  · intro hvisible hstays n hpos hlt
    have hne : survivor order (totalRemainingQty order - n) ≠ none := by
      intro hnone
      have heq := survivor_eq_none.mp hnone
      omega
    obtain ⟨left, hleft⟩ := Option.ne_none_iff_exists'.mp hne
    have hbound := hstays.atOnce
      { accountId := 0, symbol := t.symbol, id := 0, side := .bid, price := order.price,
        remaining := totalRemainingQty order - n, tif := .gtc, visibility := .displayed,
        displayQty := 0 }
      { makerId := order.id, price := order.price, qty := totalRemainingQty order - n,
        makerFilled := false, makerRemainingQty := n, makerVisibility := order.visibility,
        replenished := none } {} left rfl rfl
      (by dsimp only; omega) (by rw [available_eq_total hwf hvisible]; dsimp only; omega) hleft
    have hiff := (filled_margined_iff hkept.nonneg (hrecord _) rfl rfl (by dsimp only; omega)
      (by dsimp only; omega) hleft).mp hbound
    dsimp only at hiff
    rw [sub_sub_cancel] at hiff
    exact hiff

/-! A sell order of account 1 enters, without a match, and comes to rest. -/
section Entry
variable {s : MatchingEngine} {t : Taker} {c : Config}

/-- The state in which a new order enters. -/
def Taker.enteredIn (t : Taker) (s : MatchingEngine) : MatchingEngine :=
  s.allocated.touchAccount t.accountId t.symbol

/-- A new order passes the checks outside an auction phase. -/
structure Taker.Enters (t : Taker) (s : MatchingEngine) : Prop where
  id : t.id = s.nextOrderId
  valid : (t.enteredIn s).validateEntry t.symbol t.price t.remaining t.visibility t.displayQty = none
  risk : (t.enteredIn s).validateOrderRisk t.accountId t.symbol t.side t.price t.remaining none = none
  phase : ¬ (t.enteredIn s).inAuction t.symbol
  tif : t.tif = .gtc

theorem Taker.Enters.tick (h : t.Enters s) (hs : s.Sound {}) :
    Tick {} ⟨t.enteredIn s, idle⟩ [] ⟨t.enteredIn s, matching t⟩ := by
  refine .enter ⟨h.valid, h.risk, ?_⟩ trivial trivial h.phase ?_
  · rw [h.id]
    exact (hs.free_next _ _).of_touch
  · rw [h.tif]
    rintro ⟨hfok, -⟩
    cases hfok

theorem Taker.Enters.rests (h : t.Enters s) (hc : Comes ⟨s, idle⟩)
    (hnext : (t.enteredIn s).nextFill t = none) (hpos : 0 < t.remaining) :
    RestsFrom (t.enteredIn s) t := by
  have htouched : Comes ⟨t.enteredIn s, idle⟩ :=
    (hc.move (.tick (.allocate s))).move (.tick (.touch _ t.symbol trivial))
  have hentered := htouched.move (.tick (h.tick hc.kept.sound.1))
  refine .matched (hentered.move (.tick (.finish hnext))) hpos ?_
  rw [h.tif]
  intro hioc
  cases hioc

end Entry

def offerOf (accountId : AccountId) (id : OrderId) (side : Side) (qty : ℤ) : Taker :=
  ⟨accountId, "X", id, side, 100, qty, .gtc, .displayed, 0⟩

/-- Account 1 may sell short, and has a position. -/
def shortSellerWith (position : ℤ) : MatchingEngine :=
  fresh.applyAll [.setAccountRiskConfig 1 { allowShortSelling := true },
    .setAccountState 1 "X" 10000 position, .setAccountState 2 "X" 10000 0]

theorem comes_shortSellerWith (position : ℤ) : Comes ⟨shortSellerWith position, idle⟩ := by
  obtain ⟨ops, hrun⟩ := reachable_applyAll [.setAccountRiskConfig 1 { allowShortSelling := true },
    .setAccountState 1 "X" 10000 position, .setAccountState 2 "X" 10000 0]
  exact hrun.comes

def restedShort (position : ℤ) : MatchingEngine :=
  (offerOf 1 1 .ask 4).rested ((offerOf 1 1 .ask 4).enteredIn (shortSellerWith position))

theorem short_staysMargined_allShort :
    (restedShort 0).StaysMargined 1 "X" (offerOf 1 1 .ask 4).order ∧
    (restedShort 0).reserveOf .shortMargin 1 = 400 := by
  have hrests : RestsFrom ((offerOf 1 1 .ask 4).enteredIn (shortSellerWith 0)) (offerOf 1 1 .ask 4) := by
    refine Taker.Enters.rests ⟨?_, ?_, ?_, ?_, ?_⟩ (comes_shortSellerWith 0) ?_ ?_ <;> decide +kernel
  have hstays := short_staysMargined hrests rfl
    (show (restedShort 0).resting "X" 1 = some (offerOf 1 1 .ask 4).order by decide +kernel)
  refine ⟨hstays.1 fun n hpos hlt => ?_, by decide +kernel⟩
  have hall : ∀ n : Fin 4, ((restedShort 0).shortMarginReserve 1 "X"
      (offerOf 1 1 .ask 4).order.price (min ((restedShort 0).shortUnits (offerOf 1 1 .ask 4).order)
        (n.val : ℤ)) - 1) * totalRemainingQty (offerOf 1 1 .ask 4).order ≤
      (restedShort 0).reserveOf .shortMargin (offerOf 1 1 .ask 4).order.id * (n.val : ℤ) := by
    decide +kernel
  have htotal : totalRemainingQty (offerOf 1 1 .ask 4).order = 4 := by decide +kernel
  rw [htotal] at hlt
  have hn := hall ⟨n.toNat, by omega⟩
  dsimp only at hn
  rw [Int.toNat_of_nonneg hpos.le] at hn
  exact hn

/-! The offer of 4 is half covered by a position of 2, and account 2 buys 2 of it. -/

def buying : MatchingEngine := (offerOf 2 2 .bid 2).enteredIn (restedShort 2)

theorem isSome_buying : (buying.nextFill (offerOf 2 2 .bid 2)).isSome = true := by decide +kernel

def boughtFill : FillResult × OrderBook := (buying.nextFill (offerOf 2 2 .bid 2)).get isSome_buying

def bought : MatchingEngine := buying.filled (offerOf 2 2 .bid 2) boughtFill.1 boughtFill.2

theorem isSome_left : (bought.resting "X" 1).isSome = true := by decide +kernel

theorem not_margined_left :
    ¬ bought.Margined 1 "X" ((bought.resting "X" 1).get isSome_left) 1 := by decide +kernel

/-- The fill frees the reserved position and half of the margin of the short half. -/
theorem not_short_margined_halfCovered :
    ¬ ∀ (s : MatchingEngine) (t : Taker) (order : Order), RestsFrom s t → t.side = .ask →
      (t.rested s).resting t.symbol t.id = some order →
      ∀ k c left, Fills t.accountId t.symbol order.id ⟨t.rested s, idle⟩ k c →
        c.engine.resting t.symbol order.id = some left →
        c.engine.Margined t.accountId t.symbol left k := by
  intro h
  have hrests : RestsFrom ((offerOf 1 1 .ask 4).enteredIn (shortSellerWith 2)) (offerOf 1 1 .ask 4) := by
    refine Taker.Enters.rests ⟨?_, ?_, ?_, ?_, ?_⟩ (comes_shortSellerWith 2) ?_ ?_ <;> decide +kernel
  have horder : (restedShort 2).resting "X" 1 = some (offerOf 1 1 .ask 4).order := by decide +kernel
  have hsound : (restedShort 2).Sound {} := hrests.comes.kept.sound.1
  have henters : (offerOf 2 2 .bid 2).Enters (restedShort 2) := by
    constructor <;> decide +kernel
  have hnext : buying.nextFill (offerOf 2 2 .bid 2) = some (boughtFill.1, boughtFill.2) :=
    (Option.some_get isSome_buying).symm
  have hfill : Tick {} ⟨buying, matching (offerOf 2 2 .bid 2)⟩
      (tradeEvent (offerOf 2 2 .bid 2) boughtFill.1 :: [])
      ⟨bought, matching ((offerOf 2 2 .bid 2).after boughtFill.1)⟩ := by
    refine .fill hnext ?_ ⟨?_, ?_, ?_, ?_⟩ ?_
    · decide +kernel
    · decide +kernel
    · decide +kernel
    · decide +kernel
    · decide +kernel
    · simp
  have hrested : ∀ s : MatchingEngine, (s.resting "X" 1).isSome = true → s.Rests "X" 1 :=
    fun s hsome => Option.isSome_iff_ne_none.mp hsome
  have hallocated : Fills 1 "X" 1 ⟨restedShort 2, idle⟩ 0 ⟨(restedShort 2).allocated, idle⟩ :=
    (Fills.refl (a := 1) ⟨restedShort 2, idle⟩).move (.tick (.allocate _))
      (hrested _ (by decide +kernel)) rfl
  have htouched : Fills 1 "X" 1 ⟨restedShort 2, idle⟩ 0 ⟨buying, idle⟩ :=
    hallocated.move (.tick (.touch _ "X" trivial)) (hrested _ (by decide +kernel)) rfl
  have hentered : Fills 1 "X" 1 ⟨restedShort 2, idle⟩ 0 ⟨buying, matching (offerOf 2 2 .bid 2)⟩ :=
    htouched.move (.tick (henters.tick hsound)) (hrested _ (by decide +kernel)) rfl
  have hconfig : bought.effectiveRiskConfig 1 = buying.effectiveRiskConfig 1 := by
    rw [effectiveRiskConfig, effectiveRiskConfig, show bought.riskConfigs = buying.riskConfigs from
      hfill.sameSettings.riskConfigs]
  have hfilled : Fills 1 "X" 1 ⟨restedShort 2, idle⟩
      (0 + fillsOf 1 [tradeEvent (offerOf 2 2 .bid 2) boughtFill.1])
      ⟨bought, matching ((offerOf 2 2 .bid 2).after boughtFill.1)⟩ :=
    hentered.move (.tick hfill) (hrested _ (by decide +kernel)) hconfig
  have hcount : 0 + fillsOf 1 [tradeEvent (offerOf 2 2 .bid 2) boughtFill.1] = 1 := by
    decide +kernel
  rw [hcount] at hfilled
  have hmargined := h _ _ _ hrests rfl horder 1 _ _ hfilled (Option.some_get isSome_left).symm
  exact not_margined_left hmargined

end Tes
