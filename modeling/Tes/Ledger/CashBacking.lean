import Tes.Ledger.Leverage
import Tes.Ledger.Funding

/-! Whether the cash of an account backs all that it has reserved, for bids and for short sales,
over operations that trade nothing. -/
namespace Tes
open OrderBook MatchingEngine Flight EStateM

/-! An account that enters its orders in cash-only mode has no negative reserves. -/

/-- The account enters orders in cash-only mode. -/
def cashGuard (a : AccountId) : Guard :=
  { entry := fun s t => t.accountId = a → (s.effectiveRiskConfig a).mode = .cashOnly }

/-- No order of the account has a negative reserve, and none on its way would get one. -/
structure Config.Tended (a : AccountId) (c : Config) : Prop where
  owned : c.engine.Owned
  nonneg : ∀ id owner, c.engine.orderOwnershipById.lookup id = some owner → owner.accountId = a →
    ∀ kind, 0 ≤ c.engine.reserveOf kind id
  fees : c.engine.feeModel.Valid
  flight : match c.flight with
    | idle => True
    | matching t | matched t => c.engine.Claims t ∧ (t.accountId = a → t.Solvent c.engine)

section Tended
variable {a : AccountId} {aligned clean : Prop} {c c' : Config}

theorem Change.tended (hc : c.Tended a) (h : Change (cashGuard a) aligned clean c c') :
    c'.Tended a := by
  obtain ⟨howned, hnonneg, hfees, hflight⟩ := hc
  have howned' := h.owned howned
  have hundisturbed : ∀ {s s' : MatchingEngine}, (∀ id owner,
      s.orderOwnershipById.lookup id = some owner → owner.accountId = a →
      ∀ kind, 0 ≤ s.reserveOf kind id) → s.Undisturbed s' → ∀ id owner,
      s'.orderOwnershipById.lookup id = some owner → owner.accountId = a →
      ∀ kind, 0 ≤ s'.reserveOf kind id := by
    intro s s' hs hstill id owner howner haccount kind
    rw [hstill.owners] at howner
    have hentry : (s'.reserves kind).lookup id = (s.reserves kind).lookup id := by
      rw [hstill.entries]
    rw [reserveOf_of_lookup hentry]
    exact hs id owner howner haccount kind
  cases h with
  | @still s s' flight hstill hholdings =>
    refine ⟨howned', hundisturbed hnonneg hstill, hstill.settings.feeModel ▸ hfees, ?_⟩
    cases flight with
    | idle => trivial
    | matching t | matched t =>
      exact ⟨hflight.1.of_undisturbed hstill rfl rfl rfl,
        fun haccount => (hflight.2 haccount).of_settings hstill.settings⟩
  | raise haccount hstill hraise =>
    exact ⟨howned', hundisturbed hnonneg hstill, hstill.settings.feeModel ▸ hfees, trivial⟩
  | @enter s t hadmits haccount hentry =>
    refine ⟨howned', hnonneg, hfees, hadmits.claims, fun ha _ hmode => ?_⟩
    have hcash : (s.effectiveRiskConfig t.accountId).mode = .cashOnly := ha ▸ hentry ha
    rw [hcash] at hmode
    cases hmode
  | take hstill hpos hle hcross hsettled =>
    exact ⟨howned', hundisturbed hnonneg hstill, hstill.settings.feeModel ▸ hfees,
      hflight.1.of_undisturbed hstill rfl rfl rfl,
      fun haccount => (hflight.2 haccount).of_settings hstill.settings⟩
  | @make s s' flight symbol maker price traded taken fee hmake =>
    refine ⟨howned', fun id owner howner haccount kind => ?_, hmake.settings.feeModel ▸ hfees, ?_⟩
    · by_cases hid : id = maker.id
      · subst hid
        obtain ⟨owner', howner', hrecord⟩ := howned symbol maker.id maker hmake.found
        have hsame := (hmake.owner owner' howner' hrecord.qty).1.same owner howner
        have hbefore := hnonneg maker.id owner' howner' (hsame.1.symm.trans haccount) kind
        rw [(hmake.shifts kind).entry]
        exact makerDelta_ge _ _ _ hbefore
      · rw [hmake.others id hid] at howner
        rw [reserveOf_of_lookup ((hmake.shifts kind).others id hid)]
        exact hnonneg id owner howner haccount kind
    · cases flight with
      | idle => trivial
      | matching t | matched t =>
        exact ⟨hflight.1.make hmake, fun haccount => (hflight.2 haccount).of_settings hmake.settings⟩
  | finish => exact ⟨howned', hnonneg, hfees, hflight⟩
  | @rest s s' t hrest =>
    refine ⟨howned', fun id owner howner haccount kind => ?_, hrest.settings.feeModel ▸ hfees,
      trivial⟩
    rw [hrest.owners] at howner
    split_ifs at howner with hid
    · subst hid
      have ha : t.accountId = a := by
        rw [← haccount, ← Option.some.inj howner]
      rcases (hrest.sets kind).entry with hset | ⟨-, hsame⟩
      · rw [hset]
        exact Taker.reserve_nonneg hfees hrest.valid hrest.pos (hflight.2 ha) kind
      · rw [reserveOf_of_lookup hsame]
        rcases hflight.1.holder kind with hnone | ⟨holder, hholder, hsameAccount, -⟩
        · rw [reserveOf, Finmap.valueD, hnone]
          rfl
        · exact hnonneg t.id holder hholder (hsameAccount.trans ha) kind
    · rw [reserveOf_of_lookup ((hrest.sets kind).others id hid)]
      exact hnonneg id owner howner haccount kind
  | drop => exact ⟨howned', hnonneg, hfees, trivial⟩
  | @cancel s s' id owner hcancel =>
    refine ⟨howned', fun id' owner' howner haccount kind => ?_, hcancel.settings.feeModel ▸ hfees,
      trivial⟩
    rw [hcancel.owners] at howner
    split_ifs at howner with hid
    rw [reserveOf_of_lookup ((hcancel.shifts kind).others id' hid)]
    exact hnonneg id' owner' howner haccount kind

theorem Config.Tended.changes (hc : c.Tended a)
    (h : Relation.ReflTransGen (Change (cashGuard a) aligned clean) c c') : c'.Tended a := by
  induction h with
  | refl => exact hc
  | tail _ hchange ih => exact hchange.tended ih

theorem Tick.tended {events : List Event} (hsound : c.Sound (cashGuard a)) (hc : c.Tended a)
    (h : Tick (cashGuard a) c events c') : c'.Tended a := by
  have hpath : Relation.ReflTransGen (Change (cashGuard a) False False) c c' :=
    h.changes (fun h => h.elim) hsound fun h => h.elim
  exact hc.changes hpath

end Tended

/-- The account's orders come in while it pays in cash. -/
def Op.PaysInCash (a : AccountId) (op : Op) (s : MatchingEngine) : Prop :=
  ∀ e ∈ op.entries s, e.2.accountId = a → (e.1.effectiveRiskConfig a).mode = .cashOnly

instance (a : AccountId) (op : Op) (s : MatchingEngine) : Decidable (op.PaysInCash a s) :=
  inferInstanceAs (Decidable (∀ e ∈ op.entries s, _))

theorem Op.PaysInCash.guarded {a : AccountId} {op : Op} {s : MatchingEngine}
    (h : op.PaysInCash a s) : op.Guarded (cashGuard a) s :=
  ⟨fun _ _ => trivial, fun _ _ _ => trivial, h, fun _ _ => trivial⟩

theorem Config.Tended.setup {a : AccountId} {op : Op} {s : MatchingEngine}
    (hc : Config.Tended a ⟨s, idle⟩) (hop : op.isSetup) :
    Outcome op.exec s (fun _ s' => Config.Tended a ⟨s', idle⟩) fun _ s' => s' = s := by
  have hkeep : ∀ {s' : MatchingEngine}, s'.orderOwnershipById = s.orderOwnershipById →
      (∀ kind, s'.reserves kind = s.reserves kind) → s'.books = s.books → s'.feeModel.Valid →
      Config.Tended a ⟨s', idle⟩ := by
    intro s' howners hentries hbooks hfees
    refine ⟨hc.owned.congr (fun symbol id => ?_) howners, fun id owner howner haccount kind => ?_,
      hfees, trivial⟩
    · show s'.resting symbol id = s.resting symbol id
      rw [MatchingEngine.resting, MatchingEngine.resting, bookFor, bookFor, hbooks]
    · rw [howners] at howner
      rw [reserveOf, hentries, ← reserveOf]
      exact hc.nonneg id owner howner haccount kind
  rcases hop with hsetting | ⟨b, symbol, cash, qty, rfl⟩
  · have hvalid := Op.exec_setting_fees hsetting hc.fees
    have hunchanged := Op.exec_setting hsetting s
    unfold Outcome at *
    cases hexec : op.exec s with
    | error e s' => rw [hexec] at hunchanged; exact hunchanged.1
    | ok events s' =>
      rw [hexec] at hunchanged hvalid
      obtain ⟨hunset, -⟩ := hunchanged
      exact hkeep (owners_of_unset hunset)
        (reserves_of_money (money_of_unset hunset))
        (books_of_unset hunset) hvalid
  · exact hkeep rfl (fun kind => by cases kind <;> rfl) rfl hc.fees

theorem Config.tended_fresh (a : AccountId) : Config.Tended a ⟨fresh, idle⟩ where
  owned _ _ _ horder := by cases horder
  nonneg _ _ howner := by cases howner
  fees := FeeModel.valid_default
  flight := trivial

/-- In runs where the account pays in cash, no order of it has a negative reserve. -/
theorem Run.tended {a : AccountId} {ops : List (Op × List Event)} {s : MatchingEngine}
    (h : Run (fun _ s op => op.PaysInCash a s) fresh ops s) : Config.Tended a ⟨s, idle⟩ := by
  refine h.tick_invariant (G := cashGuard a) Op.PaysInCash.guarded (sound_fresh _)
    (Config.tended_fresh a) (fun hc hI htick => htick.tended hc hI) (fun hc hI habort => ?_)
    fun _ hop _ hI => ?_
  · have hpath : Relation.ReflTransGen (Change (cashGuard a) False False) _ ⟨_, idle⟩ :=
      habort.changes hc
    exact hI.changes hpath
  · exact (hI.setup hop).mono (fun _ _ h => h) fun _ _ h => h ▸ hI

/-! What the account has in cash, and what of it is reserved. -/

namespace MatchingEngine

def cash (s : MatchingEngine) (a : AccountId) : ℤ := (s.account a).cashBalance

/-- Cash covers the reserves of bids and of short sales together. -/
def CashBacked (s : MatchingEngine) (a : AccountId) : Prop := s.marginReserved a ≤ s.cash a

instance (s : MatchingEngine) (a : AccountId) : Decidable (s.CashBacked a) :=
  inferInstanceAs (Decidable (_ ≤ _))

/-- The legacy account has its cash. -/
def ToppedUp (s : MatchingEngine) (a : AccountId) : Prop :=
  a = defaultAccountId → defaultLegacyCash ≤ s.cash a

/-- Nothing of the account is newly reserved or released, and cash is at most topped up. -/
structure Keeps (s s' : MatchingEngine) (a : AccountId) : Prop where
  reserved : s'.marginReserved a = s.marginReserved a
  cash : s.cash a ≤ s'.cash a
  topped : s.ToppedUp a → s'.cash a = s.cash a

end MatchingEngine

/-- The order comes to rest if it does not trade. -/
def Taker.Stays (t : Taker) (s : MatchingEngine) : Prop := s.inAuction t.symbol ∨ t.tif ≠ .ioc

/-- What the order takes out of the account's cash when it rests. -/
def Taker.pledge (t : Taker) (s : MatchingEngine) : ℤ := t.reserve s .cash + t.reserve s .shortMargin

/-- Of what the account lets in, a bid that comes to rest is within cash less both reserves. -/
def BidFits (a : AccountId) (e : Entry) : Prop :=
  e.2.accountId = a → e.2.side = .bid → e.2.Stays e.1 →
    e.1.marginReserved a + e.2.reserve e.1 .cash ≤ e.1.cash a

section Effects
variable {G : Guard} {symbol : Symbol} {s s' : MatchingEngine} {events : List Event}
  {entries : List Entry} {a : AccountId} {t : Taker}

theorem MatchingEngine.Keeps.refl (s : MatchingEngine) : s.Keeps s a := ⟨rfl, le_rfl, fun _ => rfl⟩

theorem MatchingEngine.Keeps.of_accounts (h : s'.accounts = s.accounts) : s.Keeps s' a := by
  have haccount := account_of_accounts h a
  have hcash : s'.cash a = s.cash a := congrArg AccountSnapshot.cashBalance haccount
  refine ⟨?_, hcash.ge, fun _ => hcash⟩
  unfold marginReserved
  rw [haccount]

theorem MatchingEngine.keeps_touchAccount (s : MatchingEngine) (b : AccountId) (symbol : Symbol) :
    s.Keeps (s.touchAccount b symbol) a := by
  have haccount := account_updateAccount s b a fun account =>
    if b = defaultAccountId then
      { account with
        cashBalance := max account.cashBalance defaultLegacyCash
        positionQtyBySymbol := account.positionQtyBySymbol.insert symbol
          (max (account.position symbol) defaultLegacyPosition) }
    else account
  rw [← touchAccount] at haccount
  split_ifs at haccount with hb hdefault
  · refine ⟨?_, ?_, fun htopped => ?_⟩
    · unfold marginReserved
      rw [haccount]
    · unfold MatchingEngine.cash
      rw [haccount]
      exact le_max_left _ _
    · have hcash := htopped (hb.trans hdefault)
      unfold MatchingEngine.cash at *
      rw [haccount]
      exact max_eq_left hcash
  · exact ⟨by rw [marginReserved, marginReserved, haccount], by rw [cash, cash, haccount],
      fun _ => by rw [cash, cash, haccount]⟩
  · exact ⟨by rw [marginReserved, marginReserved, haccount], by rw [cash, cash, haccount],
      fun _ => by rw [cash, cash, haccount]⟩

theorem MatchingEngine.Admits.remaining_pos (h : s.Admits t) : 0 < t.remaining := h.inFlight.2

/-- A resting order adds its pledge to what its account has reserved. -/
theorem marginReserved_rested (hpos : 0 < t.remaining) : (t.rested s).marginReserved a =
    s.marginReserved a + if t.accountId = a then t.pledge s else 0 := by
  have hcash := (rested_sets (s := s) hpos.le .cash).reserved a t.symbol
  have hshort := (rested_sets (s := s) hpos.le .shortMargin).reserved a t.symbol
  unfold AccountSnapshot.reserved at hcash hshort
  unfold marginReserved Taker.pledge
  simp only [reduceCtorEq, false_implies, and_true, eq_comm (a := a)] at hcash hshort
  rw [hcash, hshort]
  split_ifs
  · ring
  · ring

theorem cash_rested (t : Taker) (s : MatchingEngine) : (t.rested s).cash a = s.cash a :=
  (rested_sameHoldings t s a).cash

theorem Matches.rests_of_finishes {s₁ s₂ : MatchingEngine} {t' : Taker} {rested : List Event}
    (hmatches : Matches s t events s₁ t') (hfinishes : Finishes s₁ t' rested s₂)
    (hpos : 0 < t.remaining) (hrests : ∀ e ∈ events ++ rested, isTrade e = false) :
    t.tif ≠ .ioc ∧ s₂ = t.rested s ∨ t.tif = .ioc ∧ s.SameSettings s₂ ∧ s.Keeps s₂ a := by
  obtain ⟨rfl, rfl, rfl⟩ := hmatches.rests fun e he => hrests e (List.mem_append_left _ he)
  cases hfinishes with
  | rest _ htif => exact Or.inl ⟨htif, rfl⟩
  | expire _ htif => exact Or.inr ⟨htif, ⟨rfl, rfl, rfl⟩, .of_accounts rfl⟩
  | done hdone => omega

theorem Taker.sameSettings_rested (t : Taker) (s : MatchingEngine) : s.SameSettings (t.rested s) := by
  have howned : s.SameSettings (t.ownedIn s) := ⟨rfl, rfl, rfl⟩
  exact howned.trans (.of_frame (frame_restOrder _ _ _ _ _ _ _ _ _))

/-- An entry that trades nothing rests its order or does nothing to the account. -/
theorem Placing.rests (h : Placing G symbol s events entries s')
    (hrests : ∀ e ∈ events, isTrade e = false) : s.SameSettings s' ∧
      (entries = [] ∧ s.Keeps s' a ∨ ∃ t, entries = [(s, t)] ∧ s.Admits t ∧
        (t.Stays s ∧ s' = t.rested s ∨ ¬ t.Stays s ∧ s.Keeps s' a)) := by
  cases h with
  | touch => exact ⟨⟨rfl, rfl, rfl⟩, Or.inl ⟨rfl, keeps_touchAccount _ _ _⟩⟩
  | report => exact ⟨⟨rfl, rfl, rfl⟩, Or.inl ⟨rfl, .refl s⟩⟩
  | audit => exact ⟨⟨rfl, rfl, rfl⟩, Or.inl ⟨rfl, .of_accounts rfl⟩⟩
  | @restAuction t _ hadmits _ hauction =>
    exact ⟨t.sameSettings_rested s, Or.inr ⟨t, rfl, hadmits, Or.inl ⟨Or.inl hauction, rfl⟩⟩⟩
  | @enter _ _ t _ _ _ _ hadmits _ hauction _ hmatches hfinishes =>
    rcases hmatches.rests_of_finishes (a := a) hfinishes hadmits.remaining_pos hrests with
      ⟨htif, rfl⟩ | ⟨htif, hsettings, hkeeps⟩
    · exact ⟨t.sameSettings_rested s, Or.inr ⟨t, rfl, hadmits, Or.inl ⟨Or.inr htif, rfl⟩⟩⟩
    · have hgone : ¬ t.Stays s := fun hstays => hstays.elim hauction fun hne => hne htif
      exact ⟨hsettings, Or.inr ⟨t, rfl, hadmits, Or.inr ⟨hgone, hkeeps⟩⟩⟩

theorem Adding.rests (h : Adding G symbol s events entries s')
    (hrests : ∀ e ∈ events, isTrade e = false) : s.SameSettings s' ∧
      (entries = [] ∧ s.Keeps s' a ∨ ∃ t, entries = [(s, t)] ∧ s.Admits t ∧
        (t.Stays s ∧ s' = t.rested s ∨ ¬ t.Stays s ∧ s.Keeps s' a)) := by
  cases h with
  | placing hplacing => exact hplacing.rests hrests
  | @track tracked =>
    have hjournal := unjournaled_trackEvents s tracked
    exact ⟨.of_frame (frame_of_unjournaled hjournal),
      Or.inl ⟨rfl, .of_accounts (accounts_of_money (money_of_unjournaled hjournal))⟩⟩
  | _ => exact ⟨⟨rfl, rfl, rfl⟩, Or.inl ⟨rfl, .of_accounts rfl⟩⟩

/-- The risk check of a short sale takes both reserves off the account's cash. -/
theorem MatchingEngine.Admits.ask_fits (h : s.Admits t) (hside : t.side = .ask)
    (hmode : (s.effectiveRiskConfig t.accountId).mode = .cashOnly)
    (hbacked : s.CashBacked t.accountId) :
    s.marginReserved t.accountId + t.pledge s ≤ s.cash t.accountId := by
  have hpos := h.remaining_pos
  have hrisk := h.risk
  rw [hside] at hrisk
  unfold validateOrderRisk validateSellRisk at hrisk
  simp only [Option.elim_none, sub_zero, hmode] at hrisk
  have hnone : t.reserve s .cash = 0 := by simp [Taker.reserve, hside]
  have hshort : t.reserve s .shortMargin = max 0 (s.shortMarginReserve t.accountId t.symbol t.price
      (t.remaining - s.longReserveOf t.accountId t.symbol t.remaining)) := by
    simp [Taker.reserve, hside]
  unfold Taker.pledge
  rw [hnone, hshort, zero_add]
  unfold CashBacked MatchingEngine.cash marginReserved at *
  split_ifs at hrisk with hcovered hallowed hmargin
  · have hlong : t.remaining - s.longReserveOf t.accountId t.symbol t.remaining = 0 := by
      unfold longReserveOf
      omega
    rw [hlong, shortMarginReserve, if_pos le_rfl, max_self]
    omega
  · have hlong : s.longReserveOf t.accountId t.symbol t.remaining =
        max 0 ((s.account t.accountId).position t.symbol -
          (s.account t.accountId).reservedQty t.symbol) := by
      unfold longReserveOf
      omega
    rw [hlong]
    omega

theorem Taker.pledge_bid (hside : t.side = .bid) : t.pledge s = t.reserve s .cash := by
  unfold Taker.pledge
  simp [Taker.reserve, hside]

/-- Cash does not cover the reserves, and nothing tops it up. -/
def MatchingEngine.Overdrawn (s : MatchingEngine) (a : AccountId) : Prop :=
  ¬ s.CashBacked a ∧ s.ToppedUp a

theorem MatchingEngine.Keeps.cashBacked (h : s.Keeps s' a) (hs : s.CashBacked a) :
    s'.CashBacked a := by
  have hreserved := h.reserved
  have hcash := h.cash
  unfold CashBacked at *
  omega

theorem MatchingEngine.Keeps.overdrawn (h : s.Keeps s' a) (hs : s.Overdrawn a) :
    s'.Overdrawn a := by
  obtain ⟨hnot, htopped⟩ := hs
  have hreserved := h.reserved
  have hcash := h.topped htopped
  refine ⟨?_, fun hdefault => hcash ▸ htopped hdefault⟩
  unfold CashBacked at *
  omega

/-- The account's orders are let in while it pays in cash and has what it is topped up to. -/
def TendedEntry (a : AccountId) (e : Entry) : Prop :=
  e.2.accountId = a → (e.1.effectiveRiskConfig a).mode = .cashOnly ∧ e.1.feeModel.Valid ∧
    e.1.ToppedUp a

theorem TendedEntry.pledge_nonneg (he : TendedEntry t.accountId (s, t)) (hadmits : s.Admits t) :
    0 ≤ t.pledge s := by
  obtain ⟨hmode, hfees, -⟩ := he rfl
  have hsolvent : t.Solvent s := fun _ hmargin => by
    rw [hmode] at hmargin
    cases hmargin
  have hvalid := hadmits.inFlight.1.valid
  exact add_nonneg (Taker.reserve_nonneg hfees hvalid hadmits.remaining_pos hsolvent _)
    (Taker.reserve_nonneg hfees hvalid hadmits.remaining_pos hsolvent _)

/-- A resting order leaves cash to cover the reserves where it fits. -/
theorem rested_cashBacked (hadmits : s.Admits t) (hstays : t.Stays s)
    (he : TendedEntry a (s, t)) (hs : s.CashBacked a) :
    (t.rested s).CashBacked a ↔ BidFits a (s, t) := by
  have hreserved := marginReserved_rested (s := s) (a := a) hadmits.remaining_pos
  have hcash := cash_rested (a := a) t s
  unfold BidFits
  dsimp only
  by_cases ha : t.accountId = a
  · subst ha
    rw [if_pos rfl] at hreserved
    cases hside : t.side with
    | bid =>
      rw [Taker.pledge_bid hside] at hreserved
      unfold CashBacked
      rw [hreserved, hcash]
      exact ⟨fun h _ _ _ => h, fun h => h rfl rfl hstays⟩
    | ask =>
      have hfits := hadmits.ask_fits hside (he rfl).1 hs
      refine ⟨fun _ _ hbid => (nomatch hbid : False).elim, fun _ => ?_⟩
      unfold CashBacked
      omega
  · rw [if_neg ha, add_zero] at hreserved
    have hback : (t.rested s).CashBacked a := by
      unfold CashBacked at *
      omega
    exact ⟨fun _ heq => absurd heq ha, fun _ => hback⟩

theorem rested_overdrawn (hadmits : s.Admits t) (he : TendedEntry a (s, t))
    (hs : s.Overdrawn a) : (t.rested s).Overdrawn a := by
  obtain ⟨hnot, htopped⟩ := hs
  have hreserved := marginReserved_rested (s := s) (a := a) hadmits.remaining_pos
  have hcash := cash_rested (a := a) t s
  have hpledge : 0 ≤ if t.accountId = a then t.pledge s else 0 := by
    split_ifs with ha
    · subst ha
      exact he.pledge_nonneg hadmits
    · exact le_rfl
  refine ⟨?_, fun hdefault => hcash ▸ htopped hdefault⟩
  unfold CashBacked at *
  omega

theorem Adding.overdrawn (h : Adding G symbol s events entries s')
    (hrests : ∀ e ∈ events, isTrade e = false) (hentries : ∀ e ∈ entries, TendedEntry a e)
    (hs : s.Overdrawn a) : s'.Overdrawn a := by
  rcases (h.rests (a := a) hrests).2 with ⟨-, hkeeps⟩ | ⟨t, rfl, hadmits, ⟨-, rfl⟩ | ⟨-, hkeeps⟩⟩
  · exact hkeeps.overdrawn hs
  · exact rested_overdrawn hadmits (hentries _ (List.mem_singleton_self _)) hs
  · exact hkeeps.overdrawn hs

/-- Cash covers the reserves after a step exactly where the bid it lets in fits. -/
theorem Adding.cashBacked (h : Adding G symbol s events entries s')
    (hrests : ∀ e ∈ events, isTrade e = false) (hentries : ∀ e ∈ entries, TendedEntry a e)
    (hs : s.CashBacked a) : ((∀ e ∈ entries, BidFits a e) → s'.CashBacked a) ∧
      ((¬ ∀ e ∈ entries, BidFits a e) → s'.Overdrawn a) := by
  rcases (h.rests (a := a) hrests).2 with ⟨rfl, hkeeps⟩ | ⟨t, rfl, hadmits, ⟨hstays, rfl⟩ | ⟨hgone, hkeeps⟩⟩
  · exact ⟨fun _ => hkeeps.cashBacked hs, fun hnot => absurd (by simp) hnot⟩
  · have he := hentries _ (List.mem_singleton_self _)
    have hback := rested_cashBacked hadmits hstays he hs
    simp only [List.mem_singleton, forall_eq]
    refine ⟨hback.mpr, fun hnot => ⟨fun h => hnot (hback.mp h), fun hdefault => ?_⟩⟩
    have ha : t.accountId = a := by
      by_contra ha
      exact hnot fun heq => absurd heq ha
    rw [cash_rested]
    exact (he ha).2.2 hdefault
  · refine ⟨fun _ => hkeeps.cashBacked hs, fun hnot => absurd ?_ hnot⟩
    intro e he _ _ hstays
    rw [List.mem_singleton.mp he] at hstays
    exact absurd hstays hgone

theorem Steps.overdrawn (h : Steps (Adding G symbol) s events entries s')
    (hrests : ∀ e ∈ events, isTrade e = false) (hentries : ∀ e ∈ entries, TendedEntry a e)
    (hs : s.Overdrawn a) : s'.Overdrawn a := by
  induction h with
  | refl => exact hs
  | step hr _ ih =>
    have hnext := hr.overdrawn (fun e he => hrests e (List.mem_append_left _ he))
      (fun e he => hentries e (List.mem_append_left _ he)) hs
    exact ih (fun e he => hrests e (List.mem_append_right _ he))
      (fun e he => hentries e (List.mem_append_right _ he)) hnext

/-- And after steps exactly where all the bids that they let in fit. -/
theorem Steps.cashBacked (h : Steps (Adding G symbol) s events entries s')
    (hrests : ∀ e ∈ events, isTrade e = false) (hentries : ∀ e ∈ entries, TendedEntry a e)
    (hs : s.CashBacked a) : s'.CashBacked a ↔ ∀ e ∈ entries, BidFits a e := by
  induction h with
  | refl => simp [hs]
  | @step _ _ _ _ _ entries _ hr hmore ih =>
    have hfirst := hr.cashBacked (fun e he => hrests e (List.mem_append_left _ he))
      (fun e he => hentries e (List.mem_append_left _ he)) hs
    have hrests' := fun e he => hrests e (List.mem_append_right _ he)
    have hentries' := fun e he => hentries e (List.mem_append_right _ he)
    rw [List.forall_mem_append]
    by_cases hfits : ∀ e ∈ entries, BidFits a e
    · rw [ih hrests' hentries' (hfirst.1 hfits)]
      exact ⟨fun h => ⟨hfits, h⟩, fun h => h.2⟩
    · have hover := hmore.overdrawn hrests' hentries' (hfirst.2 hfits)
      exact ⟨fun h => absurd h hover.1, fun h => absurd h.1 hfits⟩

/-- Settings are the same wherever an order is let in. -/
theorem Steps.settings_entries (h : Steps (Adding G symbol) s events entries s')
    (hrests : ∀ e ∈ events, isTrade e = false) : ∀ e ∈ entries, s.SameSettings e.1 := by
  induction h with
  | refl => simp
  | step hr _ ih =>
    obtain ⟨hsettings, hentries⟩ := hr.rests (a := defaultAccountId) fun e he =>
      hrests e (List.mem_append_left _ he)
    intro e he
    rcases List.mem_append.mp he with hfirst | hlater
    · rcases hentries with ⟨rfl, -⟩ | ⟨t, rfl, -⟩
      · cases hfirst
      · rw [List.mem_singleton.mp hfirst]
        exact ⟨rfl, rfl, rfl⟩
    · exact hsettings.trans (ih (fun e he => hrests e (List.mem_append_right _ he)) e hlater)

/-- A cancel gives back to the account what is not negative. -/
theorem MatchingEngine.Cancelled.cashBacked {id : OrderId} {owner : OrderOwnership}
    (h : s.Cancelled s' id owner) (hc : Config.Tended a ⟨s, idle⟩) (hs : s.CashBacked a) :
    s'.CashBacked a := by
  have hcash : s'.cash a = s.cash a := (h.holdings a).cash
  have hkind : ∀ kind, kind ≠ .qty → (s'.account a).reserved owner.symbol kind ≤
      (s.account a).reserved owner.symbol kind := fun kind hkind => by
    rw [(h.shifts kind).reserved]
    simp only [hkind, false_implies, and_true]
    split_ifs with ha
    · have hnonneg : 0 ≤ s.reserveOf kind id := hc.nonneg id owner h.owned ha.symm kind
      omega
    · omega
  have hreserved : s'.marginReserved a ≤ s.marginReserved a :=
    add_le_add (hkind .cash (by decide)) (hkind .shortMargin (by decide))
  unfold CashBacked at *
  omega

theorem Crosses.eq_of_rests {price remaining remaining' : ℤ} {steps : List (OrderBook × ℤ)}
    (h : Crosses symbol price s remaining events steps s' remaining')
    (hrests : ∀ e ∈ events, isTrade e = false) : s' = s := by
  cases h with
  | refl => rfl
  | trade => cases hrests _ (List.mem_append_left _ List.mem_cons_self)

/-- A step that neither trades nor lets an order in leaves cash to cover the reserves. -/
theorem Step.cashBacked (h : Step G symbol s events entries s') (hsound : s.Sound G)
    (hc : Config.Tended a ⟨s, idle⟩) (hrests : ∀ e ∈ events, isTrade e = false)
    (hentries : entries = []) (hs : s.CashBacked a) : s'.CashBacked a := by
  have hkept : s.Keeps s' a → s'.CashBacked a := fun hkeeps => hkeeps.cashBacked hs
  cases h with
  | placing hplacing =>
    subst hentries
    rcases (hplacing.rests (a := a) hrests).2 with ⟨-, hkeeps⟩ | ⟨t, hsome, -⟩
    · exact hkept hkeeps
    · cases hsome
  | @track tracked =>
    have hjournal := unjournaled_trackEvents s tracked
    exact hkept (.of_accounts (accounts_of_money (money_of_unjournaled hjournal)))
  | cancel howner hsymbol hcancelled =>
    subst hsymbol
    exact (cancelResting_cancelled hsound howner hcancelled).cashBacked hc hs
  | cross hauction hcrosses =>
    have hsame := hcrosses.eq_of_rests fun e he =>
      hrests e (List.mem_append_left _ (List.mem_cons_of_mem _ he))
    exact hkept (.of_accounts (congrArg MatchingEngine.accounts hsame))
  | _ => exact hkept (.of_accounts rfl)

theorem Steps.cashBacked_removed (h : Steps (Step (cashGuard a) symbol) s events entries s')
    (hsound : s.Sound (cashGuard a)) (hc : Config.Tended a ⟨s, idle⟩)
    (hrests : ∀ e ∈ events, isTrade e = false) (hentries : entries = []) (hs : s.CashBacked a) :
    s'.CashBacked a := by
  induction h with
  | refl => exact hs
  | step hr _ ih =>
    obtain ⟨rfl, rfl⟩ := List.append_eq_nil_iff.mp hentries
    have hpath := hr.path hsound (by simp)
    have hc' := tick_path_invariant (fun hsound hc htick => htick.tended hsound hc)
      ⟨hsound, trivial⟩ hc hpath
    exact ih (hr.sound hsound) hc' (fun e he => hrests e (List.mem_append_right _ he)) rfl
      (hr.cashBacked hsound hc (fun e he => hrests e (List.mem_append_left _ he)) rfl hs)

theorem Steps.sameSettings (h : Steps (Step G symbol) s events [] s') (hsound : s.Sound G) :
    s.SameSettings s' := by
  have hpath := h.path hsound (by simp)
  exact hpath.invariant (I := fun c => s.SameSettings c.engine)
    (fun hsame htick => hsame.trans htick.sameSettings) ⟨rfl, rfl, rfl⟩

end Effects

/-! Whatever lets an order in touches its account first. -/

/-- The order is let in once its account has been touched. -/
def Entry.Touched (e : Entry) : Prop := ∃ s : MatchingEngine, e.1 = s.touched e.2

namespace MatchingEngine
variable {symbol : Symbol}

theorem touched_entries {s : MatchingEngine} {t : Taker} : ∀ e ∈ s.entries t, Entry.Touched e := by
  intro e he
  unfold entries at he
  dsimp only at he
  split_ifs at he
  · rw [List.mem_singleton.mp he]
    exact ⟨s, rfl⟩
  · cases he

theorem touched_marketEntries {s : MatchingEngine} {a : AccountId} {id : OrderId} {side : Side}
    {qty : ℤ} : ∀ e ∈ s.marketEntries a symbol id side qty, Entry.Touched e := by
  intro e he
  unfold marketEntries at he
  dsimp only at he
  split_ifs at he
  · cases he
  · exact touched_entries e he

theorem touched_childEntries {s : MatchingEngine} {stop : StopOrderState} {id : OrderId} :
    ∀ e ∈ s.childEntries stop symbol id, Entry.Touched e := by
  intro e he
  unfold childEntries at he
  cases hlimit : stop.limitPrice with
  | some limit =>
    rw [hlimit] at he
    exact touched_entries e he
  | none =>
    rw [hlimit] at he
    exact touched_marketEntries e he

theorem touched_triggerEntries (ids : List OrderId) (s : MatchingEngine) :
    ∀ e ∈ triggerEntries symbol ids s, Entry.Touched e := by
  induction ids generalizing s with
  | nil => simp [triggerEntries]
  | cons id ids ih =>
    intro e he
    unfold triggerEntries at he
    cases hstop : s.stopOrdersById.lookup id with
    | none =>
      rw [hstop] at he
      exact ih s e he
    | some stop =>
      rw [hstop] at he
      rcases List.mem_append.mp he with hchild | hlater
      · exact touched_childEntries e hchild
      · cases hplace : placeChild stop symbol s.nextOrderId (s.triggerStop symbol id stop) with
        | ok events s' =>
          rw [hplace] at hlater
          exact ih s' e hlater
        | error err s' =>
          rw [hplace] at hlater
          cases hlater

theorem touched_cascadeEntries (fuel : ℕ) (s : MatchingEngine) :
    ∀ e ∈ cascadeEntries symbol fuel s, Entry.Touched e := by
  induction fuel generalizing s with
  | zero => simp [cascadeEntries]
  | succ fuel ih =>
    intro e he
    unfold cascadeEntries at he
    cases hprice : s.triggerPrice symbol with
    | none =>
      rw [hprice] at he
      cases he
    | some current =>
      rw [hprice] at he
      rcases List.mem_append.mp he with hfirst | hlater
      · exact touched_triggerEntries _ s e hfirst
      · split at hlater
        · exact ih _ e hlater
        · cases hlater

theorem touched_followEntries {entry : Engine (List Event)} {s : MatchingEngine} :
    ∀ e ∈ followEntries symbol entry s, Entry.Touched e := by
  intro e he
  unfold followEntries at he
  cases hentry : entry s with
  | ok events s' =>
    rw [hentry] at he
    dsimp only at he
    split_ifs at he
    · cases he
    · exact touched_cascadeEntries _ _ e he
  | error err s' =>
    rw [hentry] at he
    cases he

theorem touched_placeEntries {s : MatchingEngine} {t : Taker} :
    ∀ e ∈ s.placeEntries t, Entry.Touched e := by
  intro e he
  rcases List.mem_append.mp he with hentry | hfollow
  · exact touched_entries e hentry
  · exact touched_followEntries e hfollow

theorem touched_replaceEntries {s : MatchingEngine} {a : AccountId} {id : OrderId} {price qty : ℤ} :
    ∀ e ∈ s.replaceEntries a id price qty, Entry.Touched e := by
  intro e he
  unfold replaceEntries at he
  cases howner : s.orderOwnershipById.lookup id with
  | none =>
    rw [howner] at he
    cases he
  | some owner =>
    rw [howner] at he
    dsimp only at he
    split at he
    · split at he
      · exact touched_entries e he
      · cases he
    · cases he

theorem touched_replaceStopEntries {s : MatchingEngine} {a : AccountId} {id : OrderId} {price : ℤ}
    {limit : Option ℤ} {qty : ℤ} :
    ∀ e ∈ s.replaceStopEntries a id price limit qty, Entry.Touched e := by
  intro e he
  unfold replaceStopEntries at he
  cases hstop : s.stopOrdersById.lookup id with
  | none =>
    rw [hstop] at he
    cases he
  | some stop =>
    rw [hstop] at he
    dsimp only at he
    split at he
    · exact touched_followEntries e he
    · cases he

end MatchingEngine

theorem Op.touched_entries (op : Op) (s : MatchingEngine) : ∀ e ∈ op.entries s, Entry.Touched e := by
  intro e he
  cases op with
  | placeLimitOrder | placeHiddenOrder | placeIcebergOrder => exact touched_placeEntries e he
  | placeMarketOrder =>
    rcases List.mem_append.mp he with hentry | hfollow
    · exact touched_marketEntries e hentry
    · exact touched_followEntries e hfollow
  | placeStopOrder | placeStopLimitOrder => exact touched_followEntries e he
  | replaceOrder => exact touched_replaceEntries e he
  | replaceStopOrder | replaceStopLimitOrder => exact touched_replaceStopEntries e he
  | _ => cases he

section Operation
variable {a : AccountId} {ops : List (Op × List Event)} {s s' : MatchingEngine} {op : Op}
  {events : List Event}

/-- A touched account has what it is topped up to. -/
theorem Entry.Touched.toppedUp {e : Entry} (h : e.Touched) (ha : e.2.accountId = a) :
    e.1.ToppedUp a := by
  obtain ⟨s, hs⟩ := h
  intro hdefault
  have haccount := account_updateAccount s e.2.accountId a fun account =>
    if e.2.accountId = defaultAccountId then
      { account with
        cashBalance := max account.cashBalance defaultLegacyCash
        positionQtyBySymbol := account.positionQtyBySymbol.insert e.2.symbol
          (max (account.position e.2.symbol) defaultLegacyPosition) }
    else account
  rw [← touchAccount, if_pos ha.symm, if_pos (ha.trans hdefault)] at haccount
  rw [hs, touched, MatchingEngine.cash, haccount]
  exact le_max_right _ _

/-- The operation returns and neither sets anything up nor trades. -/
structure RestsOnly (op : Op) (s : MatchingEngine) (events : List Event) (s' : MatchingEngine) :
    Prop where
  orders : ¬ op.isSetup
  returns : op.exec s = .ok events s'
  rests : ∀ e ∈ events, isTrade e = false

/-- For an account that pays in cash and whose cash covers its reserves, an operation that only
rests and cancels orders leaves cash to cover the reserves exactly where every bid of the account
that comes to rest is within cash less both reserves; the risk check of bids takes off only one
of them. -/
theorem RestsOnly.cashBacked_iff (hrun : Run (fun _ s op => op.PaysInCash a s) fresh ops s)
    (h : RestsOnly op s events s') (hmode : (s.effectiveRiskConfig a).mode = .cashOnly)
    (hs : s.CashBacked a) : s'.CashBacked a ↔ ∀ e ∈ op.entries s, BidFits a e := by
  have hsound : s.Sound (cashGuard a) := hrun.sound Op.PaysInCash.guarded (sound_fresh _)
  have hc := hrun.tended
  have hparts := Op.exec_parts (G := cashGuard a) hsound (fun _ _ => trivial)
    (fun _ _ _ => trivial) (fun _ _ => trivial) (fun hsetting => h.orders (Or.inl hsetting))
    fun b symbol cash qty heq => h.orders (Or.inr ⟨b, symbol, cash, qty, heq⟩)
  obtain ⟨removed, added, s₁, rfl, hremoved, hadded⟩ := hparts.returns h.returns
  have hrests : ∀ e ∈ added, isTrade e = false := fun e he =>
    h.rests e (List.mem_append_right _ he)
  have hback := hremoved.cashBacked_removed hsound hc
    (fun e he => h.rests e (List.mem_append_left _ he)) rfl hs
  refine hadded.cashBacked hrests (fun e he ha => ?_) hback
  have hsame := (hremoved.sameSettings hsound).trans (hadded.settings_entries hrests e he)
  refine ⟨?_, hsame.feeModel ▸ hc.fees, (Op.touched_entries op s e he).toppedUp ha⟩
  rw [effectiveRiskConfig, hsame.riskConfigs]
  exact hmode

end Operation

/-! An account that may sell short, for all of the price. -/

def cashSeller : List Op :=
  [.setAccountState 1 "X" 1000 0,
    .setAccountRiskConfig 1
      { mode := .cashOnly, allowShortSelling := true, shortMarginRequirement := 1 }]

/-- A short sale beside a bid of half the account's cash. -/
def shortBesideBid : Op := .placeLimitOrder 1 "X" .ask 100 5 .gtc

theorem restsOnly_shortBesideBid :
    RestsOnly shortBesideBid (fresh.applyAll (cashSeller ++ [.placeLimitOrder 1 "X" .bid 99 5 .gtc]))
      [.orderAccepted 2 .ask 100 5 "X", .topOfBook (some 99) (some 100) "X"]
      (shortBesideBid.apply
        (fresh.applyAll (cashSeller ++ [.placeLimitOrder 1 "X" .bid 99 5 .gtc]))) where
  orders := by
    rintro (hsetting | ⟨a, symbol, cash, qty, heq⟩)
    · exact hsetting
    · cases heq
  returns := Op.exec_of_returned (by decide +kernel)
  rests := by simp [isTrade]

theorem cashBacked_iff_shortBesideBid :
    (shortBesideBid.apply (fresh.applyAll
      (cashSeller ++ [.placeLimitOrder 1 "X" .bid 99 5 .gtc]))).CashBacked 1 ↔
    ∀ e ∈ shortBesideBid.entries (fresh.applyAll
      (cashSeller ++ [.placeLimitOrder 1 "X" .bid 99 5 .gtc])), BidFits 1 e :=
  restsOnly_shortBesideBid.cashBacked_iff (Run.ofOps (P := fun s op => op.PaysInCash 1 s) _
    (by decide +kernel)) (by decide +kernel) (by decide +kernel)

/-- A bid beside a short sale that takes up all of the account's cash. -/
def bidBesideShort : Op := .placeLimitOrder 1 "X" .bid 99 10 .gtc

theorem restsOnly_bidBesideShort :
    RestsOnly bidBesideShort (fresh.applyAll (cashSeller ++ [.placeLimitOrder 1 "X" .ask 100 10 .gtc]))
      [.orderAccepted 2 .bid 99 10 "X", .topOfBook (some 99) (some 100) "X"]
      (bidBesideShort.apply
        (fresh.applyAll (cashSeller ++ [.placeLimitOrder 1 "X" .ask 100 10 .gtc]))) where
  orders := by
    rintro (hsetting | ⟨a, symbol, cash, qty, heq⟩)
    · exact hsetting
    · cases heq
  returns := Op.exec_of_returned (by decide +kernel)
  rests := by simp [isTrade]

/-- The bid is accepted: the same cash backs it and the short sale. -/
theorem not_cashBacked_bidBesideShort :
    Run (fun _ s op => op.PaysInCash 1 s) fresh
      (fresh.history (cashSeller ++ [.placeLimitOrder 1 "X" .ask 100 10 .gtc]))
      (fresh.applyAll (cashSeller ++ [.placeLimitOrder 1 "X" .ask 100 10 .gtc])) ∧
    bidBesideShort.submitter = some 1 ∧
    RestsOnly bidBesideShort (fresh.applyAll (cashSeller ++ [.placeLimitOrder 1 "X" .ask 100 10 .gtc]))
      [.orderAccepted 2 .bid 99 10 "X", .topOfBook (some 99) (some 100) "X"]
      (bidBesideShort.apply
        (fresh.applyAll (cashSeller ++ [.placeLimitOrder 1 "X" .ask 100 10 .gtc]))) ∧
    ((fresh.applyAll (cashSeller ++ [.placeLimitOrder 1 "X" .ask 100 10 .gtc])).effectiveRiskConfig
      1).mode = .cashOnly ∧
    ((fresh.applyAll (cashSeller ++ [.placeLimitOrder 1 "X" .ask 100 10 .gtc])).effectiveRiskConfig
      1).allowShortSelling ∧
    ((fresh.applyAll (cashSeller ++ [.placeLimitOrder 1 "X" .ask 100 10 .gtc])).effectiveRiskConfig
      1).shortMarginRequirementFor "X" = 1 ∧
    (fresh.applyAll (cashSeller ++ [.placeLimitOrder 1 "X" .ask 100 10 .gtc])).feeModel = {} ∧
    (fresh.applyAll (cashSeller ++ [.placeLimitOrder 1 "X" .ask 100 10 .gtc])).CashBacked 1 ∧
    ¬ (bidBesideShort.apply
      (fresh.applyAll (cashSeller ++ [.placeLimitOrder 1 "X" .ask 100 10 .gtc]))).CashBacked 1 :=
  ⟨Run.ofOps (P := fun s op => op.PaysInCash 1 s) _ (by decide +kernel), rfl,
    restsOnly_bidBesideShort, by decide +kernel, by decide +kernel, by decide +kernel,
    by decide +kernel, by decide +kernel, by decide +kernel⟩

end Tes
