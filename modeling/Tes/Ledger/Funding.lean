import Tes.Ledger.Backing

/-! The reserves of accounts never go below what their orders have reserved, so the
engine's own assertion never fails. -/
namespace Tes
open OrderBook MatchingEngine Flight Rounding Transition EStateM

/-- What `setFeeModel` accepts. -/
structure FeeModel.Valid (model : FeeModel) : Prop where
  maker : 0 ≤ model.makerFeeRate
  taker : 0 ≤ model.takerFeeRate
  fixed : ∀ fee ∈ model.fixedFee, 0 ≤ fee

theorem FeeModel.valid_default : FeeModel.Valid {} := ⟨le_rfl, le_rfl, by simp⟩

theorem FeeModel.Valid.feeForNotional_nonneg {model : FeeModel} (h : model.Valid) {notional : ℤ}
    (hnotional : 0 ≤ notional) (maker : Bool) : 0 ≤ model.feeForNotional notional maker := by
  unfold FeeModel.feeForNotional
  have hfixed : 0 ≤ model.fixedFee.getD 0 := by
    cases hf : model.fixedFee with
    | none => exact le_rfl
    | some fee => exact h.fixed fee hf
  have hn : (0 : ℚ) ≤ notional := by exact_mod_cast hnotional
  have hrounded : ∀ rate : ℚ, 0 ≤ rate → 0 ≤ llround ((notional : ℚ) * rate) := fun rate hrate =>
    llround_nonneg (mul_nonneg hn hrate)
  cases maker with
  | false =>
    have := hrounded _ h.taker
    simp only [Bool.false_eq_true, if_false]
    omega
  | true =>
    have := hrounded _ h.maker
    simp only [if_true]
    omega

theorem FeeModel.Valid.limitFee_nonneg {model : FeeModel} (h : model.Valid) {notional : ℤ}
    (hnotional : 0 ≤ notional) : 0 ≤ model.limitFee notional :=
  le_max_of_le_left (h.feeForNotional_nonneg hnotional false)

/-- A buy order of a margin account has a margin requirement that is not negative. -/
def Taker.Solvent (t : Taker) (s : MatchingEngine) : Prop :=
  t.side = .bid → (s.effectiveRiskConfig t.accountId).mode = .margin →
    0 ≤ (s.effectiveRiskConfig t.accountId).initialMarginRequirementFor t.symbol

instance (t : Taker) (s : MatchingEngine) : Decidable (t.Solvent s) :=
  inferInstanceAs (Decidable (_ → _ → _))

theorem Taker.Solvent.of_settings {t : Taker} {s s' : MatchingEngine} (h : t.Solvent s)
    (hsame : s.SameSettings s') : t.Solvent s' := by
  unfold Taker.Solvent effectiveRiskConfig at *
  rwa [hsame.riskConfigs]

/-- What an order reserves is not negative. -/
theorem Taker.reserve_nonneg {t : Taker} {s : MatchingEngine} (hfees : s.feeModel.Valid)
    (hvalid : t.Valid) (hpos : 0 < t.remaining) (hsolvent : t.Solvent s) (kind : ReserveKind) :
    0 ≤ t.reserve s kind := by
  unfold Taker.reserve
  cases kind with
  | cash =>
    dsimp only
    split_ifs with hside
    · have hnotional : 0 ≤ t.price * t.remaining := mul_nonneg hvalid.price hpos.le
      have hfee := hfees.limitFee_nonneg hnotional
      unfold buyReserve
      cases hmode : (s.effectiveRiskConfig t.accountId).mode with
      | cashOnly =>
        simp only [hmode]
        exact add_nonneg hnotional hfee
      | margin =>
        have hsum : (0 : ℚ) ≤
            ((t.price * t.remaining + s.feeModel.limitFee (t.price * t.remaining) : ℤ) : ℚ) := by
          exact_mod_cast add_nonneg hnotional hfee
        simp only [hmode]
        exact Int.ceil_nonneg (mul_nonneg hsum (hsolvent hside hmode))
    · exact le_rfl
  | qty =>
    dsimp only
    split_ifs
    · exact s.longReserveOf_nonneg _ _ hpos.le
    · exact le_rfl
  | shortMargin =>
    dsimp only
    split_ifs
    · exact le_max_left _ _
    · exact le_rfl

namespace MatchingEngine

theorem releaseOf_le (s : MatchingEngine) (id : OrderId) (qty before : ℤ) (kind : ReserveKind) :
    s.releaseOf id qty before kind ≤ s.reserveOf kind id := by
  unfold releaseOf boundedRelease
  cases kind <;> exact min_le_left _ _

theorem makerDelta_ge {s : MatchingEngine} {id : OrderId} (side : Side) (qty before : ℤ)
    {kind : ReserveKind} (h : 0 ≤ s.reserveOf kind id) :
    0 ≤ s.reserveOf kind id + s.makerDelta side id qty before kind := by
  have hle := s.releaseOf_le id qty before kind
  unfold makerDelta
  split_ifs <;> omega

theorem Funded.congr {s s' : MatchingEngine} {kind : ReserveKind} (hs : s.Funded kind)
    (howners : s'.orderOwnershipById = s.orderOwnershipById)
    (hentries : s'.reserves kind = s.reserves kind)
    (hreserved : ∀ a symbol, (s'.account a).reserved symbol kind = (s.account a).reserved symbol kind) :
    s'.Funded kind where
  nonneg id := by
    rw [reserveOf, hentries, ← reserveOf]
    exact hs.nonneg id
  covers a symbol := by
    rw [ownedReserve_congr howners hentries, hreserved]
    exact hs.covers a symbol

theorem Funded.of_undisturbed {s s' : MatchingEngine} {kind : ReserveKind} (hs : s.Funded kind)
    (h : s.Undisturbed s') : s'.Funded kind :=
  hs.congr h.owners (h.entries kind) (h.reserved kind)

/-- A record of the same account and symbol attributes the amount to them, or none does. -/
theorem attributed_eq (kind : ReserveKind) (owner : OrderOwnership) (a : AccountId)
    (symbol : Symbol) (amount : ℤ) {o : Option OrderOwnership}
    (h : ∀ owner' ∈ o, owner'.accountId = owner.accountId ∧ owner'.symbol = owner.symbol) :
    attributed kind a symbol amount o =
      if o ≠ none ∧ a = owner.accountId ∧ (kind = .qty → symbol = owner.symbol) then amount else 0 := by
  cases o with
  | none => simp [attributed]
  | some owner' =>
    obtain ⟨haccount, hsymbol⟩ := h owner' rfl
    simp [attributed, haccount, hsymbol]

theorem attributed_nonneg {kind : ReserveKind} {a : AccountId} {symbol : Symbol} {amount : ℤ}
    (h : 0 ≤ amount) (o : Option OrderOwnership) : 0 ≤ attributed kind a symbol amount o := by
  unfold attributed
  cases o with
  | none => exact le_rfl
  | some owner =>
    dsimp only
    split_ifs
    · exact h
    · exact le_rfl

theorem ownerAccountId_of_some {s : MatchingEngine} {id : OrderId} {owner : OrderOwnership}
    (h : s.orderOwnershipById.lookup id = some owner) : s.ownerAccountId id = owner.accountId := by
  rw [ownerAccountId, h]
  rfl

/-- What follows a fill has the account and symbol of the record it follows. -/
theorem Follows.same {owner : OrderOwnership} {maker : Order} {traded : ℤ}
    {o : Option OrderOwnership} (h : Follows owner maker traded o) :
    ∀ owner' ∈ o, owner'.accountId = owner.accountId ∧ owner'.symbol = owner.symbol := by
  rintro owner' rfl
  rw [h.1]
  exact ⟨rfl, rfl⟩

theorem Funded.make {aligned clean : Prop} {s s' : MatchingEngine} {symbol : Symbol}
    {maker : Order} {price traded taken fee : ℤ} {kind : ReserveKind} (hs : s.Funded kind)
    (howned : s.Owned) (h : Makes aligned clean s s' symbol maker price traded taken fee) :
    s'.Funded kind := by
  obtain ⟨owner, howner, hrecord⟩ := howned symbol maker.id maker h.found
  have haccount := ownerAccountId_of_some howner
  have hshift := h.shifts kind
  have hnonneg : 0 ≤ s'.reserveOf kind maker.id := by
    rw [hshift.entry]
    exact makerDelta_ge _ _ _ (hs.nonneg maker.id)
  refine ⟨fun id => ?_, fun a symbol' => ?_⟩
  · by_cases hid : id = maker.id
    · rwa [hid]
    · rw [reserveOf_of_lookup (hshift.others id hid)]
      exact hs.nonneg id
  · have hcovers := hs.covers a symbol'
    have hbefore := attributed_eq kind owner a symbol' (s.reserveOf kind maker.id)
      (o := s.orderOwnershipById.lookup maker.id) (by rw [howner]; rintro _ ⟨⟩; exact ⟨rfl, rfl⟩)
    have hafter := attributed_eq kind owner a symbol' (s'.reserveOf kind maker.id)
      (h.owner owner howner hrecord.qty).1.same
    have hentry := hshift.entry
    rw [ownedReserve_change maker.id h.others hshift.others, hbefore, hafter, howner,
      hshift.reserved, haccount, ← hrecord.symbol]
    simp only [ne_eq, reduceCtorEq, not_false_eq_true, true_and]
    split_ifs <;> first | omega | (rename_i h₁ h₂; exact absurd h₂.2 h₁)

/-- The order on its way rests nowhere, and what is reserved under its id is its account's. -/
structure Claims (s : MatchingEngine) (t : Taker) : Prop where
  free : ∀ symbol, s.resting symbol t.id = none
  holder : ∀ kind, (s.reserves kind).lookup t.id = none ∨
    ∃ owner, s.orderOwnershipById.lookup t.id = some owner ∧ owner.accountId = t.accountId ∧
      owner.symbol = t.symbol

theorem Admits.claims {s : MatchingEngine} {t : Taker} (h : s.Admits t) : s.Claims t where
  free symbol := not_not.mp (h.free.rests symbol)
  holder kind := by
    cases howner : s.orderOwnershipById.lookup t.id with
    | none =>
      obtain ⟨hcash, hqty, hshort⟩ := h.free.unreserved howner
      left
      cases kind with
      | cash => exact hcash
      | qty => exact hqty
      | shortMargin => exact hshort
    | some owner => exact Or.inr ⟨owner, rfl, h.free.account owner howner, h.free.owner owner howner⟩

theorem Claims.of_undisturbed {s s' : MatchingEngine} {t t' : Taker} (hs : s.Claims t)
    (h : s.Undisturbed s') (hid : t'.id = t.id) (haccount : t'.accountId = t.accountId)
    (hsymbol : t'.symbol = t.symbol) : s'.Claims t' where
  free symbol := by rw [h.resting, hid, hs.free]
  holder kind := by
    rw [h.entries, h.owners, hid, haccount, hsymbol]
    exact hs.holder kind

theorem Claims.make {aligned clean : Prop} {s s' : MatchingEngine} {symbol : Symbol} {maker : Order}
    {price traded taken fee : ℤ} {t : Taker} (hs : s.Claims t)
    (h : Makes aligned clean s s' symbol maker price traded taken fee) : s'.Claims t := by
  have hid : t.id ≠ maker.id := fun hid => by
    have hfound := h.found
    rw [← hid, hs.free] at hfound
    cases hfound
  refine ⟨fun symbol' => ?_, fun kind => ?_⟩
  · rw [h.resting, if_neg fun hc => hid hc.2]
    exact hs.free symbol'
  · rw [(h.shifts kind).others t.id hid, h.others t.id hid]
    exact hs.holder kind

theorem Funded.rest {s s' : MatchingEngine} {t : Taker} {kind : ReserveKind} (hs : s.Funded kind)
    (hclaims : s.Claims t) (h : s.Rested s' t) (hreserve : 0 ≤ t.reserve s kind) :
    s'.Funded kind := by
  have hsets := h.sets kind
  have hothers : ∀ id, id ≠ t.id →
      s'.orderOwnershipById.lookup id = s.orderOwnershipById.lookup id := fun id hid => by
    rw [h.owners, if_neg hid]
  have hold := hs.nonneg t.id
  have hentry : 0 ≤ s'.reserveOf kind t.id := by
    rcases hsets.entry with hset | ⟨-, hsame⟩
    · rwa [hset]
    · rwa [reserveOf_of_lookup hsame]
  refine ⟨fun id => ?_, fun a symbol => ?_⟩
  · by_cases hid : id = t.id
    · rwa [hid]
    · rw [reserveOf_of_lookup (hsets.others id hid)]
      exact hs.nonneg id
  · have hcovers := hs.covers a symbol
    have hbefore : 0 ≤ attributed kind a symbol (s.reserveOf kind t.id)
        (s.orderOwnershipById.lookup t.id) := attributed_nonneg hold _
    rw [ownedReserve_change t.id hothers hsets.others, hsets.reserved, h.owners, if_pos rfl,
      attributed]
    dsimp only
    rcases hsets.entry with hset | ⟨hzero, hsame⟩
    · rw [hset]
      split_ifs <;> omega
    · -- nothing more is reserved, and what stays under the id was the account's already
      rw [reserveOf_of_lookup hsame, hzero]
      rcases hclaims.holder kind with hnone | ⟨owner, howner, haccount, hsymbol⟩
      · have hempty : s.reserveOf kind t.id = 0 := by
          rw [reserveOf, Finmap.valueD, hnone]
          rfl
        rw [hempty] at hbefore ⊢
        split_ifs <;> omega
      · rw [howner, attributed, haccount, hsymbol]
        split_ifs <;> omega

theorem Funded.cancel {s s' : MatchingEngine} {id : OrderId} {owner : OrderOwnership}
    {kind : ReserveKind} (hs : s.Funded kind) (h : s.Cancelled s' id owner) : s'.Funded kind := by
  have hshift := h.shifts kind
  have hnone : s'.reserveOf kind id = 0 := by
    rw [reserveOf, Finmap.valueD, h.cleared]
    rfl
  have hothers : ∀ id', id' ≠ id →
      s'.orderOwnershipById.lookup id' = s.orderOwnershipById.lookup id' := fun id' hid => by
    rw [h.owners, if_neg hid]
  refine ⟨fun id' => ?_, fun a symbol => ?_⟩
  · by_cases hid : id' = id
    · rw [hid, hnone]
    · rw [reserveOf_of_lookup (hshift.others id' hid)]
      exact hs.nonneg id'
  · have hcovers := hs.covers a symbol
    rw [ownedReserve_change id hothers hshift.others, hshift.reserved, h.owners, if_pos rfl, h.owned,
      attributed, attributed]
    split_ifs <;> omega

end MatchingEngine

/-- What keeps every account's reserves from going below zero. -/
structure Config.Funding (K : MatchingEngine → Prop) (c : Config) : Prop where
  owned : c.engine.Owned
  funded : ∀ kind, c.engine.Funded kind
  fees : c.engine.feeModel.Valid
  settings : K c.engine
  flight : match c.flight with
    | idle => True
    | matching t | matched t => c.engine.Claims t ∧ t.Solvent c.engine

/-- Every change keeps the reserves funded, where the orders let in are solvent. -/
theorem Change.funding {G : Guard} {aligned clean : Prop} {K : MatchingEngine → Prop}
    (hK : ∀ {s s' : MatchingEngine}, s.SameSettings s' → K s → K s')
    (hsolvent : ∀ {s t}, K s → G.entry s t → t.Solvent s) {c c' : Config}
    (hc : c.Funding K) (h : Change G aligned clean c c') : c'.Funding K := by
  obtain ⟨howned, hfunded, hfees, hsettings, hflight⟩ := hc
  have howned' := h.owned howned
  cases h with
  | @still s s' flight hstill hholdings =>
    refine ⟨howned', fun kind => (hfunded kind).of_undisturbed hstill, hstill.settings.feeModel ▸ hfees,
      hK hstill.settings hsettings, ?_⟩
    cases flight with
    | idle => trivial
    | matching t | matched t =>
      exact ⟨hflight.1.of_undisturbed hstill rfl rfl rfl, hflight.2.of_settings hstill.settings⟩
  | raise haccount hstill hraise =>
    exact ⟨howned', fun kind => (hfunded kind).of_undisturbed hstill,
      hstill.settings.feeModel ▸ hfees, hK hstill.settings hsettings, trivial⟩
  | enter hadmits haccount hentry =>
    exact ⟨howned', hfunded, hfees, hsettings, hadmits.claims, hsolvent hsettings hentry⟩
  | take hstill hpos hle hcross hsettled =>
    exact ⟨howned', fun kind => (hfunded kind).of_undisturbed hstill,
      hstill.settings.feeModel ▸ hfees, hK hstill.settings hsettings,
      hflight.1.of_undisturbed hstill rfl rfl rfl, hflight.2.of_settings hstill.settings⟩
  | @make s s' flight symbol maker price traded taken fee hmake =>
    refine ⟨howned', fun kind => (hfunded kind).make howned hmake, hmake.settings.feeModel ▸ hfees,
      hK hmake.settings hsettings, ?_⟩
    cases flight with
    | idle => trivial
    | matching t | matched t => exact ⟨hflight.1.make hmake, hflight.2.of_settings hmake.settings⟩
  | finish => exact ⟨howned', hfunded, hfees, hsettings, hflight⟩
  | rest hrest =>
    exact ⟨howned', fun kind => (hfunded kind).rest hflight.1 hrest
      (Taker.reserve_nonneg hfees hrest.valid hrest.pos hflight.2 kind),
      hrest.settings.feeModel ▸ hfees, hK hrest.settings hsettings, trivial⟩
  | drop => exact ⟨howned', hfunded, hfees, hsettings, trivial⟩
  | cancel hcancel =>
    exact ⟨howned', fun kind => (hfunded kind).cancel hcancel, hcancel.settings.feeModel ▸ hfees,
      hK hcancel.settings hsettings, trivial⟩

theorem Config.Funding.changes {G : Guard} {aligned clean : Prop} {K : MatchingEngine → Prop}
    (hK : ∀ {s s' : MatchingEngine}, s.SameSettings s' → K s → K s')
    (hsolvent : ∀ {s t}, K s → G.entry s t → t.Solvent s) {c c' : Config} (hI : c.Funding K)
    (h : Relation.ReflTransGen (Change G aligned clean) c c') : c'.Funding K := by
  induction h with
  | refl => exact hI
  | tail _ hchange ih => exact hchange.funding hK hsolvent ih

theorem Tick.funding {G : Guard} {K : MatchingEngine → Prop}
    (hK : ∀ {s s' : MatchingEngine}, s.SameSettings s' → K s → K s')
    (hsolvent : ∀ {s t}, K s → G.entry s t → t.Solvent s) {c c' : Config} {events : List Event}
    (hc : c.Sound G) (hI : c.Funding K) (h : Tick G c events c') : c'.Funding K := by
  have hpath : Relation.ReflTransGen (Change G False False) c c' :=
    h.changes (fun h => h.elim) hc fun h => h.elim
  exact hI.changes hK hsolvent hpath

/-- The engine's own assertion holds of funded accounts that exist. -/
theorem Config.Funding.invariantsHold {K : MatchingEngine → Prop} {c : Config} (h : c.Funding K)
    {a b : AccountId} (ha : c.engine.accounts.lookup a ≠ none)
    (hb : c.engine.accounts.lookup b ≠ none) (symbol : Symbol) :
    c.engine.InvariantsHold symbol a b := by
  have hreserved := fun kind a => (h.funded kind).reserved_nonneg a symbol
  exact ⟨⟨ha, hb⟩, ⟨hreserved .cash a, hreserved .cash b⟩,
    ⟨hreserved .shortMargin a, hreserved .shortMargin b⟩, ⟨hreserved .qty a, hreserved .qty b⟩⟩

/-- Nothing aborts. -/
theorem Config.Funding.not_aborts {G : Guard} {K : MatchingEngine → Prop}
    (hK : ∀ {s s' : MatchingEngine}, s.SameSettings s' → K s → K s')
    (hsolvent : ∀ {s t}, K s → G.entry s t → t.Solvent s) {c : Config} {s' : MatchingEngine}
    (hc : c.Sound G) (hI : c.Funding K) : ¬ c.AbortsTo s' := by
  intro h
  have hpath : Relation.ReflTransGen (Change G False False) c ⟨s', idle⟩ := h.changes hc
  have hfunding := hI.changes hK hsolvent hpath
  obtain ⟨s, flight⟩ := c
  cases flight with
  | idle =>
    obtain ⟨-, symbol, a, b, ha, hb, hnot⟩ := h
    exact hnot (hI.invariantsHold ha hb symbol)
  | matching t =>
    obtain ⟨fill, book, -, -, hnot, rfl⟩ := h
    exact hnot (hfunding.invariantsHold (present_journaled t fill book (Or.inl rfl))
      (present_journaled t fill book (Or.inr rfl)) t.symbol)
  | matched t => exact h.elim

/-- A risk config without requirements of single symbols, as the Python binding builds them. -/
def Op.plainConfig : Op → Prop
  | .setAccountRiskConfig _ config => config.initialMarginRequirementBySymbol = ∅ ∧
      config.maintenanceMarginRequirementBySymbol = ∅ ∧ config.shortMarginRequirementBySymbol = ∅
  | _ => True

/-- Every account's initial margin requirement is positive. -/
def MatchingEngine.PositiveMargins (s : MatchingEngine) : Prop :=
  ∀ a symbol, 0 < (s.effectiveRiskConfig a).initialMarginRequirementFor symbol

theorem MatchingEngine.PositiveMargins.of_settings {s s' : MatchingEngine} (h : s.SameSettings s')
    (hs : s.PositiveMargins) : s'.PositiveMargins := by
  unfold PositiveMargins effectiveRiskConfig at *
  rwa [h.riskConfigs]

theorem MatchingEngine.PositiveMargins.solvent {s : MatchingEngine} (hs : s.PositiveMargins)
    (t : Taker) : t.Solvent s :=
  fun _ _ => (hs t.accountId t.symbol).le

/-- Accepted settings keep fees valid. -/
theorem Op.exec_setting_fees {op : Op} {s : MatchingEngine} (hsetting : op.isSetting)
    (hfees : s.feeModel.Valid) :
    Outcome op.exec s (fun _ s' => s'.feeModel.Valid) fun _ _ => True := by
  cases op with
  | setFeeModel model =>
    simp only [Op.exec, MatchingEngine.setFeeModel]
    split_ifs with hrates hfixed
    · trivial
    · trivial
    · exact ⟨not_lt.mp fun h => hrates (Or.inl h), not_lt.mp fun h => hrates (Or.inr h),
        fun fee hfee => not_lt.mp fun h => hfixed ⟨fee, hfee, h⟩⟩
  | setAccountRiskConfig a config =>
    simp only [Op.exec, MatchingEngine.setAccountRiskConfig]
    split_ifs
    · trivial
    · trivial
    · exact hfees
  | haltSymbol symbol reason => exact hfees
  | resumeSymbol symbol =>
    simp only [Op.exec, MatchingEngine.resumeSymbol, outcome_bind, outcome_get, outcome_set]
    split_ifs
    · exact hfees
    · exact hfees
  | setPriceBands symbol lower upper =>
    simp only [Op.exec, MatchingEngine.setPriceBands]
    split_ifs
    · trivial
    · exact hfees
  | clearPriceBands symbol => exact hfees
  | setTradingPhase symbol phase => exact hfees
  | _ => exact hsetting.elim

/-- And margin requirements positive, where no single symbol has its own. -/
theorem Op.exec_setting_margins {op : Op} {s : MatchingEngine} (hsetting : op.isSetting)
    (hplain : op.plainConfig) (hmargins : s.PositiveMargins) :
    Outcome op.exec s (fun _ s' => s'.PositiveMargins) fun _ _ => True := by
  cases op with
  | setFeeModel model =>
    simp only [Op.exec, MatchingEngine.setFeeModel]
    split_ifs
    · trivial
    · trivial
    · exact hmargins
  | setAccountRiskConfig a config =>
    simp only [Op.exec, MatchingEngine.setAccountRiskConfig]
    split_ifs with hleverage hmargin
    · trivial
    · trivial
    · intro b symbol
      rw [effectiveRiskConfig]
      dsimp only
      rw [Finmap.valueD_insert]
      split_ifs
      · rw [AccountRiskConfig.initialMarginRequirementFor, hplain.1, Finmap.valueD_empty]
        exact not_le.mp fun h => hmargin (Or.inl h)
      · exact hmargins b symbol
  | haltSymbol symbol reason => exact hmargins
  | resumeSymbol symbol =>
    simp only [Op.exec, MatchingEngine.resumeSymbol, outcome_bind, outcome_get, outcome_set]
    split_ifs
    · exact hmargins
    · exact hmargins
  | setPriceBands symbol lower upper =>
    simp only [Op.exec, MatchingEngine.setPriceBands]
    split_ifs
    · trivial
    · exact hmargins
  | clearPriceBands symbol => exact hmargins
  | setTradingPhase symbol phase => exact hmargins
  | _ => exact hsetting.elim

section Runs
variable {ops : List (Op × List Event)} {s : MatchingEngine} {op : Op}

theorem Config.Funding.setup {K : MatchingEngine → Prop} {op : Op} {s : MatchingEngine}
    (hI : Config.Funding K ⟨s, idle⟩) (hstate : ∀ a f, K (s.updateAccount a f))
    (hset : op.isSetting → Outcome op.exec s (fun _ s' => s'.feeModel.Valid ∧ K s') fun _ _ => True)
    (hop : op.isSetup) : Outcome op.exec s (fun _ s' => Config.Funding K ⟨s', idle⟩)
      fun e s' => s' = s ∧ ∃ what, e = .invalidArgument what := by
  rcases hop with hsetting | ⟨a, symbol, cash, qty, rfl⟩
  · have hvalid := hset hsetting
    have hkeep := Op.exec_setting hsetting s
    unfold Outcome at *
    cases hexec : op.exec s with
    | error e s' => rw [hexec] at hkeep; exact hkeep
    | ok events s' =>
      rw [hexec] at hkeep hvalid
      obtain ⟨hunset, -⟩ := hkeep
      have hmoney := money_of_unset hunset
      refine ⟨hI.owned.congr (fun symbol id => ?_) (owners_of_unset hunset), fun kind =>
        (hI.funded kind).congr (owners_of_unset hunset) (reserves_of_money hmoney kind)
          fun a symbol => ?_,
        hvalid.1, hvalid.2, trivial⟩
      · show s'.resting symbol id = s.resting symbol id
        rw [MatchingEngine.resting, MatchingEngine.resting, bookFor_of_unset hunset]
      · rw [account_of_money hmoney]
  · have hstill : ∀ kind b symbol', ((s.updateAccount a fun account =>
        account.withState symbol cash qty).account b).reserved symbol' kind =
          (s.account b).reserved symbol' kind := fun kind b symbol' => by
      rw [account_updateAccount]
      split_ifs
      · cases kind <;> rfl
      · rfl
    exact ⟨hI.owned.congr (fun _ _ => rfl) rfl, fun kind =>
      (hI.funded kind).congr rfl (by cases kind <;> rfl) (hstill kind), hI.fees,
      hstate a fun account => account.withState symbol cash qty, trivial⟩

theorem Config.funding_fresh {K : MatchingEngine → Prop} (hK : K fresh) :
    Config.Funding K ⟨fresh, idle⟩ where
  owned symbol id order horder := by cases horder
  funded kind := by
    have hentry : ∀ id, fresh.reserveOf kind id = 0 := fun id => by cases kind <;> rfl
    refine ⟨fun id => (hentry id).ge, fun a symbol => le_of_eq ?_⟩
    have hnone : fresh.ownedReserve kind a symbol = 0 := rfl
    rw [hnone]
    cases kind <;> rfl
  fees := FeeModel.valid_default
  settings := hK
  flight := trivial

theorem positiveMargins_fresh : fresh.PositiveMargins := fun a symbol => by
  have hconfig : (fresh.effectiveRiskConfig a).initialMarginRequirementFor symbol = 1 := rfl
  rw [hconfig]
  exact one_pos

theorem Run.funding (h : Run (fun _ _ op => op.plainConfig) fresh ops s) :
    Config.Funding PositiveMargins ⟨s, idle⟩ := by
  refine h.tick_invariant (G := {}) (fun _ => Op.guarded_trivial _ _) (sound_fresh _)
    (Config.funding_fresh positiveMargins_fresh) (fun hc hI htick => htick.funding PositiveMargins.of_settings
      (fun hK _ => hK.solvent _) hc hI) (fun hc hI habort => ?_) fun hc hop _ hI => ?_
  · exact absurd habort (hI.not_aborts PositiveMargins.of_settings (fun hK _ => hK.solvent _) hc)
  · exact (hI.setup (fun _ _ => hI.settings) (fun hsetting => (Op.exec_setting_fees hsetting
      hI.fees).and (Op.exec_setting_margins hsetting hc hI.settings)) hop).mono (fun _ _ h => h) fun _ _ h => h.1 ▸ hI

/-- No account's reserves are ever below zero, and an operation that does not return is a
setting whose arguments are refused: the engine's own assertion never fails. -/
theorem assertInvariants_never_fails (hrun : Run (fun _ _ op => op.plainConfig) fresh ops s)
    (hop : op.plainConfig) :
    (∀ a, 0 ≤ (s.account a).reservedCash ∧ 0 ≤ (s.account a).reservedShortMargin ∧
      ∀ symbol, 0 ≤ (s.account a).reservedQty symbol) ∧
    Outcome op.exec s (fun _ _ => True)
      fun e s' => op.isSetting ∧ s' = s ∧ ∃ what, e = .invalidArgument what := by
  have hI := hrun.funding
  have hs : s.Sound {} := hrun.sound (fun _ => Op.guarded_trivial _ _) (sound_fresh _)
  constructor
  · exact fun a => ⟨(hI.funded .cash).reserved_nonneg a "", (hI.funded .shortMargin).reserved_nonneg a "",
      fun symbol => (hI.funded .qty).reserved_nonneg a symbol⟩
  · by_cases hsetup : op.isSetup
    · rcases hsetup with hsetting | ⟨a, symbol, cash, qty, rfl⟩
      · exact (Op.exec_setting hsetting s).mono (fun _ _ _ => trivial) fun _ _ h => ⟨hsetting, h⟩
      · exact trivial
    · refine (Op.exec_ticks hs (Op.guarded_trivial _ _) hsetup).mono (fun _ _ _ => trivial) ?_
      rintro e s' ⟨events, c, hpath, habort⟩
      have hc := hpath.invariant (I := Config.Sound {}) Tick.sound ⟨hs, trivial⟩
      have hIc := tick_path_invariant (fun hc hI htick => htick.funding PositiveMargins.of_settings
        (fun hK _ => hK.solvent _) hc hI) ⟨hs, trivial⟩ hI hpath
      exact absurd habort (hIc.not_aborts PositiveMargins.of_settings (fun hK _ => hK.solvent _) hc)

/-- The orders that the operation lets in are solvent. -/
def Op.Solvent (op : Op) (s : MatchingEngine) : Prop := ∀ e ∈ op.entries s, e.2.Solvent e.1

instance (op : Op) (s : MatchingEngine) : Decidable (op.Solvent s) :=
  inferInstanceAs (Decidable (∀ e ∈ op.entries s, _))

/-- The guard of solvent orders. -/
def solventGuard : Guard := { entry := fun s t => t.Solvent s }

theorem Op.Solvent.guarded (h : op.Solvent s) : op.Guarded solventGuard s :=
  ⟨fun _ _ => trivial, fun _ _ _ => trivial, h, fun _ _ => trivial⟩

theorem Config.Funding.setup_solvent (hI : Config.Funding (fun _ => True) ⟨s, idle⟩)
    (hop : op.isSetup) : Outcome op.exec s (fun _ s' => Config.Funding (fun _ => True) ⟨s', idle⟩)
      fun e s' => s' = s ∧ ∃ what, e = .invalidArgument what :=
  hI.setup (fun _ _ => trivial) (fun hsetting => (Op.exec_setting_fees hsetting hI.fees).mono
    (fun _ _ h => ⟨h, trivial⟩) fun _ _ _ => trivial) hop

/-- In runs whose orders are solvent, reserves stay funded. -/
theorem Run.funding_solvent (h : Run (fun _ s op => op.Solvent s) fresh ops s) :
    Config.Funding (fun _ => True) ⟨s, idle⟩ := by
  refine h.tick_invariant (G := solventGuard) Op.Solvent.guarded (sound_fresh _)
    (Config.funding_fresh trivial) (fun hc hI htick => htick.funding (fun _ _ => trivial)
      (fun _ hentry => hentry) hc hI) (fun hc hI habort => ?_) fun _ hop _ hI => ?_
  · exact absurd habort (hI.not_aborts (fun _ _ => trivial) (fun _ hentry => hentry) hc)
  · exact hI.setup_solvent hop |>.mono (fun _ _ h => h) fun _ _ h => h.1 ▸ hI

/-- And ticks do not end in a throw. -/
theorem Config.Funding.never_aborts {s' : MatchingEngine} (hs : s.Sound solventGuard)
    (hI : Config.Funding (fun _ => True) ⟨s, idle⟩) : ¬ Aborts solventGuard ⟨s, idle⟩ s' := by
  rintro ⟨events, c, hpath, habort⟩
  have hc := hpath.invariant (I := Config.Sound solventGuard) Tick.sound ⟨hs, trivial⟩
  have hIc := tick_path_invariant (fun hc hI htick => htick.funding (fun _ _ => trivial)
    (fun _ hentry => hentry) hc hI) ⟨hs, trivial⟩ hI hpath
  exact hIc.not_aborts (fun _ _ => trivial) (fun _ hentry => hentry) hc habort

/-- There an operation that sets nothing up returns. -/
theorem Run.never_throws (hrun : Run (fun _ s op => op.Solvent s) fresh ops s) (hop : op.Solvent s)
    (hsetup : ¬ op.isSetup) : Outcome op.exec s (fun _ _ => True) fun _ _ => False := by
  have hs : s.Sound solventGuard := hrun.sound Op.Solvent.guarded (sound_fresh _)
  exact (Op.exec_ticks hs hop.guarded hsetup).mono (fun _ _ _ => trivial) fun _ _ habort =>
    hrun.funding_solvent.never_aborts hs habort

/-- So does the entry of a solvent order. -/
theorem Run.entry_never_throws (hrun : Run (fun _ s op => op.Solvent s) fresh ops s) {t : Taker}
    (hid : t.id = s.nextOrderId) (hsolvent : t.Solvent s) :
    Outcome (placeVisibleOrderWithAccountAndId t.accountId t.symbol t.id t.side t.price t.remaining
      t.tif t.visibility t.displayQty) s.allocated (fun _ _ => True) fun _ _ => False := by
  have hs : s.Sound solventGuard := hrun.sound Op.Solvent.guarded (sound_fresh _)
  have hs' := hs.allocated
  have hI' := (Tick.allocate (G := solventGuard) s).funding (fun _ _ => trivial)
    (fun _ hentry => hentry) ⟨hs, trivial⟩ hrun.funding_solvent
  have hfree := hs.free_next t.accountId t.symbol
  rw [← hid] at hfree
  refine (placeVisible_entering hs' trivial hfree).mono (fun _ _ _ => trivial) fun _ _ hbroken => ?_
  refine hI'.never_aborts hs' (hbroken.aborts hs' fun e he => ?_)
  unfold MatchingEngine.entries at he
  dsimp only at he
  split_ifs at he
  · rw [List.mem_singleton.mp he]
    have hallocated : s.SameSettings s.allocated := ⟨rfl, rfl, rfl⟩
    exact hsolvent.of_settings (hallocated.trans (.of_frame (frame_touchAccount _ _ _)))
  · cases he

/-- An operation that does not return changes nothing. -/
theorem Run.returns_or_same (hrun : Run (fun _ s op => op.Solvent s) fresh ops s)
    (hop : op.Solvent s) : Outcome op.exec s (fun _ _ => True) fun _ s' => s' = s := by
  by_cases hsetup : op.isSetup
  · exact (hrun.funding_solvent.setup_solvent hsetup).mono (fun _ _ _ => trivial) fun _ _ h => h.1
  · exact (hrun.never_throws hop hsetup).mono (fun _ _ _ => trivial) fun _ _ h => h.elim

end Runs

/-- A margin account buys part of what another offers, and rests the remainder of a second
order. -/
def marginSale : List Op :=
  [.setAccountState 1 "X" 0 10, .setAccountState 2 "X" 5000 0,
    .setAccountRiskConfig 2 { mode := .margin, maxLeverage := 2, initialMarginRequirement := 1 / 2 },
    .setFeeModel ⟨1 / 100, 2 / 100, some 1⟩, .placeLimitOrder 1 "X" .ask 100 8 .gtc,
    .placeLimitOrder 2 "X" .bid 100 12 .gtc]

theorem assertInvariants_marginSale :
    (∀ a, 0 ≤ ((fresh.applyAll marginSale).account a).reservedCash ∧
      0 ≤ ((fresh.applyAll marginSale).account a).reservedShortMargin ∧
      ∀ symbol, 0 ≤ ((fresh.applyAll marginSale).account a).reservedQty symbol) ∧
    Outcome (Op.placeLimitOrder 1 "X" .ask 99 2 .gtc).exec (fresh.applyAll marginSale)
      (fun _ _ => True)
      fun e s' => (Op.placeLimitOrder 1 "X" .ask 99 2 .gtc).isSetting ∧
        s' = fresh.applyAll marginSale ∧ ∃ what, e = .invalidArgument what := by
  have hrun := Run.ofOps (P := fun _ op => op.plainConfig) marginSale
    ⟨trivial, trivial, ⟨rfl, rfl, rfl⟩, trivial, trivial, trivial, trivial⟩
  exact assertInvariants_never_fails hrun trivial

end Tes
