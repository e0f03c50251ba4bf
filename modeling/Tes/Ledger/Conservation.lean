import Tes.Ledger.Trades

/-! Conservation: trades move cash and positions between accounts, and the sum of all cash
falls by the fees. -/
namespace Tes
open MatchingEngine Flight Transition EStateM

/-- The fees of a trade, the taker's and the maker's. -/
def FeeModel.tradeFees (model : FeeModel) : Event → ℤ
  | .tradeExecuted _ _ _ price qty _ =>
    model.feeForNotional (price * qty) false + model.feeForNotional (price * qty) true
  | _ => 0

def FeeModel.feesOf (model : FeeModel) (events : List Event) : ℤ :=
  (events.map model.tradeFees).sum

namespace MatchingEngine

/-- A sum over all accounts. -/
def totalOf (s : MatchingEngine) (g : AccountSnapshot → ℤ) : ℤ :=
  s.accounts.total fun _ account => g account

def totalCash (s : MatchingEngine) : ℤ := s.totalOf AccountSnapshot.cashBalance

def totalPosition (s : MatchingEngine) (symbol : Symbol) : ℤ :=
  s.totalOf fun account => account.position symbol

section Totals
variable {s s' : MatchingEngine} {g : AccountSnapshot → ℤ}

/-- An account without a record adds nothing. -/
theorem totalOf_congr (hg : g {} = 0) (h : ∀ a, g (s'.account a) = g (s.account a)) :
    s'.totalOf g = s.totalOf g :=
  Finmap.total_congr_valueD (f := fun _ account => g account) (fun _ => hg) h

theorem totalOf_updateAccount (hg : g {} = 0) (a : AccountId)
    (f : AccountSnapshot → AccountSnapshot) :
    (s.updateAccount a f).totalOf g = s.totalOf g - g (s.account a) + g (f (s.account a)) :=
  Finmap.total_insert_valueD (f := fun _ account => g account) (fun _ => hg) _ _ _

theorem totalCash_of_sameHoldings (h : s.SameHoldings s') : s'.totalCash = s.totalCash :=
  totalOf_congr rfl fun a => (h a).cash

theorem totalPosition_of_sameHoldings (h : s.SameHoldings s') (symbol : Symbol) :
    s'.totalPosition symbol = s.totalPosition symbol :=
  totalOf_congr rfl fun a => (h a).position symbol

/-- A trade costs its two accounts the fees together, also where they are the same. -/
theorem totalCash_exchange (symbol : Symbol) (side : Side) (price qty : ℤ) (a b : AccountId) :
    (s.exchange symbol side price qty a b).totalCash =
      s.totalCash - (s.feeForNotional (price * qty) false + s.feeForNotional (price * qty) true) := by
  have hopposite := Side.signed_opposite side (price * qty)
  unfold exchange totalCash
  rw [totalOf_updateAccount rfl, totalOf_updateAccount rfl, AccountSnapshot.cashBalance_settle,
    AccountSnapshot.cashBalance_settle]
  omega

theorem totalPosition_exchange (symbol symbol' : Symbol) (side : Side) (price : ℤ) {qty : ℤ}
    (hqty : 0 ≤ qty) (a b : AccountId) :
    (s.exchange symbol side price qty a b).totalPosition symbol' = s.totalPosition symbol' := by
  have hopposite := Side.signed_opposite side qty
  unfold exchange totalPosition
  rw [totalOf_updateAccount rfl, totalOf_updateAccount rfl,
    AccountSnapshot.position_settle _ _ _ _ _ _ _ hqty,
    AccountSnapshot.position_settle _ _ _ _ _ _ _ hqty]
  split_ifs <;> omega

end Totals
end MatchingEngine

theorem FeeModel.feesOf_append (model : FeeModel) (events more : List Event) :
    model.feesOf (events ++ more) = model.feesOf events + model.feesOf more := by
  rw [feesOf, List.map_append, List.sum_append]
  rfl

theorem FeeModel.feesOf_eq_zero (model : FeeModel) {events : List Event}
    (h : ∀ e ∈ events, isTrade e = false) : model.feesOf events = 0 := by
  refine List.sum_eq_zero fun fee hfee => ?_
  obtain ⟨e, he, rfl⟩ := List.mem_map.mp hfee
  have := h e he
  cases e <;> first | rfl | cases this

/-- The account of orders without one submits none. -/
def noDefaultAccount : Guard where
  account a := a ≠ defaultAccountId
  owner a := a ≠ defaultAccountId
  owns _ h := h

theorem HoldingsStep.conserves {s s' : MatchingEngine} {events : List Event}
    (h : HoldingsStep noDefaultAccount s events s') :
    s'.totalCash = s.totalCash - s.feeModel.feesOf events ∧
      ∀ symbol, s'.totalPosition symbol = s.totalPosition symbol := by
  cases h with
  | same hsame hevents =>
    rw [FeeModel.feesOf_eq_zero _ hevents, totalCash_of_sameHoldings hsame, sub_zero]
    exact ⟨rfl, totalPosition_of_sameHoldings hsame⟩
  | @touch a symbol ha =>
    have hsame : s.SameHoldings (s.touchAccount a symbol) := fun b => by
      rw [touchAccount, account_updateAccount]
      split_ifs with hb
      · exact absurd ‹a = defaultAccountId› ha
      · exact .refl _
      · exact .refl _
    rw [totalCash_of_sameHoldings hsame]
    exact ⟨(sub_zero _).symm, totalPosition_of_sameHoldings hsame⟩
  | @trade symbol side price qty takerId makerId rest s' a b hqty hsame hrest =>
    have hfees : s.feeModel.feesOf (.tradeExecuted takerId makerId side price qty symbol :: rest) =
        s.feeForNotional (price * qty) false + s.feeForNotional (price * qty) true := by
      have hzero := s.feeModel.feesOf_eq_zero hrest
      unfold FeeModel.feesOf at hzero ⊢
      rw [List.map_cons, List.sum_cons, hzero, add_zero]
      rfl
    rw [hfees, totalCash_of_sameHoldings hsame, totalCash_exchange]
    refine ⟨rfl, fun symbol' => ?_⟩
    rw [totalPosition_of_sameHoldings hsame, totalPosition_exchange _ _ _ _ hqty.le]

/-- Along ticks the sum of all cash falls by the fees, and positions only change hands. -/
theorem tick_path_conserves {c c' : Config} {events : List Event} (hc : c.Sound noDefaultAccount)
    (h : Path (Tick noDefaultAccount) c events c') :
    c'.engine.totalCash = c.engine.totalCash - c.engine.feeModel.feesOf events ∧
      ∀ symbol, c'.engine.totalPosition symbol = c.engine.totalPosition symbol := by
  have hpath := h.restrict (I := fun d : Config =>
    d.Sound noDefaultAccount ∧ d.engine.feeModel = c.engine.feeModel)
    (fun hd hr => ⟨hr.sound hd.1, hr.sameSettings.feeModel.trans hd.2⟩) ⟨hc, rfl⟩
  constructor
  · have hcash := hpath.accumulates (f := fun d => d.engine.totalCash)
      (w := fun events => -(c.engine.feeModel.feesOf events)) rfl
      (fun events more => by rw [FeeModel.feesOf_append]; omega)
      fun {d es d'} hd => by
        have hstep := (hd.2.holdings hd.1.1).conserves.1
        rw [hd.1.2] at hstep
        omega
    omega
  · intro symbol
    exact hpath.invariant (I := fun d => d.engine.totalPosition symbol = c.engine.totalPosition symbol)
      (fun hd hr => ((hr.2.holdings hr.1.1).conserves.2 symbol).trans hd) rfl

/-- Whatever an operation other than `setAccountState` does, it takes the fees of the trades
it returns out of the sum of all cash, and keeps the sum of positions of every symbol, also
where it throws. -/
theorem exec_conserves_cash_and_positions {ops : List (Op × List Event)} {s : MatchingEngine}
    {op : Op} (hrun : Run (fun _ _ op => op.submitter ≠ some defaultAccountId) fresh ops s)
    (hsubmitter : op.submitter ≠ some defaultAccountId)
    (hstate : ∀ a symbol cash qty, op ≠ .setAccountState a symbol cash qty) :
    Outcome op.exec s
      (fun events s' => s'.totalCash = s.totalCash - s.feeModel.feesOf events ∧
        ∀ symbol, s'.totalPosition symbol = s.totalPosition symbol)
      fun _ s' => ∀ symbol, s'.totalPosition symbol = s.totalPosition symbol := by
  have hguarded : ∀ {op : Op} {s : MatchingEngine}, op.submitter ≠ some defaultAccountId →
      op.Guarded noDefaultAccount s := fun hsubmitter =>
    ⟨fun a ha hdefault => hsubmitter (hdefault ▸ ha), fun _ _ h => h, fun _ _ => trivial,
      fun _ _ => trivial⟩
  have hs : s.Sound noDefaultAccount := hrun.sound hguarded (sound_fresh _)
  by_cases hsetting : op.isSetting
  · refine (Op.exec_setting hsetting s).mono (fun events s' ⟨hunset, hinert⟩ => ?_)
      fun _ s' hsame => by simp [hsame]
    have hsame : s.SameHoldings s' := .of_accounts (accounts_of_money (money_of_unset hunset))
    rw [FeeModel.feesOf_eq_zero _ fun e he => (hinert e he).not_trade, sub_zero]
    exact ⟨totalCash_of_sameHoldings hsame, totalPosition_of_sameHoldings hsame⟩
  · refine (Op.exec_traces hs (hguarded hsubmitter) hsetting hstate).mono
      (fun events s' hpath => tick_path_conserves ⟨hs, trivial⟩ hpath) ?_
    rintro _ s' ⟨events, c, hpath, habort⟩ symbol
    have hc := hpath.invariant (I := Config.Sound noDefaultAccount) Tick.sound ⟨hs, trivial⟩
    obtain ⟨more, hstep⟩ := habort.holdings hc
    exact (hstep.conserves.2 symbol).trans ((tick_path_conserves ⟨hs, trivial⟩ hpath).2 symbol)

/-- Account 1 offers 8 at 100 and account 2 buys 5 of them, with fees. -/
def firstSale : List Op :=
  [.setAccountState 1 "X" 0 10, .setAccountState 2 "X" 5000 0,
    .setFeeModel ⟨1 / 100, 2 / 100, some 1⟩, .placeLimitOrder 1 "X" .ask 100 8 .gtc,
    .placeLimitOrder 2 "X" .bid 100 5 .gtc]

theorem exec_conserves_second_sale :
    Outcome (Op.placeLimitOrder 2 "X" .bid 100 3 .gtc).exec (fresh.applyAll firstSale)
      (fun events s' => s'.totalCash = (fresh.applyAll firstSale).totalCash -
          (fresh.applyAll firstSale).feeModel.feesOf events ∧
        ∀ symbol, s'.totalPosition symbol = (fresh.applyAll firstSale).totalPosition symbol)
      fun _ s' => ∀ symbol,
        s'.totalPosition symbol = (fresh.applyAll firstSale).totalPosition symbol := by
  have hrun := Run.ofOps (P := fun _ op => op.submitter ≠ some defaultAccountId)
    firstSale (by decide +kernel)
  exact exec_conserves_cash_and_positions hrun (by decide) (by simp)

end Tes
