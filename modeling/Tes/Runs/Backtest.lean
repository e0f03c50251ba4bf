import Mathlib.Algebra.BigOperators.Group.List.Basic
import Mathlib.Algebra.Order.Ring.Rat
import Mathlib.Tactic.Ring
import Tes.Events.Models
import Tes.Library.FiniteMap

/-! The backtest runner. It keeps a ledger of its own beside the engine's, which follows the trades
of limit orders. -/
namespace Tes.Backtest
open EventModels

/-- What a strategy has the runner execute. -/
inductive Command
  | limitOrder (side : SideLiteral) (price qty : ℤ) (timeInForce symbol : String)
  | hiddenOrder (side : SideLiteral) (price qty : ℤ) (symbol : String)
  | icebergOrder (side : SideLiteral) (price totalQty displayQty : ℤ) (symbol : String)
  | marketOrder (side : SideLiteral) (qty : ℤ) (symbol : String)
  | stopOrder (side : SideLiteral) (stopPrice qty : ℤ) (symbol : String)
  | stopLimitOrder (side : SideLiteral) (stopPrice limitPrice qty : ℤ) (symbol : String)
  | cancelOrder (orderId : ℤ)
  | replaceOrder (orderId price qty : ℤ)
  | setTradingPhase (symbol phase : String)
  | haltSymbol (symbol reason : String)
  | resumeSymbol (symbol : String)
  | setPriceBands (symbol : String) (lowerPrice upperPrice : ℤ)
  | clearPriceBands (symbol : String)
  | uncrossAuction (symbol : String)
  deriving DecidableEq

/-- The prices of the levels of a book, best first. -/
structure Snapshot where
  bids : List ℤ
  asks : List ℤ
  deriving DecidableEq

structure Config where
  symbols : List String
  initialCash : ℤ
  depthLevels : ℕ := 5

/-- An engine: its commands may raise; a ledger gives the fees of account 0. -/
structure Engine (σ : Type) where
  executeCommand : Command → σ → Option (List TesEngineEvent × σ)
  snapshot : ℕ → String → σ → Snapshot
  accountLedger : Option (σ → List ℤ)

/-- The calls of a strategy, each on its state. -/
structure Strategy (τ : Type) where
  onStart : τ → List Command × τ
  onEvent : TesEngineEvent → τ → List Command × τ
  onMarketData : List (String × Snapshot) → τ → List Command × τ

structure Account where
  cash : ℤ
  positions : Finmap fun _ : String => ℤ

/-- One command with what came of it. -/
structure Step where
  command : Command
  events : List TesEngineEvent
  snapshots : List (String × Snapshot)
  account : Account
  equity : ℤ

structure State (σ τ : Type) where
  engine : σ
  strategies : List τ
  pending : List Command
  account : Account
  steps : List Step

/-- The price and quantity of a trade. -/
def tradeOf : TesEngineEvent → Option (ℤ × ℤ)
  | .tradeExecuted price qty .. => some (price, qty)
  | _ => none

def signOf (side : SideLiteral) : ℤ := if side.1 = "BUY" then 1 else -1

namespace Command

/-- The symbol and the sign of a limit order: the only command whose trades the runner books. -/
def limited : Command → Option (String × ℤ)
  | limitOrder side _ _ _ symbol => some (symbol, signOf side)
  | _ => none

/-- The symbol and the sign of a command that carries a side. -/
def sided : Command → Option (String × ℤ)
  | limitOrder side _ _ _ symbol => some (symbol, signOf side)
  | hiddenOrder side _ _ symbol => some (symbol, signOf side)
  | icebergOrder side _ _ _ symbol => some (symbol, signOf side)
  | marketOrder side _ symbol => some (symbol, signOf side)
  | stopOrder side _ _ symbol => some (symbol, signOf side)
  | stopLimitOrder side _ _ _ symbol => some (symbol, signOf side)
  | _ => none

/-- A command that carries a side and is no limit order. -/
def missed (command : Command) : Option (String × ℤ) :=
  if command.limited.isSome then none else command.sided

end Command

namespace Account

def trade (symbol : String) (sign : ℤ) (a : Account) (t : ℤ × ℤ) : Account :=
  { cash := a.cash + -sign * (t.1 * t.2)
    positions := a.positions.insert symbol (a.positions.valueD symbol 0 + sign * t.2) }

/-- The account after the events of a command, for the commands that count. -/
def book (counted : Command → Option (String × ℤ)) (a : Account) (command : Command)
    (events : List TesEngineEvent) : Account :=
  match counted command with
  | some (symbol, sign) => (events.filterMap tradeOf).foldl (trade symbol sign) a
  | none => a

/-- The account after some steps. -/
def after (counted : Command → Option (String × ℤ)) (a : Account) (steps : List Step) : Account :=
  steps.foldl (fun a step => a.book counted step.command step.events) a

end Account

def Config.start (config : Config) : Account :=
  { cash := config.initialCash
    positions := config.symbols.foldl (fun m symbol => m.insert symbol 0) ∅ }

/-- Half of a number as a double, cut off to an integer. -/
def half (x : ℤ) : ℤ :=
  let excess := x.natAbs.log2 - 52
  if excess = 0 then x.tdiv 2
  else
    -- a double holds 53 bits, and ties go to the even one
    let unit := 2 ^ excess
    let bits := x.natAbs / unit
    let rest := x.natAbs % unit
    let bits := if unit < 2 * rest ∨ 2 * rest = unit ∧ bits % 2 = 1 then bits + 1 else bits
    x.sign * (bits * unit / 2 : ℕ)

example : half (-7) = -3 ∧ half (2 ^ 53 + 7) = 2 ^ 52 + 4 := by decide

/-- The middle of the best prices, or the one there is. -/
def mid (snapshot : Snapshot) : Option ℤ :=
  match snapshot.bids.head?, snapshot.asks.head? with
  | none, none => none
  | none, some ask => some ask
  | some bid, none => some bid
  | some bid, some ask => some (half (bid + ask))

/-- What a quantity of a symbol is worth; nothing where no price shows. -/
def worth (snapshots : List (String × Snapshot)) (symbol : String) (qty : ℤ) : ℤ :=
  ((snapshots.lookup symbol).bind mid).elim 0 fun price => qty * price

def markToMarket (positions : Finmap fun _ : String => ℤ) (snapshots : List (String × Snapshot)) :
    ℤ :=
  positions.total (worth snapshots)

section Run
variable {σ τ : Type} (engine : Engine σ) (strategy : Strategy τ) (config : Config)

def snapshots (s : σ) : List (String × Snapshot) :=
  config.symbols.map fun symbol => (symbol, engine.snapshot config.depthLevels symbol s)

/-- What a strategy answers to the events of a step and to the market after it. -/
def respond (events : List TesEngineEvent) (market : List (String × Snapshot)) (state : τ) :
    List Command × τ :=
  let (commands, state) := events.foldl (fun (commands, state) event =>
    let (more, state) := strategy.onEvent event state
    (commands ++ more, state)) ([], state)
  let (more, state) := strategy.onMarketData market state
  (commands ++ more, state)

/-- One pass of the loop, for a command that was pending. -/
def step (command : Command) (rest : List Command) (s : State σ τ) : Option (State σ τ) := do
  let (events, next) ← engine.executeCommand command s.engine
  let account := s.account.book Command.limited command events
  let market := snapshots engine config next
  let responses := s.strategies.map (respond strategy events market)
  let equity := account.cash + markToMarket account.positions market
  some
    { engine := next
      strategies := responses.map Prod.snd
      pending := rest ++ responses.flatMap Prod.fst
      account
      steps := s.steps ++ [{ command, events, snapshots := market, account, equity }] }

/-- The loop, as far as the fuel goes; no state where the engine raises or the fuel runs out. -/
def loop : ℕ → State σ τ → Option (State σ τ)
  | 0, s => if s.pending = [] then some s else none
  | fuel + 1, s =>
    match s.pending with
    | [] => some s
    | command :: rest => (step engine strategy config command rest s).bind (loop fuel)

def initial (s : σ) (strategies : List τ) : State σ τ :=
  let started := strategies.map strategy.onStart
  { engine := s, strategies := started.map Prod.snd, pending := started.flatMap Prod.fst
    account := config.start, steps := [] }

end Run

structure Report where
  startingEquity : ℤ
  endingEquity : ℤ
  realizedPnl : ℚ
  unrealizedPnl : ℚ
  totalFees : ℤ
  totalTradedNotional : ℤ
  totalTrades : ℕ
  totalOrders : ℕ
  fillRatio : ℚ
  rejectedOrders : ℕ
  perSymbolVolume : Finmap fun _ : String => ℤ
  perSymbolPosition : Finmap fun _ : String => ℤ
  cashBalance : ℤ
  equityCurve : List ℤ

/-- The symbol, price and quantity of a trade. -/
def symbolTradeOf : TesEngineEvent → Option (String × ℤ × ℤ)
  | .tradeExecuted price qty _ _ symbol => some (symbol, price, qty)
  | _ => none

def isReject : TesEngineEvent → Bool
  | .orderRejected .. => true
  | _ => false

def buildReport {σ τ : Type} (engine : Engine σ) (config : Config) (s : State σ τ) : Report :=
  let events := s.steps.flatMap Step.events
  let trades := events.filterMap symbolTradeOf
  let curve := config.initialCash :: s.steps.map Step.equity
  let ending := curve.getLast (List.cons_ne_nil _ _)
  let unrealized : ℚ := (s.steps.getLast?.elim 0 fun step => step.equity - s.account.cash : ℤ)
  { startingEquity := config.initialCash
    endingEquity := ending
    realizedPnl := ending - config.initialCash - unrealized
    unrealizedPnl := unrealized
    totalFees := engine.accountLedger.elim 0 fun ledger => (ledger s.engine).sum
    totalTradedNotional := (trades.map fun t => t.2.1 * t.2.2).sum
    totalTrades := trades.length
    totalOrders := s.steps.length
    fillRatio := if s.steps = [] then 0 else (trades.length : ℚ) / s.steps.length
    rejectedOrders := (events.filter isReject).length
    perSymbolVolume := trades.foldl (fun m t => m.insert t.1 (m.valueD t.1 0 + t.2.2))
      (config.symbols.foldl (fun m symbol => m.insert symbol 0) ∅)
    perSymbolPosition := s.account.positions
    cashBalance := s.account.cash
    equityCurve := curve }

/-! The ledger as a fold of the steps. -/

def Account.equity (a : Account) (snapshots : List (String × Snapshot)) : ℤ :=
  a.cash + markToMarket a.positions snapshots

/-- The equities at the steps, of an account that books the commands that count. -/
def equities (counted : Command → Option (String × ℤ)) : Account → List Step → List ℤ
  | _, [] => []
  | a, step :: rest =>
    let a := a.book counted step.command step.events
    a.equity step.snapshots :: equities counted a rest

/-- The trades of the commands that count. -/
def tradesOf (counted : Command → Option (String × ℤ)) (steps : List Step) : List (ℤ × ℤ) :=
  steps.flatMap fun step =>
    if (counted step.command).isSome then step.events.filterMap tradeOf else []

def Account.empty : Account := { cash := 0, positions := ∅ }

/-- The figures of a report are those of the trades of the commands that carry a side. -/
structure FollowsTrades (config : Config) (steps : List Step) (report : Report) : Prop where
  cash : report.cashBalance = (config.start.after Command.sided steps).cash
  positions : ∀ symbol, report.perSymbolPosition.valueD symbol 0 =
    (config.start.after Command.sided steps).positions.valueD symbol 0
  curve : report.equityCurve = config.initialCash :: equities Command.sided config.start steps
  ending : report.endingEquity = (config.initialCash ::
    equities Command.sided config.start steps).getLast (List.cons_ne_nil _ _)
  trades : report.totalTrades = (tradesOf Command.sided steps).length

/-- The trades that the runner misses cancel out: an account of these alone ends empty, and is worth
nothing at every step. A command without a side trades nothing. -/
structure MissesNothing (steps : List Step) : Prop where
  cash : (Account.empty.after Command.missed steps).cash = 0
  positions : ∀ symbol,
    (Account.empty.after Command.missed steps).positions.valueD symbol 0 = 0
  equities : ∀ equity ∈ equities Command.missed Account.empty steps, equity = 0
  sideless : ∀ step ∈ steps, step.command.sided = none → step.events.filterMap tradeOf = []

/-- An account is the sum of two. -/
structure Account.IsSum (a b c : Account) : Prop where
  cash : c.cash = a.cash + b.cash
  positions : ∀ symbol, c.positions.valueD symbol 0 =
    a.positions.valueD symbol 0 + b.positions.valueD symbol 0

section Sum
variable {a b c : Account} {steps : List Step} {symbol : String} {sign : ℤ}

theorem Account.IsSum.empty (a : Account) : IsSum a .empty a := by
  constructor
  · exact (add_zero a.cash).symm
  · intro symbol
    exact (add_zero _).symm

theorem positions_trade (a : Account) (t : ℤ × ℤ) (other : String) :
    (a.trade symbol sign t).positions.valueD other 0 =
      a.positions.valueD other 0 + if other = symbol then sign * t.2 else 0 := by
  unfold Account.trade
  dsimp only
  rw [Finmap.valueD_insert]
  split_ifs with hother
  · rw [hother]
  · rw [add_zero]

/-- Trades booked on one part are booked on the sum. -/
theorem Account.IsSum.trades (h : IsSum a b c) (trades : List (ℤ × ℤ)) :
    IsSum (trades.foldl (Account.trade symbol sign) a) b
      (trades.foldl (Account.trade symbol sign) c) := by
  induction trades generalizing a c with
  | nil => exact h
  | cons t rest ih =>
    apply ih
    constructor
    · unfold Account.trade
      dsimp only
      rw [h.cash]
      ring
    · intro other
      rw [positions_trade, positions_trade, h.positions]
      ring

theorem Account.IsSum.symm (h : IsSum a b c) : IsSum b a c := by
  constructor
  · rw [h.cash, add_comm]
  · intro symbol
    rw [h.positions, add_comm]

/-- A command that carries a side is a limit order, or it is missed. -/
theorem Account.IsSum.book (h : IsSum a b c) (command : Command) (events : List TesEngineEvent) :
    IsSum (a.book Command.limited command events) (b.book Command.missed command events)
      (c.book Command.sided command events) := by
  unfold Account.book Command.missed
  cases hlimited : command.limited with
  | some order =>
    obtain ⟨symbol, sign⟩ := order
    have hsided : command.sided = some (symbol, sign) := by
      cases command <;> first | exact hlimited | cases hlimited
    rw [hsided]
    exact h.trades _
  | none =>
    simp only [Option.isSome_none, Bool.false_eq_true, if_false]
    cases command.sided with
    | none => exact h
    | some order => exact (h.symm.trades _).symm

theorem worth_zero (snapshots : List (String × Snapshot)) (symbol : String) :
    worth snapshots symbol 0 = 0 := by
  unfold worth
  cases (snapshots.lookup symbol).bind mid with
  | none => rfl
  | some price => exact zero_mul price

theorem worth_add (snapshots : List (String × Snapshot)) (symbol : String) (x y : ℤ) :
    worth snapshots symbol (x + y) = worth snapshots symbol x + worth snapshots symbol y := by
  unfold worth
  cases (snapshots.lookup symbol).bind mid with
  | none => rfl
  | some price => exact add_mul x y price

/-- The equity of a sum of accounts. -/
theorem Account.IsSum.equity (h : IsSum a b c) (snapshots : List (String × Snapshot)) :
    c.equity snapshots = a.equity snapshots + b.equity snapshots := by
  have hkeys : ∀ m : Finmap fun _ : String => ℤ,
      m.keys ⊆ a.positions.keys ∪ b.positions.keys ∪ c.positions.keys →
      markToMarket m snapshots =
        ∑ symbol ∈ a.positions.keys ∪ b.positions.keys ∪ c.positions.keys,
          worth snapshots symbol (m.valueD symbol 0) := fun m hm =>
    Finmap.total_eq_sum (worth_zero snapshots) hm
  unfold Account.equity
  rw [hkeys a.positions (by intro x hx; simp [hx]), hkeys b.positions (by intro x hx; simp [hx]),
    hkeys c.positions (by intro x hx; simp [hx]), h.cash]
  simp only [h.positions, worth_add, Finset.sum_add_distrib]
  ring

theorem Account.IsSum.after (h : IsSum a b c) (steps : List Step) :
    IsSum (a.after Command.limited steps) (b.after Command.missed steps)
      (c.after Command.sided steps) := by
  induction steps generalizing a b c with
  | nil => exact h
  | cons step rest ih => exact ih (h.book step.command step.events)

/-- The equities of the parts make up those of the sum. -/
theorem Account.IsSum.equities_eq_iff (h : IsSum a b c) (steps : List Step) :
    equities Command.limited a steps = equities Command.sided c steps ↔
      ∀ equity ∈ equities Command.missed b steps, equity = 0 := by
  induction steps generalizing a b c with
  | nil => simp [equities]
  | cons step rest ih =>
    have hbook := h.book step.command step.events
    have hequity := hbook.equity step.snapshots
    unfold equities
    rw [List.cons.injEq, ih hbook, List.forall_mem_cons]
    constructor
    · rintro ⟨heq, hrest⟩
      exact ⟨by omega, hrest⟩
    · rintro ⟨heq, hrest⟩
      exact ⟨by omega, hrest⟩

end Sum

/-! The runs of the loop. -/

/-- The account and the equities of a state are those of the trades of limit orders. -/
structure Booked {σ τ : Type} (config : Config) (s : State σ τ) : Prop where
  account : s.account = config.start.after Command.limited s.steps
  equities : s.steps.map Step.equity = equities Command.limited config.start s.steps

section Loop
variable {σ τ : Type} {engine : Engine σ} {strategy : Strategy τ} {config : Config}
  {s s' : State σ τ} {command : Command} {rest : List Command}

theorem equities_concat (counted : Command → Option (String × ℤ)) (a : Account)
    (steps : List Step) (step : Step) :
    equities counted a (steps ++ [step]) = equities counted a steps ++
      [((a.after counted steps).book counted step.command step.events).equity step.snapshots] := by
  induction steps generalizing a with
  | nil => rfl
  | cons first steps ih =>
    rw [List.cons_append, equities, equities, ih, List.cons_append]
    rfl

theorem Booked.step (h : Booked config s)
    (hstep : step engine strategy config command rest s = some s') : Booked config s' := by
  unfold Backtest.step at hstep
  obtain ⟨⟨events, next⟩, -, hnext⟩ := Option.bind_eq_some_iff.mp hstep
  rw [← Option.some.inj hnext]
  constructor
  · dsimp only
    unfold Account.after
    rw [List.foldl_concat, h.account]
    rfl
  · dsimp only
    rw [List.map_append, equities_concat, ← h.equities, ← h.account]
    rfl

theorem Booked.loop (h : Booked config s) {fuel : ℕ}
    (hloop : loop engine strategy config fuel s = some s') : Booked config s' := by
  induction fuel generalizing s with
  | zero =>
    unfold Backtest.loop at hloop
    split_ifs at hloop
    rwa [← Option.some.inj hloop]
  | succ fuel ih =>
    unfold Backtest.loop at hloop
    split at hloop
    · rwa [← Option.some.inj hloop]
    · obtain ⟨next, hnext, hrest⟩ := Option.bind_eq_some_iff.mp hloop
      exact ih (h.step hnext) hrest

theorem booked_initial (state : σ) (strategies : List τ) :
    Booked config (initial strategy config state strategies) := ⟨rfl, rfl⟩

end Loop

section Trades
variable {steps : List Step}

theorem length_symbolTrades (events : List TesEngineEvent) :
    (events.filterMap symbolTradeOf).length = (events.filterMap tradeOf).length := by
  induction events with
  | nil => rfl
  | cons event rest ih => cases event <;> simp [symbolTradeOf, tradeOf, List.filterMap_cons, ih]

/-- All trades are of commands that carry a side exactly where the others trade nothing. -/
theorem length_tradesOf_iff :
    ((steps.flatMap Step.events).filterMap symbolTradeOf).length =
      (tradesOf Command.sided steps).length ↔
    ∀ step ∈ steps, step.command.sided = none → step.events.filterMap tradeOf = [] := by
  have hle : ∀ steps : List Step, (tradesOf Command.sided steps).length ≤
      ((steps.flatMap Step.events).filterMap symbolTradeOf).length := by
    intro steps
    induction steps with
    | nil => exact le_rfl
    | cons step rest ih =>
      unfold tradesOf at ih ⊢
      rw [List.flatMap_cons, List.flatMap_cons, List.filterMap_append, List.length_append,
        List.length_append, length_symbolTrades]
      split_ifs
      · omega
      · simp only [List.length_nil]
        omega
  induction steps with
  | nil => simp [tradesOf]
  | cons step rest ih =>
    have hrest := hle rest
    unfold tradesOf at ih hrest ⊢
    rw [List.forall_mem_cons]
    refine .trans ?_ (and_congr Iff.rfl ih)
    rw [List.flatMap_cons, List.flatMap_cons, List.filterMap_append, List.length_append,
      List.length_append, length_symbolTrades]
    cases hsided : step.command.sided with
    | some order => simp
    | none =>
      simp only [Option.isSome_none, Bool.false_eq_true, if_false, List.length_nil, forall_const]
      rw [← List.length_eq_zero_iff]
      omega

end Trades

/-- The report of a run follows the trades of the commands that carry a side exactly where the ones
that are no limit orders cancel out at every step, and commands without a side trade nothing. -/
theorem report_followsTrades_iff {σ τ : Type} (engine : Engine σ) (strategy : Strategy τ)
    (config : Config) (state : σ) (strategies : List τ) {fuel : ℕ} {final : State σ τ}
    (hrun : loop engine strategy config fuel (initial strategy config state strategies) =
      some final) :
    FollowsTrades config final.steps (buildReport engine config final) ↔
      MissesNothing final.steps := by
  obtain ⟨haccount, hequities⟩ := (booked_initial state strategies).loop hrun
  have hsum := (Account.IsSum.empty config.start).after final.steps
  have hcurve := (Account.IsSum.empty config.start).equities_eq_iff final.steps
  rw [← hequities] at hcurve
  rw [← haccount] at hsum
  constructor
  · intro h
    constructor
    · have hcash : final.account.cash = _ := h.cash
      have hparts := hsum.cash
      omega
    · intro symbol
      have hposition : final.account.positions.valueD symbol 0 = _ := h.positions symbol
      have hparts := hsum.positions symbol
      omega
    · exact hcurve.mp (List.cons.inj h.curve).2
    · exact length_tradesOf_iff.mp h.trades
  · intro h
    have hsame := hcurve.mpr h.equities
    constructor
    · change final.account.cash = _
      rw [hsum.cash, h.cash, add_zero]
    · intro symbol
      change final.account.positions.valueD symbol 0 = _
      rw [hsum.positions, h.positions, add_zero]
    · exact congrArg (config.initialCash :: ·) hsame
    · change (config.initialCash :: final.steps.map Step.equity).getLast _ = _
      congr 2
    · exact length_tradesOf_iff.mpr h.sideless

/-- An engine that fills every order of one lot at 100. -/
def fillsAtHundred : Engine Unit where
  executeCommand command _ :=
    some (if command.sided.isSome then [.tradeExecuted 100 1 1 2 "SIM"] else [], ())
  snapshot _ _ _ := { bids := [], asks := [] }
  accountLedger := none

/-- A strategy that sends one command when it starts. -/
def sendsOnce : Strategy (List Command) where
  onStart commands := (commands, [])
  onEvent _ state := ([], state)
  onMarketData _ state := ([], state)

def oneSymbol : Config := { symbols := ["SIM"], initialCash := 1000 }

def buy : SideLiteral := ⟨"BUY", by decide⟩

theorem report_followsTrades_limitOrder :
    ∃ final, loop fillsAtHundred sendsOnce oneSymbol 2
        (initial sendsOnce oneSymbol () [[.limitOrder buy 100 1 "GTC" "SIM"]]) = some final ∧
      final.account.cash = 900 ∧
      FollowsTrades oneSymbol final.steps (buildReport fillsAtHundred oneSymbol final) := by
  have hrun : loop fillsAtHundred sendsOnce oneSymbol 2
      (initial sendsOnce oneSymbol () [[.limitOrder buy 100 1 "GTC" "SIM"]]) = some _ := rfl
  refine ⟨_, hrun, rfl, (report_followsTrades_iff _ _ _ _ _ hrun).mpr ?_⟩
  constructor
  · rfl
  · intro symbol
    exact Finmap.valueD_empty symbol 0
  · intro equity hequity
    have hzero : equity = 0 + 0 := List.mem_singleton.mp hequity
    exact hzero
  · intro step hstep hside
    rw [List.mem_singleton.mp hstep] at hside
    cases hside

/-- A market order buys one lot at 100, and the runner keeps its cash. -/
theorem not_followsTrades_marketOrder :
    ∃ final, loop fillsAtHundred sendsOnce oneSymbol 2
        (initial sendsOnce oneSymbol () [[.marketOrder buy 1 "SIM"]]) = some final ∧
      ¬ FollowsTrades oneSymbol final.steps (buildReport fillsAtHundred oneSymbol final) := by
  refine ⟨_, rfl, fun h => ?_⟩
  have hcash : (1000 : ℤ) = 900 := h.cash
  omega

end Tes.Backtest
