import Mathlib.Data.List.Sort
import Tes.Library.Json
import Tes.Library.Texts
import Tes.Queue.RunQueue

/-! Tournaments are expanded into child runs, which are told apart by their keys. -/
namespace Tes
open Texts

/-- A float, given by its representation. -/
structure PyFloat where
  repr : String
  chars : ∀ c ∈ repr.toList, c.isDigit ∨ c ∈ ['.', '+', '-', 'e', 'i', 'n', 'f', 'a']
  deriving DecidableEq

namespace PyFloat

def isNan (x : PyFloat) : Bool := x.repr = "nan"

/-- Negative zero is not below zero. -/
def isNegative (x : PyFloat) : Bool := x.repr.toList.head? = some '-' ∧ x.repr ≠ "-0.0"

end PyFloat

/-- A value of a strategy parameter. -/
inductive Scalar
  | int (n : ℤ)
  | float (x : PyFloat)
  | str (s : String)
  | bool (b : Bool)
  deriving DecidableEq

namespace Scalar

def text : Scalar → String
  | int n => toString n
  | float x => x.repr
  | str s => s
  | bool b => if b then "True" else "False"

def toValue : Scalar → Json.Value
  | int n => .int n
  | float x => .float x.repr
  | str s => .str s
  | bool b => .bool b

end Scalar

inductive TournamentType
  | strategyVsStrategy
  | strategyVsScenario
  | parameterSweep
  | multiSymbolSweep
  deriving DecidableEq

structure ParameterSweepConfig where
  strategy : String
  parameters : Table (List Scalar)
  strategy_ne : strategy ≠ ""
  names_ne : ∀ e ∈ parameters.entries, e.1 ≠ ""
  values_ne : ∀ e ∈ parameters.entries, e.2 ≠ []

/-- A request that passed its validation. -/
structure TournamentConfig where
  priority : ℤ
  tournamentType : TournamentType
  strategies : List String
  scenarios : List String
  symbols : List String
  seeds : List ℤ
  steps : ℤ
  initialCash : ℤ
  participantCounts : List ℤ
  volatilityRanges : List PyFloat
  strategyParameters : Table (List Scalar)
  parameterSweep : Option ParameterSweepConfig
  named : ∀ name ∈ strategies ++ scenarios ++ symbols, name ≠ ""
  seeds_ne : seeds ≠ []
  steps_pos : 0 < steps
  initialCash_nonneg : 0 ≤ initialCash
  participantCounts_ne : participantCounts ≠ []
  participantCounts_pos : ∀ count ∈ participantCounts, 0 < count
  volatilityRanges_ne : volatilityRanges ≠ []
  volatilityRanges_nonneg : ∀ volatility ∈ volatilityRanges, ¬ volatility.isNegative

structure ChildRunSpec where
  childKey : String
  runType : String
  config : Json.Dict
  dimensions : Json.Dict

/-- Why a request is not expanded. The text of a validation error is written elsewhere. -/
inductive ExpansionError
  | valueError (message : String)
  | validationError (field : String)
  deriving DecidableEq

/-- A dict of parameters, by its items in the order of their names. -/
abbrev Parameters := List (String × Scalar)

/-- What a key names. -/
inductive KeyPart
  | scalar (value : Scalar)
  | list (items : List String)
  | dict (items : Parameters)

def KeyPart.render : KeyPart → String
  | scalar value => value.text
  | list items => "+".intercalate items
  | dict items =>
    let rendered := ",".intercalate (items.map fun item => item.1 ++ "=" ++ item.2.text)
    if rendered = "" then "none" else rendered

@[simp] theorem KeyPart.render_scalar (value : Scalar) : (scalar value).render = value.text := rfl

@[simp] theorem KeyPart.render_list (items : List String) :
    (list items).render = "+".intercalate items := rfl

/-- The key of parts that are listed in the order of their names. -/
def key (parts : List (String × KeyPart)) : String :=
  "|".intercalate (parts.map fun part => part.1 ++ "=" ++ part.2.render)

def require {α : Type} (values : List α) (label : String) : Except ExpansionError (List α) :=
  if values = [] then .error (.valueError (label ++ " must contain at least one value"))
  else .ok values

def strings (values : List String) : Json.Value := .list (values.map .str)

def parametersValue (params : Parameters) : Json.Value :=
  .dict (params.map fun item => (item.1, item.2.toValue))

/-- The request of a backtest, less its mode. -/
def backtestRunRequest (strategy : String) (symbols : List String) (initialCash : ℤ) : Json.Dict :=
  [("priority", .int 0), ("strategy", .str strategy), ("symbols", strings symbols),
    ("initial_cash", .int initialCash), ("depth_levels", .int 5), ("progress_interval", .int 10),
    ("stream_events", .bool false), ("stream_snapshots", .bool false)]

/-- The request of a session, less its mode: its volatility is compared with zero once more. -/
def sessionRunRequest (scenario : String) (steps : ℤ) (symbols : List String) (seed : ℤ)
    (volatility : PyFloat) (participants initialCash : ℤ) : Except ExpansionError Json.Dict :=
  if volatility.isNan ∨ volatility.isNegative then .error (.validationError "volatility")
  else
    .ok [("priority", .int 0), ("scenario", .str scenario), ("steps", .int steps),
      ("symbols", strings symbols), ("seed", .int seed), ("initial_price", .int 100),
      ("volatility", .float volatility.repr), ("participants", .int participants),
      ("depth_levels", .int 5), ("initial_cash", .int initialCash),
      ("progress_interval", .int 10), ("stream_events", .bool false),
      ("stream_snapshots", .bool false)]

/-- The combinations of the values of some parameters; the last parameter varies fastest. -/
def parameterCombinations : List (String × List Scalar) → List Parameters
  | [] => [[]]
  | (name, values) :: rest =>
    (values ×ˢ parameterCombinations rest).map fun p => (name, p.1) :: p.2

namespace TournamentConfig

/-- The backtest of a strategy and a seed with some parameters. -/
def backtestSpec (config : TournamentConfig) (symbols : List String) (strategy : String) (seed : ℤ)
    (params : Parameters) : ChildRunSpec :=
  { childKey := key [("parameters", .dict params), ("seed", .scalar (.int seed)),
      ("strategy", .scalar (.str strategy)), ("symbols", .list symbols)]
    runType := "backtest"
    config := backtestRunRequest strategy symbols config.initialCash
    dimensions := [("strategy", .str strategy), ("seed", .int seed), ("symbols", strings symbols),
      ("parameters", parametersValue params)] }

def strategyBacktests (config : TournamentConfig) : Except ExpansionError (List ChildRunSpec) := do
  let strategies ← require config.strategies "strategies"
  let symbols ← require config.symbols "symbols"
  return (strategies ×ˢ config.seeds).map fun (strategy, seed) =>
    config.backtestSpec symbols strategy seed []

def scenarioSession (config : TournamentConfig) (symbols : List String) :
    String × String × ℤ × ℤ × PyFloat → Except ExpansionError ChildRunSpec
  | (strategy, scenario, seed, participants, volatility) => do
    let runConfig ← sessionRunRequest scenario config.steps symbols seed volatility participants
      config.initialCash
    return {
      childKey := key [("participants", .scalar (.int participants)),
        ("scenario", .scalar (.str scenario)), ("seed", .scalar (.int seed)),
        ("strategy", .scalar (.str strategy)), ("volatility", .scalar (.float volatility))]
      runType := "session"
      config := runConfig
      dimensions := [("strategy", .str strategy), ("scenario", .str scenario), ("seed", .int seed),
        ("symbols", strings symbols), ("participants", .int participants),
        ("volatility", .float volatility.repr)] }

/-- Sessions without strategies run with their own participants. -/
def sessionStrategies (config : TournamentConfig) : List String :=
  if config.strategies = [] then ["session_participants"] else config.strategies

def scenarioSessions (config : TournamentConfig) : Except ExpansionError (List ChildRunSpec) := do
  let scenarios ← require config.scenarios "scenarios"
  let symbols ← require config.symbols "symbols"
  (config.sessionStrategies ×ˢ scenarios ×ˢ config.seeds ×ˢ config.participantCounts ×ˢ
    config.volatilityRanges).mapM (config.scenarioSession symbols)

/-- The parameters of a sweep. -/
def sweepParameters (config : TournamentConfig) : List (String × List Scalar) :=
  match config.parameterSweep with
  | some sweep => sweep.parameters.entries
  | none => config.strategyParameters.entries

def parameterSweepRuns (config : TournamentConfig) : Except ExpansionError (List ChildRunSpec) := do
  let strategy ← match config.parameterSweep with
    | some sweep => pure sweep.strategy
    | none => do
      let strategies ← require config.strategies "strategies"
      pure (strategies.headD "")
  let combos := parameterCombinations config.sweepParameters
  let symbols ← require config.symbols "symbols"
  return (config.seeds ×ˢ combos).map fun (seed, params) =>
    config.backtestSpec symbols strategy seed params

/-- Every symbol alone, and all of them together. -/
def symbolSets (symbols : List String) : List (List String) :=
  let single := symbols.map fun symbol => [symbol]
  if 1 < symbols.length then single ++ [symbols] else single

def multiSymbolSweep (config : TournamentConfig) : Except ExpansionError (List ChildRunSpec) := do
  let strategies ← require config.strategies "strategies"
  let symbols ← require config.symbols "symbols"
  return (strategies ×ˢ symbolSets symbols ×ˢ config.seeds).map fun (strategy, symbols, seed) =>
    { childKey := key [("seed", .scalar (.int seed)), ("strategy", .scalar (.str strategy)),
        ("symbols", .list symbols)]
      runType := "backtest"
      config := backtestRunRequest strategy symbols config.initialCash
      dimensions := [("strategy", .str strategy), ("seed", .int seed),
        ("symbols", strings symbols)] }

end TournamentConfig

/-- Expand a tournament into child runs, in the order of their keys. -/
def expandTournament (config : TournamentConfig) : Except ExpansionError (List ChildRunSpec) := do
  let specs ← match config.tournamentType with
    | .strategyVsStrategy => config.strategyBacktests
    | .strategyVsScenario => config.scenarioSessions
    | .parameterSweep => config.parameterSweepRuns
    | .multiSymbolSweep => config.multiSymbolSweep
  return specs.insertionSort fun a b => a.childKey ≤ b.childKey

end Tes
