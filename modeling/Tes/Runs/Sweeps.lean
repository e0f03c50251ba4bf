import Tes.Runs.ChildLinks

/-! Which of the dimensions of a tournament's children reach their runs. -/
namespace Tes
open Texts TournamentConfig

namespace ChildRunSpec

/-- What a child executes. -/
def run (spec : ChildRunSpec) : String × Json.Dict := (spec.runType, spec.config)

def outcome (spec : ChildRunSpec) : (String × Json.Dict) × Json.Dict := (spec.run, spec.dimensions)

end ChildRunSpec

/-- Children whose dimensions differ execute something different. -/
def Sweeps (specs : List ChildRunSpec) : Prop :=
  ∀ a ∈ specs, ∀ b ∈ specs, a.dimensions ≠ b.dimensions → a.run ≠ b.run

/-- Nothing varies among the children that their runs are not given: the seeds and the parameters of
backtests, and the strategies of sessions. -/
def TournamentConfig.VariesWhatRuns (config : TournamentConfig) : Prop :=
  match config.tournamentType with
  | .strategyVsStrategy => Alike config.seeds
  | .strategyVsScenario => Alike config.sessionStrategies
  | .parameterSweep => (∃ e ∈ config.sweepParameters, e.2 = []) ∨
      Alike config.seeds ∧ ∀ e ∈ config.sweepParameters, Alike e.2
  | .multiSymbolSweep => Alike config.seeds

section Values

theorem strings_injective : Function.Injective strings := by
  intro xs ys h
  unfold strings at h
  have hinj : Function.Injective Json.Value.str := fun _ _ heq => Json.Value.str.inj heq
  exact hinj.list_map (Json.Value.list.inj h)

theorem Scalar.toValue_injective : Function.Injective Scalar.toValue := by
  intro x y h
  cases x <;> cases y <;> simp only [toValue, Json.Value.int.injEq, Json.Value.float.injEq,
    Json.Value.str.injEq, Json.Value.bool.injEq, reduceCtorEq] at h
  · rw [h]
  · rw [PyFloat.repr_inj.mp h]
  · rw [h]
  · rw [h]

theorem parametersValue_injective : Function.Injective parametersValue := by
  intro xs ys h
  unfold parametersValue at h
  have hinj : Function.Injective fun item : String × Scalar => (item.1, item.2.toValue) := by
    intro item item' heq
    obtain ⟨hname, hvalue⟩ := Prod.mk.inj heq
    exact Prod.ext hname (Scalar.toValue_injective hvalue)
  exact hinj.list_map (Json.Value.dict.inj h)

theorem backtestRunRequest_inj {strategy strategy' : String} {symbols symbols' : List String}
    {cash : ℤ} : backtestRunRequest strategy symbols cash = backtestRunRequest strategy' symbols' cash ↔
      strategy = strategy' ∧ symbols = symbols' := by
  constructor
  · intro h
    simp only [backtestRunRequest, List.cons.injEq, Prod.mk.injEq, true_and, and_true,
      Json.Value.str.injEq, strings_injective.eq_iff] at h
    exact h
  · rintro ⟨rfl, rfl⟩
    rfl

theorem alike_combinations_iff {parameters : List (String × List Scalar)}
    (h : ∀ e ∈ parameters, e.2 ≠ []) :
    Alike (parameterCombinations parameters) ↔ ∀ e ∈ parameters, Alike e.2 := by
  induction parameters with
  | nil => simp [parameterCombinations, Alike]
  | cons e rest ih =>
    obtain ⟨name, values⟩ := e
    obtain ⟨hvalues, hrest⟩ := List.forall_mem_cons.mp h
    have hcombos : parameterCombinations rest ≠ [] := by
      rw [Ne, parameterCombinations_eq_nil]
      rintro ⟨e, he, hnil⟩
      exact hrest e he hnil
    have hinj : Function.Injective fun p : Scalar × Parameters => (name, p.1) :: p.2 := by
      intro p p' heq
      obtain ⟨hhead, htail⟩ := List.cons.inj heq
      exact Prod.ext (Prod.mk.inj hhead).2 htail
    rw [parameterCombinations, alike_map_iff hinj, alike_product_iff hvalues hcombos, ih hrest,
      List.forall_mem_cons]

end Values

/-- What a session executes, and its dimensions. -/
def sessionOutcome (config : TournamentConfig) (symbols : List String) :
    String × String × ℤ × ℤ × PyFloat → (String × Json.Dict) × Json.Dict
  | (strategy, scenario, seed, participants, volatility) =>
    (("session", [("priority", .int 0), ("scenario", .str scenario), ("steps", .int config.steps),
      ("symbols", strings symbols), ("seed", .int seed), ("initial_price", .int 100),
      ("volatility", .float volatility.repr), ("participants", .int participants),
      ("depth_levels", .int 5), ("initial_cash", .int config.initialCash),
      ("progress_interval", .int 10), ("stream_events", .bool false),
      ("stream_snapshots", .bool false)]),
      [("strategy", .str strategy), ("scenario", .str scenario), ("seed", .int seed),
        ("symbols", strings symbols), ("participants", .int participants),
        ("volatility", .float volatility.repr)])

section Outcomes
variable {specs : List ChildRunSpec} {config : TournamentConfig}

/-- Children that are made one by one, each from a value that its dimensions tell. -/
theorem sweeps_iff {α β : Type} {as : List α} {made : α → (String × Json.Dict) × Json.Dict}
    {carried : α → β} (hmade : specs.map ChildRunSpec.outcome = as.map made)
    (hrun : ∀ a b, (made a).1 = (made b).1 ↔ carried a = carried b)
    (hdimensions : ∀ a b, (made a).2 = (made b).2 → a = b) :
    Sweeps specs ↔ ∀ a ∈ as, ∀ b ∈ as, carried a = carried b → a = b := by
  have houtcomes : Sweeps specs ↔ ∀ x ∈ specs.map ChildRunSpec.outcome,
      ∀ y ∈ specs.map ChildRunSpec.outcome, x.1 = y.1 → x.2 = y.2 := by
    simp only [List.forall_mem_map]
    refine forall₄_congr fun a _ b _ => ?_
    exact not_imp_not
  rw [houtcomes, hmade]
  simp only [List.forall_mem_map]
  refine forall₄_congr fun a _ b _ => ?_
  rw [hrun]
  refine imp_congr_right fun _ => ⟨hdimensions a b, fun h => ?_⟩
  rw [h]

theorem backtestSpec_run_iff {strategy strategy' : String} {symbols : List String}
    {seed seed' : ℤ} {params params' : Parameters} :
    (config.backtestSpec symbols strategy seed params).run =
        (config.backtestSpec symbols strategy' seed' params').run ↔ strategy = strategy' := by
  unfold ChildRunSpec.run backtestSpec
  rw [Prod.mk.injEq, backtestRunRequest_inj]
  simp only [true_and, and_true]

theorem backtestSpec_dimensions (config : TournamentConfig) {strategy strategy' : String}
    {symbols : List String} {seed seed' : ℤ} {params params' : Parameters}
    (h : (config.backtestSpec symbols strategy seed params).dimensions =
      (config.backtestSpec symbols strategy' seed' params').dimensions) :
    strategy = strategy' ∧ seed = seed' ∧ params = params' := by
  simp only [backtestSpec, List.cons.injEq, Prod.mk.injEq, true_and, and_true, Json.Value.str.injEq,
    Json.Value.int.injEq, parametersValue_injective.eq_iff] at h
  exact h

theorem strategyBacktests_sweeps (h : config.strategyBacktests = .ok specs) :
    Sweeps specs ↔ Alike config.seeds := by
  obtain ⟨hstrategies, h⟩ := require_bind_eq_ok.mp h
  obtain ⟨-, h⟩ := require_bind_eq_ok.mp h
  rw [← determined_by_fst_iff hstrategies]
  have hmade : specs.map ChildRunSpec.outcome = (config.strategies ×ˢ config.seeds).map fun p =>
      (config.backtestSpec config.symbols p.1 p.2 []).outcome := by
    rw [← Except.ok.inj h, List.map_map]
    rfl
  apply sweeps_iff hmade
  · intro p p'
    exact backtestSpec_run_iff
  · intro p p' heq
    obtain ⟨hstrategy, hseed, -⟩ := backtestSpec_dimensions config heq
    exact Prod.ext hstrategy hseed

theorem parameterSweepRuns_sweeps (h : config.parameterSweepRuns = .ok specs) :
    Sweeps specs ↔ (∃ e ∈ config.sweepParameters, e.2 = []) ∨
      Alike config.seeds ∧ ∀ e ∈ config.sweepParameters, Alike e.2 := by
  obtain ⟨strategy, rfl⟩ := parameterSweepRuns_specs h
  have hsweeps : Sweeps ((config.seeds ×ˢ parameterCombinations config.sweepParameters).map fun p =>
      config.backtestSpec config.symbols strategy p.1 p.2) ↔
      ∀ p ∈ config.seeds ×ˢ parameterCombinations config.sweepParameters,
        ∀ p' ∈ config.seeds ×ˢ parameterCombinations config.sweepParameters,
          strategy = strategy → p = p' := by
    apply sweeps_iff (List.map_map ..)
    · intro p p'
      exact backtestSpec_run_iff
    · intro p p' heq
      obtain ⟨-, hseed, hparams⟩ := backtestSpec_dimensions config heq
      exact Prod.ext hseed hparams
  have halike : Sweeps ((config.seeds ×ˢ parameterCombinations config.sweepParameters).map fun p =>
      config.backtestSpec config.symbols strategy p.1 p.2) ↔
      Alike (config.seeds ×ˢ parameterCombinations config.sweepParameters) := by
    rw [hsweeps]
    simp only [forall_const]
    exact Iff.rfl
  rw [halike, ← parameterCombinations_eq_nil]
  by_cases hcombos : parameterCombinations config.sweepParameters = []
  · rw [hcombos, List.product_nil]
    refine iff_of_true ?_ (.inl rfl)
    intro p hp
    cases hp
  · have hvalues : ∀ e ∈ config.sweepParameters, e.2 ≠ [] := by
      intro e he hnil
      exact hcombos ((parameterCombinations_eq_nil _).mpr ⟨e, he, hnil⟩)
    rw [or_iff_right hcombos, alike_product_iff config.seeds_ne hcombos,
      alike_combinations_iff hvalues]

theorem scenarioSession_outcome {symbols : List String}
    {dimensions : String × String × ℤ × ℤ × PyFloat} {spec : ChildRunSpec}
    (h : config.scenarioSession symbols dimensions = .ok spec) :
    spec.outcome = sessionOutcome config symbols dimensions := by
  obtain ⟨strategy, scenario, seed, participants, volatility⟩ := dimensions
  simp only [TournamentConfig.scenarioSession, sessionRunRequest] at h
  split_ifs at h
  · cases h
  · cases h
    rfl

theorem scenarioSessions_sweeps (h : config.scenarioSessions = .ok specs) :
    Sweeps specs ↔ Alike config.sessionStrategies := by
  obtain ⟨hscenarios, h⟩ := require_bind_eq_ok.mp h
  obtain ⟨-, h⟩ := require_bind_eq_ok.mp h
  have hlast := mt product_eq_nil_iff.mp
    (not_or_intro config.participantCounts_ne config.volatilityRanges_ne)
  have hthird := mt product_eq_nil_iff.mp (not_or_intro config.seeds_ne hlast)
  have hsecond := mt product_eq_nil_iff.mp (not_or_intro hscenarios hthird)
  rw [← determined_by_snd_iff hsecond]
  apply sweeps_iff (map_of_mapM (fun _ _ => scenarioSession_outcome) h)
  · rintro ⟨strategy, scenario, seed, participants, volatility⟩
      ⟨strategy', scenario', seed', participants', volatility'⟩
    simp only [sessionOutcome, List.cons.injEq, Prod.mk.injEq, true_and, and_true,
      Json.Value.str.injEq, Json.Value.int.injEq, Json.Value.float.injEq, PyFloat.repr_inj]
    constructor
    · rintro ⟨hscenario, hseed, hvolatility, hparticipants⟩
      exact ⟨hscenario, hseed, hparticipants, hvolatility⟩
    · rintro ⟨hscenario, hseed, hparticipants, hvolatility⟩
      exact ⟨hscenario, hseed, hvolatility, hparticipants⟩
  · rintro ⟨strategy, scenario, seed, participants, volatility⟩
      ⟨strategy', scenario', seed', participants', volatility'⟩ heq
    simp only [sessionOutcome, List.cons.injEq, Prod.mk.injEq, true_and, and_true,
      Json.Value.str.injEq, Json.Value.int.injEq, Json.Value.float.injEq, PyFloat.repr_inj] at heq
    obtain ⟨rfl, rfl, rfl, rfl, rfl⟩ := heq
    rfl

/-- What a backtest of a multi-symbol sweep executes, and its dimensions. -/
def multiSymbolOutcome (config : TournamentConfig) :
    String × List String × ℤ → (String × Json.Dict) × Json.Dict
  | (strategy, symbols, seed) =>
    (("backtest", backtestRunRequest strategy symbols config.initialCash),
      [("strategy", .str strategy), ("seed", .int seed), ("symbols", strings symbols)])

theorem multiSymbolSweep_sweeps (h : config.multiSymbolSweep = .ok specs) :
    Sweeps specs ↔ Alike config.seeds := by
  obtain ⟨hstrategies, h⟩ := require_bind_eq_ok.mp h
  obtain ⟨hsymbols, h⟩ := require_bind_eq_ok.mp h
  have hsets := symbolSets_ne_nil hsymbols
  have hmade : specs.map ChildRunSpec.outcome =
      (config.strategies ×ˢ symbolSets config.symbols ×ˢ config.seeds).map
        (multiSymbolOutcome config) := by
    rw [← Except.ok.inj h, List.map_map]
    rfl
  have hsweeps : Sweeps specs ↔
      ∀ p ∈ config.strategies ×ˢ symbolSets config.symbols ×ˢ config.seeds,
        ∀ p' ∈ config.strategies ×ˢ symbolSets config.symbols ×ˢ config.seeds,
          (p.1, p.2.1) = (p'.1, p'.2.1) → p = p' := by
    apply sweeps_iff hmade
    · intro p p'
      simp only [multiSymbolOutcome, Prod.mk.injEq, true_and, backtestRunRequest_inj]
    · intro p p' heq
      simp only [multiSymbolOutcome, List.cons.injEq, Prod.mk.injEq, true_and, and_true,
        Json.Value.str.injEq, Json.Value.int.injEq, strings_injective.eq_iff] at heq
      exact Prod.ext heq.1 (Prod.ext heq.2.2 heq.2.1)
  rw [hsweeps, ← determined_by_fst_iff hsets]
  obtain ⟨strategy, hstrategy⟩ := List.exists_mem_of_ne_nil _ hstrategies
  constructor
  · intro h p hp p' hp' heq
    have hsame := h (strategy, p) (List.mem_product.mpr ⟨hstrategy, hp⟩) (strategy, p')
      (List.mem_product.mpr ⟨hstrategy, hp'⟩) (Prod.ext rfl heq)
    exact congrArg Prod.snd hsame
  · intro h p hp p' hp' heq
    obtain ⟨hname, hset⟩ := Prod.mk.inj heq
    exact Prod.ext hname (h _ (List.mem_product.mp hp).2 _ (List.mem_product.mp hp').2 hset)

/-- The order of the children does not matter. -/
theorem sweeps_sorted {x : Except ExpansionError (List ChildRunSpec)} {P : Prop}
    (h : (x >>= fun specs => pure (specs.insertionSort fun a b => a.childKey ≤ b.childKey)) =
      .ok specs)
    (hx : ∀ specs, x = .ok specs → (Sweeps specs ↔ P)) : Sweeps specs ↔ P := by
  cases x with
  | error e => cases h
  | ok unsorted =>
    rw [← hx unsorted rfl, ← Except.ok.inj h]
    unfold Sweeps
    simp only [List.mem_insertionSort]

/-- Children with different dimensions run differently exactly where the tournament varies nothing
that the runs are not given. -/
theorem expandTournament_sweeps_iff (config : TournamentConfig)
    (h : expandTournament config = .ok specs) : Sweeps specs ↔ config.VariesWhatRuns := by
  unfold expandTournament at h
  unfold VariesWhatRuns
  cases htype : config.tournamentType <;> rw [htype] at h
  · exact sweeps_sorted h fun _ => strategyBacktests_sweeps
  · exact sweeps_sorted h fun _ => scenarioSessions_sweeps
  · exact sweeps_sorted h fun _ => parameterSweepRuns_sweeps
  · exact sweeps_sorted h fun _ => multiSymbolSweep_sweeps

end Outcomes

/-- A strategy in a scenario, on one symbol. -/
def scenarioConfig (seeds : List ℤ) (hseeds : seeds ≠ []) : TournamentConfig :=
  { versusConfig seeds hseeds with tournamentType := .strategyVsScenario }

/-- Sessions are given their seeds. -/
theorem scenario_seeds_sweep : ∃ specs,
    expandTournament (scenarioConfig [1, 2] (by decide)) = .ok specs ∧ specs.length = 2 ∧
      Sweeps specs := by
  have hstrategies : (scenarioConfig [1, 2] (by decide)).VariesWhatRuns := by
    intro strategy hstrategy strategy' hstrategy'
    rw [List.mem_singleton.mp hstrategy, List.mem_singleton.mp hstrategy']
  have hspecs : expandTournament (scenarioConfig [1, 2] (by decide)) = .ok _ := rfl
  exact ⟨_, hspecs, rfl, (expandTournament_sweeps_iff _ hspecs).mpr hstrategies⟩

/-- Backtests are not: two seeds of one strategy execute the same. -/
theorem backtest_seeds_not_sweeps : ∃ specs,
    expandTournament (versusConfig [1, 2] (by decide)) = .ok specs ∧ ¬ Sweeps specs := by
  refine ⟨_, rfl, fun hsweeps => ?_⟩
  let child := fun seed => (versusConfig [1, 2] (by decide)).backtestSpec ["DEFAULT"]
    "crossing_taker" seed []
  have hfirst := (List.mem_insertionSort (fun a b : ChildRunSpec => a.childKey ≤ b.childKey)).mpr
    (show child 1 ∈ [child 1, child 2] by simp)
  have hsecond := (List.mem_insertionSort (fun a b : ChildRunSpec => a.childKey ≤ b.childKey)).mpr
    (show child 2 ∈ [child 1, child 2] by simp)
  refine hsweeps _ hfirst _ hsecond ?_ rfl
  intro hdimensions
  have hseed := (backtestSpec_dimensions _ hdimensions).2.1
  omega

end Tes
