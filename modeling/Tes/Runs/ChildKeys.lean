import Tes.Library.Lists
import Tes.Runs.Expansion

/-! When the keys of a tournament's children are distinct. -/
namespace Tes
open Texts

/-- What a key holds behind the value of a parameter. -/
def continuation : Parameters → String
  | [] => ""
  | (name, value) :: rest => "," ++ name ++ "=" ++ (value.text ++ continuation rest)

/-- The combinations of some parameters print differently: so do the values of each parameter, and
no value is extended by what may come behind it. -/
def PrintApart : List (String × List Scalar) → Prop
  | [] => True
  | (_, values) :: rest => (values.map Scalar.text).Nodup ∧ PrintApart rest ∧
      ¬ Overlap (values.map Scalar.text) ((parameterCombinations rest).map continuation)

namespace TournamentConfig

/-- What the key of a session holds between its scenario and its volatility. -/
def scenarioTails (config : TournamentConfig) : List String :=
  (config.seeds ×ˢ config.sessionStrategies).map fun p =>
    "|seed=" ++ toString p.1 ++ "|strategy=" ++ p.2

/-- What the key of a multi-symbol backtest holds behind its strategy. -/
def symbolTails (config : TournamentConfig) : List String :=
  (symbolSets config.symbols).map fun symbols => "|symbols=" ++ "+".intercalate symbols

/-- Nothing that the keys are made of is listed twice, and no two keys are cut differently. -/
def DistinctChildren (config : TournamentConfig) : Prop :=
  match config.tournamentType with
  | .strategyVsStrategy => config.strategies.Nodup ∧ config.seeds.Nodup
  | .strategyVsScenario => config.sessionStrategies.Nodup ∧ config.scenarios.Nodup ∧
      config.seeds.Nodup ∧ config.participantCounts.Nodup ∧ config.volatilityRanges.Nodup ∧
      ¬ Overlap config.scenarios config.scenarioTails
  | .parameterSweep => (∃ e ∈ config.sweepParameters, e.2 = []) ∨
      config.seeds.Nodup ∧ PrintApart config.sweepParameters
  | .multiSymbolSweep => config.strategies.Nodup ∧ config.symbols.Nodup ∧ config.seeds.Nodup ∧
      ¬ Overlap config.strategies config.symbolTails

end TournamentConfig

section Combinations

theorem parameterCombinations_eq_nil (parameters : List (String × List Scalar)) :
    parameterCombinations parameters = [] ↔ ∃ e ∈ parameters, e.2 = [] := by
  induction parameters with
  | nil => simp [parameterCombinations]
  | cons e rest ih =>
    obtain ⟨name, values⟩ := e
    rw [parameterCombinations, List.map_eq_nil_iff, product_eq_nil_iff, ih, List.exists_mem_cons_iff]

theorem nodup_continuation {parameters : List (String × List Scalar)}
    (h : ∀ e ∈ parameters, e.2 ≠ []) :
    ((parameterCombinations parameters).map continuation).Nodup ↔ PrintApart parameters := by
  induction parameters with
  | nil => simp [parameterCombinations, PrintApart]
  | cons e rest ih =>
    obtain ⟨name, values⟩ := e
    have hrest : ∀ e ∈ rest, e.2 ≠ [] := fun e he => h e (List.mem_cons_of_mem _ he)
    have hcombos : parameterCombinations rest ≠ [] := by
      rw [Ne, parameterCombinations_eq_nil]
      rintro ⟨e, he, hnil⟩
      exact hrest e he hnil
    have hvalues : values ≠ [] := h (name, values) List.mem_cons_self
    have hmap : (parameterCombinations ((name, values) :: rest)).map continuation =
        ((values ×ˢ parameterCombinations rest).map fun p => p.1.text ++ continuation p.2).map
          fun text => "," ++ name ++ "=" ++ text := by
      simp [parameterCombinations, continuation, Function.comp_def]
    rw [hmap, List.nodup_map_iff fun _ _ heq => append_left_cancel heq,
      nodup_append_iff hvalues hcombos Scalar.text continuation, ih hrest]
    simp only [PrintApart]

theorem intercalate_items (item : String × Scalar) (rest : Parameters) :
    ",".intercalate ((item :: rest).map fun item => item.1 ++ "=" ++ item.2.text) =
      item.1 ++ "=" ++ item.2.text ++ continuation rest := by
  induction rest generalizing item with
  | nil => simp [continuation]
  | cons next rest ih =>
    rw [List.map_cons, List.map_cons, String.intercalate_cons_cons]
    have hnext := ih next
    rw [List.map_cons] at hnext
    rw [hnext]
    simp only [continuation, String.append_assoc]

/-- Combinations print as what a key would hold behind a value, but for the comma. -/
theorem render_inj {name : String} {value value' : Scalar} {rest rest' : Parameters} :
    (KeyPart.dict ((name, value) :: rest)).render = (KeyPart.dict ((name, value') :: rest')).render ↔
      continuation ((name, value) :: rest) = continuation ((name, value') :: rest') := by
  have hrender : ∀ value rest, "," ++ (KeyPart.dict ((name, value) :: rest)).render =
      continuation ((name, value) :: rest) := by
    intro value rest
    have hne : name ++ "=" ++ value.text ++ continuation rest ≠ "" := by
      intro hempty
      have hlength := congrArg String.length hempty
      simp at hlength
    simp only [KeyPart.render]
    rw [intercalate_items, if_neg hne]
    simp only [continuation, String.append_assoc]
  rw [← hrender, ← hrender]
  exact ⟨fun h => by rw [h], append_left_cancel⟩

theorem nodup_render {parameters : List (String × List Scalar)}
    (h : ∀ e ∈ parameters, e.2 ≠ []) :
    ((parameterCombinations parameters).map fun params => (KeyPart.dict params).render).Nodup ↔
      PrintApart parameters := by
  cases parameters with
  | nil => simp [parameterCombinations, PrintApart]
  | cons e rest =>
    obtain ⟨name, values⟩ := e
    rw [← nodup_continuation h]
    apply nodup_map_congr
    intro params hparams params' hparams'
    obtain ⟨⟨value, tail⟩, -, rfl⟩ := List.mem_map.mp hparams
    obtain ⟨⟨value', tail'⟩, -, rfl⟩ := List.mem_map.mp hparams'
    exact render_inj

end Combinations

/-! The keys, one kind of tournament after the other. -/
section Keys

theorem bar_notMem_toString (n : ℤ) : '|' ∉ (toString n).toList :=
  notMem_toString rfl (by decide) n

theorem bar_notMem_repr (x : PyFloat) : '|' ∉ x.repr.toList := by
  intro hmem
  have hchar := x.chars _ hmem
  revert hchar
  decide

section Backtests
variable {config : TournamentConfig} {symbols : List String} {strategy strategy' : String}
variable {params params' : Parameters} {seed seed' : ℤ}

theorem backtestSpec_childKey : (config.backtestSpec symbols strategy seed params).childKey =
    "parameters=" ++ ((KeyPart.dict params).render ++ "|seed=" ++ toString seed) ++
      ("|strategy=" ++ strategy ++ "|symbols=" ++ "+".intercalate symbols) := by
  rw [← String.toList_inj]
  simp [TournamentConfig.backtestSpec, key, Scalar.text]

/-- Backtests with the same parameters. -/
theorem backtestSpec_strategy_inj : (config.backtestSpec symbols strategy seed params).childKey =
      (config.backtestSpec symbols strategy' seed' params).childKey ↔
    strategy = strategy' ∧ seed = seed' := by
  have hkey : ∀ strategy seed, (config.backtestSpec symbols strategy seed params).childKey =
      "parameters=" ++ (KeyPart.dict params).render ++ "|seed=" ++
        (toString seed ++ "|strategy=" ++ (strategy ++ ("|symbols=" ++ "+".intercalate symbols))) := by
    intro strategy seed
    rw [backtestSpec_childKey]
    simp only [String.append_assoc]
  constructor
  · intro h
    rw [hkey, hkey] at h
    obtain ⟨hseed, hrest⟩ := split_first rfl (bar_notMem_toString seed) (bar_notMem_toString seed')
      (append_left_cancel h)
    exact ⟨append_right_cancel hrest, toString_injective hseed⟩
  · rintro ⟨rfl, rfl⟩
    rfl

/-- Backtests of the same strategy. -/
theorem backtestSpec_params_inj : (config.backtestSpec symbols strategy seed params).childKey =
      (config.backtestSpec symbols strategy seed' params').childKey ↔
    seed = seed' ∧ (KeyPart.dict params).render = (KeyPart.dict params').render := by
  constructor
  · intro h
    rw [backtestSpec_childKey, backtestSpec_childKey] at h
    obtain ⟨hparams, hseed⟩ := split_last rfl (by decide) (bar_notMem_toString seed)
      (bar_notMem_toString seed') (append_left_cancel (append_right_cancel h))
    exact ⟨toString_injective hseed, hparams⟩
  · rintro ⟨rfl, hparams⟩
    rw [backtestSpec_childKey, backtestSpec_childKey, hparams]

end Backtests

/-- The keys of the sessions. -/
def sessionKey : String × String × ℤ × ℤ × PyFloat → String
  | (strategy, scenario, seed, participants, volatility) =>
    "participants=" ++ (toString participants ++ "|scenario=" ++
      (scenario ++ ("|seed=" ++ toString seed ++ "|strategy=" ++ strategy) ++ "|volatility=" ++
        volatility.repr))

theorem scenarioSession_childKey {config : TournamentConfig} {symbols : List String}
    {dimensions : String × String × ℤ × ℤ × PyFloat} {spec : ChildRunSpec}
    (h : config.scenarioSession symbols dimensions = .ok spec) :
    spec.childKey = sessionKey dimensions := by
  obtain ⟨strategy, scenario, seed, participants, volatility⟩ := dimensions
  simp only [TournamentConfig.scenarioSession, sessionRunRequest] at h
  split_ifs at h
  · cases h
  · cases h
    rw [← String.toList_inj]
    simp [sessionKey, key, Scalar.text]

theorem PyFloat.repr_inj {x y : PyFloat} : x.repr = y.repr ↔ x = y := by
  constructor
  · intro h
    cases x
    cases y
    congr
  · intro h
    rw [h]

theorem sessionKey_inj {strategy strategy' scenario scenario' : String}
    {seed seed' participants participants' : ℤ} {volatility volatility' : PyFloat} :
    sessionKey (strategy, scenario, seed, participants, volatility) =
        sessionKey (strategy', scenario', seed', participants', volatility') ↔
      participants = participants' ∧ volatility = volatility' ∧
        scenario ++ ("|seed=" ++ toString seed ++ "|strategy=" ++ strategy) =
          scenario' ++ ("|seed=" ++ toString seed' ++ "|strategy=" ++ strategy') := by
  simp only [sessionKey]
  constructor
  · intro h
    obtain ⟨hparticipants, hrest⟩ := split_first rfl (bar_notMem_toString participants)
      (bar_notMem_toString participants') (append_left_cancel h)
    obtain ⟨hmiddle, hvolatility⟩ := split_last rfl (by decide) (bar_notMem_repr volatility)
      (bar_notMem_repr volatility') hrest
    exact ⟨toString_injective hparticipants, PyFloat.repr_inj.mp hvolatility, hmiddle⟩
  · rintro ⟨rfl, rfl, hmiddle⟩
    rw [hmiddle]

theorem scenarioTail_inj {seed seed' : ℤ} {strategy strategy' : String}
    (h : "|seed=" ++ toString seed ++ "|strategy=" ++ strategy =
      "|seed=" ++ toString seed' ++ "|strategy=" ++ strategy') :
    seed = seed' ∧ strategy = strategy' := by
  have hgroup : ∀ (seed : ℤ) (strategy : String), "|seed=" ++ toString seed ++ "|strategy=" ++
      strategy = "|seed=" ++ (toString seed ++ "|strategy=" ++ strategy) := by
    intro seed strategy
    simp only [String.append_assoc]
  rw [hgroup, hgroup] at h
  obtain ⟨hseed, hstrategy⟩ := split_first rfl (bar_notMem_toString seed)
    (bar_notMem_toString seed') (append_left_cancel h)
  exact ⟨toString_injective hseed, hstrategy⟩

/-- The keys of the backtests of a multi-symbol sweep. -/
def multiSymbolKey : String × List String × ℤ → String
  | (strategy, symbols, seed) =>
    "seed=" ++ (toString seed ++ "|strategy=" ++
      (strategy ++ ("|symbols=" ++ "+".intercalate symbols)))

theorem multiSymbolKey_inj {strategy strategy' : String} {symbols symbols' : List String}
    {seed seed' : ℤ} :
    multiSymbolKey (strategy, symbols, seed) = multiSymbolKey (strategy', symbols', seed') ↔
      seed = seed' ∧ strategy ++ ("|symbols=" ++ "+".intercalate symbols) =
        strategy' ++ ("|symbols=" ++ "+".intercalate symbols') := by
  simp only [multiSymbolKey]
  constructor
  · intro h
    obtain ⟨hseed, hrest⟩ := split_first rfl (bar_notMem_toString seed)
      (bar_notMem_toString seed') (append_left_cancel h)
    exact ⟨toString_injective hseed, hrest⟩
  · rintro ⟨rfl, hrest⟩
    rw [hrest]

end Keys

section SymbolSets
variable {symbols : List String}
open TournamentConfig

theorem mem_symbolSets {set : List String} (h : set ∈ symbolSets symbols) :
    (∃ symbol ∈ symbols, set = [symbol]) ∨ 1 < symbols.length ∧ set = symbols := by
  unfold symbolSets at h
  split_ifs at h with hmany
  · rcases List.mem_append.mp h with hsingle | hall
    · obtain ⟨symbol, hsymbol, rfl⟩ := List.mem_map.mp hsingle
      exact .inl ⟨symbol, hsymbol, rfl⟩
    · exact .inr ⟨hmany, List.mem_singleton.mp hall⟩
  · obtain ⟨symbol, hsymbol, rfl⟩ := List.mem_map.mp h
    exact .inl ⟨symbol, hsymbol, rfl⟩

theorem nodup_symbolSets : (symbolSets symbols).Nodup ↔ symbols.Nodup := by
  have hsingle : (symbols.map fun symbol => [symbol]).Nodup ↔ symbols.Nodup :=
    List.nodup_map_iff fun _ _ h => List.singleton_injective h
  unfold symbolSets
  split_ifs with hmany
  · rw [List.nodup_append_comm, List.singleton_append, List.nodup_cons, hsingle]
    refine and_iff_right fun hmem => ?_
    obtain ⟨symbol, -, heq⟩ := List.mem_map.mp hmem
    rw [← heq, List.length_singleton] at hmany
    exact absurd hmany (lt_irrefl 1)
  · exact hsingle

theorem symbolSets_ne_nil (h : symbols ≠ []) : symbolSets symbols ≠ [] := by
  unfold symbolSets
  split_ifs <;> simp [h]

/-- All symbols print longer than each of them. -/
theorem length_lt_intercalate (hmany : 1 < symbols.length) {symbol : String} (h : symbol ∈ symbols) :
    symbol.length < ("+".intercalate symbols).length := by
  have hle : ∀ {symbols : List String} {symbol : String}, symbol ∈ symbols →
      symbol.length ≤ ("+".intercalate symbols).length := by
    intro symbols symbol hmem
    induction symbols with
    | nil => cases hmem
    | cons first rest ih =>
      cases rest with
      | nil => simp_all
      | cons second rest =>
        rw [String.intercalate_cons_cons, String.length_append, String.length_append]
        rcases List.mem_cons.mp hmem with rfl | hmem
        · omega
        · have := ih hmem
          omega
  match symbols, hmany with
  | first :: second :: rest, _ =>
    rw [String.intercalate_cons_cons, String.length_append, String.length_append]
    have hplus : "+".length = 1 := rfl
    rcases List.mem_cons.mp h with rfl | hmem
    · omega
    · have := hle hmem
      omega

theorem intercalate_inj {set set' : List String}
    (hset : set ∈ symbolSets symbols) (hset' : set' ∈ symbolSets symbols)
    (h : "+".intercalate set = "+".intercalate set') : set = set' := by
  rcases mem_symbolSets hset with ⟨symbol, hsymbol, rfl⟩ | ⟨hmany, rfl⟩ <;>
    rcases mem_symbolSets hset' with ⟨symbol', hsymbol', rfl⟩ | ⟨hmany', rfl⟩
  · rw [String.intercalate_singleton, String.intercalate_singleton] at h
    rw [h]
  · have hlength := length_lt_intercalate hmany' hsymbol
    rw [String.intercalate_singleton] at h
    rw [h] at hlength
    exact absurd hlength (lt_irrefl _)
  · have hlength := length_lt_intercalate hmany hsymbol'
    rw [String.intercalate_singleton] at h
    rw [← h] at hlength
    exact absurd hlength (lt_irrefl _)
  · rfl

end SymbolSets

/-! The expansions. -/
section Expansions
variable {config : TournamentConfig} {specs : List ChildRunSpec}
open TournamentConfig

theorem require_bind_eq_ok {α β : Type} {values : List α} {label : String}
    {f : List α → Except ExpansionError β} {b : β} :
    (require values label >>= f) = .ok b ↔ values ≠ [] ∧ f values = .ok b := by
  by_cases hne : values = []
  · rw [require, if_pos hne]
    refine iff_of_false (fun herror => ?_) fun hboth => hboth.1 hne
    cases herror
  · rw [require, if_neg hne]
    exact (and_iff_right hne).symm

theorem strategyBacktests_nodup (h : config.strategyBacktests = .ok specs) :
    (specs.map ChildRunSpec.childKey).Nodup ↔ config.strategies.Nodup ∧ config.seeds.Nodup := by
  obtain ⟨hstrategies, h⟩ := require_bind_eq_ok.mp h
  obtain ⟨-, h⟩ := require_bind_eq_ok.mp h
  rw [← Except.ok.inj h, List.map_map,
    nodup_map_product_iff (f := id) (g := id) hstrategies config.seeds_ne]
  · rw [List.map_id, List.map_id]
  · exact fun p p' => backtestSpec_strategy_inj

/-- A sweep is of one strategy. -/
theorem parameterSweepRuns_specs (h : config.parameterSweepRuns = .ok specs) :
    ∃ strategy, specs =
      (config.seeds ×ˢ parameterCombinations config.sweepParameters).map fun p =>
        config.backtestSpec config.symbols strategy p.1 p.2 := by
  unfold parameterSweepRuns at h
  cases hsweep : config.parameterSweep with
  | some sweep =>
    rw [hsweep] at h
    obtain ⟨-, h⟩ := require_bind_eq_ok.mp h
    exact ⟨sweep.strategy, (Except.ok.inj h).symm⟩
  | none =>
    rw [hsweep] at h
    obtain ⟨-, h⟩ := require_bind_eq_ok.mp h
    obtain ⟨-, h⟩ := require_bind_eq_ok.mp h
    exact ⟨config.strategies.headD "", (Except.ok.inj h).symm⟩

theorem parameterSweepRuns_nodup (h : config.parameterSweepRuns = .ok specs) :
    (specs.map ChildRunSpec.childKey).Nodup ↔ (∃ e ∈ config.sweepParameters, e.2 = []) ∨
      config.seeds.Nodup ∧ PrintApart config.sweepParameters := by
  obtain ⟨strategy, rfl⟩ := parameterSweepRuns_specs h
  rw [← parameterCombinations_eq_nil, List.map_map]
  by_cases hcombos : parameterCombinations config.sweepParameters = []
  · rw [hcombos, List.product_nil]
    exact iff_of_true List.nodup_nil (.inl rfl)
  · have hvalues : ∀ e ∈ config.sweepParameters, e.2 ≠ [] := by
      intro e he hnil
      exact hcombos ((parameterCombinations_eq_nil _).mpr ⟨e, he, hnil⟩)
    rw [or_iff_right hcombos, ← nodup_render hvalues,
      nodup_map_product_iff (f := id) (g := fun params => (KeyPart.dict params).render)
        config.seeds_ne hcombos]
    · rw [List.map_id]
    · exact fun p p' => backtestSpec_params_inj

/-- What the results of a computation on every item determine. -/
theorem map_of_mapM {α β γ : Type} {f : α → Except ExpansionError β} {g : β → γ} {k : α → γ}
    (hf : ∀ a b, f a = .ok b → g b = k a) {as : List α} {bs : List β} (h : as.mapM f = .ok bs) :
    bs.map g = as.map k := by
  have hall := (Lists.mapM_eq_ok.mp h).imp fun a b hab => hf a b hab
  clear h
  induction hall with
  | nil => rfl
  | cons hab _ ih => rw [List.map_cons, List.map_cons, hab, ih]

theorem scenarioSessions_nodup (h : config.scenarioSessions = .ok specs) :
    (specs.map ChildRunSpec.childKey).Nodup ↔ config.sessionStrategies.Nodup ∧
      config.scenarios.Nodup ∧ config.seeds.Nodup ∧ config.participantCounts.Nodup ∧
      config.volatilityRanges.Nodup ∧ ¬ Overlap config.scenarios config.scenarioTails := by
  obtain ⟨hscenarios, h⟩ := require_bind_eq_ok.mp h
  obtain ⟨-, h⟩ := require_bind_eq_ok.mp h
  rw [map_of_mapM (fun _ _ => scenarioSession_childKey) h]
  have hstrategies : config.sessionStrategies ≠ [] := by
    unfold sessionStrategies
    split_ifs with hnone
    · exact List.cons_ne_nil _ _
    · exact hnone
  have hlast := mt product_eq_nil_iff.mp
    (not_or_intro config.participantCounts_ne config.volatilityRanges_ne)
  have hthird := mt product_eq_nil_iff.mp (not_or_intro config.seeds_ne hlast)
  have hsecond := mt product_eq_nil_iff.mp (not_or_intro hscenarios hthird)
  rw [nodup_map_iff, nodup_product_iff hstrategies hsecond, nodup_product_iff hscenarios hthird,
    nodup_product_iff config.seeds_ne hlast,
    nodup_product_iff config.participantCounts_ne config.volatilityRanges_ne, not_overlap_iff]
  simp only [and_assoc]
  iterate 5 refine and_congr_right fun _ => ?_
  constructor
  · intro hinj scenario hscenario scenario' hscenario' tail htail tail' htail' heq
    obtain ⟨⟨seed, strategy⟩, hmem, rfl⟩ := List.mem_map.mp htail
    obtain ⟨⟨seed', strategy'⟩, hmem', rfl⟩ := List.mem_map.mp htail'
    obtain ⟨hseed, hstrategy⟩ := List.mem_product.mp hmem
    obtain ⟨hseed', hstrategy'⟩ := List.mem_product.mp hmem'
    obtain ⟨⟨participants, volatility⟩, hothers⟩ := List.exists_mem_of_ne_nil _ hlast
    have hsame := hinj (strategy, scenario, seed, participants, volatility)
      (by simp [*])
      (strategy', scenario', seed', participants, volatility)
      (by simp [*]) (sessionKey_inj.mpr ⟨rfl, rfl, heq⟩)
    cases hsame
    exact ⟨rfl, rfl⟩
  · rintro hcut ⟨strategy, scenario, seed, participants, volatility⟩ hmem
      ⟨strategy', scenario', seed', participants', volatility'⟩ hmem' heq
    simp only [List.mem_product] at hmem hmem'
    obtain ⟨rfl, rfl, hmiddle⟩ := sessionKey_inj.mp heq
    obtain ⟨rfl, htail⟩ := hcut scenario hmem.2.1 scenario' hmem'.2.1 _
      (List.mem_map_of_mem (List.mem_product.mpr ⟨hmem.2.2.1, hmem.1⟩)) _
      (List.mem_map_of_mem (List.mem_product.mpr ⟨hmem'.2.2.1, hmem'.1⟩)) hmiddle
    obtain ⟨rfl, rfl⟩ := scenarioTail_inj htail
    rfl

theorem multiSymbolSweep_nodup (h : config.multiSymbolSweep = .ok specs) :
    (specs.map ChildRunSpec.childKey).Nodup ↔ config.strategies.Nodup ∧ config.symbols.Nodup ∧
      config.seeds.Nodup ∧ ¬ Overlap config.strategies config.symbolTails := by
  obtain ⟨hstrategies, h⟩ := require_bind_eq_ok.mp h
  obtain ⟨hsymbols, h⟩ := require_bind_eq_ok.mp h
  have hkeys : specs.map ChildRunSpec.childKey =
      (config.strategies ×ˢ symbolSets config.symbols ×ˢ config.seeds).map multiSymbolKey := by
    rw [← Except.ok.inj h, List.map_map]
    apply List.map_congr_left
    rintro ⟨strategy, symbols, seed⟩ -
    rw [Function.comp_apply, ← String.toList_inj]
    simp [multiSymbolKey, key, Scalar.text]
  have hsets := symbolSets_ne_nil hsymbols
  have hlast := mt product_eq_nil_iff.mp (not_or_intro hsets config.seeds_ne)
  rw [hkeys, nodup_map_iff, nodup_product_iff hstrategies hlast,
    nodup_product_iff hsets config.seeds_ne, nodup_symbolSets, not_overlap_iff]
  simp only [and_assoc]
  iterate 3 refine and_congr_right fun _ => ?_
  constructor
  · intro hinj strategy hstrategy strategy' hstrategy' tail htail tail' htail' heq
    obtain ⟨set, hset, rfl⟩ := List.mem_map.mp htail
    obtain ⟨set', hset', rfl⟩ := List.mem_map.mp htail'
    obtain ⟨seed, hseed⟩ := List.exists_mem_of_ne_nil _ config.seeds_ne
    have hsame := hinj (strategy, set, seed) (by simp [*]) (strategy', set', seed) (by simp [*])
      (multiSymbolKey_inj.mpr ⟨rfl, heq⟩)
    cases hsame
    exact ⟨rfl, rfl⟩
  · rintro hcut ⟨strategy, set, seed⟩ hmem ⟨strategy', set', seed'⟩ hmem' heq
    simp only [List.mem_product] at hmem hmem'
    obtain ⟨rfl, hrest⟩ := multiSymbolKey_inj.mp heq
    obtain ⟨rfl, htail⟩ := hcut strategy hmem.1 strategy' hmem'.1 _
      (List.mem_map_of_mem hmem.2.1) _ (List.mem_map_of_mem hmem'.2.1) hrest
    rw [intercalate_inj hmem.2.1 hmem'.2.1 (append_left_cancel htail)]

/-- The order of the children does not matter. -/
theorem nodup_sorted {x : Except ExpansionError (List ChildRunSpec)} {P : Prop}
    (h : (x >>= fun specs => pure (specs.insertionSort fun a b => a.childKey ≤ b.childKey)) =
      .ok specs)
    (hx : ∀ specs, x = .ok specs → ((specs.map ChildRunSpec.childKey).Nodup ↔ P)) :
    (specs.map ChildRunSpec.childKey).Nodup ↔ P := by
  cases x with
  | error e => cases h
  | ok unsorted =>
    rw [← hx unsorted rfl, ← Except.ok.inj h]
    exact ((List.perm_insertionSort _ unsorted).map _).nodup_iff

/-- The keys of a tournament are distinct exactly if its request keeps them apart. -/
theorem childKeys_nodup_iff (h : expandTournament config = .ok specs) :
    (specs.map ChildRunSpec.childKey).Nodup ↔ config.DistinctChildren := by
  unfold expandTournament at h
  unfold DistinctChildren
  cases htype : config.tournamentType <;> rw [htype] at h
  · exact nodup_sorted h fun _ => strategyBacktests_nodup
  · exact nodup_sorted h fun _ => scenarioSessions_nodup
  · exact nodup_sorted h fun _ => parameterSweepRuns_nodup
  · exact nodup_sorted h fun _ => multiSymbolSweep_nodup

end Expansions

end Tes
