import Tes.Market.OrderIds

/-! The life of a stop order: accepted, then pending, cancelled or triggered, over whole runs; and
the cascade of triggered stops, which ends. -/
namespace Tes
open MatchingEngine Transition EStateM

namespace MatchingEngine

/-- The stops that the ledger says are accepted, cancelled and triggered, these with the orders
that result. -/
def acceptedStopIds (s : MatchingEngine) : List OrderId := Registry.addedIn s.registry.history

def canceledStopIds (s : MatchingEngine) : List OrderId := Registry.droppedIn s.registry.history

def triggeredStopIds (s : MatchingEngine) : List (OrderId × OrderId) :=
  Registry.releasedIn s.registry.history

/-- The stops triggered on the way from an earlier state. -/
def triggeredSince (start s : MatchingEngine) : List (OrderId × OrderId) :=
  s.triggeredStopIds.drop start.triggeredStopIds.length

/-- The unbounded loop of the cascade from a state: the stops that each pass triggers, and how the
loop ends. -/
inductive Cascades (symbol : Symbol) : MatchingEngine → List (List (OrderId × OrderId)) →
    EStateM.Result EngineError MatchingEngine (List Event) → Prop
  | noPrice {s : MatchingEngine} : s.triggerPrice symbol = none → Cascades symbol s [] (.ok [] s)
  | noneReady {s : MatchingEngine} {current : ℤ} : s.triggerPrice symbol = some current →
      s.readyStops symbol current = [] → Cascades symbol s [] (.ok [] s)
  | throws {s s' : MatchingEngine} {current : ℤ} {e : EngineError} :
      s.triggerPrice symbol = some current → s.readyStops symbol current ≠ [] →
      triggerAll symbol (s.readyStops symbol current) s = .error e s' →
      Cascades symbol s [s.triggeredSince s'] (.error e s')
  | quiet {s s' : MatchingEngine} {current : ℤ} {events : List Event} :
      s.triggerPrice symbol = some current → s.readyStops symbol current ≠ [] →
      triggerAll symbol (s.readyStops symbol current) s = .ok (false, events) s' →
      Cascades symbol s [s.triggeredSince s'] (.ok events s')
  | again {s s' s'' : MatchingEngine} {current : ℤ} {events more : List Event}
      {passes : List (List (OrderId × OrderId))} :
      s.triggerPrice symbol = some current → s.readyStops symbol current ≠ [] →
      triggerAll symbol (s.readyStops symbol current) s = .ok (true, events) s' →
      Cascades symbol s' passes (.ok more s'') →
      Cascades symbol s (s.triggeredSince s' :: passes) (.ok (events ++ more) s'')
  | againThrows {s s' s'' : MatchingEngine} {current : ℤ} {events : List Event} {e : EngineError}
      {passes : List (List (OrderId × OrderId))} :
      s.triggerPrice symbol = some current → s.readyStops symbol current ≠ [] →
      triggerAll symbol (s.readyStops symbol current) s = .ok (true, events) s' →
      Cascades symbol s' passes (.error e s'') →
      Cascades symbol s (s.triggeredSince s' :: passes) (.error e s'')

/-- An evaluation of the stops of a symbol, with no bound on its passes. -/
inductive Evaluates (symbol : Symbol) (s : MatchingEngine) : List (List (OrderId × OrderId)) →
    EStateM.Result EngineError MatchingEngine (List Event) → Prop
  | halted : s.isHalted symbol → Evaluates symbol s [] (.ok [] s)
  | cascades {passes : List (List (OrderId × OrderId))}
      {result : EStateM.Result EngineError MatchingEngine (List Event)} :
      ¬ s.isHalted symbol → Cascades symbol s passes result → Evaluates symbol s passes result

/-- A pass triggers its stops in the order of their ids. -/
def Ascends (pass : List (OrderId × OrderId)) : Prop := (pass.map Prod.fst).Pairwise (· < ·)

/-! The passes. -/
section Passes
variable {s s' s'' : MatchingEngine} {symbol : Symbol}

/-- The ledger of `s'` goes on from that of `s`, and has these triggers more. -/
def Triggers (s : MatchingEngine) (pass : List (OrderId × OrderId)) (s' : MatchingEngine) : Prop :=
  s'.triggeredStopIds = s.triggeredStopIds ++ pass

theorem Triggers.trans {pass more : List (OrderId × OrderId)} (h : s.Triggers pass s')
    (h' : s'.Triggers more s'') : s.Triggers (pass ++ more) s'' := by
  rw [Triggers, h', h, List.append_assoc]

theorem Triggers.since {pass : List (OrderId × OrderId)} (h : s.Triggers pass s') :
    s.triggeredSince s' = pass := by
  rw [triggeredSince, h, List.drop_left]

theorem triggers_of_same (h : s'.registry = s.registry) : s.Triggers [] s' := by
  rw [Triggers, triggeredStopIds, h, List.append_nil]
  rfl

theorem triggerStop_triggers {id : OrderId} {stop : StopOrderState} :
    s.Triggers [(id, s.nextOrderId)] (s.triggerStop symbol id stop) := by
  rw [Triggers, triggeredStopIds, registry_triggerStop, Registry.releasedIn_append]
  rfl

/-- The stops triggered of a list of ids: some of the ids, each pending and each once. -/
theorem triggerAll_pass (ready : List OrderId) :
    Outcome (triggerAll symbol ready) s
      (fun _ s' => ∃ pass, s.Triggers pass s' ∧ (pass.map Prod.fst).Sublist ready ∧
        (pass.map Prod.fst).Nodup ∧ ∀ p ∈ pass, s.stopOrdersById.lookup p.1 ≠ none)
      fun _ s' => ∃ pass, s.Triggers pass s' ∧ (pass.map Prod.fst).Sublist ready ∧
        (pass.map Prod.fst).Nodup ∧ ∀ p ∈ pass, s.stopOrdersById.lookup p.1 ≠ none := by
  induction ready generalizing s with
  | nil => exact ⟨[], triggers_of_same rfl, .slnil, .nil, by simp⟩
  | cons id ready ih =>
    rw [triggerAll]
    simp only [outcome_bind, outcome_get]
    cases hstop : s.stopOrdersById.lookup id with
    | none =>
      have hskip : ∀ s' : MatchingEngine, (∃ pass, s.Triggers pass s' ∧
          (pass.map Prod.fst).Sublist ready ∧ (pass.map Prod.fst).Nodup ∧
          ∀ p ∈ pass, s.stopOrdersById.lookup p.1 ≠ none) → ∃ pass, s.Triggers pass s' ∧
          (pass.map Prod.fst).Sublist (id :: ready) ∧ (pass.map Prod.fst).Nodup ∧
          ∀ p ∈ pass, s.stopOrdersById.lookup p.1 ≠ none := by
        rintro s' ⟨pass, htriggers, hsub, hrest⟩
        exact ⟨pass, htriggers, hsub.cons id, hrest⟩
      exact ih.mono (fun _ s' h => hskip s' h) fun _ s' h => hskip s' h
    | some stop =>
      simp only [outcome_bind, outcome_set]
      have htrigger : s.Triggers [(id, s.nextOrderId)] (s.triggerStop symbol id stop) :=
        triggerStop_triggers
      have hpending : s.stopOrdersById.lookup id ≠ none := by
        rw [hstop]
        exact Option.some_ne_none _
      refine (placeChild_untouched stop s.nextOrderId).mono (fun child s₁ h₁ => ?_) fun _ s₁ h₁ => ?_
      · obtain ⟨hchild, -⟩ := h₁
        have hstops : s₁.stopOrdersById = s.stopOrdersById.erase id :=
          congrArg Registry.items (hchild.trans registry_triggerStop)
        have hfirst := htrigger.trans (triggers_of_same hchild)
        have hlater : ∀ s' : MatchingEngine, (∃ pass, s₁.Triggers pass s' ∧
            (pass.map Prod.fst).Sublist ready ∧ (pass.map Prod.fst).Nodup ∧
            ∀ p ∈ pass, s₁.stopOrdersById.lookup p.1 ≠ none) → ∃ pass, s.Triggers pass s' ∧
            (pass.map Prod.fst).Sublist (id :: ready) ∧ (pass.map Prod.fst).Nodup ∧
            ∀ p ∈ pass, s.stopOrdersById.lookup p.1 ≠ none := by
          rintro s' ⟨pass, htriggers, hsub, hnodup, hstill⟩
          rw [hstops] at hstill
          refine ⟨(id, s.nextOrderId) :: pass, hfirst.trans htriggers, hsub.cons_cons id, ?_, ?_⟩
          · rw [List.map_cons, List.nodup_cons]
            refine ⟨fun hmem => ?_, hnodup⟩
            obtain ⟨p, hp, rfl⟩ := List.mem_map.mp hmem
            exact hstill p hp (Finmap.lookup_erase _ _)
          · rintro p hp
            rcases List.mem_cons.mp hp with rfl | hp
            · exact hpending
            · have hleft := hstill p hp
              rw [Finmap.lookup_erase_ite] at hleft
              split_ifs at hleft with heq
              · exact absurd rfl hleft
              · exact hleft
        exact (ih (s := s₁)).mono (fun _ s' h => hlater s' h) fun _ s' h => hlater s' h
      · refine ⟨[(id, s.nextOrderId)], htrigger.trans (triggers_of_same h₁), ?_, ?_, ?_⟩
        · exact (List.nil_sublist ready).cons_cons id
        · exact List.nodup_singleton _
        · intro p hp
          rw [List.mem_singleton.mp hp]
          exact hpending

theorem pass_ascends {current : ℤ} :
    Outcome (triggerAll symbol (s.readyStops symbol current)) s
      (fun _ s' => Ascends (s.triggeredSince s')) fun _ s' => Ascends (s.triggeredSince s') := by
  have hpass : ∀ s' : MatchingEngine, (∃ pass, s.Triggers pass s' ∧
      (pass.map Prod.fst).Sublist (s.readyStops symbol current) ∧ (pass.map Prod.fst).Nodup ∧
      ∀ p ∈ pass, s.stopOrdersById.lookup p.1 ≠ none) → Ascends (s.triggeredSince s') := by
    rintro s' ⟨pass, htriggers, hsub, hnodup, -⟩
    rw [htriggers.since, Ascends]
    have hsorted : (s.readyStops symbol current).Pairwise (· ≤ ·) := List.pairwise_insertionSort _ _
    exact ((hsorted.sublist hsub).and hnodup).imp fun h => lt_of_le_of_ne h.1 h.2
  exact (triggerAll_pass _).mono (fun _ s' h => hpass s' h) fun _ s' h => hpass s' h

end Passes

/-- The cascade ends: with more fuel than pending stops it does what the unbounded loop does. -/
theorem cascade_cascades {symbol : Symbol} {s : MatchingEngine} (fuel : ℕ) (hs : s.Sound {})
    (hfuel : s.stopOrdersById.keys.card < fuel) :
    Outcome (cascade symbol fuel) s
      (fun events s' => ∃ passes, Cascades symbol s passes (.ok events s') ∧
        ∀ pass ∈ passes, Ascends pass)
      fun e s' => ∃ passes, Cascades symbol s passes (.error e s') ∧
        ∀ pass ∈ passes, Ascends pass := by
  induction fuel generalizing s with
  | zero => exact absurd hfuel (Nat.not_lt_zero _)
  | succ fuel ih =>
    rw [cascade]
    simp only [outcome_bind, outcome_get]
    cases hprice : s.triggerPrice symbol with
    | none => exact ⟨[], .noPrice hprice, by simp⟩
    | some current =>
      dsimp only
      split_ifs with hready
      · exact ⟨[], .noneReady hprice hready, by simp⟩
      · rw [outcome_bind]
        refine pass_ascends.with_eq.mono (fun r s₁ h₁ => ?_) fun e s₁ h₁ => ?_
        · obtain ⟨traded, events⟩ := r
          obtain ⟨heq, hpass⟩ := h₁
          cases traded with
          | false => exact ⟨[_], .quiet hprice hready heq, by simpa using hpass⟩
          | true =>
            have hstops := (triggerAll_stops hs hs.readyStops).returns heq
            have hs₁ := ((triggerAll_building hs hs.readyStops).returns heq).sound_adding hs
            obtain ⟨id, ready, hhead⟩ := List.exists_cons_of_ne_nil hready
            obtain ⟨stop, hstop⟩ := readyStops_head hhead
            have hfewer : s₁.stopOrdersById.keys.card < s.stopOrdersById.keys.card :=
              card_stops_lt (hhead ▸ List.mem_cons_self) (by rw [hstop]; exact Option.some_ne_none _)
                hstops.1 hstops.2
            simp only [if_true, outcome_bind]
            refine (ih hs₁ (by omega)).mono (fun more s₂ h₂ => ?_) fun e s₂ h₂ => ?_
            · obtain ⟨passes, hcascades, hpasses⟩ := h₂
              exact ⟨_ :: passes, .again hprice hready heq hcascades,
                List.forall_mem_cons.mpr ⟨hpass, hpasses⟩⟩
            · obtain ⟨passes, hcascades, hpasses⟩ := h₂
              exact ⟨_ :: passes, .againThrows hprice hready heq hcascades,
                List.forall_mem_cons.mpr ⟨hpass, hpasses⟩⟩
        · exact ⟨[_], .throws hprice hready h₁.1, by simpa using h₁.2⟩

/-- An evaluation of the stops does what the unbounded loop does, which ends. -/
theorem evaluateStopOrders_evaluates {symbol : Symbol} {s : MatchingEngine} (hs : s.Sound {}) :
    ∃ passes, Evaluates symbol s passes (evaluateStopOrders symbol s) ∧
      ∀ pass ∈ passes, Ascends pass := by
  have hends : Outcome (evaluateStopOrders symbol) s
      (fun events s' => ∃ passes, Evaluates symbol s passes (.ok events s') ∧
        ∀ pass ∈ passes, Ascends pass)
      fun e s' => ∃ passes, Evaluates symbol s passes (.error e s') ∧
        ∀ pass ∈ passes, Ascends pass := by
    unfold evaluateStopOrders
    simp only [outcome_bind, outcome_get]
    split_ifs with hhalted
    · exact ⟨[], .halted hhalted, by simp⟩
    · refine (cascade_cascades _ hs (Nat.lt_succ_self _)).mono (fun events s' h => ?_) fun e s' h => ?_
      · obtain ⟨passes, hcascades, hpasses⟩ := h
        exact ⟨passes, .cascades hhalted hcascades, hpasses⟩
      · obtain ⟨passes, hcascades, hpasses⟩ := h
        exact ⟨passes, .cascades hhalted hcascades, hpasses⟩
  cases hresult : evaluateStopOrders symbol s with
  | ok events s' => exact hends.returns hresult
  | error e s' => exact hends.throws hresult

end MatchingEngine

/-- The states of runs, also those in the midst of an operation. -/
inductive Visited : MatchingEngine → Prop
  | reachable {s : MatchingEngine} : Reachable s → Visited s
  | step {s s' : MatchingEngine} {symbol : Symbol} {events : List Event} {entries : List Entry} :
      Visited s → Step {} symbol s events entries s' → Visited s'

theorem Visited.sound {s : MatchingEngine} (h : Visited s) : s.Sound {} := by
  induction h with
  | reachable h => exact h.sound
  | step _ hstep ih => exact hstep.sound ih

/-- The events that the operations of a run return, in order. -/
def runEvents (ops : List (Op × List Event)) : List Event := ops.flatMap Prod.snd

/-- A stop is pending, cancelled or triggered, and no two of these. -/
def MatchingEngine.InOneState (s : MatchingEngine) (id : OrderId) : Prop :=
  ((s.stopOrdersById.lookup id).isSome ∧ id ∉ s.canceledStopIds ∧
      id ∉ s.triggeredStopIds.map Prod.fst) ∨
    (s.stopOrdersById.lookup id = none ∧ id ∈ s.canceledStopIds ∧
      id ∉ s.triggeredStopIds.map Prod.fst) ∨
    (s.stopOrdersById.lookup id = none ∧ id ∉ s.canceledStopIds ∧
      id ∈ s.triggeredStopIds.map Prod.fst)

/-- What holds of the stops after a run. -/
structure StopsRun (ops : List (Op × List Event)) (s : MatchingEngine) : Prop where
  sound : s.Sound {}
  stops : s.StopsSound
  accepted : ∀ id ∈ acceptedStops (runEvents ops), id ∈ s.acceptedStopIds
  triggered : (triggeredStops (runEvents ops)).Sublist s.triggeredStopIds
  above : ∀ p ∈ triggeredStops (runEvents ops), p.1 < p.2
  below : IdsBelow s.nextOrderId (runEvents ops)
  ordered : (runEvents ops).Pairwise Before

theorem stopsSound_fresh : fresh.StopsSound := by
  refine ⟨⟨by simp [MatchingEngine.registry, fresh], fun id => ?_, fun id => Nat.zero_le _⟩,
    ⟨fun symbol => List.nodup_nil, fun symbol id => ?_⟩⟩
  · rfl
  · refine iff_of_false List.not_mem_nil ?_
    rintro ⟨stop, hstop, -⟩
    cases hstop

/-- What an operation does to the triggers that the ledger has. -/
theorem triggeredStopIds_of_registered {s s' : MatchingEngine}
    {changes : List (OrderId × RegistryChange)} (h : s.Registered changes s') :
    s'.acceptedStopIds = s.acceptedStopIds ++ Registry.addedIn changes ∧
      s'.triggeredStopIds = s.triggeredStopIds ++ Registry.releasedIn changes := by
  have hhistory := Registry.path_history h
  exact ⟨by rw [acceptedStopIds, hhistory, Registry.addedIn_append]; rfl,
    by rw [triggeredStopIds, hhistory, Registry.releasedIn_append]; rfl⟩

theorem Run.stopsRun {ops : List (Op × List Event)} {s : MatchingEngine}
    (h : Run (fun _ _ _ => True) fresh ops s) : StopsRun ops s := by
  induction h with
  | nil =>
    exact ⟨sound_fresh _, stopsSound_fresh, by simp [runEvents, acceptedStops], List.nil_sublist _,
      by simp [runEvents, triggeredStops], idsBelow_of_no_ids (by simp [runEvents]), .nil⟩
  | @returns s s' ops op events hrun hc hexec ih =>
    have hs' := (Op.exec_sound ih.sound (Op.guarded_trivial op s)).returns hexec
    obtain ⟨changes, hpath, htriggered, haccepted⟩ := (op.exec_registers ih.stops).returns hexec
    obtain ⟨haccepts, htriggers⟩ := triggeredStopIds_of_registered hpath
    have htakes := (op.exec_takesIds ih.sound).returns hexec
    have hevents : runEvents (ops ++ [(op, events)]) = runEvents ops ++ events := by
      simp [runEvents]
    refine ⟨hs', hpath.sound ih.stops, ?_, ?_, ?_, ?_, ?_⟩
    · rw [hevents, acceptedStops_append]
      intro id hid
      rcases List.mem_append.mp hid with hid | hid
      · rw [haccepts]
        exact List.mem_append_left _ (ih.accepted id hid)
      · exact haccepted id hid
    · rw [hevents, triggeredStops_append, htriggers, htriggered]
      exact ih.triggered.append (List.Sublist.refl _)
    · rw [hevents, triggeredStops_append]
      intro p hp
      rcases List.mem_append.mp hp with hp | hp
      · exact ih.above p hp
      · exact (htakes.fresh p hp).2
    · rw [hevents]
      exact idsBelow_append.mpr ⟨ih.below.mono htakes.next, htakes.below⟩
    · rw [hevents, List.pairwise_append]
      refine ⟨ih.ordered, htakes.ordered, fun e he e' he' p hp id hid => ?_⟩
      exact (ih.below e he id hid).trans_le (htakes.fresh p (mem_triggeredStops he' hp)).1
  | @throws s s' ops op e hrun hc hexec ih =>
    have hs' := (Op.exec_sound ih.sound (Op.guarded_trivial op s)).throws hexec
    obtain ⟨changes, hpath⟩ := (op.exec_registers ih.stops).throws hexec
    obtain ⟨haccepts, htriggers⟩ := triggeredStopIds_of_registered hpath
    have hevents : runEvents (ops ++ [(op, [])]) = runEvents ops := by
      simp [runEvents]
    refine ⟨hs', hpath.sound ih.stops, ?_, ?_, ?_, ?_, ?_⟩
    · rw [hevents]
      intro id hid
      rw [haccepts]
      exact List.mem_append_left _ (ih.accepted id hid)
    · rw [hevents, htriggers]
      exact ih.triggered.trans (List.sublist_append_left _ _)
    · rw [hevents]
      exact ih.above
    · rw [hevents]
      exact ih.below.mono (Registry.path_le_next hpath)
    · rw [hevents]
      exact ih.ordered

/-- The life cycle of stop orders over a run. -/
structure StopLifeCycle (ops : List (Op × List Event)) (s : MatchingEngine) : Prop where
  /-- The pending ids are those of the stops on record, each once and under its own symbol. -/
  nodup : ∀ symbol, (s.pendingStopIds symbol).Nodup
  apart : ∀ symbol symbol' id, id ∈ s.pendingStopIds symbol → id ∈ s.pendingStopIds symbol' →
    symbol = symbol'
  filed : ∀ symbol id, id ∈ s.pendingStopIds symbol ↔
    ∃ stop, s.stopOrdersById.lookup id = some stop ∧ stop.symbol = symbol
  /-- The ledger has every stop that an event accepts or triggers. -/
  accepted : ∀ id ∈ acceptedStops (runEvents ops), id ∈ s.acceptedStopIds
  triggered : (triggeredStops (runEvents ops)).Sublist s.triggeredStopIds
  inOneState : ∀ id ∈ s.acceptedStopIds, s.InOneState id
  once : (s.triggeredStopIds.map Prod.fst).Nodup
  /-- The order that a stop becomes has an id that no event before has named, nor the stop. -/
  fresh : (runEvents ops).Pairwise Before
  above : ∀ p ∈ triggeredStops (runEvents ops), p.1 < p.2

/-- Every run keeps to the life cycle of stops, and in all of its states an evaluation of the stops
ends, each pass of it triggering stops in the order of their ids. -/
theorem stops_lifeCycle :
    (∀ s, Visited s → ∀ symbol, ∃ passes,
      Evaluates symbol s passes (evaluateStopOrders symbol s) ∧ ∀ pass ∈ passes, Ascends pass) ∧
    ∀ ops s, Run (fun _ _ _ => True) fresh ops s → StopLifeCycle ops s := by
  refine ⟨fun s hs symbol => evaluateStopOrders_evaluates hs.sound, fun ops s h => ?_⟩
  have hrun := h.stopsRun
  obtain ⟨haccounted, hfiled⟩ := hrun.stops
  refine ⟨hfiled.nodup, fun symbol symbol' id hid hid' => ?_, hfiled.iff, hrun.accepted,
    hrun.triggered, fun id hid => haccounted.one_of_three hid, haccounted.nodup_released,
    hrun.ordered, hrun.above⟩
  obtain ⟨stop, hstop, rfl⟩ := (hfiled.iff symbol id).mp hid
  obtain ⟨stop', hstop', rfl⟩ := (hfiled.iff symbol' id).mp hid'
  rw [hstop] at hstop'
  cases hstop'
  rfl

/-! Of three stops to buy, one is triggered by a trade at its price, one is cancelled and one is
still pending. -/

def threeStops : List Op :=
  [.setAccountState 1 "X" 10000 100, .setAccountState 2 "X" 10000 100,
    .placeLimitOrder 1 "X" .ask 100 10 .gtc, .placeStopOrder 2 "X" .bid 100 2,
    .placeStopOrder 2 "X" .bid 105 1, .placeStopOrder 2 "X" .bid 106 1, .cancel 2 4,
    .placeLimitOrder 2 "X" .bid 100 3 .gtc]

theorem stops_lifeCycle_threeStops :
    (∃ passes, Evaluates "X" (fresh.applyAll threeStops) passes
      (evaluateStopOrders "X" (fresh.applyAll threeStops)) ∧ ∀ pass ∈ passes, Ascends pass) ∧
    StopLifeCycle (fresh.history threeStops) (fresh.applyAll threeStops) ∧
    (fresh.applyAll threeStops).acceptedStopIds = [2, 3, 4] ∧
    (fresh.applyAll threeStops).pendingStopIds "X" = [3] ∧
    (fresh.applyAll threeStops).canceledStopIds = [4] ∧
    (fresh.applyAll threeStops).triggeredStopIds = [(2, 6)] := by
  refine ⟨stops_lifeCycle.1 _ (.reachable (reachable_applyAll threeStops)) "X",
    stops_lifeCycle.2 _ _ (Run.ofOps (P := fun _ _ => True) threeStops ?_), ?_, ?_, ?_, ?_⟩
  · exact ⟨trivial, trivial, trivial, trivial, trivial, trivial, trivial, trivial, trivial⟩
  · decide +kernel
  · decide +kernel
  · decide +kernel
  · decide +kernel

end Tes
