import Tes.Market.OrderIds

/-! The ids under which the orders of an operation come in. -/
namespace Tes
open OrderBook MatchingEngine Flight Transition EStateM

section Numbers
variable {symbol : Symbol} {s s' : MatchingEngine} {made others : List Entry} {low mid high : OrderId}

/-- The orders come in under different ids between two bounds, of which no record is kept yet. -/
structure IdsBetween (low high : OrderId) (made : List Entry) : Prop where
  le : low ≤ high
  bounds : ∀ entry ∈ made, low ≤ entry.2.id ∧ entry.2.id < high
  nodup : (made.map fun entry => entry.2.id).Nodup
  unrecorded : ∀ entry ∈ made, entry.1.orderOwnershipById.lookup entry.2.id = none

theorem IdsBetween.nil (h : low ≤ high) : IdsBetween low high [] :=
  ⟨h, by simp, List.nodup_nil, by simp⟩

theorem IdsBetween.append (h : IdsBetween low mid made) (h' : IdsBetween mid high others) :
    IdsBetween low high (made ++ others) where
  le := h.le.trans h'.le
  bounds entry hentry := by
    rcases List.mem_append.mp hentry with hentry | hentry
    · exact ⟨(h.bounds entry hentry).1, (h.bounds entry hentry).2.trans_le h'.le⟩
    · exact ⟨h.le.trans (h'.bounds entry hentry).1, (h'.bounds entry hentry).2⟩
  nodup := by
    rw [List.map_append, List.nodup_append]
    refine ⟨h.nodup, h'.nodup, fun id hid id' hid' heq => ?_⟩
    obtain ⟨entry, hentry, rfl⟩ := List.mem_map.mp hid
    obtain ⟨other, hother, rfl⟩ := List.mem_map.mp hid'
    have hlt := (h.bounds entry hentry).2
    have hle := (h'.bounds other hother).1
    exact (hlt.trans_le hle).ne heq
  unrecorded entry hentry := by
    rcases List.mem_append.mp hentry with hentry | hentry
    · exact h.unrecorded entry hentry
    · exact h'.unrecorded entry hentry

/-- An order comes in once, if at all. -/
theorem MatchingEngine.entries_eq (s : MatchingEngine) (t : Taker) :
    s.entries t = [] ∨ s.entries t = [(s.touchAccount t.accountId t.symbol, t)] := by
  unfold MatchingEngine.entries
  dsimp only
  split_ifs
  · exact Or.inr rfl
  · exact Or.inl rfl

/-- An order that comes in under an id is the only one. -/
theorem IdsBetween.entries {t : Taker} (howner : s.orderOwnershipById.lookup t.id = none) :
    IdsBetween t.id (t.id + 1) (s.entries t) := by
  rcases s.entries_eq t with hnone | hone
  · rw [hnone]
    exact .nil (Nat.le_succ _)
  · rw [hone]
    have htouched : (s.touchAccount t.accountId t.symbol).orderOwnershipById.lookup t.id = none := howner
    exact ⟨Nat.le_succ _, by simp, List.nodup_singleton _, by simpa using htouched⟩

theorem IdsBetween.marketEntries {id : OrderId} (howner : s.orderOwnershipById.lookup id = none)
    (a : AccountId) (symbol : Symbol) (side : Side) (qty : ℤ) :
    IdsBetween id (id + 1) (s.marketEntries a symbol id side qty) := by
  unfold MatchingEngine.marketEntries
  dsimp only
  split_ifs
  · exact .nil (Nat.le_succ _)
  · exact IdsBetween.entries (t := limitTaker a symbol id side _ qty .ioc) howner

theorem IdsBetween.childEntries {id : OrderId} (howner : s.orderOwnershipById.lookup id = none)
    (stop : StopOrderState) (symbol : Symbol) :
    IdsBetween id (id + 1) (s.childEntries stop symbol id) := by
  unfold MatchingEngine.childEntries
  split
  · exact IdsBetween.entries (t := limitTaker stop.accountId symbol id stop.side _ stop.qty .gtc) howner
  · exact .marketEntries howner _ _ _ _

theorem MatchingEngine.Sound.next_unrecorded (hs : s.Sound {}) :
    s.orderOwnershipById.lookup s.nextOrderId = none :=
  Option.eq_none_iff_forall_ne_some.mpr fun _ h => lt_irrefl _ (hs.owner_lt h)

/-- The orders that stops become take the ids that are next. -/
theorem triggerAll_numbered {ready : List OrderId} (hs : s.Sound {})
    (hready : ∀ id ∈ ready, ∀ stop, s.stopOrdersById.lookup id = some stop → stop.symbol = symbol) :
    Outcome (triggerAll symbol ready) s (fun _ s' =>
      IdsBetween s.nextOrderId s'.nextOrderId (triggerEntries symbol ready s) ∧ s'.Sound {})
      fun _ _ => ∃ high, IdsBetween s.nextOrderId high (triggerEntries symbol ready s) := by
  induction ready generalizing s with
  | nil => exact ⟨.nil le_rfl, hs⟩
  | cons id ready ih =>
    rw [triggerAll, triggerEntries]
    simp only [outcome_bind, outcome_get]
    cases hstop : s.stopOrdersById.lookup id with
    | none => exact ih hs fun id' hid' => hready id' (List.mem_cons_of_mem _ hid')
    | some stop =>
      simp only [outcome_bind, outcome_set]
      have hsymbol := hready id List.mem_cons_self stop hstop
      have hnext : (s.triggerStop symbol id stop).nextOrderId = s.nextOrderId + 1 :=
        congrArg Registry.next (@registry_triggerStop s symbol id stop)
      have hstep : Step {} symbol s [s.triggeredEvent symbol id stop] []
        (s.triggerStop symbol id stop) := .trigger hstop hsymbol
      have hs₁ := hstep.sound hs
      have hchild := placeChild_entering hs₁ trivial (hs.free_triggered hstop hsymbol)
      have hnumbered : IdsBetween s.nextOrderId (s.nextOrderId + 1)
        ((s.triggerStop symbol id stop).childEntries stop symbol s.nextOrderId) :=
        .childEntries (s := s.triggerStop symbol id stop) hs.next_unrecorded _ _
      refine hchild.with_eq.mono (fun child s₂ h₂ => ?_) fun e s₂ h₂ => by
        rw [h₂.1, List.append_nil]
        exact ⟨_, hnumbered⟩
      obtain ⟨heq, hplaced⟩ := h₂
      have hs₂ := (hplaced.mono Adding.placing).sound_adding hs₁
      have hstops : s₂.stopOrdersById = s.stopOrdersById.erase id := hplaced.reads aside_stops
      have hsame : s₂.nextOrderId = s.nextOrderId + 1 := (hplaced.reads aside_nextOrderId).trans hnext
      rw [heq]
      refine (ih hs₂ fun id' hid' stop' hstop' => ?_).mono (fun r s₃ hrest => ?_) fun e s₃ hrest => ?_
      · rw [hstops, Finmap.lookup_erase_ite] at hstop'
        split_ifs at hstop'
        exact hready id' (List.mem_cons_of_mem _ hid') stop' hstop'
      · exact ⟨hnumbered.append (hsame ▸ hrest.1), hrest.2⟩
      · obtain ⟨high, hrest⟩ := hrest
        exact ⟨high, hnumbered.append (hsame ▸ hrest)⟩

theorem numbered_cascadeEntries (symbol : Symbol) (fuel : ℕ) (hs : s.Sound {}) :
    ∃ high, IdsBetween s.nextOrderId high (cascadeEntries symbol fuel s) := by
  induction fuel generalizing s with
  | zero => exact ⟨_, .nil le_rfl⟩
  | succ fuel ih =>
    rw [cascadeEntries]
    cases hprice : s.triggerPrice symbol with
    | none => exact ⟨_, .nil le_rfl⟩
    | some current =>
      dsimp only
      have hready : ∀ id ∈ s.readyStops symbol current, ∀ stop,
          s.stopOrdersById.lookup id = some stop → stop.symbol = symbol := hs.readyStops
      have hround := triggerAll_numbered hs hready
      cases heq : triggerAll symbol (s.readyStops symbol current) s with
      | error e s₁ =>
        rw [List.append_nil]
        exact hround.throws heq
      | ok r s₁ =>
        obtain ⟨traded, events⟩ := r
        obtain ⟨hnumbered, hs₁⟩ := hround.returns heq
        cases traded with
        | false =>
          rw [List.append_nil]
          exact ⟨_, hnumbered⟩
        | true =>
          obtain ⟨high, hrest⟩ := ih hs₁
          exact ⟨high, hnumbered.append hrest⟩

/-- The orders of the stops that an entry triggers. -/
theorem numbered_followEntries {entry : Engine (List Event)}
    (hx : Outcome entry s (fun _ s' => low ≤ s'.nextOrderId ∧ s'.Sound {}) fun _ _ => True) :
    ∃ high, IdsBetween low high (followEntries symbol entry s) := by
  unfold followEntries
  cases heq : entry s with
  | error => exact ⟨_, .nil le_rfl⟩
  | ok events s₁ =>
    obtain ⟨hle, hs₁⟩ := hx.returns heq
    dsimp only
    split_ifs
    · exact ⟨_, .nil le_rfl⟩
    · obtain ⟨high, hrest⟩ := numbered_cascadeEntries symbol (s₁.stopOrdersById.keys.card + 1) hs₁
      exact ⟨high, (IdsBetween.nil hle).append hrest⟩

/-- The state after an entry under the next id. -/
theorem Entering.numbers {x : Engine (List Event)} (hs : s.Sound {})
    (h : Entering {} symbol s made x) :
    Outcome x s (fun _ s' => s.nextOrderId ≤ s'.nextOrderId ∧ s'.Sound {}) fun _ _ => True :=
  h.mono (fun _ _ hsteps => ⟨(hsteps.reads aside_nextOrderId).ge,
    (hsteps.mono Adding.placing).sound_adding hs⟩) fun _ _ _ => trivial

/-- The orders of an entry and of the stops it triggers. -/
theorem numbered_placeEntries {t : Taker} (hs : s.Sound {}) (hfree : s.Claimable t.accountId t.symbol t.id)
    (howner : s.orderOwnershipById.lookup t.id = none) (hid : t.id + 1 = s.nextOrderId) :
    ∃ high, IdsBetween t.id high (s.placeEntries t) := by
  have hfollow : ∃ high, IdsBetween s.nextOrderId high (followEntries t.symbol _ s) :=
    numbered_followEntries ((placeVisible_entering hs trivial hfree).numbers hs)
  obtain ⟨high, hrest⟩ := hfollow
  exact ⟨high, (IdsBetween.entries howner).append (hid ▸ hrest)⟩

/-- The orders of the stops that a new stop triggers. -/
theorem numbered_stopEntries {a : AccountId} {id : OrderId} {side : Side} {stopPrice qty : ℤ}
    {limitPrice : Option ℤ} (hs : s.Sound {}) (hfree : s.Claimable a symbol id)
    (howner : s.orderOwnershipById.lookup id = none) :
    ∃ high, IdsBetween s.nextOrderId high (followEntries symbol
      (placeStopOrderWithAccountAndId a symbol id side stopPrice qty limitPrice) s) := by
  have hplaced : Building {} symbol s []
      (placeStopOrderWithAccountAndId a symbol id side stopPrice qty limitPrice) :=
    placeStop_building trivial hfree.toFree howner
  have hnext : Outcome (placeStopOrderWithAccountAndId a symbol id side stopPrice qty limitPrice) s
      (fun events s' => TakesIds s events s') fun _ _ => True := placeStop_takesIds hfree.lt
  refine numbered_followEntries ((hnext.and (hplaced.mono (fun _ _ h => h) fun _ _ _ => trivial)).mono
    (fun events s' h => ?_) fun _ _ _ => trivial)
  exact ⟨h.1.next, h.2.sound_adding hs⟩

/-- The orders of the stops that a stop with new parameters triggers. -/
theorem numbered_replaceStopEntries (hs : s.Sound {}) (a : AccountId) (id : OrderId)
    (newStopPrice : ℤ) (newLimitPrice : Option ℤ) (newQty : ℤ) :
    ∃ high, IdsBetween s.nextOrderId high
      (s.replaceStopEntries a id newStopPrice newLimitPrice newQty) := by
  unfold replaceStopEntries
  cases hstop : s.stopOrdersById.lookup id with
  | none => exact ⟨_, .nil le_rfl⟩
  | some stop =>
    dsimp only
    split_ifs
    · have hstep : Adding {} stop.symbol s _ [] (s.withReplacedStop id stop newStopPrice newQty
          (newLimitPrice.orElse fun _ => stop.limitPrice)) := .replaceStop hstop rfl
      exact numbered_followEntries (outcome_pure.mpr ⟨le_rfl, hstep.step.sound hs⟩)
    · exact ⟨_, .nil le_rfl⟩

/-- The orders that an addition lets in take the next ids. -/
theorem Op.entries_numbered {op : Op} (hs : s.Sound {}) (hop : op.isAddition) :
    ∃ high, IdsBetween s.nextOrderId high (op.entries s) := by
  have hs' := hs.allocated
  have hfree := fun a symbol => hs.free_next a symbol
  have howner : s.allocated.orderOwnershipById.lookup s.nextOrderId = none := hs.next_unrecorded
  cases op with
  | placeLimitOrder a symbol side price qty tif =>
    exact numbered_placeEntries (t := limitTaker a symbol s.nextOrderId side price qty tif) hs'
      (hfree a symbol) howner rfl
  | placeHiddenOrder a symbol side price qty =>
    exact numbered_placeEntries (t := ⟨a, symbol, s.nextOrderId, side, price, qty, .gtc, .hidden, 0⟩)
      hs' (hfree a symbol) howner rfl
  | placeIcebergOrder a symbol side price totalQty displayQty =>
    exact numbered_placeEntries
      (t := ⟨a, symbol, s.nextOrderId, side, price, totalQty, .gtc, .iceberg, displayQty⟩) hs'
      (hfree a symbol) howner rfl
  | placeMarketOrder a symbol side qty =>
    have hfollow : ∃ high, IdsBetween s.allocated.nextOrderId high (followEntries symbol
      (placeMarketOrderWithAccountAndId a symbol s.nextOrderId side qty) s.allocated) :=
      numbered_followEntries ((placeMarket_entering hs' trivial (hfree a symbol)).numbers hs')
    obtain ⟨high, hrest⟩ := hfollow
    exact ⟨high, (IdsBetween.marketEntries howner a symbol side qty).append hrest⟩
  | placeStopOrder a symbol side stopPrice qty =>
    obtain ⟨high, hrest⟩ := numbered_stopEntries hs' (hfree a symbol) howner
    exact ⟨high, (IdsBetween.nil (Nat.le_succ _)).append hrest⟩
  | placeStopLimitOrder a symbol side stopPrice limitPrice qty =>
    obtain ⟨high, hrest⟩ := numbered_stopEntries hs' (hfree a symbol) howner
    exact ⟨high, (IdsBetween.nil (Nat.le_succ _)).append hrest⟩
  | replaceStopOrder a id newStopPrice newQty => exact numbered_replaceStopEntries hs _ _ _ _ _
  | replaceStopLimitOrder a id newStopPrice newLimitPrice newQty =>
    exact numbered_replaceStopEntries hs _ _ _ _ _
  | _ => exact hop.elim

end Numbers

end Tes
