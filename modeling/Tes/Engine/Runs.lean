import Tes.Engine.Decomposition

/-! Runs of the engine: settings and account states beside the ticks, and the induction
rules that carry an invariant of the ticks to every reachable state. -/
namespace Tes
open MatchingEngine Flight Transition EStateM

/-- The state without its settings and market controls. -/
def MatchingEngine.unset (s : MatchingEngine) : MatchingEngine :=
  { s with
    feeModel := {}, riskConfigs := ∅, tradingPhasesBySymbol := ∅, haltReasonsBySymbol := ∅,
    priceBandsBySymbol := ∅ }

/-- An account state as `setAccountState` leaves it. -/
def AccountSnapshot.withState (account : AccountSnapshot) (symbol : Symbol)
    (cashBalance positionQty : ℤ) : AccountSnapshot :=
  { account with
    cashBalance
    positionQtyBySymbol := account.positionQtyBySymbol.insert symbol positionQty }

/-- A setting changes settings only, and one that throws changes nothing. -/
theorem Op.exec_setting {op : Op} (h : op.isSetting) (s : MatchingEngine) :
    Outcome op.exec s (fun events s' => s'.unset = s.unset ∧ ∀ e ∈ events, e.inert)
      fun e s' => s' = s ∧ ∃ what, e = .invalidArgument what := by
  cases op with
  | setFeeModel model =>
    simp only [Op.exec, MatchingEngine.setFeeModel]
    split_ifs
    · exact ⟨rfl, _, rfl⟩
    · exact ⟨rfl, _, rfl⟩
    · exact ⟨rfl, by simp⟩
  | setAccountRiskConfig a config =>
    simp only [Op.exec, MatchingEngine.setAccountRiskConfig]
    split_ifs
    · exact ⟨rfl, _, rfl⟩
    · exact ⟨rfl, _, rfl⟩
    · exact ⟨rfl, by simp⟩
  | haltSymbol symbol reason => exact ⟨rfl, by simp [Event.inert]⟩
  | resumeSymbol symbol =>
    simp only [Op.exec, MatchingEngine.resumeSymbol, outcome_bind, outcome_get, outcome_set]
    split_ifs
    · exact ⟨rfl, by simp [Event.inert]⟩
    · exact ⟨rfl, by simp⟩
  | setPriceBands symbol lower upper =>
    simp only [Op.exec, MatchingEngine.setPriceBands]
    split_ifs
    · exact ⟨rfl, _, rfl⟩
    · exact ⟨rfl, by simp [Event.inert]⟩
  | clearPriceBands symbol => exact ⟨rfl, by simp [Event.inert]⟩
  | setTradingPhase symbol phase =>
    have hinert : ∀ e ∈ s.phaseEvents symbol phase, e.inert := by
      unfold phaseEvents
      cases phase <;> split_ifs <;> simp [indicativePriceEvent, Event.inert]
    exact ⟨rfl, hinert⟩
  | _ => exact absurd h id

/-- Events of the market controls. -/
def Event.control : Event → Prop
  | .symbolHalted .. | .symbolResumed .. | .priceBandUpdated .. | .auctionStarted ..
  | .auctionEnded .. | .indicativePriceUpdated .. => True
  | _ => False

/-- A setting reports on market controls of its symbol only. -/
theorem Op.exec_controls {op : Op} (h : op.isSetting) (s : MatchingEngine) :
    Outcome op.exec s (fun events _ => ∀ e ∈ events, e.control ∧ e.symbol = op.symbol s)
      fun _ _ => True := by
  have hnone : ∀ {symbol : Symbol}, ∀ e ∈ ([] : List Event), e.control ∧ e.symbol = symbol := by simp
  have hone : ∀ {event : Event} {symbol : Symbol}, event.control → event.symbol = symbol →
      ∀ e ∈ [event], e.control ∧ e.symbol = symbol := fun hcontrol hsymbol e he => by
    rw [List.mem_singleton.mp he]
    exact ⟨hcontrol, hsymbol⟩
  cases op with
  | setFeeModel model =>
    simp only [Op.exec, MatchingEngine.setFeeModel]
    split_ifs
    · trivial
    · trivial
    · exact hnone
  | setAccountRiskConfig a config =>
    simp only [Op.exec, MatchingEngine.setAccountRiskConfig]
    split_ifs
    · trivial
    · trivial
    · exact hnone
  | haltSymbol symbol reason => exact hone trivial rfl
  | resumeSymbol symbol =>
    simp only [Op.exec, MatchingEngine.resumeSymbol, outcome_bind, outcome_get, outcome_set]
    split_ifs
    · exact hone trivial rfl
    · exact hnone
  | setPriceBands symbol lower upper =>
    simp only [Op.exec, MatchingEngine.setPriceBands]
    split
    · trivial
    · exact hone trivial rfl
  | clearPriceBands symbol => exact hone trivial rfl
  | setTradingPhase symbol phase =>
    simp only [Op.exec, MatchingEngine.setTradingPhase, outcome_bind, outcome_get, outcome_set,
      outcome_pure]
    unfold phaseEvents
    cases phase <;> split_ifs <;> simp [indicativePriceEvent, Event.control, Event.symbol, Op.symbol]
  | _ => exact absurd h id

namespace MatchingEngine
variable {s s' : MatchingEngine}

theorem books_of_unset (h : s.unset = s'.unset) : s.books = s'.books :=
  congrArg (fun s => s.books) h

theorem owners_of_unset (h : s.unset = s'.unset) : s.orderOwnershipById = s'.orderOwnershipById :=
  congrArg (fun s => s.orderOwnershipById) h

theorem money_of_unset (h : s.unset = s'.unset) : s.money = s'.money := by
  have hs : ∀ s : MatchingEngine, s.money = s.unset.money := fun _ => rfl
  rw [hs s, hs s', h]

theorem bookFor_of_unset (h : s.unset = s'.unset) (symbol : Symbol) :
    s.bookFor symbol = s'.bookFor symbol := by
  rw [bookFor, bookFor, books_of_unset h]

theorem Sound.of_unset {G : Guard} (hs : s.Sound G) (h : s'.unset = s.unset) : s'.Sound G :=
  ((Narrows.of_frame hs rfl id).controls (books_of_unset h)
    (fun ho => ⟨_, owners_of_unset h ▸ ho, rfl, rfl⟩)
    (congrArg (fun s => s.stopOrdersById) h) (congrArg (fun s => s.nextOrderId) h)
    (money_of_unset h) (congrArg (fun s => s.pendingStopIdsBySymbol) h)).sound hs

theorem sound_fresh (G : Guard) : fresh.Sound G where
  unreserved _ := ⟨rfl, rfl, rfl⟩
  pending hid := by cases hid
  book symbol := by
    have hempty : fresh.bookFor symbol = {} := Finmap.valueD_empty _ _
    rw [hempty]
    exact OrderBook.wellFormed_empty
  rests_lt hr := by
    refine absurd ?_ hr
    rfl
  rests_unique hr := by
    refine absurd ?_ hr
    rfl
  owner_lt ho := by cases ho
  owner_symbol ho := by cases ho
  owner_account ho := by cases ho
  stop_lt h := by cases h
  stop_account h := by cases h
  stop_rests h := by cases h
  stop_owner h := by cases h

end MatchingEngine

/-- An operation that ticks do not describe. -/
def Op.isSetup (op : Op) : Prop :=
  op.isSetting ∨ ∃ a symbol cash qty, op = .setAccountState a symbol cash qty

variable {C : List (Op × List Event) → MatchingEngine → Op → Prop} {start s : MatchingEngine}
  {ops : List (Op × List Event)}

/-- What every operation keeps, whether it returns or throws, every run keeps. -/
theorem Run.invariant {I : MatchingEngine → Prop} (hstart : I start)
    (hstep : ∀ {ops s op}, I s → C ops s op →
      Outcome op.exec s (fun _ s' => I s') fun _ s' => I s') (h : Run C start ops s) : I s := by
  induction h with
  | nil => exact hstart
  | returns _ hc hexec ih => exact (hstep ih hc).returns hexec
  | throws _ hc hexec ih => exact (hstep ih hc).throws hexec

theorem Run.mono {C' : List (Op × List Event) → MatchingEngine → Op → Prop}
    (hC : ∀ {ops s op}, C ops s op → C' ops s op) (h : Run C start ops s) : Run C' start ops s := by
  induction h with
  | nil => exact .nil
  | returns _ hc hexec ih => exact ih.returns (hC hc) hexec
  | throws _ hc hexec ih => exact ih.throws (hC hc) hexec

/-! Runs by evaluation. -/

/-- The state after an operation, returned or thrown. -/
def Op.apply (op : Op) (s : MatchingEngine) : MatchingEngine :=
  match op.exec s with
  | .ok _ s' => s'
  | .error _ s' => s'

/-- The events of an operation, unless it throws. -/
def Op.returned (op : Op) (s : MatchingEngine) : Option (List Event) :=
  match op.exec s with
  | .ok events _ => some events
  | .error _ _ => none

theorem Op.exec_of_returned {op : Op} {s : MatchingEngine} {events : List Event}
    (h : op.returned s = some events) : op.exec s = .ok events (op.apply s) := by
  unfold Op.returned at h
  unfold Op.apply
  cases hexec : op.exec s with
  | ok events' s' =>
    rw [hexec] at h
    rw [Option.some.inj h]
  | error e s' =>
    rw [hexec] at h
    cases h

def MatchingEngine.applyAll (s : MatchingEngine) : List Op → MatchingEngine
  | [] => s
  | op :: rest => (op.apply s).applyAll rest

/-- Every operation meets the condition in the state it starts from. -/
def MatchingEngine.Admitted (P : MatchingEngine → Op → Prop) (s : MatchingEngine) : List Op → Prop
  | [] => True
  | op :: rest => P s op ∧ (op.apply s).Admitted P rest

instance MatchingEngine.decidableAdmitted (P : MatchingEngine → Op → Prop)
    [∀ s op, Decidable (P s op)] (s : MatchingEngine) (ops : List Op) :
    Decidable (s.Admitted P ops) :=
  match ops with
  | [] => inferInstanceAs (Decidable True)
  | op :: rest =>
    have := decidableAdmitted P (op.apply s) rest
    inferInstanceAs (Decidable (P s op ∧ (op.apply s).Admitted P rest))

/-- The operations with the events they return. -/
def MatchingEngine.history (s : MatchingEngine) : List Op → List (Op × List Event)
  | [] => []
  | op :: rest => (op, (op.returned s).getD []) :: (op.apply s).history rest

theorem Run.applyAll {P : MatchingEngine → Op → Prop} (h : Run (fun _ s op => P s op) start ops s)
    (more : List Op) (hmore : s.Admitted P more) :
    Run (fun _ s op => P s op) start (ops ++ s.history more) (s.applyAll more) := by
  induction more generalizing s ops with
  | nil => exact (List.append_nil ops).symm ▸ h
  | cons op rest ih =>
    obtain ⟨hop, hrest⟩ := hmore
    rw [MatchingEngine.applyAll, MatchingEngine.history, List.append_cons]
    have hnext : Run (fun _ s op => P s op) start (ops ++ [(op, (op.returned s).getD [])])
        (op.apply s) := by
      unfold Op.apply Op.returned
      cases hexec : op.exec s with
      | ok events s' => exact h.returns hop hexec
      | error e s' => exact h.throws hop hexec
    exact ih hnext hrest

/-- The run of some operations from a fresh engine. -/
theorem Run.ofOps {P : MatchingEngine → Op → Prop} (ops : List Op) (h : fresh.Admitted P ops) :
    Run (fun _ s op => P s op) fresh (fresh.history ops) (fresh.applyAll ops) :=
  Run.applyAll .nil ops h

theorem reachable_applyAll (ops : List Op) : Reachable (fresh.applyAll ops) := by
  have hadmitted : ∀ (ops : List Op) (s : MatchingEngine), s.Admitted (fun _ _ => True) ops := by
    intro ops
    induction ops with
    | nil => exact fun _ => trivial
    | cons op rest ih => exact fun s => ⟨trivial, ih (op.apply s)⟩
  exact ⟨_, Run.ofOps ops (hadmitted ops fresh)⟩

section Ticks
variable {G : Guard}

/-- An operation that is not a setup is a path of ticks from a sound state. -/
theorem Op.exec_ticks {op : Op} (hs : s.Sound G) (hguard : op.Guarded G s) (h : ¬ op.isSetup) :
    Traces G ⟨s, idle⟩ op.exec :=
  Op.exec_traces hs hguard (fun hsetting => h (Or.inl hsetting))
    fun a symbol cash qty heq => h (Or.inr ⟨a, symbol, cash, qty, heq⟩)

theorem Op.exec_sound {op : Op} (hs : s.Sound G) (hguard : op.Guarded G s) :
    Outcome op.exec s (fun _ s' => s'.Sound G) fun _ s' => s'.Sound G := by
  by_cases hsetup : op.isSetup
  · rcases hsetup with hsetting | ⟨a, symbol, cash, qty, rfl⟩
    · exact (Op.exec_setting hsetting s).mono (fun _ _ h => hs.of_unset h.1) fun _ _ h => h.1 ▸ hs
    · exact (Narrows.of_frame hs (frame_updateAccount _ _ _) id).sound hs
  · exact (Op.exec_ticks hs hguard hsetup).mono (fun _ _ h => sound_of_path hs h)
      fun _ _ ⟨_, _, hpath, habort⟩ =>
        habort.sound (hpath.invariant (I := Config.Sound G) Tick.sound ⟨hs, trivial⟩)

theorem Run.sound (hC : ∀ {ops s op}, C ops s op → op.Guarded G s) (hstart : start.Sound G)
    (h : Run C start ops s) : s.Sound G :=
  h.invariant hstart fun hs hc => Op.exec_sound hs (hC hc)

/-- The ticks between two states at rest keep an invariant that each tick keeps. -/
theorem tick_path_invariant {I : Config → Prop}
    (htick : ∀ {c events c'}, c.Sound G → I c → Tick G c events c' → I c')
    {c c' : Config} {events : List Event} (hc : c.Sound G) (hI : I c)
    (h : Path (Tick G) c events c') : I c' :=
  (h.invariant (I := fun c => c.Sound G ∧ I c)
    (fun hI hr => ⟨Tick.sound hI.1 hr, htick hI.1 hI.2 hr⟩) ⟨hc, hI⟩).2

/-- What every tick and every setup keeps holds in every state of a run. -/
theorem Run.tick_invariant {I : Config → Prop} (hC : ∀ {ops s op}, C ops s op → op.Guarded G s)
    (hsound : start.Sound G) (hstart : I ⟨start, idle⟩)
    (htick : ∀ {c events c'}, c.Sound G → I c → Tick G c events c' → I c')
    (habort : ∀ {c s'}, c.Sound G → I c → c.AbortsTo s' → I ⟨s', idle⟩)
    (hsetup : ∀ {ops s op}, C ops s op → op.isSetup → s.Sound G → I ⟨s, idle⟩ →
      Outcome op.exec s (fun _ s' => I ⟨s', idle⟩) fun _ s' => I ⟨s', idle⟩)
    (h : Run C start ops s) : I ⟨s, idle⟩ := by
  refine (h.invariant (I := fun s => s.Sound G ∧ I ⟨s, idle⟩) ⟨hsound, hstart⟩ ?_).2
  intro ops s op ⟨hs, hI⟩ hc
  have hstep := Op.exec_sound hs (hC hc)
  by_cases hop : op.isSetup
  · have hset := hsetup hc hop hs hI
    unfold Outcome at *
    cases hexec : op.exec s with
    | ok events s' => rw [hexec] at hstep hset; exact ⟨hstep, hset⟩
    | error e s' => rw [hexec] at hstep hset; exact ⟨hstep, hset⟩
  · refine (Op.exec_ticks hs (hC hc) hop).mono (fun _ _ hpath => ?_)
      fun _ _ ⟨_, c', hpath, hthrow⟩ => ?_
    · exact ⟨sound_of_path hs hpath, tick_path_invariant htick ⟨hs, trivial⟩ hI hpath⟩
    · have hc' := hpath.invariant (I := Config.Sound G) Tick.sound ⟨hs, trivial⟩
      exact ⟨hthrow.sound hc', habort hc' (tick_path_invariant htick ⟨hs, trivial⟩ hI hpath) hthrow⟩

end Ticks

/-- Settings that no tick changes. -/
structure MatchingEngine.SameSettings (s s' : MatchingEngine) : Prop where
  feeModel : s'.feeModel = s.feeModel
  riskConfigs : s'.riskConfigs = s.riskConfigs
  bands : s'.priceBandsBySymbol = s.priceBandsBySymbol

theorem MatchingEngine.SameSettings.trans {s s' s'' : MatchingEngine} (h : s.SameSettings s')
    (h' : s'.SameSettings s'') : s.SameSettings s'' :=
  ⟨h'.feeModel.trans h.feeModel, h'.riskConfigs.trans h.riskConfigs, h'.bands.trans h.bands⟩

theorem MatchingEngine.SameSettings.of_frame {s s' : MatchingEngine} (h : s'.frame = s.frame) :
    s.SameSettings s' :=
  ⟨feeModel_of_frame h, riskConfigs_of_frame h, bands_of_frame h⟩

/-- The state an order leaves when its owner's record follows a fill. -/
theorem MatchingEngine.sameSettings_updateOwner (s : MatchingEngine) (fill : FillResult) :
    s.SameSettings (s.updateOwner fill) :=
  ⟨read_updateOwner MatchingEngine.feeModel (fun _ _ => rfl) s fill,
    read_updateOwner MatchingEngine.riskConfigs (fun _ _ => rfl) s fill,
    read_updateOwner MatchingEngine.priceBandsBySymbol (fun _ _ => rfl) s fill⟩

theorem MatchingEngine.sameSettings_reduceOwner (s : MatchingEngine) (id : OrderId) (qty : ℤ) :
    s.SameSettings (s.reduceOwner id qty) :=
  ⟨read_reduceOwner MatchingEngine.feeModel (fun _ _ => rfl) s id qty,
    read_reduceOwner MatchingEngine.riskConfigs (fun _ _ => rfl) s id qty,
    read_reduceOwner MatchingEngine.priceBandsBySymbol (fun _ _ => rfl) s id qty⟩

theorem MatchingEngine.sameSettings_setBook (s : MatchingEngine) (symbol : Symbol)
    (book : OrderBook) : s.SameSettings (s.setBook symbol book) := ⟨rfl, rfl, rfl⟩

theorem MatchingEngine.sameSettings_auctionTraded (s : MatchingEngine) (symbol : Symbol)
    (price traded : ℤ) (bidId askId : OrderId) (book : OrderBook) :
    s.SameSettings (s.auctionTraded symbol price traded bidId askId book) :=
  (((sameSettings_setBook s symbol book).trans (.of_frame (frame_settleAuction _ _ _ _ _ _))).trans
    (sameSettings_reduceOwner _ _ _)).trans (sameSettings_reduceOwner _ _ _)

theorem Tick.sameSettings {c c' : Config} {events : List Event} (h : Tick G c events c') :
    c.engine.SameSettings c'.engine := by
  cases h with
  | record hjournal hinert => exact .of_frame (frame_of_unjournaled hjournal)
  | fill hnext hband hhold hinert =>
    exact ((sameSettings_setBook _ _ _).trans (.of_frame (frame_journaled _ _ _ _))).trans
      (sameSettings_updateOwner _ _)
  | breach hnext hband hinert =>
    exact ((sameSettings_setBook _ _ _).trans (.of_frame (frame_settleFill _ _ _ _))).trans
      ⟨rfl, rfl, rfl⟩
  | @rest s t hpos htif =>
    have howned : s.SameSettings (s.owned t.accountId t.symbol t.id t.side t.price t.remaining
      t.visibility t.displayQty) := ⟨rfl, rfl, rfl⟩
    exact howned.trans (.of_frame (frame_restOrder _ _ _ _ _ _ _ _ _))
  | @restAuction s t hadmits haccount hentry hphase =>
    have howned : s.SameSettings (s.owned t.accountId t.symbol t.id t.side t.price t.remaining
      t.visibility t.displayQty) := ⟨rfl, rfl, rfl⟩
    exact howned.trans (.of_frame (frame_restOrder _ _ _ _ _ _ _ _ _))
  | cancel howner hrests =>
    exact ((sameSettings_setBook _ _ _).trans (.of_frame (frame_releaseAll _ _ _ _))).trans
      ⟨rfl, rfl, rfl⟩
  | auctionTrade hqty hguard hbid hask =>
    exact sameSettings_auctionTraded _ _ _ _ _ _ _
  | _ => exact ⟨rfl, rfl, rfl⟩

/-- The guard that only bars an account from submitting orders, if anything. -/
theorem Op.guarded_trivial (op : Op) (s : MatchingEngine) : op.Guarded {} s :=
  ⟨fun _ _ => trivial, fun _ _ _ => trivial, fun _ _ => trivial, fun _ _ => trivial⟩

theorem Reachable.sound (h : Reachable s) : s.Sound {} := by
  obtain ⟨ops, hrun⟩ := h
  exact hrun.sound (fun _ => Op.guarded_trivial _ _) (sound_fresh _)

end Tes
