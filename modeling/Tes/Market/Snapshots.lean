import Tes.Book.Depth
import Tes.Engine.Sequences
import Tes.Engine.Triggers
import Tes.Ledger.Isolation
import Tes.Ledger.Rejections

/-! Book snapshots: the sequence number of a symbol tells its displayed depths apart. -/
namespace Tes
open OrderBook MatchingEngine EStateM

structure BookLevel where
  symbol : Symbol
  side : Side
  price : ℤ
  qty : ℤ
  deriving DecidableEq, Repr

structure BookSnapshot where
  symbol : Symbol
  sequenceNumber : ℕ
  bids : List BookLevel
  asks : List BookLevel
  deriving DecidableEq, Repr

namespace MatchingEngine

def sequenceNumber (s : MatchingEngine) (symbol : Symbol) : ℕ :=
  s.sequenceNumbersBySymbol.valueD symbol 0

/-- The displayed depth of a symbol; without a limit it is the full one. -/
def depth (s : MatchingEngine) (symbol : Symbol) (levels : Option ℕ) : Depth :=
  (s.bookFor symbol).depth levels

def snapshot (s : MatchingEngine) (symbol : Symbol) (levels : Option ℕ) : BookSnapshot :=
  { symbol
    sequenceNumber := s.sequenceNumber symbol
    bids := (s.depth symbol levels).bids.map fun (price, qty) => ⟨symbol, .bid, price, qty⟩
    asks := (s.depth symbol levels).asks.map fun (price, qty) => ⟨symbol, .ask, price, qty⟩ }

end MatchingEngine

/-- Events that advance no sequence number. -/
def Uncounted (events : List Event) : Prop := ∀ e ∈ events, sequencedSymbol e = none

theorem Uncounted.left {events more : List Event} (h : Uncounted (events ++ more)) :
    Uncounted events := fun e he => h e (List.mem_append_left _ he)

theorem Uncounted.right {events more : List Event} (h : Uncounted (events ++ more)) :
    Uncounted more := fun e he => h e (List.mem_append_right _ he)

theorem not_uncounted {events : List Event} {e : Event} {symbol : Symbol} (he : e ∈ events)
    (hcounted : sequencedSymbol e = some symbol) : ¬ Uncounted events := fun h => by
  rw [h e he] at hcounted
  cases hcounted

/-- An event counts for its own symbol, if at all. -/
theorem sequencedSymbol_cases (e : Event) :
    sequencedSymbol e = none ∨ sequencedSymbol e = some e.symbol := by
  cases e <;> first | exact Or.inl rfl | exact Or.inr rfl

/-- A hidden order does not show. -/
theorem visibleAt_insertOrder_hidden {book : OrderBook} {order : Order}
    (h : order.visibility = .hidden) (side : Side) (price : ℤ) :
    (book.insertOrder order).visibleAt side price = book.visibleAt side price := by
  unfold visibleAt
  rw [sideTotal_insertOrder]
  have hzero : visibleQty order = 0 := if_pos h
  rw [hzero]
  simp

section Steps
variable {G : Guard} {symbol : Symbol} {s s' : MatchingEngine} {events : List Event}
  {entries : List Entry}

/-- An order that comes to rest without an event that counts does not show. -/
theorem depth_rested {t : Taker} (hs : s.Sound G) (hflight : s.InFlight t) (hpos : 0 < t.remaining)
    (h : Uncounted (t.restedEvents s)) (levels : Option ℕ) :
    (t.rested s).depth t.symbol levels = s.depth t.symbol levels := by
  have hb := hs.book t.symbol
  have hindex : (s.bookFor t.symbol).orderIndex.lookup t.id = none :=
    hb.findOrder_eq_none.mp (not_not.mp (hflight.free.rests t.symbol))
  have hadded := addRemainder_eq hflight.valid hpos hindex
  unfold MatchingEngine.depth
  rw [bookFor_rested, if_pos rfl, hadded]
  split_ifs with hrefused
  · rfl
  · have hplaced := order_placed hflight.valid hpos hrefused
    have hfree : (s.bookFor t.symbol).orderIndex.lookup t.order.id = none := by
      unfold Taker.order
      rw [arrange_id]
      exact hindex
    have hhidden : t.order.visibility = .hidden := by
      obtain ⟨top, htop⟩ := restedEvents_of_accepted hflight hpos hb hrefused
      have hnone := h _ (htop ▸ List.mem_cons_self)
      unfold acceptedEvent at hnone
      cases hv : t.order.visibility with
      | hidden => rfl
      | displayed => rw [hv] at hnone; cases hnone
      | iceberg => rw [hv] at hnone; cases hnone
    exact depth_congr hb (hb.insertOrder hplaced hfree) (visibleAt_insertOrder_hidden hhidden) levels

theorem Placing.depth (h : Placing G symbol s events entries s') (hs : s.Sound G)
    (hcount : Uncounted events) (levels : Option ℕ) :
    s'.depth symbol levels = s.depth symbol levels := by
  cases h with
  | touch => rfl
  | report => rfl
  | audit => rfl
  | restAuction hsymbol hadmits =>
    subst hsymbol
    exact depth_rested hs hadmits.inFlight.1 hadmits.inFlight.2 hcount levels
  | enter hsymbol hadmits haccount hphase hfok hmatches hfinishes =>
    subst hsymbol
    cases hmatches with
    | done =>
      cases hfinishes with
      | rest hpos => exact depth_rested hs hadmits.inFlight.1 hpos hcount levels
      | expire => rfl
      | done => rfl
    | breach => exact absurd hcount (not_uncounted List.mem_cons_self rfl)
    | fill => exact absurd hcount (not_uncounted List.mem_cons_self rfl)

/-- A step that reports no event that counts shows no other depth. -/
theorem Step.depth (h : Step G symbol s events entries s') (hs : s.Sound G)
    (hcount : Uncounted events) (levels : Option ℕ) :
    s'.depth symbol levels = s.depth symbol levels := by
  cases h with
  | placing h => exact h.depth hs hcount levels
  | track =>
    unfold MatchingEngine.depth
    rw [bookFor_of_frame (frame_of_unjournaled (unjournaled_trackEvents _ _))]
  | @cancel id owner howner hsymbol hrests =>
    cases hindex : (s.bookFor symbol).orderIndex.lookup id with
    | none => exact absurd ((hs.book symbol).findOrder_eq_none.mpr hindex) hrests
    | some entry =>
      refine absurd hcount (@not_uncounted _ (.orderCanceled id symbol) symbol ?_ rfl)
      refine List.mem_map.mpr ⟨.orderCanceled id defaultSymbol, ?_, rfl⟩
      unfold OrderBook.cancel
      rw [hindex]
      exact List.mem_cons_self
  | cross hauction hcrosses =>
    cases hcrosses with
    | refl => rfl
    | trade =>
      exact absurd hcount (not_uncounted (List.mem_cons_of_mem _ List.mem_cons_self) rfl)
  | _ => rfl

theorem Steps.depth (h : Steps (Step G symbol) s events entries s') (hs : s.Sound G)
    (hcount : Uncounted events) (levels : Option ℕ) :
    s'.depth symbol levels = s.depth symbol levels := by
  induction h with
  | refl => rfl
  | step hr _ ih => exact (ih (hr.sound hs) hcount.right).trans (hr.depth hs hcount.left levels)

/-- A hidden order that does not trade reports nothing that counts. -/
theorem Placing.uncounted_hidden (h : Placing G symbol s events entries s')
    (hhidden : ∀ e ∈ entries, e.2.visibility = .hidden) (htrades : ∀ e ∈ events, isTrade e = false) :
    Uncounted events := by
  have hrested : ∀ {s : MatchingEngine} {t : Taker}, t.visibility = .hidden →
      Uncounted (t.restedEvents s) := by
    intro s t hv e he
    obtain ⟨event, hevent, rfl⟩ := List.mem_map.mp he
    rw [hv] at hevent
    unfold bookAdd addHiddenOrder addOrder at hevent
    dsimp only at hevent
    split_ifs at hevent
    · cases hevent
    · rcases List.mem_cons.mp hevent with rfl | htop
      · rfl
      · unfold OrderBook.maybeEmitTopOfBookChange at htop
        split_ifs at htop
        · rw [List.mem_singleton.mp htop]
          rfl
        · cases htop
  cases h with
  | touch => exact fun e he => by cases he
  | report hverdict =>
    intro e he
    rw [List.mem_singleton.mp he]
    rename_i event hsymbol
    cases event <;> first | rfl | exact hverdict.elim
  | audit => exact fun e he => by cases he
  | restAuction => exact hrested (hhidden _ List.mem_cons_self)
  | @enter _ _ t t' _ _ hsymbol hadmits haccount hphase hfok hmatches hfinishes =>
    cases hmatches with
    | done =>
      cases hfinishes with
      | rest => exact hrested (hhidden _ List.mem_cons_self)
      | expire =>
        intro e he
        rw [List.mem_singleton.mp he]
        rfl
      | done => exact fun e he => by cases he
    | breach => cases htrades _ List.mem_cons_self
    | fill => cases htrades _ List.mem_cons_self

theorem Steps.uncounted_hidden (h : Steps (Placing G symbol) s events entries s')
    (hhidden : ∀ e ∈ entries, e.2.visibility = .hidden) (htrades : ∀ e ∈ events, isTrade e = false) :
    Uncounted events := by
  induction h with
  | refl => exact fun e he => by cases he
  | step hr _ ih =>
    have hfirst := hr.uncounted_hidden (fun e he => hhidden e (List.mem_append_left _ he))
      fun e he => htrades e (List.mem_append_left _ he)
    have hrest := ih (fun e he => hhidden e (List.mem_append_right _ he))
      fun e he => htrades e (List.mem_append_right _ he)
    exact fun e he => (List.mem_append.mp he).elim (hfirst e) (hrest e)

end Steps

theorem MatchingEngine.sequenceNumber_of_advance {s s' : MatchingEngine} {events : List Event}
    (h : s'.sequenceNumbersBySymbol = advance s.sequenceNumbersBySymbol events) (symbol : Symbol) :
    s'.sequenceNumber symbol =
      s.sequenceNumber symbol + events.countP fun e => sequencedSymbol e = some symbol := by
  unfold sequenceNumber
  rw [h, valueD_advance]

/-- An operation that returns no event that counts leaves every depth as it is. -/
theorem Op.exec_depth {s s' : MatchingEngine} (h : Reachable s) {op : Op} {events : List Event}
    (hexec : op.exec s = .ok events s') (symbol : Symbol)
    (hcount : ∀ e ∈ events, sequencedSymbol e ≠ some symbol) (levels : Option ℕ) :
    s'.depth symbol levels = s.depth symbol levels := by
  have hs := h.sound
  obtain ⟨htagged, hothers⟩ := (Op.exec_isolates h op).returns hexec
  by_cases hsymbol : symbol = op.symbol s
  · have hnone : Uncounted events := fun e he => by
      rcases sequencedSymbol_cases e with hnone | hsome
      · exact hnone
      · rw [htagged e he, ← hsymbol] at hsome
        exact absurd hsome (hcount e he)
    by_cases hsetting : op.isSetting
    · have hquiet := (Op.exec_setting hsetting s).returns hexec
      unfold MatchingEngine.depth
      rw [bookFor_of_unset hquiet.1]
    · by_cases hstate : ∃ a symbol cash qty, op = .setAccountState a symbol cash qty
      · obtain ⟨a, other, cash, qty, rfl⟩ := hstate
        cases hexec
        rfl
      · push Not at hstate
        have hsteps := (Op.exec_steps hs (fun _ _ => trivial) (fun _ _ _ => trivial)
          (fun _ _ => trivial) hsetting hstate).returns hexec
        subst hsymbol
        exact hsteps.depth hs hnone levels
  · unfold MatchingEngine.depth
    rw [(hothers symbol hsymbol).book]

/-- What the sequence numbers tell of an operation that returns. -/
structure Numbered (op : Op) (s : MatchingEngine) (events : List Event) (s' : MatchingEngine) :
    Prop where
  monotone : ∀ symbol, s.sequenceNumber symbol ≤ s'.sequenceNumber symbol
  counts : ∀ symbol, s'.depth symbol none ≠ s.depth symbol none →
    s.sequenceNumber symbol < s'.sequenceNumber symbol
  others : ∀ symbol, symbol ≠ op.symbol s → s'.sequenceNumber symbol = s.sequenceNumber symbol
  /-- A hidden order that only rests does not count. -/
  hidden : ∀ a symbol side price qty, op = .placeHiddenOrder a symbol side price qty →
    (∀ e ∈ events, isTrade e = false) → ¬ Triggered events →
    ∀ symbol, s'.sequenceNumber symbol = s.sequenceNumber symbol

theorem entry_eq {s : MatchingEngine} {t : Taker} {e : Entry} (h : e ∈ s.entries t) : e.2 = t := by
  unfold MatchingEngine.entries at h
  dsimp only at h
  split at h
  · rw [List.mem_singleton.mp h]
  · cases h

theorem uncounted_placeHidden {s s' : MatchingEngine} (h : Reachable s) {a : AccountId}
    {symbol : Symbol} {side : Side} {price qty : ℤ} {events : List Event}
    (hexec : (Op.placeHiddenOrder a symbol side price qty).exec s = .ok events s')
    (htrades : ∀ e ∈ events, isTrade e = false) (htriggers : ¬ Triggered events) :
    Uncounted events := by
  have hs := h.sound
  have hentering := placeVisible_entering (G := {})
    (t := ⟨a, symbol, s.nextOrderId, side, price, qty, .gtc, .hidden, 0⟩) hs.allocated trivial
    (hs.free_next a symbol)
  have hfollow := @followEntry_quiet s.allocated symbol _ _ _ hentering
  have hstart : (Op.placeHiddenOrder a symbol side price qty).exec s =
      followEntry symbol (placeVisibleOrderWithAccountAndId a symbol s.nextOrderId side price qty .gtc
        .hidden 0) s.allocated := rfl
  rw [hstart] at hexec
  rcases hfollow.returns hexec with htriggered | ⟨s₁, hsteps, -⟩
  · exact absurd htriggered htriggers
  · refine hsteps.uncounted_hidden (fun e he => ?_) htrades
    rw [entry_eq he]

theorem Op.exec_numbered {s : MatchingEngine} (h : Reachable s) (op : Op) :
    Outcome op.exec s (Numbered op s) fun _ s' => ∀ symbol,
      s.sequenceNumber symbol ≤ s'.sequenceNumber symbol ∧
        (symbol ≠ op.symbol s → s'.sequenceNumber symbol = s.sequenceNumber symbol) := by
  have hsequenced := Op.exec_sequenced op s
  have hisolates := Op.exec_isolates h op
  unfold Outcome
  cases hexec : op.exec s with
  | ok events s' =>
    have hadvance := sequenceNumber_of_advance (hsequenced.returns hexec)
    obtain ⟨htagged, hothers⟩ := hisolates.returns hexec
    refine ⟨fun symbol => ?_, fun symbol hdepth => ?_, fun symbol hne => (hothers symbol hne).sequence,
      fun a symbol side price qty hop htrades htriggers symbol' => ?_⟩
    · rw [hadvance]
      exact Nat.le_add_right _ _
    · have hpos : 0 < events.countP fun e => sequencedSymbol e = some symbol := by
        by_contra hzero
        have hnone := List.countP_eq_zero.mp (Nat.eq_zero_of_not_pos hzero)
        exact hdepth (Op.exec_depth h hexec _ (fun e he => by simpa using hnone e he) none)
      rw [hadvance]
      omega
    · subst hop
      have hnone := uncounted_placeHidden h hexec htrades htriggers
      have hzero : events.countP (fun e => sequencedSymbol e = some symbol') = 0 :=
        List.countP_eq_zero.mpr fun e he => by simp [hnone e he]
      rw [hadvance, hzero, add_zero]
  | error e s' =>
    obtain ⟨events, hevents⟩ := hsequenced.throws hexec
    refine fun symbol => ⟨?_, fun hne => (hisolates.throws hexec symbol hne).sequence⟩
    rw [sequenceNumber_of_advance hevents]
    exact Nat.le_add_right _ _

/-- Operations that return lead from one state to the other. -/
inductive Continues : MatchingEngine → MatchingEngine → Prop
  | refl (s : MatchingEngine) : Continues s s
  | step {s s' s'' : MatchingEngine} {op : Op} {events : List Event} :
      Continues s s' → op.exec s' = .ok events s'' → Continues s s''

theorem Continues.reachable {s s' : MatchingEngine} (h : Continues s s') (hs : Reachable s) :
    Reachable s' := by
  induction h with
  | refl => exact hs
  | step _ hexec ih =>
    obtain ⟨ops, hrun⟩ := ih
    exact ⟨_, hrun.returns trivial hexec⟩

/-- Along operations that return, a snapshot is told by its number. -/
theorem Continues.snapshots {s s' : MatchingEngine} (h : Continues s s') (hs : Reachable s)
    (symbol : Symbol) : s.sequenceNumber symbol ≤ s'.sequenceNumber symbol ∧
      (s'.sequenceNumber symbol = s.sequenceNumber symbol →
        ∀ levels, s'.snapshot symbol levels = s.snapshot symbol levels) := by
  induction h with
  | refl => exact ⟨le_rfl, fun _ _ => rfl⟩
  | @step s' s'' op events hsteps hexec ih =>
    have hreach := hsteps.reachable hs
    have hadvance := sequenceNumber_of_advance ((Op.exec_sequenced op s').returns hexec) symbol
    obtain ⟨hle, hsame⟩ := ih
    refine ⟨by omega, fun heq levels => ?_⟩
    have hnumber : s'.sequenceNumber symbol = s.sequenceNumber symbol := by omega
    have hzero : events.countP (fun e => sequencedSymbol e = some symbol) = 0 := by omega
    have hdepth := Op.exec_depth hreach hexec symbol
      (fun e he => by simpa using List.countP_eq_zero.mp hzero e he) levels
    rw [← hsame hnumber levels]
    unfold snapshot
    rw [hdepth, heq, hnumber]

/-- A margin requirement that nothing checks, as it is for one symbol only. -/
def negativeRequirement : AccountRiskConfig :=
  { mode := .margin
    initialMarginRequirementBySymbol := (∅ : Finmap fun _ : Symbol => ℚ).insert "X" (-1) }

/-- Two bids under a negative margin requirement, of which the next ask takes the first. -/
def negativeMargin : List Op :=
  [.setAccountState 1 "X" 0 10, .setAccountState 2 "X" 5000 0,
    .setAccountRiskConfig 2 negativeRequirement,
    .placeLimitOrder 2 "X" .bid 100 1 .gtc, .placeLimitOrder 2 "X" .bid 90 1 .gtc]

end Tes
