import Tes.Engine.Sequences
import Tes.Ledger.Holdings

/-! An operation that returns one rejection and nothing else leaves the engine as it was. -/
namespace Tes
open OrderBook MatchingEngine EStateM

def Event.rejection : Event → Prop
  | .orderRejected .. | .cancelRejected .. => True
  | _ => False

/-- Two records of an account that agree on every symbol; where `topped`, cash and positions
may have been topped up. -/
structure AccountSnapshot.Agrees (topped : Prop) (a b : AccountSnapshot) : Prop where
  cash : b.cashBalance = a.cashBalance ∨ topped ∧ b.cashBalance = max a.cashBalance defaultLegacyCash
  position : ∀ symbol, b.position symbol = a.position symbol ∨
    topped ∧ b.position symbol = max (a.position symbol) defaultLegacyPosition
  reservedCash : b.reservedCash = a.reservedCash
  reservedQty : ∀ symbol, b.reservedQty symbol = a.reservedQty symbol
  reservedShortMargin : b.reservedShortMargin = a.reservedShortMargin
  averageCost : ∀ symbol, b.averageCost symbol = a.averageCost symbol
  realizedBySymbol : ∀ symbol, b.realizedPnlOf symbol = a.realizedPnlOf symbol
  realized : b.realizedPnl = a.realizedPnl

theorem AccountSnapshot.Agrees.refl (topped : Prop) (a : AccountSnapshot) : a.Agrees topped a :=
  ⟨Or.inl rfl, fun _ => Or.inl rfl, rfl, fun _ => rfl, rfl, fun _ => rfl, fun _ => rfl, rfl⟩

theorem AccountSnapshot.Agrees.trans {topped : Prop} {a b c : AccountSnapshot}
    (h : a.Agrees topped b) (h' : b.Agrees topped c) : a.Agrees topped c where
  cash := by
    rcases h.cash with hcash | ⟨htop, hcash⟩ <;> rcases h'.cash with hcash' | ⟨htop', hcash'⟩
    · exact Or.inl (hcash'.trans hcash)
    · exact Or.inr ⟨htop', by omega⟩
    · exact Or.inr ⟨htop, by omega⟩
    · exact Or.inr ⟨htop, by omega⟩
  position symbol := by
    rcases h.position symbol with hpos | ⟨htop, hpos⟩ <;>
      rcases h'.position symbol with hpos' | ⟨htop', hpos'⟩
    · exact Or.inl (hpos'.trans hpos)
    · exact Or.inr ⟨htop', by omega⟩
    · exact Or.inr ⟨htop, by omega⟩
    · exact Or.inr ⟨htop, by omega⟩
  reservedCash := h'.reservedCash.trans h.reservedCash
  reservedQty symbol := (h'.reservedQty symbol).trans (h.reservedQty symbol)
  reservedShortMargin := h'.reservedShortMargin.trans h.reservedShortMargin
  averageCost symbol := (h'.averageCost symbol).trans (h.averageCost symbol)
  realizedBySymbol symbol := (h'.realizedBySymbol symbol).trans (h.realizedBySymbol symbol)
  realized := h'.realized.trans h.realized

namespace MatchingEngine

/-- All but sequence numbers is left alone, apart from fresh ids, entries on the ledger that
move nothing, default entries of accounts and the top-up of account 0. -/
structure LeftAlone (s s' : MatchingEngine) : Prop where
  books : s'.books = s.books
  owners : s'.orderOwnershipById = s.orderOwnershipById
  stops : s'.stopOrdersById = s.stopOrdersById
  pending : s'.pendingStopIdsBySymbol = s.pendingStopIdsBySymbol
  reservedCash : s'.reservedCashByOrderId = s.reservedCashByOrderId
  reservedQty : s'.reservedQtyByOrderId = s.reservedQtyByOrderId
  reservedShortMargin : s'.reservedShortMarginByOrderId = s.reservedShortMarginByOrderId
  marks : s'.latestMarkBySymbol = s.latestMarkBySymbol
  phases : s'.tradingPhasesBySymbol = s.tradingPhasesBySymbol
  haltReasons : s'.haltReasonsBySymbol = s.haltReasonsBySymbol
  bands : s'.priceBandsBySymbol = s.priceBandsBySymbol
  feeModel : s'.feeModel = s.feeModel
  riskConfigs : s'.riskConfigs = s.riskConfigs
  nextOrderId : s.nextOrderId ≤ s'.nextOrderId
  account : ∀ a, (s.account a).Agrees (a = defaultAccountId) (s'.account a)
  ledger : ∃ audits, s'.accountLedger = s.accountLedger ++ audits ∧ ∀ entry ∈ audits, entry.Audit

variable {G : Guard} {symbol : Symbol} {s s' s'' : MatchingEngine} {events : List Event}
  {entries : List Entry}

theorem LeftAlone.refl (s : MatchingEngine) : s.LeftAlone s :=
  ⟨rfl, rfl, rfl, rfl, rfl, rfl, rfl, rfl, rfl, rfl, rfl, rfl, rfl, le_rfl, fun _ => .refl _ _,
    [], (List.append_nil _).symm, by simp⟩

theorem LeftAlone.trans (h : s.LeftAlone s') (h' : s'.LeftAlone s'') : s.LeftAlone s'' := by
  obtain ⟨audits, hledger, haudits⟩ := h.ledger
  obtain ⟨more, hmore, hmoreAudits⟩ := h'.ledger
  refine ⟨h'.books.trans h.books, h'.owners.trans h.owners, h'.stops.trans h.stops,
    h'.pending.trans h.pending, h'.reservedCash.trans h.reservedCash,
    h'.reservedQty.trans h.reservedQty, h'.reservedShortMargin.trans h.reservedShortMargin,
    h'.marks.trans h.marks, h'.phases.trans h.phases, h'.haltReasons.trans h.haltReasons,
    h'.bands.trans h.bands, h'.feeModel.trans h.feeModel, h'.riskConfigs.trans h.riskConfigs,
    h.nextOrderId.trans h'.nextOrderId, fun a => (h.account a).trans (h'.account a),
    audits ++ more, ?_, fun entry hentry => ?_⟩
  · rw [hmore, hledger, List.append_assoc]
  · rcases List.mem_append.mp hentry with hentry | hentry
    · exact haudits entry hentry
    · exact hmoreAudits entry hentry

theorem leftAlone_allocated (s : MatchingEngine) : s.LeftAlone s.allocated :=
  { LeftAlone.refl s with nextOrderId := Nat.le_succ _ }

theorem leftAlone_touchAccount (s : MatchingEngine) (a : AccountId) (symbol : Symbol) :
    s.LeftAlone (s.touchAccount a symbol) := by
  refine { LeftAlone.refl s with account := fun b => ?_ }
  rw [touchAccount, account_updateAccount]
  split_ifs with hb htop
  · subst hb
    refine ⟨Or.inr ⟨htop, rfl⟩, fun symbol' => ?_, rfl, fun _ => rfl, rfl, fun _ => rfl,
      fun _ => rfl, rfl⟩
    unfold AccountSnapshot.position
    dsimp only
    rw [Finmap.valueD_insert]
    split_ifs with hsymbol
    · exact Or.inr ⟨htop, by rw [hsymbol]⟩
    · exact Or.inl rfl
  · exact .refl _ _
  · exact .refl _ _

/-- A book that takes an order says so. -/
theorem restedEvents_of_accepted {t : Taker} (hinFlight : s.InFlight t) (hpos : 0 < t.remaining)
    (hb : (s.bookFor t.symbol).WellFormed) (hrefused : ¬ t.refused) :
    ∃ top, t.restedEvents s = (acceptedEvent t.order).tagAccepted t.symbol :: top := by
  have hindex : (s.bookFor t.symbol).orderIndex.lookup t.id = none :=
    hb.findOrder_eq_none.mp (not_not.mp (hinFlight.free.rests t.symbol))
  have hadded := addRemainder_eq hinFlight.valid hpos hindex
  rw [if_neg hrefused] at hadded
  unfold Taker.restedEvents restEvents
  unfold addRemainder at hadded
  rw [hadded]
  exact ⟨_, rfl⟩

theorem not_rejection_accepted (order : Order) (symbol : Symbol) :
    ¬ ((acceptedEvent order).tagAccepted symbol).rejection := by
  unfold acceptedEvent
  cases order.visibility <;> exact id

/-- An order that is let in and does not trade is reported. -/
theorem Admits.reported {t : Taker} (hadmits : s.Admits t) (hs : s.Sound G) :
    ∃ e ∈ t.restedEvents s, ¬ e.rejection := by
  obtain ⟨hinFlight, hpos⟩ := hadmits.inFlight
  obtain ⟨top, hevents⟩ := restedEvents_of_accepted hinFlight hpos (hs.book _) hadmits.not_refused
  exact ⟨_, hevents ▸ List.mem_cons_self, not_rejection_accepted _ _⟩

theorem leftAlone_trackEvents (s : MatchingEngine) (events : List Event) :
    s.LeftAlone (s.trackEvents events) := by
  unfold trackEvents
  induction events generalizing s with
  | nil => exact .refl s
  | cons event rest ih =>
    have hbump : s.LeftAlone (s.bumpSequenceNumber event) := by
      unfold bumpSequenceNumber
      cases sequencedSymbol event with
      | none => exact .refl s
      | some symbol => exact { LeftAlone.refl s with }
    exact hbump.trans (ih _)

/-- A cancel that goes ahead is reported. -/
theorem canceled_reported (symbol : Symbol) {book : OrderBook} (hb : book.WellFormed) {id : OrderId}
    (h : book.findOrder id ≠ none) :
    ∃ e ∈ (book.cancel id).1.map (Event.tagCanceled symbol), ¬ e.rejection := by
  cases hindex : book.orderIndex.lookup id with
  | none => exact absurd (hb.findOrder_eq_none.mpr hindex) h
  | some entry =>
    refine ⟨.orderCanceled id symbol, List.mem_map.mpr ⟨.orderCanceled id defaultSymbol, ?_, rfl⟩,
      fun h => h⟩
    unfold OrderBook.cancel
    rw [hindex]
    exact List.mem_cons_self

theorem leftAlone_placing (hs : s.Sound G) (h : Placing G symbol s events entries s')
    (hevents : ∀ e ∈ events, e.rejection) : s.LeftAlone s' := by
  cases h with
  | touch => exact leftAlone_touchAccount s _ symbol
  | report => exact .refl s
  | @audit entry haudit =>
    refine { LeftAlone.refl s with ledger := ⟨[_], rfl, fun e he => ?_⟩ }
    rw [List.mem_singleton.mp he]
    exact ⟨haudit.cash, haudit.position, haudit.reservedCash, haudit.reservedPosition, haudit.fee⟩
  | restAuction hsymbol hadmits =>
    obtain ⟨e, he, hnot⟩ := hadmits.reported hs
    exact absurd (hevents e he) hnot
  | enter hsymbol hadmits haccount hphase hfok hmatches hfinishes =>
    cases hmatches with
    | done =>
      cases hfinishes with
      | rest =>
        obtain ⟨e, he, hnot⟩ := hadmits.reported hs
        exact absurd (hevents e he) hnot
      | expire => exact (hevents _ List.mem_cons_self).elim
      | done hleft =>
        have hpos := hadmits.inFlight.2
        omega
    | breach => exact (hevents _ List.mem_cons_self).elim
    | fill => exact (hevents _ List.mem_cons_self).elim

/-- A step that reports at most rejections leaves the engine alone. -/
theorem leftAlone_step (hs : s.Sound G) (h : Step G symbol s events entries s')
    (hevents : ∀ e ∈ events, e.rejection) : s.LeftAlone s' := by
  cases h with
  | placing h => exact leftAlone_placing hs h hevents
  | allocate => exact leftAlone_allocated s
  | track => exact leftAlone_trackEvents s _
  | @cancel id owner howner hsymbol hrests =>
    obtain ⟨e, he, hnot⟩ := canceled_reported symbol (hs.book symbol) hrests
    exact absurd (hevents e he) hnot
  | addStop => exact (hevents _ List.mem_cons_self).elim
  | dropStop => exact (hevents _ List.mem_cons_self).elim
  | replaceStop => exact (hevents _ List.mem_cons_self).elim
  | trigger => exact (hevents _ List.mem_cons_self).elim
  | haltAuction => exact (hevents _ (List.mem_cons_of_mem _ List.mem_cons_self)).elim
  | cross => exact (hevents _ List.mem_cons_self).elim
  | endAuction => exact (hevents _ List.mem_cons_self).elim

theorem leftAlone_steps (hs : s.Sound G) (h : Steps (Step G symbol) s events entries s')
    (hevents : ∀ e ∈ events, e.rejection) : s.LeftAlone s' := by
  induction h with
  | refl => exact .refl _
  | step hr _ ih =>
    exact (leftAlone_step hs hr fun e he => hevents e (List.mem_append_left _ he)).trans
      (ih (hr.sound hs) fun e he => hevents e (List.mem_append_right _ he))

end MatchingEngine

/-- An operation whose only event is a rejection leaves the engine alone, sequence numbers
included. -/
theorem exec_rejected {s s' : MatchingEngine} (h : Reachable s) {op : Op} {event : Event}
    (hexec : op.exec s = .ok [event] s') (hrejection : event.rejection) :
    s.LeftAlone s' ∧ s'.sequenceNumbersBySymbol = s.sequenceNumbersBySymbol := by
  have hs := h.sound
  have hevents : ∀ e ∈ [event], e.rejection := fun e he => by
    rw [List.mem_singleton.mp he]
    exact hrejection
  have hsequences := (Op.exec_sequenced op s).returns hexec
  rw [advance_of_not fun e he => by
    have hrejected := hevents e he
    cases e <;> first | rfl | exact hrejected.elim] at hsequences
  refine ⟨?_, hsequences⟩
  by_cases hsetting : op.isSetting
  · have hcontrol := ((Op.exec_controls hsetting s).returns hexec event List.mem_cons_self).1
    cases event <;> first | exact hcontrol.elim | exact hrejection.elim
  · by_cases hstate : ∃ a symbol cash qty, op = .setAccountState a symbol cash qty
    · obtain ⟨a, symbol, cash, qty, rfl⟩ := hstate
      cases hexec
    · push Not at hstate
      exact leftAlone_steps hs ((Op.exec_steps hs (fun _ _ => trivial) (fun _ _ _ => trivial)
        (fun _ _ => trivial) hsetting hstate).returns hexec) hevents

/-- An ask that short selling would need, of an account that may not. -/
theorem exec_rejected_short :
    fresh.LeftAlone ((Op.placeLimitOrder 1 "X" .ask 100 5 .gtc).apply fresh) ∧
      ((Op.placeLimitOrder 1 "X" .ask 100 5 .gtc).apply fresh).sequenceNumbersBySymbol =
        fresh.sequenceNumbersBySymbol := by
  have hevents : (Op.placeLimitOrder 1 "X" .ask 100 5 .gtc).returned fresh =
      some [.orderRejected .ask 100 5 .insufficientPosition "X"] := by decide +kernel
  exact exec_rejected ⟨[], .nil⟩ (Op.exec_of_returned hevents) trivial

end Tes
