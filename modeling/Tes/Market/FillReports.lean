import Tes.Market.EntryIds
import Tes.Market.EventStream

/-! Fill reports tell the truth about the orders they name, but for those of auctions, which report
every trade as the last one of both its orders. -/
namespace Tes
open OrderBook MatchingEngine Flight Transition EStateM

/-- The event trades the order, or reports a fill of it. -/
def Event.tells (id : OrderId) : Event → Prop
  | .tradeExecuted takerId makerId .. => takerId = id ∨ makerId = id
  | .orderPartiallyFilled id' .. | .orderFilled id' .. => id' = id
  | _ => False

/-- The last trade among the events is one of the order, for this quantity. -/
def LastTrade (id : OrderId) (qty : ℤ) (events : List Event) : Prop :=
  ∃ before takerId makerId side price symbol after,
    events = before ++ .tradeExecuted takerId makerId side price qty symbol :: after ∧
      (takerId = id ∨ makerId = id) ∧ ∀ e ∈ after, isTrade e = false

/-- The fill reports among the events of an operation that let the orders in tell the truth. -/
structure TrueReports (made : List Entry) (events : List Event) (s' : MatchingEngine) : Prop where
  /-- A partial fill follows its trade, and tells what is left of what was submitted. -/
  partly : ∀ before id last left symbol after,
    events = before ++ .orderPartiallyFilled id last left symbol :: after →
      LastTrade id last before ∧ 0 < left ∧
        ∃ entry ∈ made, entry.2.id = id ∧ left = entry.2.remaining - tradedOf id before
  /-- A fill follows the trade that ends the order: nothing more is told of it. -/
  filled : ∀ before id last symbol after, events = before ++ .orderFilled id last symbol :: after →
    LastTrade id last before ∧ (∀ e ∈ after, ¬ e.tells id) ∧ (∀ symbol, ¬ s'.Rests symbol id) ∧
      ∀ entry ∈ made, entry.2.id = id → tradedOf id before = entry.2.remaining

/-- The order that a fill report is about. -/
def Event.reportOf : Event → Option OrderId
  | .orderPartiallyFilled id .. | .orderFilled id .. => some id
  | _ => none

/-! Events apart. -/
section Splits
variable {events more first before after : List Event} {e r r' : Event} {id : OrderId} {qty : ℤ}

/-- An event of two lists is one of the first or of the second. -/
theorem split_append (h : events ++ more = before ++ e :: after) :
    (∃ mid, events = before ++ e :: mid ∧ after = mid ++ more) ∨
      ∃ mid, before = events ++ mid ∧ more = mid ++ e :: after := by
  rcases List.append_eq_append_iff.mp h with ⟨mid, hbefore, hmore⟩ | ⟨mid, hevents, hafter⟩
  · exact Or.inr ⟨mid, hbefore, hmore⟩
  · cases mid with
    | nil =>
      rw [List.append_nil] at hevents
      exact Or.inr ⟨[], by rw [List.append_nil, hevents], hafter.symm⟩
    | cons e' mid =>
      obtain ⟨rfl, rfl⟩ := List.cons.inj hafter
      exact Or.inl ⟨mid, hevents, rfl⟩

/-- A report is found after events that are none. -/
theorem split_skip (hfirst : ∀ e ∈ first, e.reportOf = none)
    (h : first ++ more = before ++ r :: after) (hr : r.reportOf ≠ none) :
    ∃ mid, before = first ++ mid ∧ more = mid ++ r :: after := by
  rcases split_append h with ⟨mid, rfl, -⟩ | hlater
  · exact absurd (hfirst r (by simp)) hr
  · exact hlater

/-- A report is the next one or a later one. -/
theorem split_next (hfirst : ∀ e ∈ first, e.reportOf = none)
    (h : first ++ r' :: more = before ++ r :: after) (hr : r.reportOf ≠ none) :
    (before = first ∧ r = r' ∧ after = more) ∨
      ∃ mid, before = first ++ r' :: mid ∧ more = mid ++ r :: after := by
  obtain ⟨mid, rfl, hmore⟩ := split_skip hfirst h hr
  cases mid with
  | nil =>
    obtain ⟨rfl, rfl⟩ := List.cons.inj hmore
    exact Or.inl ⟨List.append_nil _, rfl, rfl⟩
  | cons e mid =>
    obtain ⟨rfl, rfl⟩ := List.cons.inj hmore
    exact Or.inr ⟨mid, rfl, rfl⟩

theorem LastTrade.append_left (h : LastTrade id qty more) (events : List Event) :
    LastTrade id qty (events ++ more) := by
  obtain ⟨before, takerId, makerId, side, price, symbol, after, rfl, hnamed, hafter⟩ := h
  exact ⟨events ++ before, takerId, makerId, side, price, symbol, after, by simp, hnamed, hafter⟩

/-- An event that names no order tells of none. -/
theorem Event.tells_of_orderIds (he : e.orderIds = []) : ¬ e.tells id := by
  intro htells
  cases e <;> first | exact htells | cases he

theorem Event.isTrade_of_tells (h : ∀ id, ¬ e.tells id) : isTrade e = false ∧ e.reportOf = none := by
  cases e with
  | tradeExecuted takerId => exact absurd (Or.inl rfl) (h takerId)
  | orderPartiallyFilled id' => exact absurd rfl (h id')
  | orderFilled id' => exact absurd rfl (h id')
  | _ => exact ⟨rfl, rfl⟩

theorem tells_topOfBook {book : OrderBook} {symbol : Symbol} {bid ask : Option ℤ} :
    ∀ e ∈ book.maybeEmitTopOfBookChange symbol bid ask, ∀ id, ¬ e.tells id := by
  intro e he id
  unfold OrderBook.maybeEmitTopOfBookChange at he
  split_ifs at he
  · rw [List.mem_singleton.mp he]
    exact fun htells => htells
  · cases he

end Splits

/-! The fills of an order that comes in. -/
section Fills
variable {G : Guard} {s s' : MatchingEngine} {t t' : Taker} {events : List Event}

/-- What the fills of an order tell, from `t` to `t'`. -/
structure FillsTold (s : MatchingEngine) (t : Taker) (events : List Event) (t' : Taker) : Prop where
  traded : tradedOf t.id events = t.remaining - t'.remaining
  named : ∀ e ∈ events, ∀ id, e.tells id → id = t.id ∨ ∃ symbol, s.Rests symbol id
  partly : ∀ before id last left symbol after,
    events = before ++ .orderPartiallyFilled id last left symbol :: after →
      id = t.id ∧ LastTrade id last before ∧ 0 < left ∧ left = t.remaining - tradedOf id before
  filled : ∀ before id last symbol after, events = before ++ .orderFilled id last symbol :: after →
    id = t.id ∧ LastTrade id last before ∧ (∀ e ∈ after, ¬ e.tells id) ∧
      tradedOf id before = t.remaining ∧ t'.remaining = 0

theorem FillsTold.reported (h : FillsTold s t events t') {e : Event} (he : e ∈ events) {id : OrderId}
    (hid : e.reportOf = some id) : t.id = id := by
  obtain ⟨before, after, hevents⟩ := List.append_of_mem he
  cases e with
  | orderPartiallyFilled =>
    cases hid
    exact (h.partly _ _ _ _ _ _ hevents).1.symm
  | orderFilled =>
    cases hid
    exact (h.filled _ _ _ _ _ hevents).1.symm
  | _ => cases hid

/-- An order that has nothing left does not match. -/
theorem Matches.of_spent (hspent : t.remaining ≤ 0) (h : Matches s t events s' t') :
    events = [] ∧ t' = t := by
  have hnone : s.nextFill t = none := by
    unfold nextFill
    rw [if_neg (by omega)]
  cases h with
  | done => exact ⟨rfl, rfl⟩
  | breach hnext =>
    rw [hnone] at hnext
    cases hnext
  | fill hnext =>
    rw [hnone] at hnext
    cases hnext

/-- A clip that is shown again may come before the report of a fill. -/
theorem fillEvents_eq (t : Taker) (fill : FillResult) :
    ∃ clips, (∀ e ∈ clips, ∀ id, ¬ e.tells id) ∧ fillEvents t fill = clips ++
      [if 0 < t.remaining - fill.qty then
        .orderPartiallyFilled t.id fill.qty (t.remaining - fill.qty) t.symbol
      else .orderFilled t.id fill.qty t.symbol] := by
  unfold fillEvents
  cases fill.replenished with
  | none =>
    refine ⟨[], by simp, ?_⟩
    split_ifs <;> rfl
  | some clip =>
    refine ⟨[.icebergReplenished { clip with symbol := t.symbol }], by simp [Event.tells], ?_⟩
    split_ifs <;> rfl

/-- Events that tell of no order trade none of it. -/
theorem tradedOf_of_untold (h : ∀ e ∈ events, ∀ id, ¬ e.tells id) (id : OrderId) :
    tradedOf id events = 0 :=
  tradedOf_of_untraded fun e he => (Event.isTrade_of_tells (h e he)).1

/-- The trade of a fill takes its quantity from the order, once. -/
theorem tradedOf_tradeEvent (hs : s.Sound G) (hflight : s.InFlight t) {fill : FillResult}
    {book : OrderBook} (hnext : s.nextFill t = some (fill, book)) :
    s.Rests t.symbol fill.makerId ∧ (tradeEvent t fill).tradedOf t.id = fill.qty := by
  obtain ⟨maker, rest, hfill, -⟩ := nextFill_some (hs.book t.symbol) hnext
  have hrests : s.Rests t.symbol fill.makerId := fun hnone => by
    rw [hfill.makerId, hfill.found] at hnone
    cases hnone
  have hother : fill.makerId ≠ t.id := fun heq => hflight.free.rests t.symbol (heq ▸ hrests)
  exact ⟨hrests, by simp [tradeEvent, Event.tradedOf, hother]⟩

/-- The trade of a fill is the last trade until the next one. -/
theorem lastTrade_tradeEvent (t : Taker) (fill : FillResult)
    (hquiet : ∀ e ∈ events, ∀ id, ¬ e.tells id) :
    LastTrade t.id fill.qty (tradeEvent t fill :: events) :=
  ⟨[], t.id, fill.makerId, t.side, fill.price, t.symbol, events, rfl, Or.inl rfl,
    fun e he => (Event.isTrade_of_tells (hquiet e he)).1⟩

/-- The match loop tells the truth of the order: the induction is on its fills, with what is left of
the order and what has been traded of it adding up. -/
theorem Matches.told (hs : s.Sound G) (hflight : s.InFlight t) (h : Matches s t events s' t') :
    FillsTold s t events t' := by
  induction h with
  | @done s t =>
    refine ⟨by simp [tradedOf], by simp, ?_, ?_⟩
    · intro before id last left symbol after hevents
      simp at hevents
    · intro before id last symbol after hevents
      simp at hevents
  | @breach s t fill book hnext hband =>
    obtain ⟨hrests, htraded⟩ := tradedOf_tradeEvent hs hflight hnext
    have hquiet : ∀ e ∈ circuitBreakerEvents t.symbol fill.price "TradePriceBandBreach",
        ∀ id, ¬ e.tells id := by simp [circuitBreakerEvents, Event.tells]
    have hnone : ∀ e ∈ tradeEvent t fill ::
        circuitBreakerEvents t.symbol fill.price "TradePriceBandBreach", e.reportOf = none := by
      intro e he
      rcases List.mem_cons.mp he with rfl | he
      · rfl
      · exact (Event.isTrade_of_tells (hquiet e he)).2
    refine ⟨?_, fun e he id htells => ?_, ?_, ?_⟩
    · have hrest := tradedOf_of_untold hquiet t.id
      rw [tradedOf] at hrest
      have hleft : (t.after fill).remaining = t.remaining - fill.qty := rfl
      rw [tradedOf, List.map_cons, List.sum_cons, htraded, hrest, hleft]
      omega
    · rcases List.mem_cons.mp he with rfl | he
      · rcases htells with rfl | rfl
        · exact Or.inl rfl
        · exact Or.inr ⟨t.symbol, hrests⟩
      · exact absurd htells (hquiet e he id)
    · intro before id last left symbol after hevents
      have hreport := hnone (.orderPartiallyFilled id last left symbol) (by rw [hevents]; simp)
      cases hreport
    · intro before id last symbol after hevents
      have hreport := hnone (.orderFilled id last symbol) (by rw [hevents]; simp)
      cases hreport
  | @fill s s' t t' fill book events hnext hband hhold hmatches ih =>
    obtain ⟨hrests, htraded⟩ := tradedOf_tradeEvent hs hflight hnext
    have hn := narrows_filled hs hnext
    have hflight' := InFlight.after hs hflight hnext hn
    have htold := ih (hn.sound hs) hflight'
    have hleft : (t.after fill).remaining = t.remaining - fill.qty := rfl
    obtain ⟨clips, hclips, hfills⟩ := fillEvents_eq t fill
    set report : Event := if 0 < t.remaining - fill.qty then
      .orderPartiallyFilled t.id fill.qty (t.remaining - fill.qty) t.symbol
      else .orderFilled t.id fill.qty t.symbol with hreport
    set top := book.maybeEmitTopOfBookChange t.symbol (s.bookFor t.symbol).bestBid
      (s.bookFor t.symbol).bestAsk with htop
    have hquiet : ∀ e ∈ top, ∀ id, ¬ e.tells id := tells_topOfBook
    have hall : tradeEvent t fill :: s.fillReport t fill book ++ events =
        (tradeEvent t fill :: clips) ++ report :: (top ++ events) := by
      unfold fillReport
      rw [hfills]
      simp [htop]
    have hfirst : ∀ e ∈ tradeEvent t fill :: clips, e.reportOf = none := by
      intro e he
      rcases List.mem_cons.mp he with rfl | he
      · rfl
      · exact (Event.isTrade_of_tells (hclips e he)).2
    have hbefore : tradedOf t.id (tradeEvent t fill :: clips) = fill.qty := by
      have hrest := tradedOf_of_untold hclips t.id
      rw [tradedOf] at hrest
      rw [tradedOf, List.map_cons, List.sum_cons, htraded, hrest, add_zero]
    have hlast := lastTrade_tradeEvent t fill hclips
    have hskipped : ∀ mid, tradedOf t.id ((tradeEvent t fill :: clips) ++ report :: (top ++ mid)) =
        fill.qty + tradedOf t.id mid := by
      intro mid
      have hone : tradedOf t.id [report] = 0 := by
        rw [hreport]
        split_ifs <;> rfl
      rw [tradedOf_append, hbefore, ← List.singleton_append, tradedOf_append, hone, tradedOf_append,
        tradedOf_of_untold hquiet]
      omega
    rw [hall]
    refine ⟨?_, ?_, ?_, ?_⟩
    · have hrest := htold.traded
      change tradedOf t.id events = _ at hrest
      rw [hskipped, hrest, hleft]
      omega
    · intro e he id htells
      rcases List.mem_append.mp he with he | he
      · rcases List.mem_cons.mp he with rfl | he
        · rcases htells with rfl | rfl
          · exact Or.inl rfl
          · exact Or.inr ⟨t.symbol, hrests⟩
        · exact absurd htells (hclips e he id)
      · rcases List.mem_cons.mp he with rfl | he
        · rw [hreport] at htells
          split_ifs at htells
          · exact Or.inl htells.symm
          · exact Or.inl htells.symm
        · rcases List.mem_append.mp he with he | he
          · exact absurd htells (hquiet e he id)
          · rcases htold.named e he id htells with hid | ⟨symbol, hrests'⟩
            · exact Or.inl hid
            · exact Or.inr ⟨symbol, hn.rests hrests'⟩
    · intro before id last left symbol after hevents
      rcases split_next hfirst hevents (Option.some_ne_none id) with ⟨rfl, heq, -⟩ | ⟨mid, rfl, hmore⟩
      · rw [hreport] at heq
        split_ifs at heq with hpos
        obtain ⟨rfl, rfl, rfl, -⟩ := Event.orderPartiallyFilled.inj heq
        exact ⟨rfl, hlast, hpos, by rw [hbefore]⟩
      · obtain ⟨mid', rfl, hrest⟩ := split_skip (fun e he => (Event.isTrade_of_tells (hquiet e he)).2)
          hmore (Option.some_ne_none id)
        obtain ⟨rfl, hlater, hpos, hsum⟩ := htold.partly _ _ _ _ _ _ hrest
        refine ⟨rfl, ?_, hpos, ?_⟩
        · exact (hlater.append_left (report :: top)).append_left (tradeEvent t fill :: clips)
        · change left = t.remaining - tradedOf t.id _
          change left = _ - tradedOf t.id mid' at hsum
          rw [hskipped, hsum, hleft]
          omega
    · intro before id last symbol after hevents
      rcases split_next hfirst hevents (Option.some_ne_none id) with ⟨rfl, heq, rfl⟩ | ⟨mid, rfl, hmore⟩
      · rw [hreport] at heq
        split_ifs at heq with hpos
        obtain ⟨rfl, rfl, -⟩ := Event.orderFilled.inj heq
        have hzero : (t.after fill).remaining = 0 := by
          have hnonneg := hflight'.remaining
          omega
        obtain ⟨rfl, rfl⟩ := hmatches.of_spent hzero.le
        refine ⟨rfl, hlast, fun e he => ?_, by omega, hzero⟩
        rw [List.append_nil] at he
        exact hquiet e he _
      · obtain ⟨mid', rfl, hrest⟩ := split_skip (fun e he => (Event.isTrade_of_tells (hquiet e he)).2)
          hmore (Option.some_ne_none id)
        obtain ⟨rfl, hlater, hnone, hsum, hdone⟩ := htold.filled _ _ _ _ _ hrest
        refine ⟨rfl, ?_, hnone, ?_, hdone⟩
        · exact (hlater.append_left (report :: top)).append_left (tradeEvent t fill :: clips)
        · change tradedOf t.id _ = _
          change tradedOf t.id mid' = _ at hsum
          rw [hskipped, hsum, hleft]
          omega

end Fills

/-! What a part of an operation tells. -/
section Parts
variable {G : Guard} {symbol : Symbol} {s s' s'' : MatchingEngine} {made others : List Entry}
  {events more : List Event}

/-- The events of a part of an operation that lets the orders in and takes the engine from `s` to
`s'`. -/
structure Tells (made : List Entry) (s : MatchingEngine) (events : List Event)
    (s' : MatchingEngine) : Prop where
  named : ∀ e ∈ events, ∀ id, e.tells id →
    (∃ symbol, s.Rests symbol id) ∨ ∃ entry ∈ made, entry.2.id = id
  reported : ∀ e ∈ events, ∀ id, e.reportOf = some id → ∃ entry ∈ made, entry.2.id = id
  rests : ∀ symbol id, s'.Rests symbol id → s.Rests symbol id ∨ ∃ entry ∈ made, entry.2.id = id
  reports : TrueReports made events s'

/-- A part that tells of no order. -/
theorem Tells.of_untold (hquiet : ∀ e ∈ events, ∀ id, ¬ e.tells id)
    (hrests : ∀ symbol id, s'.Rests symbol id → s.Rests symbol id ∨ ∃ entry ∈ made, entry.2.id = id) :
    Tells made s events s' := by
  have hnone : ∀ e ∈ events, e.reportOf = none := fun e he =>
    (Event.isTrade_of_tells (hquiet e he)).2
  refine ⟨fun e he id htells => absurd htells (hquiet e he id), fun e he id hid => ?_, hrests, ?_⟩
  · rw [hnone e he] at hid
    cases hid
  · constructor
    · intro before id last left symbol after hevents
      have hreport := hnone (.orderPartiallyFilled id last left symbol) (by rw [hevents]; simp)
      cases hreport
    · intro before id last symbol after hevents
      have hreport := hnone (.orderFilled id last symbol) (by rw [hevents]; simp)
      cases hreport

theorem tradedOf_eq_zero {id : OrderId} (h : ∀ e ∈ events, ¬ e.tells id) : tradedOf id events = 0 := by
  apply List.sum_eq_zero
  intro x hx
  obtain ⟨e, he, rfl⟩ := List.mem_map.mp hx
  have hnot := h e he
  cases e with
  | tradeExecuted =>
    rw [Event.tradedOf, if_neg fun heq => hnot (Or.inl heq), if_neg fun heq => hnot (Or.inr heq),
      add_zero]
  | _ => rfl

/-- One part after the other, where no order comes in again, or has rested before it comes in. -/
theorem Tells.trans (h : Tells made s events s') (h' : Tells others s' more s'')
    (hapart : ∀ entry ∈ made, ∀ other ∈ others, entry.2.id ≠ other.2.id)
    (hfresh : ∀ other ∈ others, ∀ symbol, ¬ s.Rests symbol other.2.id) :
    Tells (made ++ others) s (events ++ more) s'' := by
  have hleft : ∀ {id}, (∃ entry ∈ made, entry.2.id = id) → ∃ entry ∈ made ++ others, entry.2.id = id :=
    fun ⟨entry, hentry, hid⟩ => ⟨entry, List.mem_append_left _ hentry, hid⟩
  have hright : ∀ {id}, (∃ entry ∈ others, entry.2.id = id) →
      ∃ entry ∈ made ++ others, entry.2.id = id :=
    fun ⟨entry, hentry, hid⟩ => ⟨entry, List.mem_append_right _ hentry, hid⟩
  have hrests : ∀ {symbol id}, s'.Rests symbol id →
      (∃ symbol, s.Rests symbol id) ∨ ∃ entry ∈ made ++ others, entry.2.id = id := by
    intro symbol id hid
    rcases h.rests symbol id hid with hid | hid
    · exact Or.inl ⟨symbol, hid⟩
    · exact Or.inr (hleft hid)
  -- The orders of the second part are not told of before.
  have huntold : ∀ other ∈ others, tradedOf other.2.id events = 0 := by
    intro other hother
    refine tradedOf_eq_zero fun e he htells => ?_
    rcases h.named e he _ htells with ⟨symbol, hid⟩ | ⟨entry, hentry, hid⟩
    · exact hfresh other hother symbol hid
    · exact hapart entry hentry other hother hid
  refine ⟨fun e he id htells => ?_, fun e he id hid => ?_, fun symbol id hid => ?_, ⟨?_, ?_⟩⟩
  · rcases List.mem_append.mp he with he | he
    · exact (h.named e he id htells).imp_right hleft
    · rcases h'.named e he id htells with ⟨symbol, hid⟩ | hid
      · exact hrests hid
      · exact Or.inr (hright hid)
  · rcases List.mem_append.mp he with he | he
    · exact hleft (h.reported e he id hid)
    · exact hright (h'.reported e he id hid)
  · rcases h'.rests symbol id hid with hid | hid
    · exact (h.rests symbol id hid).imp_right hleft
    · exact Or.inr (hright hid)
  · intro before id last left symbol after hevents
    rcases split_append hevents with ⟨mid, hfirst, -⟩ | ⟨mid, rfl, hsecond⟩
    · obtain ⟨hlast, hpos, entry, hentry, hid, hsum⟩ := h.reports.partly _ _ _ _ _ _ hfirst
      exact ⟨hlast, hpos, entry, List.mem_append_left _ hentry, hid, hsum⟩
    · obtain ⟨hlast, hpos, entry, hentry, rfl, hsum⟩ := h'.reports.partly _ _ _ _ _ _ hsecond
      refine ⟨hlast.append_left events, hpos, entry, List.mem_append_right _ hentry, rfl, ?_⟩
      rw [tradedOf_append, huntold entry hentry, hsum]
      omega
  · intro before id last symbol after hevents
    rcases split_append hevents with ⟨mid, hfirst, rfl⟩ | ⟨mid, rfl, hsecond⟩
    · obtain ⟨hlast, hnone, hgone, hsum⟩ := h.reports.filled _ _ _ _ _ hfirst
      obtain ⟨entry, hentry, rfl⟩ := h.reported (.orderFilled id last symbol) (by rw [hfirst]; simp) id rfl
      have hother : ¬ ∃ other ∈ others, other.2.id = entry.2.id := fun ⟨other, hother, hid⟩ =>
        hapart entry hentry other hother hid.symm
      refine ⟨hlast, fun e he htells => ?_, fun symbol hid => ?_, fun entry' hentry' hid => ?_⟩
      · rcases List.mem_append.mp he with he | he
        · exact hnone e he htells
        · rcases h'.named e he _ htells with ⟨symbol, hid⟩ | hid
          · exact hgone symbol hid
          · exact hother hid
      · rcases h'.rests symbol _ hid with hid | hid
        · exact hgone symbol hid
        · exact hother hid
      · rcases List.mem_append.mp hentry' with hentry' | hentry'
        · exact hsum entry' hentry' hid
        · exact absurd ⟨entry', hentry', hid⟩ hother
    · obtain ⟨hlast, hnone, hgone, hsum⟩ := h'.reports.filled _ _ _ _ _ hsecond
      obtain ⟨other, hother, rfl⟩ := h'.reported (.orderFilled id last symbol) (by rw [hsecond]; simp) id rfl
      refine ⟨hlast.append_left events, hnone, hgone, fun entry hentry hid => ?_⟩
      rcases List.mem_append.mp hentry with hentry | hentry
      · exact absurd hid (hapart entry hentry other hother)
      · rw [tradedOf_append, huntold other hother, hsum entry hentry hid]
        omega

/-- An order that comes to rest tells of no trade and of no fill. -/
theorem untold_restedEvents {t : Taker} (hs : s.Sound G) (hflight : s.InFlight t)
    (hpos : 0 < t.remaining) : ∀ e ∈ t.restedEvents s, ∀ id, ¬ e.tells id := by
  intro e he id
  rw [restedEvents_eq hs hflight hpos] at he
  split_ifs at he
  · cases he
  · rcases List.mem_cons.mp he with rfl | he
    · intro htells
      unfold acceptedEvent at htells
      split at htells <;> exact htells
    · exact tells_topOfBook e he id

theorem rests_rested {t : Taker} (hs : s.Sound G) (hflight : s.InFlight t) (hpos : 0 < t.remaining)
    {id : OrderId} (h : (t.rested s).Rests symbol id) : s.Rests symbol id ∨ t.id = id := by
  have hresting := (rested_rested hs hflight hpos).resting symbol id
  unfold Rests at h
  rw [MatchingEngine.resting, MatchingEngine.resting] at hresting
  rw [hresting] at h
  split_ifs at h with hrested
  · exact Or.inr hrested.2.1.symm
  · exact Or.inl h

/-- The last events of an entry tell of no trade and of no fill; nothing more happens to an order that
is used up. -/
theorem Finishes.untold {t : Taker} (hs : s.Sound G) (hflight : s.InFlight t)
    (h : Finishes s t events s') : (∀ e ∈ events, ∀ id, ¬ e.tells id) ∧
      (∀ symbol id, s'.Rests symbol id → s.Rests symbol id ∨ t.id = id) ∧
      (t.remaining = 0 → events = [] ∧ s' = s) := by
  cases h with
  | rest hpos htif =>
    refine ⟨untold_restedEvents hs hflight hpos, fun symbol id => rests_rested hs hflight hpos, ?_⟩
    intro hzero
    omega
  | expire hpos htif =>
    refine ⟨by simp [Event.tells], fun symbol id hid => Or.inl hid, ?_⟩
    intro hzero
    omega
  | done => exact ⟨by simp, fun symbol id hid => Or.inl hid, fun _ => ⟨rfl, rfl⟩⟩

/-- An order that matches and then comes to rest, expires or is used up. -/
theorem Tells.entered {t t' : Taker} {first rested : List Event} (hs : s.Sound G)
    (hflight : s.InFlight t) (hmatches : Matches s t first s' t')
    (hfinishes : Finishes s' t' rested s'') : Tells [(s, t)] s (first ++ rested) s'' := by
  have hn := hmatches.narrows hs
  have hid := hmatches.id_eq.1
  have htold := hmatches.told hs hflight
  obtain ⟨hquiet, hrests, hspent⟩ := hfinishes.untold (hn.sound hs) (hmatches.inFlight hs hflight)
  have hentry : ∃ entry ∈ [(s, t)], entry.2.id = t.id := ⟨(s, t), List.mem_singleton_self _, rfl⟩
  have hlate : ∀ {before : List Event} {r : Event} {after : List Event},
      first ++ rested = before ++ r :: after → r.reportOf ≠ none →
      ∃ mid, first = before ++ r :: mid ∧ after = mid ++ rested := by
    intro before r after hevents hr
    rcases split_append hevents with hearly | ⟨mid, -, hmore⟩
    · exact hearly
    · exact absurd (Event.isTrade_of_tells (hquiet r (by rw [hmore]; simp))).2 hr
  refine ⟨fun e he id htells => ?_, fun e he id hreport => ?_, fun symbol id hrests' => ?_, ⟨?_, ?_⟩⟩
  · rcases List.mem_append.mp he with he | he
    · rcases htold.named e he id htells with rfl | hrests'
      · exact Or.inr hentry
      · exact Or.inl hrests'
    · exact absurd htells (hquiet e he id)
  · rcases List.mem_append.mp he with he | he
    · exact htold.reported he hreport ▸ hentry
    · rw [(Event.isTrade_of_tells (hquiet e he)).2] at hreport
      cases hreport
  · rcases hrests symbol id hrests' with hold | rfl
    · exact Or.inl (hn.rests hold)
    · exact Or.inr (hid ▸ hentry)
  · intro before id last left symbol after hevents
    obtain ⟨mid, hfirst, -⟩ := hlate hevents (Option.some_ne_none id)
    obtain ⟨rfl, hlast, hpos, hsum⟩ := htold.partly _ _ _ _ _ _ hfirst
    exact ⟨hlast, hpos, (s, t), List.mem_singleton_self _, rfl, hsum⟩
  · intro before id last symbol after hevents
    obtain ⟨mid, hfirst, rfl⟩ := hlate hevents (Option.some_ne_none id)
    obtain ⟨rfl, hlast, hnone, hsum, hzero⟩ := htold.filled _ _ _ _ _ hfirst
    obtain ⟨rfl, rfl⟩ := hspent hzero
    refine ⟨hlast, ?_, fun symbol hrests' => hflight.free.rests symbol (hn.rests hrests'), ?_⟩
    · rwa [List.append_nil]
    · intro entry hmem _
      rw [List.mem_singleton.mp hmem]
      exact hsum

theorem Placing.tells (hs : s.Sound G) (h : Placing G symbol s events made s') :
    Tells made s events s' := by
  cases h with
  | touch => exact .of_untold (by simp) fun symbol' id hid => Or.inl hid
  | @report event hverdict hsymbol =>
    refine .of_untold (fun e he id htells => ?_) fun symbol' id hid => Or.inl hid
    rw [List.mem_singleton.mp he] at htells
    cases event <;> first | exact htells | exact hverdict
  | audit => exact .of_untold (by simp) fun symbol' id hid => Or.inl hid
  | @restAuction t hsymbol hadmits haccount hphase =>
    obtain ⟨hflight, hpos⟩ := hadmits.inFlight
    refine .of_untold (untold_restedEvents hs hflight hpos) fun symbol' id hid => ?_
    exact (rests_rested hs hflight hpos hid).imp_right fun heq => ⟨(s, t), List.mem_singleton_self _, heq⟩
  | enter hsymbol hadmits haccount hphase hfok hmatches hfinishes =>
    exact .entered hs hadmits.inFlight.1 hmatches hfinishes

theorem Adding.tells (hs : s.Sound G) (h : Adding G symbol s events made s') :
    Tells made s events s' := by
  cases h with
  | placing hplacing => exact hplacing.tells hs
  | allocate => exact .of_untold (by simp) fun symbol' id hid => Or.inl hid
  | track =>
    refine .of_untold (by simp) fun symbol' id hid => Or.inl ?_
    unfold Rests at hid
    rwa [bookFor_of_frame (frame_of_unjournaled (unjournaled_trackEvents _ _))] at hid
  | addStop => exact .of_untold (by simp [Event.tells]) fun symbol' id hid => Or.inl hid
  | replaceStop => exact .of_untold (by simp [Event.tells]) fun symbol' id hid => Or.inl hid
  | trigger => exact .of_untold (by simp [Event.tells, triggeredEvent]) fun symbol' id hid => Or.inl hid

/-- The orders come in under ids of their own, under which none rests yet. -/
structure FreshEntries (s : MatchingEngine) (made : List Entry) : Prop where
  nodup : (made.map fun entry => entry.2.id).Nodup
  rests : ∀ entry ∈ made, ∀ symbol, ¬ s.Rests symbol entry.2.id

theorem FreshEntries.append (h : FreshEntries s (made ++ others)) :
    (∀ entry ∈ made, ∀ other ∈ others, entry.2.id ≠ other.2.id) ∧ FreshEntries s made ∧
      ∀ {s'}, (∀ symbol id, s'.Rests symbol id → s.Rests symbol id ∨
        ∃ entry ∈ made, entry.2.id = id) → FreshEntries s' others := by
  have hnodup := h.nodup
  rw [List.map_append, List.nodup_append] at hnodup
  obtain ⟨hmade, hothers, hapart⟩ := hnodup
  have hne : ∀ entry ∈ made, ∀ other ∈ others, entry.2.id ≠ other.2.id :=
    fun entry hentry other hother => hapart _ (List.mem_map_of_mem hentry) _ (List.mem_map_of_mem hother)
  refine ⟨hne, ⟨hmade, fun entry hentry => h.rests entry (List.mem_append_left _ hentry)⟩, ?_⟩
  refine fun hrests => ⟨hothers, fun other hother symbol hid => ?_⟩
  rcases hrests symbol _ hid with hold | ⟨entry, hentry, heq⟩
  · exact h.rests other (List.mem_append_right _ hother) symbol hold
  · exact hne entry hentry other hother heq

/-- Steps that let fresh orders in tell the truth of them. -/
theorem Steps.tells (hs : s.Sound G) (hfresh : FreshEntries s made)
    (h : Steps (Adding G symbol) s events made s') : Tells made s events s' := by
  induction h with
  | refl => exact .of_untold (by simp) fun symbol' id hid => Or.inl hid
  | step hr _ ih =>
    obtain ⟨hapart, hfirst, hrest⟩ := hfresh.append
    have htells := hr.tells hs
    refine htells.trans (ih (hr.step.sound hs) (hrest htells.rests)) hapart fun other hother => ?_
    exact hfresh.rests other (List.mem_append_right _ hother)

end Parts

/-! What an operation reports. -/
section Reports
variable {symbol : Symbol} {s s' s'' : MatchingEngine} {made : List Entry} {events more : List Event}

theorem TrueReports.of_untold (hquiet : ∀ e ∈ events, ∀ id, ¬ e.tells id) :
    TrueReports made events s' := by
  have htells : Tells made s' events s' := .of_untold hquiet fun symbol id hid => Or.inl hid
  exact htells.reports

/-- Events that tell of no order may come first. -/
theorem TrueReports.after (h : TrueReports made more s')
    (hquiet : ∀ e ∈ events, ∀ id, ¬ e.tells id) : TrueReports made (events ++ more) s' := by
  have hnone : ∀ e ∈ events, e.reportOf = none := fun e he =>
    (Event.isTrade_of_tells (hquiet e he)).2
  constructor
  · intro before id last left symbol after hevents
    obtain ⟨mid, rfl, hmore⟩ := split_skip hnone hevents (Option.some_ne_none id)
    obtain ⟨hlast, hpos, entry, hentry, hid, hsum⟩ := h.partly _ _ _ _ _ _ hmore
    refine ⟨hlast.append_left events, hpos, entry, hentry, hid, ?_⟩
    rw [tradedOf_append, tradedOf_of_untold hquiet, hsum, zero_add]
  · intro before id last symbol after hevents
    obtain ⟨mid, rfl, hmore⟩ := split_skip hnone hevents (Option.some_ne_none id)
    obtain ⟨hlast, hafter, hgone, hsum⟩ := h.filled _ _ _ _ _ hmore
    refine ⟨hlast.append_left events, hafter, hgone, fun entry hentry hid => ?_⟩
    rw [tradedOf_append, tradedOf_of_untold hquiet, zero_add]
    exact hsum entry hentry hid

/-- A cancel trades nothing. -/
theorem cancel_untold (a : AccountId) (id : OrderId) :
    Outcome (MatchingEngine.cancel a id) s (fun events _ => ∀ e ∈ events, ∀ id, ¬ e.tells id)
      fun _ _ => True := by
  have hsingle : ∀ {e : Event}, e.orderIds = [] → ∀ e' ∈ [e], ∀ id, ¬ e'.tells id := by
    intro e he e' he' id
    rw [List.mem_singleton.mp he']
    exact Event.tells_of_orderIds he
  unfold MatchingEngine.cancel
  simp only [outcome_bind, outcome_get]
  cases s.stopOrdersById.lookup id with
  | some stop =>
    dsimp only
    split_ifs
    · exact hsingle rfl
    · simp only [outcome_bind, outcome_set, outcome_pure]
      simp [Event.tells]
  | none =>
    dsimp only
    cases s.orderOwnershipById.lookup id with
    | none => exact hsingle rfl
    | some owner =>
      dsimp only
      split_ifs
      · exact hsingle rfl
      · exact hsingle rfl
      · simp only [outcome_bind, outcome_set, outcome_pure]
        intro e he id'
        obtain ⟨e', he', rfl⟩ := List.mem_map.mp he
        unfold OrderBook.cancel at he'
        split at he'
        · cases he'
        · rcases List.mem_cons.mp he' with rfl | he'
          · exact fun htells => htells
          · have hquiet := tells_topOfBook e' he' id'
            cases e' <;> exact hquiet

/-- Some events that tell of no order, and then steps that let fresh orders in. -/
def EntersFresh (symbol : Symbol) (made : List Entry) (events : List Event) (s' : MatchingEngine) :
    Prop :=
  ∃ quiet added s₁, events = quiet ++ added ∧ (∀ e ∈ quiet, ∀ id, ¬ e.tells id) ∧ s₁.Sound {} ∧
    FreshEntries s₁ made ∧ Steps (Adding {} symbol) s₁ added made s'

theorem EntersFresh.of_untold (hs' : s'.Sound {}) (hquiet : ∀ e ∈ events, ∀ id, ¬ e.tells id) :
    EntersFresh symbol [] events s' :=
  ⟨events, [], s', (List.append_nil _).symm, hquiet, hs', ⟨List.nodup_nil, by simp⟩, .refl s'⟩

/-- A replacement takes the order out of the book, and lets it in again. -/
theorem replaceOrder_fresh {a : AccountId} {id : OrderId} {newPrice newQty : ℤ} (hs : s.Sound {}) :
    Outcome (replaceOrder a id newPrice newQty) s
      (fun events s' => EntersFresh (s.orderSymbol id) (s.replaceEntries a id newPrice newQty) events s')
      fun _ _ => True := by
  have hreport : ∀ {symbol : Symbol} {e : Event}, e.verdict → e.symbol = symbol →
      ∃ quiet added s₁, [e] = quiet ++ added ∧ (∀ e ∈ quiet, ∀ id, ¬ e.tells id) ∧ s₁.Sound {} ∧
        FreshEntries s₁ [] ∧ Steps (Adding {} symbol) s₁ added [] s := fun hverdict hsymbol =>
    ⟨[], _, s, rfl, by simp, hs, ⟨List.nodup_nil, by simp⟩, adding_report hverdict hsymbol⟩
  unfold replaceOrder replaceEntries orderSymbol EntersFresh
  simp only [outcome_bind, outcome_get]
  cases howner : s.orderOwnershipById.lookup id with
  | none => exact hreport trivial rfl
  | some owner =>
    simp only [Option.elim_some]
    by_cases hwrong : owner.accountId ≠ a
    · rw [if_pos hwrong, if_neg fun h => hwrong h.1]
      exact hreport trivial rfl
    rw [if_neg hwrong]
    cases hvalid : s.validateReplace owner newPrice newQty with
    | some failure =>
      rw [if_neg fun h => by cases h.2.1]
      exact hreport trivial rfl
    | none =>
      dsimp only
      cases hrisk : s.validateOrderRisk a owner.symbol owner.side newPrice newQty (some id) with
      | some failure =>
        rw [if_neg fun h => by cases h.2.2]
        simp only [outcome_bind, outcome_set, outcome_pure]
        exact ⟨[], _, s, rfl, by simp, hs, ⟨List.nodup_nil, by simp⟩,
          adding_audit trivial rfl ⟨rfl, rfl, rfl, rfl, rfl⟩⟩
      | none =>
        rw [if_pos ⟨not_not.mp hwrong, rfl, rfl⟩]
        simp only [outcome_bind, outcome_set]
        have hrecord : Step {} owner.symbol s [] [] (s.replaceReleased a owner.symbol id) :=
          .placing (.audit s ⟨rfl, rfl, rfl, rfl, rfl⟩)
        have hs₁ := hrecord.sound hs
        have hcancel := (cancel_untold a id).and
          ((cancel_steps hs₁ a id).mono (fun _ _ h => h) fun _ _ h => h.elim)
        refine hcancel.with_eq.mono (fun canceled s₂ h₂ => ?_) fun _ _ _ => trivial
        obtain ⟨heq, hquiet, hsteps, hfree⟩ := h₂
        rw [heq]
        have hclaim := hfree owner howner (not_not.mp hwrong)
        have hs₂ := hsteps.sound hs₁
        have hchild := placeVisible_entering (G := {})
          (t := limitTaker a owner.symbol id owner.side newPrice newQty .gtc) hs₂ trivial hclaim
        refine hchild.mono (fun replacement s₃ h₃ => ?_) fun _ _ _ => trivial
        simp only [outcome_modify, outcome_pure]
        have hfresh : FreshEntries s₂
            (s₂.entries (limitTaker a owner.symbol id owner.side newPrice newQty .gtc)) := by
          rcases s₂.entries_eq (limitTaker a owner.symbol id owner.side newPrice newQty .gtc) with
            hnone | hone
          · rw [hnone]
            exact ⟨List.nodup_nil, by simp⟩
          · rw [hone]
            refine ⟨List.nodup_singleton _, fun entry hentry symbol hid => ?_⟩
            rw [List.mem_singleton.mp hentry] at hid
            exact hclaim.rests symbol hid
        have hplaced := h₃.mono (Adding.placing (G := {}))
        exact ⟨canceled, replacement, s₂, rfl, hquiet, hs₂, hfresh,
          hplaced.snoc_silent (.track s₃ (hplaced.mono Adding.step).tagged)⟩

/-- Every operation but an uncross lets fresh orders in. -/
theorem Op.exec_fresh {op : Op} (hs : s.Sound {}) (hop : ∀ symbol, op ≠ .uncross symbol) :
    Outcome op.exec s (fun events s' => EntersFresh (op.symbol s) (op.entries s) events s')
      fun _ _ => True := by
  have hsound : Outcome op.exec s (fun _ s' => s'.Sound {}) fun _ _ => True :=
    (Op.exec_sound hs ⟨fun _ _ => trivial, fun _ _ _ => trivial, fun _ _ => trivial,
      fun _ _ => trivial⟩).mono (fun _ _ h => h) fun _ _ _ => trivial
  by_cases hsetting : op.isSetting
  · have hnone : op.entries s = [] := by cases op <;> first | rfl | exact hsetting.elim
    rw [hnone]
    refine (hsound.and ((Op.exec_controls hsetting s).mono (fun _ _ h => h) fun _ _ _ => trivial)).mono
      (fun events s' h => .of_untold h.1 fun e he id => ?_) fun _ _ _ => trivial
    have hids : e.orderIds = [] := by
      obtain ⟨hcontrol, -⟩ := h.2 e he
      cases e <;> first | rfl | exact hcontrol.elim
    exact Event.tells_of_orderIds hids
  by_cases hadds : op.isAddition
  · refine (Op.exec_building hs (fun _ _ => trivial) hadds).mono (fun events s' hsteps => ?_)
      fun _ _ _ => trivial
    obtain ⟨high, hnumbered⟩ := Op.entries_numbered hs hadds
    refine ⟨[], events, s, rfl, by simp, hs, ⟨hnumbered.nodup, fun entry hentry symbol hid => ?_⟩, hsteps⟩
    exact (hs.rests_lt hid).not_ge (hnumbered.bounds entry hentry).1
  cases op with
  | setAccountState a symbol cash qty => exact EntersFresh.of_untold (hsound.returns rfl) (by simp)
  | cancel a id =>
    exact (hsound.and (cancel_untold a id)).mono (fun _ _ h => .of_untold h.1 h.2) fun _ _ _ => trivial
  | replaceOrder a id newPrice newQty => exact replaceOrder_fresh hs
  | uncross symbol => exact absurd rfl (hop symbol)
  | setFeeModel | setAccountRiskConfig | haltSymbol | resumeSymbol | setPriceBands
  | clearPriceBands | setTradingPhase => exact absurd trivial hsetting
  | _ => exact absurd trivial hadds

end Reports

/-! Auctions. -/
namespace OrderBook

/-- The next fill of either side uses its order up. -/
def Exhausted (book : OrderBook) (traded : ℤ) : Prop :=
  (∀ order ∈ (book.sideOrders .bid).head?, totalRemainingQty order = min traded (available order)) ∧
    ∀ order ∈ (book.sideOrders .ask).head?, totalRemainingQty order = min traded (available order)

instance (book : OrderBook) (traded : ℤ) : Decidable (book.Exhausted traded) :=
  inferInstanceAs (Decidable (_ ∧ _))

end OrderBook

section Auctions
variable {G : Guard} {symbol : Symbol} {price : ℤ} {s s' : MatchingEngine} {events : List Event}
  {bid ask : FillResult} {book book' : OrderBook} {traded : ℤ}

/-- What a trade of an auction leaves of the orders. -/
structure AuctionTraded (s s₁ : MatchingEngine) (symbol : Symbol) (traded : ℤ) (bidId askId : OrderId) :
    Prop where
  bid : s.Rests symbol bidId
  ask : s.Rests symbol askId
  apart : bidId ≠ askId
  others : ∀ id, id ≠ bidId → id ≠ askId → s.Rests symbol id → s₁.Rests symbol id
  exhausted : (s.bookFor symbol).Exhausted traded ↔
    ¬ s₁.Rests symbol bidId ∧ ¬ s₁.Rests symbol askId

theorem auctionTraded_rests (hs : s.Sound G)
    (hbid : (s.bookFor symbol).fillBestAtOrBetter .bid price traded = some (bid, book))
    (hask : book.fillBestAtOrBetter .ask price traded = some (ask, book')) :
    AuctionTraded s (s.auctionTraded symbol price traded bid.makerId ask.makerId book') symbol traded
      bid.makerId ask.makerId := by
  obtain ⟨bidOrder, rest, hbidFill, -⟩ := fillBestAtOrBetter_some (hs.book symbol) hbid
  obtain ⟨askOrder, rest', haskFill, -⟩ := fillBestAtOrBetter_some hbidFill.wellFormed_after hask
  have hbidFound := hbidFill.found
  have haskFound := haskFill.found
  have hfirst := hbidFill.findOrder_after
  have hsecond := haskFill.findOrder_after
  have hapart : bidOrder.id ≠ askOrder.id := by
    intro hid
    rw [← hid, hfirst, if_pos rfl] at haskFound
    have hside : askOrder.side = bidOrder.side := (survivor_some haskFound).side
    rw [haskFill.placed.side, hbidFill.placed.side] at hside
    cases hside
  have haskBefore : (s.bookFor symbol).findOrder askOrder.id = some askOrder := by
    rw [hfirst, if_neg (Ne.symm hapart)] at haskFound
    exact haskFound
  have hafter : ∀ id, (s.auctionTraded symbol price traded bid.makerId ask.makerId book').Rests symbol
      id ↔ book'.findOrder id ≠ none := by
    intro id
    rw [Rests, bookFor_auctionTraded, if_pos rfl]
  have haskHead : ((s.bookFor symbol).sideOrders .ask).head? = some askOrder := by
    have hsame : book.sideOrders .ask = (s.bookFor symbol).sideOrders .ask :=
      hbidFill.sideOrders_opposite
    rw [← hsame]
    exact haskFill.head
  rw [hbidFill.makerId, haskFill.makerId] at hafter ⊢
  refine ⟨?_, ?_, hapart, fun id hbidId haskId hid => ?_, ?_⟩
  · rw [Rests, hbidFound]
    exact Option.some_ne_none _
  · rw [Rests, haskBefore]
    exact Option.some_ne_none _
  · rw [hafter, hsecond, if_neg haskId, hfirst, if_neg hbidId]
    exact hid
  · rw [hafter, hafter, hsecond, hsecond, if_neg hapart, if_pos rfl, hfirst, if_pos rfl, not_not,
      not_not, survivor_eq_none, survivor_eq_none, hbidFill.fill_qty, haskFill.fill_qty]
    unfold Exhausted
    rw [hbidFill.head, haskHead]
    simp only [Option.mem_def, Option.some.injEq, forall_eq']
    exact and_congr eq_comm eq_comm

/-- The events of an auction tell of resting orders only, and report no fill as a partial one. -/
theorem Crosses.named (hs : s.Sound G) {remaining remaining' : ℤ} {steps : List (OrderBook × ℤ)}
    (h : Crosses symbol price s remaining events steps s' remaining') :
    (∀ e ∈ events, ∀ id, e.tells id → s.Rests symbol id) ∧
      (∀ symbol' id, s'.Rests symbol' id → s.Rests symbol' id) ∧
      ∀ before id last left symbol' after,
        events ≠ before ++ .orderPartiallyFilled id last left symbol' :: after := by
  induction h with
  | refl => exact ⟨by simp, fun _ _ hid => hid, by simp⟩
  | @trade s s' remaining traded remaining' bid ask book book' events steps hqty hbid hask _ ih =>
    have hn := narrows_auctionTraded hs hbid hask
    obtain ⟨hnamed, hrests, hnone⟩ := ih (hn.sound hs)
    have htraded := auctionTraded_rests hs hbid hask
    refine ⟨fun e he id htells => ?_, fun symbol' id hid => hn.rests (hrests symbol' id hid), ?_⟩
    · rcases List.mem_append.mp he with he | he
      · simp only [auctionTradeEvents, List.mem_cons, List.not_mem_nil, or_false] at he
        rcases he with rfl | rfl | rfl
        · rcases htells with rfl | rfl
          · exact htraded.bid
          · exact htraded.ask
        · exact htells ▸ htraded.bid
        · exact htells ▸ htraded.ask
      · exact hn.rests (hnamed e he id htells)
    · intro before id last left symbol' after hevents
      rcases split_append hevents with ⟨mid, hfirst, -⟩ | ⟨mid, -, hmore⟩
      · have hmem : Event.orderPartiallyFilled id last left symbol' ∈
            auctionTradeEvents symbol bid.makerId ask.makerId price traded := by
          rw [hfirst]
          simp
        simp [auctionTradeEvents] at hmem
      · exact hnone _ _ _ _ _ _ hmore

/-- An order that no event of an auction tells of stays. -/
theorem Crosses.stays (hs : s.Sound G) {remaining remaining' : ℤ} {steps : List (OrderBook × ℤ)}
    (h : Crosses symbol price s remaining events steps s' remaining') {id : OrderId}
    (hid : s.Rests symbol id) (hnone : ∀ e ∈ events, ¬ e.tells id) : s'.Rests symbol id := by
  induction h with
  | refl => exact hid
  | @trade s s' remaining traded remaining' bid ask book book' events steps hqty hbid hask _ ih =>
    have htraded := auctionTraded_rests hs hbid hask
    have htrade := hnone (.tradeExecuted bid.makerId ask.makerId .bid price traded symbol)
      (by simp [auctionTradeEvents])
    refine ih ((narrows_auctionTraded hs hbid hask).sound hs) ?_ fun e he =>
      hnone e (List.mem_append_right _ he)
    exact htraded.others id (fun heq => htrade (Or.inl heq.symm)) (fun heq => htrade (Or.inr heq.symm)) hid

/-- The fills that an auction trade reports, or a later one. -/
theorem split_auctionTrade {bidId askId id : OrderId} {qty last : ℤ} {symbol' : Symbol}
    {before after : List Event}
    (h : auctionTradeEvents symbol bidId askId price qty ++ events =
      before ++ .orderFilled id last symbol' :: after) :
    (id = bidId ∧ last = qty ∧ before = [.tradeExecuted bidId askId .bid price qty symbol] ∧
      after = .orderFilled askId qty symbol :: events) ∨
    (id = askId ∧ last = qty ∧ before = [.tradeExecuted bidId askId .bid price qty symbol,
      .orderFilled bidId qty symbol] ∧ after = events) ∨
    ∃ mid, before = auctionTradeEvents symbol bidId askId price qty ++ mid ∧
      events = mid ++ .orderFilled id last symbol' :: after := by
  rcases split_append h with ⟨mid, hfirst, rfl⟩ | hlater
  · unfold auctionTradeEvents at hfirst
    match before, hfirst with
    | [], hfirst => cases (List.cons.inj hfirst).1
    | [_], hfirst =>
      simp only [List.cons_append, List.nil_append, List.cons.injEq, Event.orderFilled.injEq] at hfirst
      obtain ⟨rfl, ⟨rfl, rfl, -⟩, rfl⟩ := hfirst
      exact Or.inl ⟨rfl, rfl, rfl, rfl⟩
    | [_, _], hfirst =>
      simp only [List.cons_append, List.nil_append, List.cons.injEq, Event.orderFilled.injEq] at hfirst
      obtain ⟨rfl, rfl, ⟨rfl, rfl, -⟩, rfl⟩ := hfirst
      exact Or.inr (Or.inl ⟨rfl, rfl, rfl, rfl⟩)
    | _ :: _ :: _ :: _, hfirst =>
      have hlength := congrArg List.length hfirst
      simp at hlength
  · exact Or.inr (Or.inr hlater)

/-- The reports of an auction follow their trades. They are true exactly where every trade uses up
both of its orders. -/
theorem Crosses.filled (hs : s.Sound G) {remaining remaining' : ℤ} {steps : List (OrderBook × ℤ)}
    (h : Crosses symbol price s remaining events steps s' remaining') :
    (∀ before id last symbol' after, events = before ++ .orderFilled id last symbol' :: after →
      LastTrade id last before) ∧
    ((∀ before id last symbol' after, events = before ++ .orderFilled id last symbol' :: after →
      (∀ e ∈ after, ¬ e.tells id) ∧ ∀ symbol', ¬ s'.Rests symbol' id) ↔
        ∀ step ∈ steps, step.1.Exhausted step.2) := by
  induction h with
  | refl => simp
  | @trade s s' remaining traded remaining' bid ask book book' events steps hqty hbid hask hcrosses ih =>
    have hn := narrows_auctionTraded hs hbid hask
    have hs₁ := hn.sound hs
    obtain ⟨hlast, hiff⟩ := ih hs₁
    obtain ⟨hnamed, hrests, -⟩ := Crosses.named hs₁ hcrosses
    have htraded := auctionTraded_rests hs hbid hask
    constructor
    · intro before id last symbol' after hevents
      rcases split_auctionTrade hevents with ⟨rfl, rfl, rfl, -⟩ | ⟨rfl, rfl, rfl, -⟩ | ⟨mid, rfl, hmore⟩
      · exact ⟨[], _, _, _, _, _, [], rfl, Or.inl rfl, by simp⟩
      · exact ⟨[], _, _, _, _, _, [_], rfl, Or.inr rfl, by simp [isTrade]⟩
      · exact (hlast _ _ _ _ _ hmore).append_left _
    · rw [List.forall_mem_cons, ← hiff, htraded.exhausted]
      have hgone : ∀ {id symbol'}, s.Rests symbol id →
          ¬ (s.auctionTraded symbol price traded bid.makerId ask.makerId book').Rests symbol id →
          ¬ s'.Rests symbol' id := by
        intro id symbol' hid hnot hid'
        have hleft := hrests symbol' id hid'
        exact hnot (hs.rests_unique (hn.rests hleft) hid ▸ hleft)
      constructor
      · intro hall
        have hbidTold := hall [_] bid.makerId traded symbol (.orderFilled ask.makerId traded symbol :: events)
          rfl
        have haskTold := hall [_, _] ask.makerId traded symbol events rfl
        refine ⟨⟨fun hid => ?_, fun hid => ?_⟩, fun before id last symbol' after hevents => ?_⟩
        · exact hbidTold.2 symbol (Crosses.stays hs₁ hcrosses hid fun e he =>
            hbidTold.1 e (List.mem_cons_of_mem _ he))
        · exact haskTold.2 symbol (Crosses.stays hs₁ hcrosses hid haskTold.1)
        · exact hall (auctionTradeEvents symbol bid.makerId ask.makerId price traded ++ before) id last
            symbol' after (by rw [hevents, List.append_assoc])
      · rintro ⟨⟨hbidGone, haskGone⟩, hall⟩ before id last symbol' after hevents
        rcases split_auctionTrade hevents with ⟨rfl, rfl, -, rfl⟩ | ⟨rfl, rfl, -, rfl⟩ | ⟨mid, -, hmore⟩
        · refine ⟨fun e he htells => ?_, fun symbol' => hgone htraded.bid hbidGone⟩
          rcases List.mem_cons.mp he with rfl | he
          · exact htraded.apart htells.symm
          · exact hbidGone (hnamed e he _ htells)
        · exact ⟨fun e he htells => haskGone (hnamed e he _ htells),
            fun symbol' => hgone htraded.ask haskGone⟩
        · exact hall _ _ _ _ _ hmore

/-- What is said around the trades of an auction tells of no order. -/
theorem Crosses.reports (hs : s.Sound G) {remaining remaining' : ℤ} {steps : List (OrderBook × ℤ)}
    (h : Crosses symbol price s remaining events steps s' remaining') {first last : List Event}
    {s₁ : MatchingEngine} (hfirst : ∀ e ∈ first, ∀ id, ¬ e.tells id)
    (hlast : ∀ e ∈ last, ∀ id, ¬ e.tells id)
    (hrests : ∀ symbol' id, s₁.Rests symbol' id ↔ s'.Rests symbol' id) :
    TrueReports [] (first ++ events ++ last) s₁ ↔ ∀ step ∈ steps, step.1.Exhausted step.2 := by
  obtain ⟨-, -, hnone⟩ := Crosses.named hs h
  obtain ⟨htrades, hiff⟩ := Crosses.filled hs h
  rw [← hiff]
  have hquiet : ∀ {quiet : List Event}, (∀ e ∈ quiet, ∀ id, ¬ e.tells id) →
      ∀ e ∈ quiet, e.reportOf = none := fun h e he => (Event.isTrade_of_tells (h e he)).2
  -- A report is one of the trades' reports.
  have hsplit : ∀ {before : List Event} {r : Event} {after : List Event},
      first ++ events ++ last = before ++ r :: after → r.reportOf ≠ none →
      ∃ early late, before = first ++ early ∧ after = late ++ last ∧ events = early ++ r :: late := by
    intro before r after hevents hr
    rw [List.append_assoc] at hevents
    obtain ⟨mid, rfl, hmore⟩ := split_skip (hquiet hfirst) hevents hr
    rcases split_append hmore with ⟨late, hearly, rfl⟩ | ⟨late, -, hlate⟩
    · exact ⟨mid, late, rfl, rfl, hearly⟩
    · exact absurd (hquiet hlast r (by rw [hlate]; simp)) hr
  constructor
  · intro htrue before id qty symbol' after hevents
    have hall : first ++ events ++ last =
        (first ++ before) ++ .orderFilled id qty symbol' :: (after ++ last) := by
      rw [hevents]
      simp
    obtain ⟨-, hafter, hgone, -⟩ := htrue.filled _ _ _ _ _ hall
    exact ⟨fun e he => hafter e (List.mem_append_left _ he),
      fun symbol' hid => hgone symbol' ((hrests symbol' id).mpr hid)⟩
  · intro hall
    constructor
    · intro before id qty left symbol' after hevents
      obtain ⟨early, late, rfl, rfl, hmid⟩ := hsplit hevents (Option.some_ne_none id)
      exact absurd hmid (hnone _ _ _ _ _ _)
    · intro before id qty symbol' after hevents
      obtain ⟨early, late, rfl, rfl, hmid⟩ := hsplit hevents (Option.some_ne_none id)
      obtain ⟨hafter, hgone⟩ := hall _ _ _ _ _ hmid
      refine ⟨(htrades _ _ _ _ _ hmid).append_left first, fun e he => ?_,
        fun symbol' hid => hgone symbol' ((hrests symbol' id).mp hid), by simp⟩
      rcases List.mem_append.mp he with he | he
      · exact hafter e he
      · exact hlast e he id

/-- The reports of an uncross are true exactly where every trade uses up both of its orders. -/
theorem uncross_reports (hs : s.Sound {}) (symbol : Symbol) :
    Outcome (uncross symbol) s (fun events s' => TrueReports [] events s' ↔
      ∀ step ∈ s.uncrossSteps symbol, step.1.Exhausted step.2.2) fun _ _ => True := by
  have hnone : ∀ {events : List Event} {s' : MatchingEngine}, (∀ e ∈ events, ∀ id, ¬ e.tells id) →
      s.uncrossSteps symbol = [] → (TrueReports [] events s' ↔
        ∀ step ∈ s.uncrossSteps symbol, step.1.Exhausted step.2.2) := by
    intro events s' hquiet hsteps
    rw [hsteps]
    exact iff_of_true (.of_untold hquiet) (by simp)
  unfold uncross
  simp only [outcome_bind, outcome_get]
  cases hprice : (s.computeAuctionIndicative symbol).price with
  | none =>
    apply hnone (by simp [Event.tells])
    unfold uncrossSteps
    simp only [hprice]
  | some price =>
    dsimp only
    split_ifs with hqty hband
    · apply hnone (by simp [Event.tells])
      unfold uncrossSteps
      simp only [hprice]
      have hzero : (s.computeAuctionIndicative symbol).qty.toNat = 0 := by omega
      rw [hzero]
      simp [auctionSteps]
    · rw [outcome_bind]
      have hsteps : s.uncrossSteps symbol = (auctionSteps price
          (s.computeAuctionIndicative symbol).qty.toNat (s.bookFor symbol)
          (s.computeAuctionIndicative symbol).qty).map fun step => (step.1, price, step.2) := by
        unfold uncrossSteps
        simp only [hprice, if_pos hband]
      refine (auctionLoop_crosses hs (by omega)).mono (fun r s₁ hloop => ?_) fun _ _ _ => trivial
      obtain ⟨remaining, events⟩ := r
      obtain ⟨hcrosses, -⟩ := hloop
      have hexact : ∀ {first ended : List Event} {s₂ : MatchingEngine},
          (∀ e ∈ first, ∀ id, ¬ e.tells id) → (∀ e ∈ ended, ∀ id, ¬ e.tells id) →
          s₂.books = s₁.books → (TrueReports [] (first ++ events ++
            (s₁.maybeEmitTopOfBookChange symbol (s.bookFor symbol).bestBid
              (s.bookFor symbol).bestAsk ++ ended)) s₂ ↔
                ∀ step ∈ s.uncrossSteps symbol, step.1.Exhausted step.2.2) := by
        intro first ended s₂ hfirst hended hbooks
        rw [hsteps, List.forall_mem_map]
        refine Crosses.reports hs hcrosses hfirst (fun e he => ?_) fun symbol' id => ?_
        · rcases List.mem_append.mp he with he | he
          · exact tells_topOfBook e he
          · exact hended e he
        · rw [Rests, Rests, bookFor, bookFor, hbooks]
      have hbooks : ∀ (s₂ : MatchingEngine) (all : List Event),
          (s₂.trackEvents all).books = s₂.books := fun s₂ all =>
        books_of_frame (frame_of_unjournaled (unjournaled_trackEvents s₂ all))
      unfold endAuction
      simp only [outcome_bind, outcome_get]
      split_ifs with hphase
      · simp only [outcome_set, outcome_bind, outcome_modify, outcome_pure]
        rw [← List.singleton_append, List.append_assoc _ _ [_]]
        exact hexact (by simp [Event.tells]) (by simp [Event.tells]) (hbooks _ _)
      · simp only [outcome_modify, outcome_pure]
        rw [← List.singleton_append, List.append_assoc _ _ []]
        exact hexact (by simp [Event.tells]) (by simp) (hbooks _ _)
    · simp only [outcome_bind, outcome_set, outcome_pure]
      apply hnone (by simp [Event.tells, circuitBreakerEvents])
      unfold uncrossSteps
      simp only [hprice, if_neg hband]

end Auctions

/-- Every operation reports fills truly, exactly where every trade of an auction uses up both of its
orders. -/
theorem fillReports_true_iff {s : MatchingEngine} (hreach : Reachable s) (op : Op) :
    Outcome op.exec s (fun events s' => TrueReports (op.entries s) events s' ↔
      ∀ step ∈ op.auctionSteps s, step.1.Exhausted step.2.2) fun _ _ => True := by
  have hs := hreach.sound
  by_cases hop : ∃ symbol, op = .uncross symbol
  · obtain ⟨symbol, rfl⟩ := hop
    exact uncross_reports hs symbol
  · have hnone : op.auctionSteps s = [] := by
      cases op with
      | uncross symbol => exact absurd ⟨symbol, rfl⟩ hop
      | _ => rfl
    rw [hnone]
    refine (Op.exec_fresh hs fun symbol heq => hop ⟨symbol, heq⟩).mono (fun events s' h => ?_)
      fun _ _ _ => trivial
    obtain ⟨quiet, added, s₁, rfl, hquiet, hs₁, hfresh, hsteps⟩ := h
    exact iff_of_true ((hsteps.tells hs₁ hfresh).reports.after hquiet) (by simp)

/-- Two offers, and a bid that meets one of them in an auction. -/
def unevenAuction : List Op :=
  [.setAccountState 1 "X" 0 50, .setAccountState 2 "X" 9000 0,
    .setTradingPhase "X" .openingAuction, .placeLimitOrder 1 "X" .ask 100 3 .gtc,
    .placeLimitOrder 1 "X" .ask 103 4 .gtc, .placeLimitOrder 2 "X" .bid 101 5 .gtc]

/-- The auction reports the bid as filled, though it has 2 left; an order that takes the rest of the
book after it is told the truth. -/
theorem fillReports_true_iff_unevenAuction :
    Outcome (Op.uncross "X").exec (fresh.applyAll unevenAuction)
      (fun events s' => ¬ TrueReports [] events s') (fun _ _ => True) ∧
    Outcome (Op.placeLimitOrder 2 "X" .bid 103 9 .gtc).exec
      (fresh.applyAll (unevenAuction ++ [.uncross "X"]))
      (fun events s' => TrueReports ((Op.placeLimitOrder 2 "X" .bid 103 9 .gtc).entries
        (fresh.applyAll (unevenAuction ++ [.uncross "X"]))) events s') fun _ _ => True := by
  constructor
  · have hiff := fillReports_true_iff (reachable_applyAll unevenAuction) (.uncross "X")
    have hnot : ¬ ∀ step ∈ (Op.uncross "X").auctionSteps (fresh.applyAll unevenAuction),
        step.1.Exhausted step.2.2 := by decide +kernel
    exact hiff.mono (fun _ _ h htrue => hnot (h.mp htrue)) fun _ _ h => h
  · have hiff := fillReports_true_iff (reachable_applyAll (unevenAuction ++ [.uncross "X"]))
      (.placeLimitOrder 2 "X" .bid 103 9 .gtc)
    exact hiff.mono (fun _ _ h => h.mpr fun _ hstep => (List.not_mem_nil hstep).elim) fun _ _ h => h

end Tes
