import Mathlib.Order.Bounds.Basic
import Tes.Library.PyEquality
import Tes.Replay.Verification

/-! The first divergence step of two runs, against the least step at which a stream of theirs
differs. -/
namespace Tes
open Json

namespace ReplayVerifier

/-- What a value that is no container is compared by. A NaN is the one object of the JSON decoder. -/
inductive Scalar
  | none
  | number (value : Double)
  | str (s : String)
  deriving DecidableEq

variable (codec : Codec)

def Codec.scalar : Value → Option Scalar
  | .null => some .none
  | .bool b => some (.number (.finite (if b then 1 else 0)))
  | .int n => some (.number (.finite n))
  | .float repr => some (.number (codec.ofRepr repr))
  | .str s => some (.str s)
  | _ => none

/-- `_normalize(left) == _normalize(right)`. -/
def Codec.equalItems (left right : Dict) : Bool :=
  equal codec.scalar (normalize (.dict left)) (normalize (.dict right))

/-- `step or other`, where a step of 0 is as good as none. -/
def orElse (step : Option ℤ) (other : ℤ) : ℤ :=
  match step with
  | some n => if n = 0 then other else n
  | none => other

/-- The loop of `_stream_divergence_step` from an index on. -/
def Codec.streamDivergenceStep (index : ℕ) : List Dict → List Dict → Option ℤ
  | [], [] => none
  | lval :: _, [] => some (orElse (step lval) (index + 1))
  | [], rval :: _ => some (orElse (step rval) (index + 1))
  | lval :: left, rval :: right =>
    if codec.equalItems lval rval then Codec.streamDivergenceStep (index + 1) left right
    else some (orElse (step lval) (orElse (step rval) (index + 1)))

/-- The streams of a run, in the order of `_STREAM_NAMES`. -/
def Artifacts.streams (a : Artifacts) : List (List Dict) := [a.events, a.snapshots, a.accounts]

def Codec.firstDivergenceStep (left right : Artifacts) : Option ℤ :=
  (left.streams.zip right.streams).findSome? fun streams =>
    codec.streamDivergenceStep 0 streams.1 streams.2

/-! What the first divergence step should be. -/

/-- The items at the first position at which two streams differ: two, or one if a stream ends. -/
def Codec.divergentItems : List Dict → List Dict → List Dict
  | [], [] => []
  | lval :: _, [] => [lval]
  | [], rval :: _ => [rval]
  | lval :: left, rval :: right =>
    if codec.equalItems lval rval then Codec.divergentItems left right else [lval, rval]

def Codec.EqualStreams (left right : List Dict) : Prop :=
  List.Forall₂ (fun x y => codec.equalItems x y = true) left right

/-- The items at which the streams of two runs start to differ, stream by stream. -/
def Codec.divergences (left right : Artifacts) : List (List Dict) :=
  (left.streams.zip right.streams).map fun streams => codec.divergentItems streams.1 streams.2

/-- The steps of the items at which some stream starts to differ. -/
def Codec.DivergesAt (left right : Artifacts) (n : ℤ) : Prop :=
  ∃ items ∈ codec.divergences left right, ∃ item ∈ items, step item = some n

/-- The first divergence step is the least of these steps, from either side. -/
structure Codec.FindsFirst (left right : Artifacts) : Prop where
  equal : codec.firstDivergenceStep left right = none ↔
    ∀ streams ∈ left.streams.zip right.streams, codec.EqualStreams streams.1 streams.2
  least : ∀ n, codec.firstDivergenceStep left right = some n → IsLeast (codec.DivergesAt left right) n
  comm : codec.firstDivergenceStep left right = codec.firstDivergenceStep right left

/-- The first stream that differs starts to at one positive step, and none starts to earlier. -/
def Codec.DivergesFirst (left right : Artifacts) : Prop :=
  ∀ items ∈ (codec.divergences left right).find? (· ≠ []), ∀ item ∈ items,
    ∃ n, step item = some n ∧ 0 < n ∧ ∀ m, codec.DivergesAt left right m → n ≤ m

/-- Every item has a step that is not negative. -/
def Stepped (a : Artifacts) : Prop :=
  ∀ items ∈ a.streams, ∀ item ∈ items, ∃ n, step item = some n ∧ 0 ≤ n

section Search
variable {codec} {left right : List Dict} {items : List Dict} {fallback : ℤ}

theorem Codec.equalItems_comm (x y : Dict) : codec.equalItems x y = codec.equalItems y x :=
  Bool.eq_iff_iff.mpr ⟨equal_symm, equal_symm⟩

theorem Codec.divergentItems_eq_nil :
    codec.divergentItems left right = [] ↔ codec.EqualStreams left right := by
  unfold Codec.EqualStreams
  induction left generalizing right with
  | nil => cases right <;> simp [Codec.divergentItems]
  | cons lval left ih =>
    cases right with
    | nil => simp [Codec.divergentItems]
    | cons rval right =>
      rw [Codec.divergentItems, List.forall₂_cons]
      by_cases hequal : codec.equalItems lval rval
      · rw [if_pos hequal, ih]
        exact (and_iff_right hequal).symm
      · rw [if_neg hequal]
        exact iff_of_false (List.cons_ne_nil _ _) fun h => hequal h.1

theorem Codec.mem_of_divergent {item : Dict} (h : item ∈ codec.divergentItems left right) :
    item ∈ left ∨ item ∈ right := by
  induction left generalizing right with
  | nil =>
    cases right with
    | nil => cases h
    | cons rval right => exact Or.inr (List.mem_singleton.mp h ▸ List.mem_cons_self)
  | cons lval left ih =>
    cases right with
    | nil => exact Or.inl (List.mem_singleton.mp h ▸ List.mem_cons_self)
    | cons rval right =>
      rw [Codec.divergentItems] at h
      split_ifs at h with hequal
      · exact (ih h).imp (List.mem_cons_of_mem _) (List.mem_cons_of_mem _)
      · rcases List.mem_cons.mp h with rfl | h
        · exact Or.inl List.mem_cons_self
        · exact Or.inr (List.mem_singleton.mp h ▸ List.mem_cons_self)

theorem Codec.length_divergentItems : (codec.divergentItems left right).length ≤ 2 := by
  induction left generalizing right with
  | nil => cases right <;> simp [Codec.divergentItems]
  | cons lval left ih =>
    cases right with
    | nil => simp [Codec.divergentItems]
    | cons rval right =>
      rw [Codec.divergentItems]
      split_ifs
      · exact ih
      · simp

/-- The step that is reported for divergent items, before there is a `fallback`. -/
def firstStep (fallback : ℤ) (items : List Dict) : Option ℤ :=
  if items = [] then none else some (items.foldr (fun item => orElse (step item)) fallback)

/-- From either side the same items and the same position are found. -/
theorem Codec.streamDivergenceStep_eq (index : ℕ) (left right : List Dict) :
    ∃ fallback : ℤ, 0 < fallback ∧
      codec.streamDivergenceStep index left right =
        firstStep fallback (codec.divergentItems left right) ∧
      codec.streamDivergenceStep index right left =
        firstStep fallback (codec.divergentItems left right).reverse := by
  induction left generalizing index right with
  | nil =>
    refine ⟨index + 1, by omega, ?_⟩
    cases right <;> exact ⟨rfl, rfl⟩
  | cons lval left ih =>
    cases right with
    | nil => exact ⟨index + 1, by omega, rfl, rfl⟩
    | cons rval right =>
      rw [Codec.streamDivergenceStep, Codec.streamDivergenceStep, Codec.divergentItems,
        Codec.equalItems_comm rval]
      split_ifs with hequal
      · exact ih (index + 1) right
      · exact ⟨index + 1, by omega, rfl, rfl⟩

/-- The search stops at the first stream that differs. -/
theorem Codec.findSome_eq (streams : List (List Dict × List Dict)) :
    ∃ fallback : ℤ, 0 < fallback ∧
      (streams.findSome? fun s => codec.streamDivergenceStep 0 s.1 s.2) =
        ((streams.map fun s => codec.divergentItems s.1 s.2).find? (· ≠ [])).bind
          (firstStep fallback) ∧
      ((streams.map Prod.swap).findSome? fun s => codec.streamDivergenceStep 0 s.1 s.2) =
        ((streams.map fun s => codec.divergentItems s.1 s.2).find? (· ≠ [])).bind
          fun items => firstStep fallback items.reverse := by
  induction streams with
  | nil => exact ⟨1, one_pos, rfl, rfl⟩
  | cons pair streams ih =>
    obtain ⟨fallback, hpos, hleft, hright⟩ := codec.streamDivergenceStep_eq 0 pair.1 pair.2
    rw [List.map_cons, List.map_cons, List.findSome?_cons, List.findSome?_cons, Prod.fst_swap,
      Prod.snd_swap, hleft, hright]
    by_cases hitems : codec.divergentItems pair.1 pair.2 = []
    · rw [List.find?_cons_of_neg (by simp [hitems]), hitems]
      exact ih
    · rw [List.find?_cons_of_pos (by simp [hitems])]
      refine ⟨fallback, hpos, ?_, ?_⟩
      · rw [firstStep, if_neg hitems, Option.bind_some, firstStep, if_neg hitems]
      · have hreverse : (codec.divergentItems pair.1 pair.2).reverse ≠ [] := by simpa using hitems
        rw [firstStep, if_neg hreverse, Option.bind_some, firstStep, if_neg hreverse]

theorem foldr_pos (hpos : 0 < fallback) (hsteps : ∀ item ∈ items, ∃ n, step item = some n ∧ 0 ≤ n) :
    0 < items.foldr (fun item => orElse (step item)) fallback := by
  induction items with
  | nil => exact hpos
  | cons item items ih =>
    obtain ⟨⟨n, hn, hnonneg⟩, hrest⟩ := List.forall_mem_cons.mp hsteps
    rw [List.foldr_cons, hn, orElse]
    split_ifs with hzero
    · exact ih hrest
    · omega

/-- The step of the first item is reported, unless it is 0. -/
theorem foldr_eq {item : Dict} {n : ℤ} (hn : step item = some n) (hpos : 0 < n) :
    (item :: items).foldr (fun item => orElse (step item)) fallback = n := by
  rw [List.foldr_cons, hn, orElse, if_neg hpos.ne']

/-- A step that is reported from both sides and that no item undercuts is the step of each item. -/
theorem steps_eq {value other : ℤ} (hpos : 0 < fallback) (hlength : items.length ≤ 2)
    (hsteps : ∀ item ∈ items, ∃ n, step item = some n ∧ 0 ≤ n)
    (hvalue : firstStep fallback items = some value)
    (hother : firstStep other items.reverse = some value)
    (hleast : ∀ item ∈ items, ∀ n, step item = some n → value ≤ n) :
    0 < value ∧ ∀ item ∈ items, step item = some value := by
  unfold firstStep at hvalue hother
  split_ifs at hvalue hother with hnil
  have hvaluePos : 0 < value := Option.some.inj hvalue ▸ foldr_pos hpos hsteps
  have hhead : ∀ {item : Dict} {rest : List Dict} {fallback : ℤ}, item ∈ items →
      some ((item :: rest).foldr (fun item => orElse (step item)) fallback) = some value →
      step item = some value := by
    intro item rest fallback hitem heq
    obtain ⟨n, hn, -⟩ := hsteps item hitem
    have hle := hleast item hitem n hn
    rw [foldr_eq hn (hvaluePos.trans_le hle)] at heq
    rw [hn, heq]
  refine ⟨hvaluePos, ?_⟩
  match items, hlength with
  | [], _ => exact absurd rfl hnil
  | [x], _ =>
    rw [List.forall_mem_singleton]
    exact hhead List.mem_cons_self hvalue
  | [x, y], _ =>
    have hx := hhead List.mem_cons_self hvalue
    have hy := hhead (List.mem_cons_of_mem x List.mem_cons_self) hother
    simp [hx, hy]

/-- A step that all items share is reported. -/
theorem firstStep_eq {value : ℤ} (hne : items ≠ []) (hpos : 0 < value)
    (hsteps : ∀ item ∈ items, step item = some value) :
    firstStep fallback items = some value := by
  obtain ⟨item, rest, rfl⟩ := List.exists_cons_of_ne_nil hne
  rw [firstStep, if_neg hne, foldr_eq (hsteps item List.mem_cons_self) hpos]

end Search

section Runs
variable {codec} {left right : Artifacts}

theorem Codec.divergences_eq_nil : (codec.divergences left right).find? (· ≠ []) = none ↔
    ∀ streams ∈ left.streams.zip right.streams, codec.EqualStreams streams.1 streams.2 := by
  rw [List.find?_eq_none, Codec.divergences, List.forall_mem_map]
  refine forall₂_congr fun streams _ => ?_
  rw [← Codec.divergentItems_eq_nil]
  simp

theorem stepped_divergences (hleft : Stepped left) (hright : Stepped right) {items : List Dict}
    (hitems : items ∈ codec.divergences left right) :
    items.length ≤ 2 ∧ ∀ item ∈ items, ∃ n, step item = some n ∧ 0 ≤ n := by
  obtain ⟨streams, hstreams, rfl⟩ := List.mem_map.mp hitems
  obtain ⟨hl, hr⟩ := List.of_mem_zip hstreams
  refine ⟨Codec.length_divergentItems, fun item hitem => ?_⟩
  rcases Codec.mem_of_divergent hitem with h | h
  · exact hleft streams.1 hl item h
  · exact hright streams.2 hr item h

/-- The first divergence step is right exactly if the first stream that differs does so at a positive
step, the same on both sides, and no other stream differs earlier. -/
theorem findsFirst_iff (hleft : Stepped left) (hright : Stepped right) :
    codec.FindsFirst left right ↔ codec.DivergesFirst left right := by
  obtain ⟨fallback, hpos, hforth, hback⟩ := codec.findSome_eq (left.streams.zip right.streams)
  have hforth : codec.firstDivergenceStep left right =
      ((codec.divergences left right).find? (· ≠ [])).bind (firstStep fallback) := hforth
  have hback : codec.firstDivergenceStep right left =
      ((codec.divergences left right).find? (· ≠ [])).bind
        fun items => firstStep fallback items.reverse := hback
  have hequal := @Codec.divergences_eq_nil codec left right
  unfold Codec.DivergesFirst
  cases hfind : (codec.divergences left right).find? (· ≠ []) with
  | none =>
    rw [hfind] at hforth hback hequal
    refine iff_of_true ⟨?_, fun n hn => ?_, hforth.trans hback.symm⟩ fun items hitems => ?_
    · exact iff_of_true hforth (hequal.mp rfl)
    · rw [hforth] at hn
      cases hn
    · cases hitems
  | some items =>
    rw [hfind] at hforth hback hequal
    rw [Option.bind_some] at hforth hback
    have hmem := List.mem_of_find?_eq_some hfind
    have hne : items ≠ [] := by simpa using List.find?_some hfind
    obtain ⟨hlength, hsteps⟩ := stepped_divergences hleft hright hmem
    have hsome : ∃ value, firstStep fallback items = some value := by
      rw [firstStep, if_neg hne]
      exact ⟨_, rfl⟩
    obtain ⟨value, hvalue⟩ := hsome
    rw [hvalue] at hforth
    constructor
    · intro hfirst items' hitems'
      rw [← Option.some.inj hitems']
      have hleast := hfirst.least value hforth
      have hother := hback.symm.trans (hfirst.comm.symm.trans hforth)
      obtain ⟨hvaluePos, hall⟩ := steps_eq hpos hlength hsteps hvalue hother
        fun item hitem n hn => hleast.2 ⟨items, hmem, item, hitem, hn⟩
      exact fun item hitem => ⟨value, hall item hitem, hvaluePos, fun m hm => hleast.2 hm⟩
    · intro hfirst
      have hfirst := hfirst items rfl
      obtain ⟨item, hitem⟩ := List.exists_mem_of_ne_nil items hne
      obtain ⟨n, hn, hnpos, hleast⟩ := hfirst item hitem
      -- the items share their step, as none undercuts another
      have hall : ∀ other ∈ items, step other = some n := by
        intro other hother
        obtain ⟨m, hm, -, hleast'⟩ := hfirst other hother
        rw [hm, le_antisymm (hleast' n ⟨items, hmem, item, hitem, hn⟩)
          (hleast m ⟨items, hmem, other, hother, hm⟩)]
      rw [firstStep_eq hne hnpos hall] at hvalue
      have hn' := Option.some.inj hvalue
      subst hn'
      have hreverse : firstStep fallback items.reverse = some n :=
        firstStep_eq (by simpa using hne) hnpos fun other hother => hall other (List.mem_reverse.mp hother)
      refine ⟨?_, fun m hm => ?_, hforth.trans (hback.trans hreverse).symm⟩
      · rw [hforth]
        exact iff_of_false (Option.some_ne_none _) fun h => Option.some_ne_none _ (hequal.mpr h)
      · rw [← Option.some.inj (hforth.symm.trans hm)]
        exact ⟨⟨items, hmem, item, hitem, hn⟩, fun m hm => hleast m hm⟩

end Runs

/-- An event and a snapshot of one step and one price. -/
def pricedRun (eventStep snapshotStep price : ℤ) : Artifacts where
  events := [[("step", .int eventStep), ("type", .str "OrderAccepted"), ("price", .int price)]]
  snapshots := [[("step", .int snapshotStep), ("price", .int price)]]
  accounts := []
  report := []

theorem step_head (n : ℤ) (rest : Dict) : step (("step", .int n) :: rest) = some n := rfl

theorem stepped_pricedRun {eventStep snapshotStep : ℤ} (hevent : 0 ≤ eventStep)
    (hsnapshot : 0 ≤ snapshotStep) (price : ℤ) : Stepped (pricedRun eventStep snapshotStep price) := by
  simp [Stepped, Artifacts.streams, pricedRun, step_head, hevent, hsnapshot]

/-- A run whose events start to differ before its snapshots. -/
theorem findsFirst_earlierEvents :
    profitCodec.FindsFirst (pricedRun 1 2 100) (pricedRun 1 2 101) := by
  refine (findsFirst_iff (stepped_pricedRun (by decide) (by decide) 100)
    (stepped_pricedRun (by decide) (by decide) 101)).mpr ?_
  have hdivergences : profitCodec.divergences (pricedRun 1 2 100) (pricedRun 1 2 101) =
      [(pricedRun 1 2 100).events ++ (pricedRun 1 2 101).events,
        (pricedRun 1 2 100).snapshots ++ (pricedRun 1 2 101).snapshots, []] := rfl
  unfold Codec.DivergesFirst Codec.DivergesAt
  rw [hdivergences]
  simp [pricedRun, step_head]
  omega

/-- The snapshots start to differ before the events, whose step is reported. -/
theorem not_findsFirst_laterEvents :
    Stepped (pricedRun 2 1 100) ∧ Stepped (pricedRun 2 1 101) ∧
    ¬ profitCodec.FindsFirst (pricedRun 2 1 100) (pricedRun 2 1 101) := by
  refine ⟨stepped_pricedRun (by decide) (by decide) 100,
    stepped_pricedRun (by decide) (by decide) 101, fun h => ?_⟩
  have hreported : profitCodec.firstDivergenceStep (pricedRun 2 1 100) (pricedRun 2 1 101) = some 2 :=
    rfl
  have hsnapshot : profitCodec.DivergesAt (pricedRun 2 1 100) (pricedRun 2 1 101) 1 :=
    ⟨(pricedRun 2 1 100).snapshots ++ (pricedRun 2 1 101).snapshots,
      List.mem_cons_of_mem _ List.mem_cons_self, _, List.mem_cons_self, rfl⟩
  have hle : (2 : ℤ) ≤ 1 := (h.least 2 hreported).2 hsnapshot
  omega

end ReplayVerifier
end Tes
