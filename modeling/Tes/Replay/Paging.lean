import Tes.Library.Lists
import Tes.Replay.Frames

/-! Paging a replay: following the ranges of a run from its first step. -/
namespace Tes
open Json

namespace ReplayService

section Model
variable (host : Host) (artifacts : RunArtifacts)

/-- The pages met from a step on, each started where the page before it says. -/
inductive Follows (width : ℕ) : ℤ → List ReplayRangeResponse → Prop
  | last {start page} :
    getReplayRange host artifacts .all start (start + width) = .ok page →
    page.nextStartStep = none → Follows width start [page]
  | next {start page n pages} :
    getReplayRange host artifacts .all start (start + width) = .ok page →
    page.nextStartStep = some n → Follows width n pages → Follows width start (page :: pages)

/-- The steps of the timeline in a page. -/
def visited (steps : List ℤ) (page : ReplayRangeResponse) : List ℤ :=
  steps.filter fun step => page.startStep ≤ step ∧ step ≤ page.endStep

/-- A frame shows some events: each in the summaries, the trades also as such. -/
structure ShowsEvents (frame : ReplayFrame) (events : List Dict) : Prop where
  summaries : frame.eventSummaries = eventSummaries host none events
  trades : frame.trades = trades host events

/-- The pages visit every step once, and each event, snapshot and account is in one of their
frames. -/
structure ShowsOnce (steps : List ℤ) (pages : List ReplayRangeResponse) : Prop where
  visited : pages.flatMap (visited steps) = steps
  frames : ((pages.flatMap ReplayRangeResponse.frames).map ReplayFrame.step).Sublist steps
  events : ∃ shown, List.Forall₂ (ShowsEvents host) (pages.flatMap ReplayRangeResponse.frames) shown ∧
    shown.flatten.Perm artifacts.events
  snapshots : ((pages.flatMap ReplayRangeResponse.frames).flatMap ReplayFrame.snapshots).Perm
    artifacts.snapshots
  accounts : ((pages.flatMap ReplayRangeResponse.frames).flatMap ReplayFrame.accounts).Perm
    artifacts.accounts

/-- Following the ranges from the first step of the timeline ends and shows everything once. -/
def PagesShowOnce (width : ℕ) : Prop :=
  ∃ timeline, replayTimeline artifacts = .ok timeline ∧
    ∃ pages, Follows host artifacts width timeline.firstStep pages ∧
      ShowsOnce host artifacts timeline.steps pages

end Model

/-- What has to be shown has a step, no step is negative, and each book of a snapshot can be shown:
its mid and its imbalance are not beyond the doubles. -/
structure Presentable (artifacts : RunArtifacts) : Prop where
  stepped : ∀ item ∈ artifacts.events ++ artifacts.snapshots ++ artifacts.accounts,
    entryStep item ≠ none
  nonneg : ∀ item ∈ artifacts.items, ∀ step ∈ entryStep item, 0 ≤ step
  valued : ∀ snapshot ∈ artifacts.snapshots, ∀ item ∈ snapshotBooks snapshot,
    ∃ book, bookPayload item.2 = .ok book

/-! The timeline. -/

theorem sortedSet_of_pairwise {α : Type} [LinearOrder α] {xs : List α}
    (h : xs.Pairwise (· < ·)) : sortedSet xs = xs := by
  have hnodup : xs.Nodup := h.imp fun hlt => hlt.ne
  rw [sortedSet, hnodup.dedup]
  exact List.Pairwise.insertionSort_eq (h.imp fun hlt => hlt.le)

theorem ReplayTimeline.pairwise (timeline : ReplayTimeline) :
    timeline.steps.Pairwise (· < ·) := by
  rw [← timeline.sorted]
  exact pairwise_sortedSet

variable {host : Host} {artifacts : RunArtifacts} {timeline : ReplayTimeline} {width : ℕ}

theorem pairwise_timelineSteps : (timelineSteps artifacts).Pairwise (· < ·) := by
  rw [timelineSteps]
  split
  · exact pairwise_sortedSet
  split
  · rw [List.pairwise_map]
    exact List.pairwise_lt_range.imp fun h => Int.ofNat_lt.mpr h
  · exact List.pairwise_singleton ..

theorem timelineSteps_ne_nil : timelineSteps artifacts ≠ [] := by
  rw [timelineSteps]
  split
  · assumption
  split
  · simp
  · simp

theorem mem_timelineSteps {item : Dict} {step : ℤ} (hitem : item ∈ artifacts.items)
    (hstep : entryStep item = some step) : step ∈ timelineSteps artifacts := by
  have hmem : step ∈ sortedSet (artifacts.items.filterMap entryStep) :=
    mem_sortedSet.mpr (List.mem_filterMap.mpr ⟨item, hitem, hstep⟩)
  rw [timelineSteps, if_pos (List.ne_nil_of_mem hmem)]
  exact hmem

theorem timelineSteps_nonneg (h : ∀ item ∈ artifacts.items, ∀ step ∈ entryStep item, 0 ≤ step) :
    ∀ step ∈ timelineSteps artifacts, 0 ≤ step := by
  intro step hstep
  rw [timelineSteps] at hstep
  split at hstep
  · obtain ⟨item, hitem, heq⟩ := List.mem_filterMap.mp (mem_sortedSet.mp hstep)
    exact h item hitem step heq
  split at hstep
  · obtain ⟨n, -, rfl⟩ := List.mem_map.mp hstep
    exact Int.natCast_nonneg n
  · rw [List.mem_singleton.mp hstep]

theorem create_eq_ok {steps : List ℤ} :
    ReplayTimeline.create steps = .ok timeline ↔
      (∀ step ∈ steps, 0 ≤ step) ∧ sortedSet steps = steps ∧ timeline.steps = steps := by
  rw [ReplayTimeline.create]
  split
  case isTrue hnonneg =>
    split
    case isTrue hsorted =>
      constructor
      · intro h
        cases h
        exact ⟨hnonneg, hsorted, rfl⟩
      · rintro ⟨-, -, heq⟩
        cases timeline
        cases heq
        rfl
    case isFalse hsorted => simp [hsorted]
  case isFalse hnonneg => simp [hnonneg]

/-- A run has a timeline unless a step is negative. -/
theorem replayTimeline_eq_ok :
    replayTimeline artifacts = .ok timeline ↔
      (∀ item ∈ artifacts.items, ∀ step ∈ entryStep item, 0 ≤ step) ∧
        timeline.steps = timelineSteps artifacts := by
  rw [replayTimeline, create_eq_ok]
  constructor
  · rintro ⟨hnonneg, -, heq⟩
    exact ⟨fun item hitem step hstep => hnonneg step (mem_timelineSteps hitem hstep), heq⟩
  · rintro ⟨hnonneg, heq⟩
    exact ⟨timelineSteps_nonneg hnonneg, sortedSet_of_pairwise pairwise_timelineSteps, heq⟩

variable {n : ℤ}

/-! Frames. -/

/-- The books of some symbols are shown if each of them can be. -/
theorem foldlM_addBook {symbols : List String} {items : Dict} {selected : Books} :
    (∃ books, items.foldlM (addBook symbols) selected = .ok books) ↔
      ∀ item ∈ items, item.1 ∈ symbols → ∃ book, bookPayload item.2 = .ok book := by
  induction items generalizing selected with
  | nil => simp [pure, Except.pure]
  | cons item items ih =>
    rw [List.foldlM_cons, List.forall_mem_cons]
    by_cases hsymbol : item.1 ∈ symbols
    · rw [addBook, if_pos hsymbol]
      cases hbook : bookPayload item.2 with
      | error e => simp [hsymbol, bind, Except.bind]
      | ok book => simpa [hsymbol, bind, Except.bind, pure, Except.pure] using ih
    · rw [addBook, if_neg hsymbol]
      simpa [hsymbol, bind, Except.bind, pure, Except.pure] using ih

theorem stepItems_none {items : List Dict} {step : ℤ} :
    stepItems items step none = items.filter fun item => entryStep item = some step := by
  rw [stepItems, List.filter_eq_self]
  simp

/-- The frame of a step shows what is stored at it. -/
structure FrameAt (host : Host) (artifacts : RunArtifacts) (n : ℤ) (frame : ReplayFrame) :
    Prop where
  step : frame.step = n
  events : ShowsEvents host frame (stepItems artifacts.events n none)
  snapshots : frame.snapshots = stepItems artifacts.snapshots n none
  accounts : frame.accounts = stepItems artifacts.accounts n none
  deltas : frame.accountDeltas = frame.accounts.map accountDelta

/-- The symbols of the frame of a step. -/
def symbolsAt (artifacts : RunArtifacts) (step : ℤ) : List String :=
  sortedSet (frameSymbols none (stepItems artifacts.events step none)
    (stepItems artifacts.snapshots step none) (stepItems artifacts.accounts step none) artifacts)

theorem buildReplayFrame_ok {step : ℤ} :
    (∃ frame, buildReplayFrame host artifacts .all step = .ok frame) ↔
      ∃ books, topOfBookForFrame artifacts.snapshots step (symbolsAt artifacts step) = .ok books := by
  simp only [buildReplayFrame, FrameQuery.all, if_true, symbolsAt]
  generalize sortedSet (frameSymbols none _ _ _ artifacts) = symbols
  cases topOfBookForFrame artifacts.snapshots step symbols with
  | error e => simp [bind, Except.bind]
  | ok books => simp [bind, Except.bind, pure, Except.pure]

theorem frameAt_of_build {step : ℤ} {frame : ReplayFrame}
    (h : buildReplayFrame host artifacts .all step = .ok frame) :
    FrameAt host artifacts step frame := by
  simp only [buildReplayFrame, FrameQuery.all, if_true] at h
  generalize sortedSet (frameSymbols none _ _ _ artifacts) = symbols at h
  cases hbooks : topOfBookForFrame artifacts.snapshots step symbols with
  | error e =>
    rw [hbooks] at h
    cases h
  | ok books =>
    rw [hbooks] at h
    cases h
    exact ⟨rfl, ⟨rfl, rfl⟩, rfl, rfl, rfl⟩

/-- Every symbol that a snapshot of a step shows a book for is among the symbols of its frame. -/
theorem mem_symbolsAt {step : ℤ} {snapshot : Dict} (hsnapshot : snapshot ∈ artifacts.snapshots)
    (hstep : entryStep snapshot = some step) {item : String × Value}
    (hitem : item ∈ snapshotBooks snapshot) : item.1 ∈ symbolsAt artifacts step := by
  have hsymbol : item.1 ∈ snapshotSymbols snapshot := by
    rw [snapshotBooks] at hitem
    rw [snapshotSymbols]
    rcases List.mem_append.mp hitem with hitem | hitem
    · obtain ⟨symbol, hsymbol, rfl⟩ := List.mem_map.mp hitem
      exact List.mem_append_left _ hsymbol
    · exact List.mem_append_right _ (List.mem_map_of_mem hitem)
  have hat : snapshot ∈ stepItems artifacts.snapshots step none := by
    rw [stepItems_none]
    exact List.mem_filter.mpr ⟨hsnapshot, by simpa using hstep⟩
  have hmem : item.1 ∈ (stepItems artifacts.snapshots step none).flatMap snapshotSymbols :=
    List.mem_flatMap.mpr ⟨snapshot, hat, hsymbol⟩
  rw [symbolsAt, mem_sortedSet]
  simp only [frameSymbols]
  rw [if_pos (List.ne_nil_of_mem (List.mem_append_left _ (List.mem_append_right _ hmem)))]
  exact List.mem_append_left _ (List.mem_append_right _ hmem)

/-- All frames can be built if the books of the snapshots can be shown. -/
theorem buildReplayFrame_of_valued
    (h : ∀ snapshot ∈ artifacts.snapshots, ∀ item ∈ snapshotBooks snapshot,
      ∃ book, bookPayload item.2 = .ok book) (step : ℤ) :
    ∃ frame, buildReplayFrame host artifacts .all step = .ok frame := by
  apply buildReplayFrame_ok.mpr
  apply foldlM_addBook.mpr
  intro item hitem _
  obtain ⟨snapshot, hsnapshot, hitem⟩ := List.mem_flatMap.mp hitem
  have hstored : snapshot ∈ artifacts.snapshots :=
    (List.perm_insertionSort _ _).subset (List.mem_filter.mp hsnapshot).1
  exact h snapshot hstored item hitem

/-- A frame that can be built shows all books of the snapshots of its step. -/
theorem valued_of_build {step : ℤ} {frame : ReplayFrame}
    (h : buildReplayFrame host artifacts .all step = .ok frame) {snapshot : Dict}
    (hsnapshot : snapshot ∈ artifacts.snapshots) (hstep : entryStep snapshot = some step) :
    ∀ item ∈ snapshotBooks snapshot, ∃ book, bookPayload item.2 = .ok book := by
  intro item hitem
  have hbooks := foldlM_addBook.mp (buildReplayFrame_ok.mp ⟨frame, h⟩)
  have htaken : snapshot ∈ (sortedSnapshots artifacts.snapshots).filter (takenBy step) := by
    apply List.mem_filter.mpr
    refine ⟨(List.perm_insertionSort _ _).mem_iff.mpr hsnapshot, ?_⟩
    simp [takenBy, hstep]
  apply hbooks item (List.mem_flatMap.mpr ⟨snapshot, htaken, hitem⟩)
  exact mem_symbolsAt hsnapshot hstep hitem

/-! Pages. -/

theorem ReplayTimeline.firstStep_le (hmem : n ∈ timeline.steps) : timeline.firstStep ≤ n := by
  have hpair := timeline.pairwise
  rw [firstStep]
  cases hsteps : timeline.steps with
  | nil => simp [hsteps] at hmem
  | cons first rest =>
    rw [hsteps] at hmem hpair
    rcases List.mem_cons.mp hmem with rfl | hmem
    · exact le_rfl
    · exact ((List.pairwise_cons.mp hpair).1 n hmem).le

theorem ReplayTimeline.le_lastStep (hmem : n ∈ timeline.steps) : n ≤ timeline.lastStep := by
  have hpair := timeline.pairwise
  obtain ⟨before, last, hsteps⟩ := List.eq_nil_or_concat'  timeline.steps |>.resolve_left
    (List.ne_nil_of_mem hmem)
  rw [lastStep, hsteps, List.getLast?_concat, Option.getD_some]
  rw [hsteps] at hmem hpair
  rcases List.mem_append.mp hmem with hmem | hmem
  · exact ((List.pairwise_append.mp hpair).2.2 n hmem last (by simp)).le
  · exact (List.mem_singleton.mp hmem).le

theorem ReplayTimeline.clamp_of_mem (hmem : n ∈ timeline.steps) : timeline.clamp n = n := by
  rw [clamp, if_neg (List.ne_nil_of_mem hmem), max_eq_left (timeline.firstStep_le hmem),
    min_eq_left (timeline.le_lastStep hmem)]

/-- A step beyond one of the timeline is not put before it. -/
theorem ReplayTimeline.le_clamp (hmem : n ∈ timeline.steps) {m : ℤ} (h : n ≤ m) :
    n ≤ timeline.clamp m := by
  rw [clamp, if_neg (List.ne_nil_of_mem hmem)]
  exact le_min (h.trans (le_max_left m _)) (timeline.le_lastStep hmem)

/-- What a range consists of. -/
structure RangeOf (host : Host) (artifacts : RunArtifacts) (steps : List ℤ) (first last : ℤ)
    (page : ReplayRangeResponse) : Prop where
  bounds : page.startStep = first ∧ page.endStep = last
  frames : ∃ frames, List.Forall₂
    (fun step frame => buildReplayFrame host artifacts .all step = .ok frame)
    (steps.filter fun step => first ≤ step ∧ step ≤ last) frames ∧
    page.frames = frames.filter frameHasPayload
  next : page.nextStartStep = steps.find? (last < ·)

theorem getReplayRange_eq_ok (htimeline : replayTimeline artifacts = .ok timeline) {start stop : ℤ}
    {page : ReplayRangeResponse} (h : getReplayRange host artifacts .all start stop = .ok page) :
    RangeOf host artifacts timeline.steps (min (timeline.clamp start) (timeline.clamp stop))
      (max (timeline.clamp start) (timeline.clamp stop)) page := by
  simp only [getReplayRange, htimeline, bind, Except.bind] at h
  split at h
  · cases h
  · rename_i frames hframes
    cases h
    exact ⟨⟨rfl, rfl⟩, ⟨frames, Lists.mapM_eq_ok.mp hframes, rfl⟩, rfl⟩

theorem exists_getReplayRange (htimeline : replayTimeline artifacts = .ok timeline)
    (hframes : ∀ step, ∃ frame, buildReplayFrame host artifacts .all step = .ok frame)
    (start stop : ℤ) : ∃ page, getReplayRange host artifacts .all start stop = .ok page := by
  obtain ⟨frames, h⟩ := Lists.exists_mapM_eq_ok.mpr fun step
    (_ : step ∈ timeline.steps.filter fun step =>
      min (timeline.clamp start) (timeline.clamp stop) ≤ step ∧
        step ≤ max (timeline.clamp start) (timeline.clamp stop)) => hframes step
  simp only [getReplayRange, htimeline, bind, Except.bind, h]
  exact ⟨_, rfl⟩

/-- From a step of the timeline on the pages end, having visited what was left of it. -/
theorem exists_follows (htimeline : replayTimeline artifacts = .ok timeline)
    (hframes : ∀ step, ∃ frame, buildReplayFrame host artifacts .all step = .ok frame)
    {before rest : List ℤ} (hsteps : timeline.steps = before ++ n :: rest) :
    ∃ pages, Follows host artifacts width n pages ∧
      pages.flatMap (visited timeline.steps) = n :: rest := by
  induction hlength : rest.length using Nat.strong_induction_on generalizing before n rest with
  | _ length ih =>
    have hsorted := hsteps ▸ timeline.pairwise
    have hmem : n ∈ timeline.steps := by simp [hsteps]
    obtain ⟨page, hpage⟩ := exists_getReplayRange htimeline hframes n (n + width)
    have hrange := getReplayRange_eq_ok htimeline hpage
    rw [timeline.clamp_of_mem hmem] at hrange
    have hle : n ≤ timeline.clamp (n + width) := timeline.le_clamp hmem (by omega)
    rw [min_eq_left hle, max_eq_right hle] at hrange
    have hvisited : visited timeline.steps page =
        (n :: rest).takeWhile (· ≤ timeline.clamp (n + width)) := by
      rw [visited, hrange.bounds.1, hrange.bounds.2, hsteps]
      exact Lists.filter_between hsorted
    have hnext := hrange.next
    rw [hsteps, Lists.find_beyond hsorted hle] at hnext
    have hsplit := (n :: rest).takeWhile_append_dropWhile
      (p := fun step => decide (step ≤ timeline.clamp (n + width)))
    cases hleft : (n :: rest).dropWhile (· ≤ timeline.clamp (n + width)) with
    | nil =>
      rw [hleft] at hnext hsplit
      refine ⟨[page], .last hpage hnext, ?_⟩
      rw [List.flatMap_singleton, hvisited]
      simpa using hsplit
    | cons m left =>
      rw [hleft] at hnext hsplit
      have hlater : timeline.steps =
          (before ++ (n :: rest).takeWhile (· ≤ timeline.clamp (n + width))) ++ m :: left := by
        rw [List.append_assoc, hsplit, hsteps]
      have hfewer : left.length < length := by
        have hfirst : (n :: rest).takeWhile (· ≤ timeline.clamp (n + width)) ≠ [] := by
          simp [hle]
        have hpos := List.length_pos_iff.mpr hfirst
        have hsum := congrArg List.length hsplit
        rw [List.length_append, List.length_cons, List.length_cons] at hsum
        omega
      obtain ⟨pages, hfollows, hrest⟩ := ih left.length hfewer hlater rfl
      refine ⟨page :: pages, .next hpage hnext hfollows, ?_⟩
      rw [List.flatMap_cons, hvisited, hrest, hsplit]

/-- The frames of the pages are those of the steps visited that have a payload. -/
theorem Follows.frames (htimeline : replayTimeline artifacts = .ok timeline) {start : ℤ}
    {pages : List ReplayRangeResponse} (h : Follows host artifacts width start pages) :
    ∃ frames, List.Forall₂
      (fun step frame => buildReplayFrame host artifacts .all step = .ok frame)
      (pages.flatMap (visited timeline.steps)) frames ∧
      pages.flatMap ReplayRangeResponse.frames = frames.filter frameHasPayload := by
  have hone : ∀ {start page},
      getReplayRange host artifacts .all start (start + width) = .ok page →
      ∃ frames, List.Forall₂
        (fun step frame => buildReplayFrame host artifacts .all step = .ok frame)
        (visited timeline.steps page) frames ∧ page.frames = frames.filter frameHasPayload := by
    intro start page hpage
    obtain ⟨⟨hfirst, hlast⟩, hframes, -⟩ := getReplayRange_eq_ok htimeline hpage
    rwa [visited, hfirst, hlast]
  induction h with
  | last hpage _ =>
    rw [List.flatMap_singleton, List.flatMap_singleton]
    exact hone hpage
  | next hpage _ _ ih =>
    obtain ⟨frames, hframes, heq⟩ := hone hpage
    obtain ⟨later, hlater, hrest⟩ := ih
    refine ⟨frames ++ later, ?_, ?_⟩
    · rw [List.flatMap_cons]
      exact List.rel_append hframes hlater
    · rw [List.flatMap_cons, heq, hrest, List.filter_append]

/-! What is shown. -/

section Shown
variable {steps : List ℤ} {frames : List ReplayFrame}

theorem stepItems_eq_nil_of_empty {frame : ReplayFrame} (h : FrameAt host artifacts n frame)
    (hempty : frameHasPayload frame = false) :
    stepItems artifacts.events n none = [] ∧ stepItems artifacts.snapshots n none = [] ∧
      stepItems artifacts.accounts n none = [] := by
  simp only [frameHasPayload, Bool.or_eq_false_iff, decide_eq_false_iff_not, not_not] at hempty
  obtain ⟨⟨⟨-, hsnapshots⟩, hdeltas⟩, hsummaries⟩ := hempty
  refine ⟨?_, h.snapshots.symm.trans hsnapshots, ?_⟩
  · rw [h.events.summaries, eventSummaries] at hsummaries
    exact List.mapIdx_eq_nil_iff.mp hsummaries
  · rw [h.deltas, List.map_eq_nil_iff] at hdeltas
    exact h.accounts.symm.trans hdeltas

/-- The frames with a payload show what is stored at the steps. -/
theorem shown_of_frames (h : List.Forall₂ (FrameAt host artifacts) steps frames) :
    ((frames.filter frameHasPayload).map ReplayFrame.step).Sublist steps ∧
    (∃ shown, List.Forall₂ (ShowsEvents host) (frames.filter frameHasPayload) shown ∧
      shown.flatten = steps.flatMap fun n => stepItems artifacts.events n none) ∧
    (frames.filter frameHasPayload).flatMap ReplayFrame.snapshots =
      (steps.flatMap fun n => stepItems artifacts.snapshots n none) ∧
    (frames.filter frameHasPayload).flatMap ReplayFrame.accounts =
      steps.flatMap fun n => stepItems artifacts.accounts n none := by
  induction h with
  | nil => exact ⟨.refl _, ⟨[], .nil, rfl⟩, rfl, rfl⟩
  | @cons step frame steps frames hframe _ ih =>
    obtain ⟨hsteps, ⟨shown, hshown, hevents⟩, hsnapshots, haccounts⟩ := ih
    by_cases hpayload : frameHasPayload frame = true
    · rw [List.filter_cons_of_pos hpayload]
      refine ⟨?_, ⟨_ :: shown, .cons hframe.events hshown, ?_⟩, ?_, ?_⟩
      · rw [List.map_cons, hframe.step]
        exact hsteps.cons_cons step
      · rw [List.flatten_cons, hevents, List.flatMap_cons]
      · rw [List.flatMap_cons, List.flatMap_cons, hsnapshots, hframe.snapshots]
      · rw [List.flatMap_cons, List.flatMap_cons, haccounts, hframe.accounts]
    · obtain ⟨hnoEvents, hnoSnapshots, hnoAccounts⟩ :=
        stepItems_eq_nil_of_empty hframe (by simpa using hpayload)
      rw [List.filter_cons_of_neg hpayload]
      refine ⟨hsteps.cons step, ⟨shown, hshown, ?_⟩, ?_, ?_⟩
      · rw [hevents, List.flatMap_cons, hnoEvents, List.nil_append]
      · rw [hsnapshots, List.flatMap_cons, hnoSnapshots, List.nil_append]
      · rw [haccounts, List.flatMap_cons, hnoAccounts, List.nil_append]

/-- What is stored at the steps of the timeline is what has a step. -/
theorem perm_stored (hsteps : timeline.steps = timelineSteps artifacts) {items : List Dict}
    (hitems : items ⊆ artifacts.items) :
    (timeline.steps.flatMap fun n => stepItems items n none).Perm
      (items.filter fun item => entryStep item ≠ none) := by
  have hnodup : (timeline.steps.map some).Nodup :=
    (List.nodup_map_iff (Option.some_injective ℤ)).mpr (timeline.pairwise.imp fun h => h.ne)
  have hperm := Lists.perm_flatMap_filter_mem entryStep hnodup items
  rw [List.flatMap_map] at hperm
  simp only [stepItems_none]
  refine hperm.trans (.of_eq (List.filter_congr fun item hitem => ?_))
  cases hstep : entryStep item with
  | none => simp
  | some step =>
    have hmem : step ∈ timeline.steps := hsteps ▸ mem_timelineSteps (hitems hitem) hstep
    simpa using hmem

theorem length_shown {shown : List (List Dict)} (h : List.Forall₂ (ShowsEvents host) frames shown) :
    shown.flatten.length = (frames.map fun frame => frame.eventSummaries.length).sum := by
  induction h with
  | nil => rfl
  | cons hframe _ ih =>
    rw [List.flatten_cons, List.length_append, ih, List.map_cons, List.sum_cons, hframe.summaries,
      eventSummaries, List.length_mapIdx]

end Shown

/-- Only what has a step is shown. -/
theorem ShowsOnce.stepped (hsteps : timeline.steps = timelineSteps artifacts)
    {pages : List ReplayRangeResponse} (h : ShowsOnce host artifacts timeline.steps pages)
    {frames : List ReplayFrame} (hframes : List.Forall₂ (FrameAt host artifacts) timeline.steps frames)
    (hpages : pages.flatMap ReplayRangeResponse.frames = frames.filter frameHasPayload) :
    ∀ item ∈ artifacts.events ++ artifacts.snapshots ++ artifacts.accounts, entryStep item ≠ none := by
  obtain ⟨-, ⟨shown, hshown, hevents⟩, hsnapshots, haccounts⟩ := shown_of_frames hframes
  obtain ⟨shown', hshown', hperm⟩ := h.events
  have hall : ∀ items ⊆ artifacts.items,
      (timeline.steps.flatMap fun n => stepItems items n none).length = items.length →
      ∀ item ∈ items, entryStep item ≠ none := by
    intro items hitems hlength
    rw [(perm_stored hsteps hitems).length_eq, List.length_filter_eq_length_iff] at hlength
    simpa using hlength
  intro item hitem
  rw [List.append_assoc] at hitem
  rcases List.mem_append.mp hitem with hitem | hitem
  · apply hall artifacts.events (fun item h => by simp [RunArtifacts.items, h]) _ item hitem
    rw [hpages] at hshown'
    rw [← hevents, length_shown hshown, ← length_shown hshown', hperm.length_eq]
  rcases List.mem_append.mp hitem with hitem | hitem
  · apply hall artifacts.snapshots (fun item h => by simp [RunArtifacts.items, h]) _ item hitem
    rw [← hsnapshots, ← hpages, h.snapshots.length_eq]
  · apply hall artifacts.accounts (fun item h => by simp [RunArtifacts.items, h]) _ item hitem
    rw [← haccounts, ← hpages, h.accounts.length_eq]

/-- Following the ranges of a run shows everything once exactly if everything has a step, none is
negative and all books can be shown. -/
theorem pagesShowOnce_iff (host : Host) (artifacts : RunArtifacts) (width : ℕ) :
    PagesShowOnce host artifacts width ↔ Presentable artifacts := by
  constructor
  · rintro ⟨timeline, htimeline, pages, hfollows, hshows⟩
    obtain ⟨hnonneg, hsteps⟩ := replayTimeline_eq_ok.mp htimeline
    obtain ⟨frames, hbuilt, hpages⟩ := hfollows.frames htimeline
    rw [hshows.visited] at hbuilt
    have hstepped := hshows.stepped hsteps (hbuilt.imp fun _ _ => frameAt_of_build) hpages
    refine ⟨hstepped, hnonneg, fun snapshot hsnapshot => ?_⟩
    have hsome : entryStep snapshot ≠ none := hstepped snapshot (by simp [hsnapshot])
    obtain ⟨step, hstep⟩ := Option.ne_none_iff_exists'.mp hsome
    have hitem : snapshot ∈ artifacts.items := by simp [RunArtifacts.items, hsnapshot]
    have hmem : step ∈ timeline.steps := hsteps ▸ mem_timelineSteps hitem hstep
    obtain ⟨frame, hframe⟩ :=
      Lists.exists_mapM_eq_ok.mp ⟨frames, Lists.mapM_eq_ok.mpr hbuilt⟩ step hmem
    exact valued_of_build hframe hsnapshot hstep
  · rintro ⟨hstepped, hnonneg, hvalued⟩
    have hbuild : ∀ step, ∃ frame, buildReplayFrame host artifacts .all step = .ok frame :=
      buildReplayFrame_of_valued hvalued
    obtain ⟨timeline, htimeline, hsteps⟩ : ∃ timeline, replayTimeline artifacts = .ok timeline ∧
        timeline.steps = timelineSteps artifacts :=
      ⟨⟨_, timelineSteps_nonneg hnonneg, sortedSet_of_pairwise pairwise_timelineSteps⟩,
        replayTimeline_eq_ok.mpr ⟨hnonneg, rfl⟩, rfl⟩
    obtain ⟨first, rest, hfirst⟩ :=
      List.exists_cons_of_ne_nil (hsteps ▸ timelineSteps_ne_nil : timeline.steps ≠ [])
    have hstart : timeline.firstStep = first := by
      rw [ReplayTimeline.firstStep, hfirst]
      rfl
    have hcover : ∃ pages, Follows host artifacts width first pages ∧
        pages.flatMap (visited timeline.steps) = first :: rest :=
      exists_follows htimeline hbuild (hfirst.trans (List.nil_append _).symm)
    obtain ⟨pages, hfollows, hvisited⟩ := hcover
    rw [← hfirst] at hvisited
    obtain ⟨frames, hbuilt, hpages⟩ := hfollows.frames htimeline
    rw [hvisited] at hbuilt
    obtain ⟨hframes, ⟨shown, hshown, hevents⟩, hsnapshots, haccounts⟩ :=
      shown_of_frames (hbuilt.imp fun _ _ => frameAt_of_build)
    have hall : ∀ items ⊆ artifacts.events ++ artifacts.snapshots ++ artifacts.accounts,
        (timeline.steps.flatMap fun n => stepItems items n none).Perm items := by
      intro items hitems
      have hperm := perm_stored hsteps (List.Subset.trans hitems (List.subset_append_left _ _))
      rwa [List.filter_eq_self.mpr] at hperm
      intro item hitem
      simpa using hstepped item (hitems hitem)
    refine ⟨timeline, htimeline, pages, hstart ▸ hfollows, hvisited, ?_, ⟨shown, ?_, ?_⟩, ?_, ?_⟩
    · rwa [hpages]
    · rwa [hpages]
    · rw [hevents]
      exact hall _ fun item hitem => by simp [hitem]
    · rw [hpages, hsnapshots]
      exact hall _ fun item hitem => by simp [hitem]
    · rw [hpages, haccounts]
      exact hall _ fun item hitem => by simp [hitem]

/-- A trade without a step is in no frame, where a snapshot has one. -/
theorem not_pagesShowOnce_trade : ¬ PagesShowOnce ⟨fun _ => "", _, .refl _⟩
    { config := [("symbols", .list [.str "AAPL"])], report := []
      events := [[("type", .str "TradeExecuted"), ("data", .dict [("maker_order_id", .int 1),
        ("taker_order_id", .int 2), ("price", .int 100), ("qty", .int 5)])]]
      snapshots := [[("step", .int 1), ("symbol", .str "AAPL"), ("snapshot", .dict [])]]
      accounts := [], logs := [] } 100 := by
  rintro ⟨timeline, htimeline, pages, hfollows, hshows⟩
  obtain ⟨frames, hbuilt, hpages⟩ := hfollows.frames htimeline
  rw [hshows.visited] at hbuilt
  have hstepped := hshows.stepped (replayTimeline_eq_ok.mp htimeline).2
    (hbuilt.imp fun _ _ => frameAt_of_build) hpages
  exact hstepped _ List.mem_cons_self rfl

end ReplayService
end Tes
