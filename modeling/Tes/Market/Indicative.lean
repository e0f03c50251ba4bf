import Mathlib
import Tes.Engine.Auction
import Tes.Book.Depth
import Tes.Library.CallAuction

/-! The indicative price of an auction: the price that trades the most, and among several the
first in an order without ties. -/
namespace Tes
open OrderBook CallAuction

namespace AuctionIndicative

/-- The order of the candidates: the quantity matched, then the smaller imbalance, then the
smaller distance to the reference where there is one, then the lower price. -/
def rank (bids asks : List (ℤ × ℤ)) (reference : Option ℤ) (price : ℤ) : ℤ ×ₗ ℤ ×ₗ ℤ ×ₗ ℤ :=
  toLex (volume bids asks price, toLex (-|demand bids price - supply asks price|,
    toLex (-reference.elim 0 fun r => |price - r|, -price)))

/-- What the scan records of a candidate. -/
def best (bids asks : List (ℤ × ℤ)) (price : ℤ) : Best :=
  ⟨price, volume bids asks price, demand bids price - supply asks price⟩

section Scan
variable {bids asks : List (ℤ × ℤ)} {reference : Option ℤ}

theorem bidQtyAt_eq (hbids : bids.Pairwise fun a b => Side.bid.before a.1 b.1) (price : ℤ) :
    bidQtyAt ⟨bids, asks⟩ price = demand bids price := by
  unfold bidQtyAt demand
  rw [takeWhile_eq_filter hbids fun a b hab hb => ?_]
  simp only [decide_eq_true_eq] at hb ⊢
  have hlt : b.1 < a.1 := hab
  omega

theorem askQtyAt_eq (hasks : asks.Pairwise fun a b => Side.ask.before a.1 b.1) (price : ℤ) :
    askQtyAt ⟨bids, asks⟩ price = supply asks price := by
  unfold askQtyAt supply
  rw [takeWhile_eq_filter hasks fun a b hab hb => ?_]
  simp only [decide_eq_true_eq] at hb ⊢
  have hlt : a.1 < b.1 := hab
  omega

/-- A candidate replaces the best one exactly if its rank is higher. -/
theorem better_iff (candidate price : ℤ) :
    better reference candidate (volume bids asks candidate)
      (demand bids candidate - supply asks candidate) (best bids asks price) ↔
      rank bids asks reference price < rank bids asks reference candidate := by
  unfold better rank best
  simp only [Prod.Lex.toLex_lt_toLex]
  refine or_congr Iff.rfl (and_congr eq_comm (or_congr neg_lt_neg_iff.symm (and_congr ?_ ?_)))
  · rw [neg_inj, eq_comm]
  · cases reference with
    | none => simp
    | some r => simp [eq_comm]

/-- The scan finds the highest rank among the candidates at which something trades. -/
theorem foldl_consider (hbids : bids.Pairwise fun a b => Side.bid.before a.1 b.1)
    (hasks : asks.Pairwise fun a b => Side.ask.before a.1 b.1) (prices : List ℤ) :
    prices.foldl (consider ⟨bids, asks⟩ reference) none =
      ((prices.filter fun price => 0 < volume bids asks price).argmax
        (rank bids asks reference)).map (best bids asks) := by
  induction prices using List.reverseRecOn with
  | nil => rfl
  | append_singleton prices price ih =>
    have hvolume : min (bidQtyAt ⟨bids, asks⟩ price) (askQtyAt ⟨bids, asks⟩ price) =
        volume bids asks price := by
      rw [bidQtyAt_eq hbids, askQtyAt_eq hasks]
      rfl
    rw [List.foldl_concat, ih, List.filter_append]
    unfold consider
    dsimp only
    rw [hvolume, bidQtyAt_eq hbids, askQtyAt_eq hasks]
    by_cases hpos : 0 < volume bids asks price
    · have hlast : [price].filter (fun price => 0 < volume bids asks price) = [price] :=
        List.filter_cons_of_pos (decide_eq_true hpos)
      rw [if_neg (not_le.mpr hpos), hlast, List.argmax_concat]
      cases (prices.filter fun price => 0 < volume bids asks price).argmax
          (rank bids asks reference) with
      | none => rfl
      | some first =>
        dsimp only [Option.map_some]
        simp only [better_iff]
        split_ifs <;> rfl
    · rw [if_pos (not_lt.mp hpos), List.filter_cons_of_neg (by simpa using hpos), List.filter_nil,
        List.append_nil]

/-- The candidates are the prices of the levels. -/
theorem mem_candidates {price : ℤ} :
    price ∈ candidates ⟨bids, asks⟩ ↔ price ∈ (bids ++ asks).map Prod.fst := by
  unfold candidates
  rw [(List.pairwise_insertionSort (· ≤ ·) _).destutter_eq_dedup, List.mem_dedup,
    List.mem_insertionSort, List.map_append]

/-- No two prices are of one rank. -/
theorem rank_injective : Function.Injective (rank bids asks reference) := by
  intro p q h
  have hlast := congrArg (fun x => (ofLex (ofLex (ofLex x).2).2).2) h
  exact neg_inj.mp hlast

/-- What the scan of the levels records: nothing where nothing crosses. -/
theorem ofDepth_eq (hbids : bids.Pairwise fun a b => Side.bid.before a.1 b.1)
    (hasks : asks.Pairwise fun a b => Side.ask.before a.1 b.1) :
    ofDepth ⟨bids, asks⟩ reference =
      match ((candidates ⟨bids, asks⟩).filter fun price => 0 < volume bids asks price).argmax
        (rank bids asks reference) with
      | none => {}
      | some price =>
        ⟨some price, volume bids asks price, demand bids price - supply asks price⟩ := by
  unfold ofDepth
  rw [foldl_consider hbids hasks]
  cases ((candidates ⟨bids, asks⟩).filter fun price => 0 < volume bids asks price).argmax
    (rank bids asks reference) with
  | none => rfl
  | some price => rfl

end Scan
end AuctionIndicative

section Levels
variable {book : OrderBook} {side : Side}

theorem shown_pos : ∀ level ∈ book.shown side, 0 < level.2 := by
  intro level hlevel
  unfold shown appendLevels at hlevel
  obtain ⟨e, he, rfl⟩ := List.mem_map.mp hlevel
  exact of_decide_eq_true (List.mem_filter.mp he).2

end Levels

namespace MatchingEngine

/-- The prices of the displayed levels. -/
def displayedPrices (s : MatchingEngine) (symbol : Symbol) : List ℤ :=
  ((s.bookFor symbol).shown .bid ++ (s.bookFor symbol).shown .ask).map Prod.fst

/-- The displayed quantity that can trade at a price. -/
def volumeAt (s : MatchingEngine) (symbol : Symbol) (price : ℤ) : ℤ :=
  volume ((s.bookFor symbol).shown .bid) ((s.bookFor symbol).shown .ask) price

def imbalanceAt (s : MatchingEngine) (symbol : Symbol) (price : ℤ) : ℤ :=
  demand ((s.bookFor symbol).shown .bid) price - supply ((s.bookFor symbol).shown .ask) price

def rankAt (s : MatchingEngine) (symbol : Symbol) : ℤ → ℤ ×ₗ ℤ ×ₗ ℤ ×ₗ ℤ :=
  AuctionIndicative.rank ((s.bookFor symbol).shown .bid) ((s.bookFor symbol).shown .ask)
    ((s.latestMarkBySymbol.lookup symbol).map Rounding.llround)

/-- A displayed bid meets a displayed ask. -/
def Crossed (s : MatchingEngine) (symbol : Symbol) : Prop :=
  ∃ bid ∈ (s.bookFor symbol).shown .bid, ∃ ask ∈ (s.bookFor symbol).shown .ask, ask.1 ≤ bid.1

section Optimal
variable {s : MatchingEngine} {symbol : Symbol} {price : ℤ}

/-- The candidates at which something trades. -/
def tradeablePrices (s : MatchingEngine) (symbol : Symbol) : List ℤ :=
  (AuctionIndicative.candidates ((s.bookFor symbol).depth none)).filter fun price =>
    0 < s.volumeAt symbol price

theorem mem_tradeablePrices : price ∈ s.tradeablePrices symbol ↔
    price ∈ s.displayedPrices symbol ∧ 0 < s.volumeAt symbol price := by
  unfold tradeablePrices
  rw [List.mem_filter, depth_none, AuctionIndicative.mem_candidates, decide_eq_true_eq]
  exact Iff.rfl

theorem indicative_eq (s : MatchingEngine) (symbol : Symbol) :
    s.computeAuctionIndicative symbol =
      match (s.tradeablePrices symbol).argmax (s.rankAt symbol) with
      | none => {}
      | some price => ⟨some price, s.volumeAt symbol price, s.imbalanceAt symbol price⟩ :=
  AuctionIndicative.ofDepth_eq (shown_sorted _ .bid) (shown_sorted _ .ask)

/-- Some displayed price trades something exactly if a displayed bid meets a displayed ask. -/
theorem tradeablePrices_eq_nil : s.tradeablePrices symbol = [] ↔ ¬ s.Crossed symbol := by
  rw [Crossed, ← exists_volume_pos_iff shown_pos shown_pos, List.eq_nil_iff_forall_not_mem]
  constructor
  · rintro h ⟨ask, hask, hpos⟩
    exact h ask.1 (mem_tradeablePrices.mpr
      ⟨List.mem_map.mpr ⟨ask, List.mem_append_right _ hask, rfl⟩, hpos⟩)
  · intro h price hprice
    obtain ⟨-, hpos⟩ := mem_tradeablePrices.mp hprice
    obtain ⟨⟨bid, hbid, hle⟩, ask, hask, hle'⟩ := (volume_pos_iff shown_pos shown_pos).mp hpos
    exact h ((exists_volume_pos_iff shown_pos shown_pos).mpr
      ⟨bid, hbid, ask, hask, hle'.trans hle⟩)

theorem indicative_eq_none :
    (s.computeAuctionIndicative symbol).price = none ↔ ¬ s.Crossed symbol := by
  rw [← tradeablePrices_eq_nil, indicative_eq,
    ← List.argmax_eq_none (f := s.rankAt symbol)]
  cases (s.tradeablePrices symbol).argmax (s.rankAt symbol) with
  | none => exact iff_of_true rfl rfl
  | some price => exact iff_of_false (Option.some_ne_none _) (Option.some_ne_none _)

/-- A price is of the highest rank among the displayed ones. -/
theorem mem_argmax_of_price (h : (s.computeAuctionIndicative symbol).price = some price) :
    price ∈ (s.tradeablePrices symbol).argmax (s.rankAt symbol) ∧
      s.computeAuctionIndicative symbol =
        ⟨some price, s.volumeAt symbol price, s.imbalanceAt symbol price⟩ := by
  rw [indicative_eq] at h ⊢
  cases hbest : (s.tradeablePrices symbol).argmax (s.rankAt symbol) with
  | none =>
    rw [hbest] at h
    cases h
  | some best =>
    rw [hbest] at h
    cases h
    exact ⟨rfl, rfl⟩

/-- Another displayed price has a lower rank. -/
theorem rank_lt_of_price (h : (s.computeAuctionIndicative symbol).price = some price) {other : ℤ}
    (hother : other ∈ s.displayedPrices symbol) (hne : other ≠ price) :
    s.rankAt symbol other < s.rankAt symbol price := by
  obtain ⟨hbest, -⟩ := mem_argmax_of_price h
  by_cases hpos : 0 < s.volumeAt symbol other
  · have hle := List.le_of_mem_argmax (mem_tradeablePrices.mpr ⟨hother, hpos⟩) hbest
    exact lt_of_le_of_ne hle fun heq => hne (AuctionIndicative.rank_injective heq)
  · obtain ⟨-, hprice⟩ := mem_tradeablePrices.mp (List.argmax_mem hbest)
    exact Prod.Lex.toLex_lt_toLex.mpr (Or.inl (lt_of_le_of_lt (not_lt.mp hpos) hprice))

/-- No integer price trades more than the indicative one. -/
theorem volume_le_of_price (h : (s.computeAuctionIndicative symbol).price = some price) (p : ℤ) :
    s.volumeAt symbol p ≤ s.volumeAt symbol price := by
  obtain ⟨hbest, -⟩ := mem_argmax_of_price h
  obtain ⟨-, hprice⟩ := mem_tradeablePrices.mp (List.argmax_mem hbest)
  by_cases hpos : 0 < s.volumeAt symbol p
  · obtain ⟨bid, hbid, hle⟩ := exists_volume_le shown_pos shown_pos hpos
    refine hle.trans ?_
    by_cases heq : bid.1 = price
    · rw [heq]
      exact le_rfl
    · have hmem : bid.1 ∈ s.displayedPrices symbol :=
        List.mem_map.mpr ⟨bid, List.mem_append_left _ hbid, rfl⟩
      have hlt := rank_lt_of_price h hmem heq
      rcases Prod.Lex.toLex_lt_toLex.mp hlt with hlt | ⟨heq, -⟩
      · exact hlt.le
      · exact heq.le
  · exact (not_lt.mp hpos).trans hprice.le

/-- There is an indicative price exactly where the displayed book is crossed; what it trades is
the most that any price trades, and it comes first among the displayed prices. -/
theorem indicative_optimal (s : MatchingEngine) (symbol : Symbol) :
    let indicative := s.computeAuctionIndicative symbol
    (indicative.price = none ↔ ¬ s.Crossed symbol) ∧
    ∀ price, indicative.price = some price →
      IsGreatest (Set.range (s.volumeAt symbol)) indicative.qty ∧
      indicative.qty = s.volumeAt symbol price ∧
      price ∈ s.displayedPrices symbol ∧
      (∀ other ∈ s.displayedPrices symbol, other ≠ price →
        s.rankAt symbol other < s.rankAt symbol price) ∧
      indicative.imbalance = s.imbalanceAt symbol price := by
  intro indicative
  refine ⟨indicative_eq_none, fun price hprice => ?_⟩
  obtain ⟨hbest, heq⟩ := mem_argmax_of_price hprice
  have hqty : indicative.qty = s.volumeAt symbol price := congrArg AuctionIndicative.qty heq
  refine ⟨⟨⟨price, hqty.symm⟩, ?_⟩, hqty, (mem_tradeablePrices.mp (List.argmax_mem hbest)).1, ?_,
    congrArg AuctionIndicative.imbalance heq⟩
  · rintro _ ⟨p, rfl⟩
    rw [hqty]
    exact volume_le_of_price hprice p
  · exact fun other hother hne => rank_lt_of_price hprice hother hne

end Optimal
end MatchingEngine
end Tes
