import Tes.Ledger.Journal

/-! The account ledger as a journal of reserves: which fills, auction trades and resting orders
move an account's reserves otherwise than its ledger entries say. -/
namespace Tes
open OrderBook MatchingEngine EStateM

/-- What an account reserves, as the ledger tells it apart: cash, for bids and short sales
together, or units of a symbol. -/
inductive Pledge
  | margin
  | units (symbol : Symbol)
  deriving DecidableEq

def AccountSnapshot.pledged (account : AccountSnapshot) : Pledge → ℤ
  | .margin => account.reservedCash + account.reservedShortMargin
  | .units symbol => account.reservedQty symbol

def AccountLedgerEntry.pledgeDelta (entry : AccountLedgerEntry) : Pledge → ℤ
  | .margin => entry.reservedCashDelta
  | .units symbol => if entry.symbol = symbol then entry.reservedPositionDelta else 0

/-- The sum of the reserve deltas of an account's entries. -/
def pledgesTotal (ledger : List AccountLedgerEntry) (a : AccountId) (p : Pledge) : ℤ :=
  ((ledger.filter fun entry => entry.accountId = a).map fun entry => entry.pledgeDelta p).sum

/-- The part of the three reserves of an order on `symbol` that a pledge covers. -/
def pledgePart (symbol : Symbol) (amount : ReserveKind → ℤ) : Pledge → ℤ
  | .margin => amount .cash + amount .shortMargin
  | .units symbol' => if symbol' = symbol then amount .qty else 0

/-- What the maker's ledger entry says that a fill releases. -/
def Taker.booksReleased (t : Taker) (fill : FillResult) : ReserveKind → ℤ
  | .cash => if t.side = .ask then fill.price * fill.qty else 0
  | .qty => if t.side = .bid then fill.qty else 0
  | .shortMargin => 0

namespace MatchingEngine

/-- What a trade of `qty` releases for the owner of the order `id`. -/
def released (s : MatchingEngine) (symbol : Symbol) (side : Side) (id : OrderId) (qty : ℤ)
    (a : AccountId) (p : Pledge) : ℤ :=
  if a = s.ownerAccountId id then
    pledgePart symbol (fun kind => -(s.makerDelta side id qty (s.ownedQty id qty) kind)) p
  else 0

/-- What an account reserves beyond what its ledger entries add up to. -/
def drift (s : MatchingEngine) (a : AccountId) (p : Pledge) : ℤ :=
  (s.account a).pledged p - pledgesTotal s.accountLedger a p

instance (s : MatchingEngine) (symbol : Symbol) (a b : AccountId) :
    Decidable (s.InvariantsHold symbol a b) :=
  decidable_of_iff (((s.accounts.lookup a ≠ none ∧ s.accounts.lookup b ≠ none) ∧
      (0 ≤ (s.account a).reservedCash ∧ 0 ≤ (s.account b).reservedCash)) ∧
    (0 ≤ (s.account a).reservedShortMargin ∧ 0 ≤ (s.account b).reservedShortMargin) ∧
      (0 ≤ (s.account a).reservedQty symbol ∧ 0 ≤ (s.account b).reservedQty symbol))
    ⟨fun ⟨⟨hpresent, hcash⟩, hshort, hqty⟩ => ⟨hpresent, hcash, hshort, hqty⟩,
      fun h => ⟨⟨h.present, h.cash⟩, h.shortMargin, h.qty⟩⟩

end MatchingEngine

/-- What an operation does to reserves, with the state it does it in. -/
inductive Move
  /-- A fill inside the price band. -/
  | fill (s : MatchingEngine) (t : Taker) (trade : FillResult)
  /-- A fill outside the price band. -/
  | breach (s : MatchingEngine) (t : Taker) (trade : FillResult)
  | auction (s : MatchingEngine) (symbol : Symbol) (bidId askId : OrderId) (qty : ℤ)
  | rest (s : MatchingEngine) (t : Taker)

/-- What a move adds to the reserves of an account beyond what it adds to the ledger. -/
def Move.unjournaled : Move → AccountId → Pledge → ℤ
  | .fill s t trade, a, p =>
    (if a = s.ownerAccountId trade.makerId then pledgePart t.symbol (t.booksReleased trade) p
      else 0) - s.released t.symbol t.side.opposite trade.makerId trade.qty a p
  | .breach s t trade, a, p => -s.released t.symbol t.side.opposite trade.makerId trade.qty a p
  | .auction s symbol bidId askId qty, a, p =>
    -s.released symbol .bid bidId qty a p - s.released symbol .ask askId qty a p
  | .rest s t, a, p =>
    -- the entry of a short sale names its margin even where that is negative and none is reserved
    if a = t.accountId ∧ t.side = .ask ∧ p = .margin then
      max 0 (s.shortReserveOf t.accountId t.symbol t.price t.remaining) -
        s.shortReserveOf t.accountId t.symbol t.price t.remaining
    else 0

def unjournaledAll (moves : List Move) (a : AccountId) (p : Pledge) : ℤ :=
  (moves.map fun move => move.unjournaled a p).sum

/-- What is left of an order rests, unless it expires. -/
def Taker.remainderMoves (t : Taker) (s : MatchingEngine) : List Move :=
  if 0 < t.remaining ∧ t.tif ≠ .ioc then [.rest s t] else []

/-- The fills of an order that matches, as the match loop makes them, and its rest. -/
def matchMoves : ℕ → MatchingEngine → Taker → List Move
  | 0, s, t => t.remainderMoves s
  | fuel + 1, s, t =>
    match s.nextFill t with
    | none => t.remainderMoves s
    | some (fill, book) =>
      if s.priceInBand t.symbol fill.price then
        .fill s t fill ::
          if (s.journaled t fill book).InvariantsHold t.symbol t.accountId
              (s.ownerAccountId fill.makerId) then
            matchMoves fuel (s.filled t fill book) (t.after fill)
          else []
      else .breach s t fill :: (t.after fill).remainderMoves (s.breached t fill book)

/-- The moves of an order that is let in. -/
def Entry.moves (e : Entry) : List Move :=
  if e.1.inAuction e.2.symbol then [.rest e.1 e.2]
  else matchMoves e.2.remaining.toNat e.1 e.2

/-- The trades of an auction at `price`, as the auction loop makes them. -/
def auctionMoves (symbol : Symbol) (price : ℤ) : ℕ → MatchingEngine → ℤ → List Move
  | 0, _, _ => []
  | fuel + 1, s, remaining =>
    match nextAuctionQty (s.bookFor symbol) price remaining with
    | none => []
    | some traded =>
      let (bid, book) := auctionFill (s.bookFor symbol) .bid price traded
      let (ask, book) := auctionFill book .ask price traded
      match bid, ask with
      | some bid, some ask =>
        let s' := s.auctionTraded symbol price traded bid.makerId ask.makerId book
        .auction s symbol bid.makerId ask.makerId traded ::
          if s'.InvariantsHold symbol (s.ownerAccountId bid.makerId) (s.ownerAccountId ask.makerId)
          then auctionMoves symbol price fuel s' (remaining - traded)
          else []
      | _, _ => []

def MatchingEngine.uncrossMoves (s : MatchingEngine) (symbol : Symbol) : List Move :=
  let indicative := s.computeAuctionIndicative symbol
  match indicative.price with
  | none => []
  | some price =>
    if s.priceInBand symbol price then
      auctionMoves symbol price indicative.qty.toNat s indicative.qty
    else []

/-- The moves of an operation. -/
def Op.moves (op : Op) (s : MatchingEngine) : List Move :=
  match op with
  | .uncross symbol => s.uncrossMoves symbol
  | _ => (op.entries s).flatMap Entry.moves

/-- For each account, what the operation does to reserves beyond the ledger adds up to nothing. -/
def Op.Balanced (op : Op) (s : MatchingEngine) : Prop :=
  ∀ a p, unjournaledAll (op.moves s) a p = 0

/-- The entries that the operation appends account for every change of reserves. -/
structure Op.ReservesJournaled (op : Op) (s : MatchingEngine) : Prop where
  cash : ∀ a, pledgesTotal (op.appended s) a .margin =
    ((op.apply s).account a).reservedCash + ((op.apply s).account a).reservedShortMargin -
      ((s.account a).reservedCash + (s.account a).reservedShortMargin)
  position : ∀ a symbol, pledgesTotal (op.appended s) a (.units symbol) =
    ((op.apply s).account a).reservedQty symbol - (s.account a).reservedQty symbol

theorem pledgesTotal_append (ledger more : List AccountLedgerEntry) (a : AccountId) (p : Pledge) :
    pledgesTotal (ledger ++ more) a p = pledgesTotal ledger a p + pledgesTotal more a p := by
  unfold pledgesTotal
  rw [List.filter_append, List.map_append, List.sum_append]

theorem pledgesTotal_singleton (entry : AccountLedgerEntry) (a : AccountId) (p : Pledge) :
    pledgesTotal [entry] a p = if entry.accountId = a then entry.pledgeDelta p else 0 := by
  unfold pledgesTotal
  by_cases h : entry.accountId = a <;> simp [h]

theorem AccountSnapshot.pledged_eq (account : AccountSnapshot) (p : Pledge) (symbol : Symbol) :
    account.pledged p = match p with
      | .margin => account.reserved symbol .cash + account.reserved symbol .shortMargin
      | .units symbol' => account.reserved symbol' .qty := by
  cases p <;> rfl

theorem pledgePart_neg (symbol : Symbol) (amount : ReserveKind → ℤ) (p : Pledge) :
    pledgePart symbol (fun kind => -amount kind) p = -pledgePart symbol amount p := by
  cases p with
  | margin => simp only [pledgePart]; omega
  | units symbol' => simp only [pledgePart]; split_ifs <;> omega

/-- From `s` to `s'` reserves move by `delta` beyond what the ledger gains. -/
def Drifts (s s' : MatchingEngine) (delta : AccountId → Pledge → ℤ) : Prop :=
  ∀ a p, s'.drift a p = s.drift a p + delta a p

/-- Reserves move as the ledger says. -/
def Steady (s s' : MatchingEngine) : Prop := Drifts s s' fun _ _ => 0

section Drifts
variable {s s' s'' : MatchingEngine} {delta delta' : AccountId → Pledge → ℤ}

theorem Drifts.trans (h : Drifts s s' delta) (h' : Drifts s' s'' delta') :
    Drifts s s'' fun a p => delta a p + delta' a p := fun a p => by
  rw [h' a p, h a p]
  exact add_assoc _ _ _

theorem Drifts.congr (h : Drifts s s' delta) (hdelta : ∀ a p, delta a p = delta' a p) :
    Drifts s s' delta' := fun a p => by rw [h a p, hdelta]

theorem Steady.trans (h : Steady s s') (h' : Steady s' s'') : Steady s s'' :=
  (Drifts.trans h h').congr fun _ _ => add_zero 0

theorem Drifts.steady (h : Drifts s s' delta) (h' : Steady s' s'') : Drifts s s'' delta :=
  (h.trans h').congr fun _ _ => add_zero _

theorem Steady.of_reserved (hledger : s'.accountLedger = s.accountLedger)
    (hreserved : ∀ kind a symbol, (s'.account a).reserved symbol kind =
      (s.account a).reserved symbol kind) : Steady s s' := fun a p => by
  unfold drift
  rw [hledger, AccountSnapshot.pledged_eq _ p defaultSymbol,
    AccountSnapshot.pledged_eq _ p defaultSymbol]
  cases p <;> simp only [hreserved] <;> omega

theorem Steady.of_accounts (hledger : s'.accountLedger = s.accountLedger)
    (haccounts : s'.accounts = s.accounts) : Steady s s' :=
  .of_reserved hledger fun kind a symbol => by rw [account_of_accounts haccounts]

theorem Steady.refl (s : MatchingEngine) : Steady s s := .of_accounts rfl rfl

/-- The reserves of one account move. -/
theorem pledged_of_reserved {b : AccountId} {symbol : Symbol} {amount : ReserveKind → ℤ}
    (h : ∀ kind a symbol', (s'.account a).reserved symbol' kind =
      (s.account a).reserved symbol' kind +
        if a = b ∧ (kind = .qty → symbol' = symbol) then amount kind else 0)
    (a : AccountId) (p : Pledge) : (s'.account a).pledged p =
      (s.account a).pledged p + if a = b then pledgePart symbol amount p else 0 := by
  rw [AccountSnapshot.pledged_eq _ p symbol, AccountSnapshot.pledged_eq _ p symbol]
  cases p with
  | margin =>
    simp only [h, pledgePart, reduceCtorEq, false_implies, and_true]
    split_ifs <;> omega
  | units symbol' =>
    simp only [h, pledgePart, forall_const]
    split_ifs <;> first | omega | (exfalso; tauto)

theorem pledgesTotal_appendLedgerEntry (s : MatchingEngine) (entry : AccountLedgerEntry)
    (a : AccountId) (p : Pledge) : pledgesTotal (s.appendLedgerEntry entry).accountLedger a p =
      pledgesTotal s.accountLedger a p + if entry.accountId = a then entry.pledgeDelta p else 0 := by
  rw [appendLedgerEntry, pledgesTotal_append, pledgesTotal_singleton]
  cases p <;> rfl

/-- The reserves of one account move, and the ledger does not say so. -/
theorem drifts_of_reserved {b : AccountId} {symbol : Symbol} {amount : ReserveKind → ℤ}
    (hledger : s'.accountLedger = s.accountLedger)
    (hreserved : ∀ kind a symbol', (s'.account a).reserved symbol' kind =
      (s.account a).reserved symbol' kind +
        if a = b ∧ (kind = .qty → symbol' = symbol) then amount kind else 0) :
    Drifts s s' fun a p => if a = b then pledgePart symbol amount p else 0 := fun a p => by
  unfold drift
  rw [hledger, pledged_of_reserved hreserved]
  exact add_sub_right_comm _ _ _

/-- The reserves of one account move, and an entry goes on the ledger. -/
theorem drifts_booked {entry : AccountLedgerEntry} {b : AccountId} {symbol : Symbol}
    {amount : ReserveKind → ℤ}
    (hledger : s'.accountLedger = (s.appendLedgerEntry entry).accountLedger)
    (hreserved : ∀ kind a symbol', (s'.account a).reserved symbol' kind =
      (s.account a).reserved symbol' kind +
        if a = b ∧ (kind = .qty → symbol' = symbol) then amount kind else 0) :
    Drifts s s' fun a p => (if a = b then pledgePart symbol amount p else 0) -
      if entry.accountId = a then entry.pledgeDelta p else 0 := fun a p => by
  unfold drift
  rw [hledger, pledged_of_reserved hreserved, pledgesTotal_appendLedgerEntry]
  exact add_sub_add_comm _ _ _ _

theorem drifts_appendLedgerEntry (s : MatchingEngine) (entry : AccountLedgerEntry) :
    Drifts s (s.appendLedgerEntry entry) fun a p =>
      -if entry.accountId = a then entry.pledgeDelta p else 0 := fun a p => by
  have haccount : (s.appendLedgerEntry entry).account a = s.account a := rfl
  unfold drift
  rw [haccount, pledgesTotal_appendLedgerEntry]
  exact (sub_add_eq_sub_sub _ _ _).trans (sub_eq_add_neg _ _)

/-- An entry that moves no reserves. -/
theorem steady_appendLedgerEntry (s : MatchingEngine) {entry : AccountLedgerEntry}
    (hcash : entry.reservedCashDelta = 0) (hposition : entry.reservedPositionDelta = 0) :
    Steady s (s.appendLedgerEntry entry) :=
  (drifts_appendLedgerEntry s entry).congr fun a p => by
    cases p <;> simp [AccountLedgerEntry.pledgeDelta, hcash, hposition]

theorem steady_journalFee (s : MatchingEngine) (a : AccountId) (symbol : Symbol) (fee : ℤ)
    (id other : OrderId) : Steady s (s.journalFee a symbol fee id other) := by
  unfold journalFee
  split_ifs
  · exact steady_appendLedgerEntry s rfl rfl
  · exact .refl s

end Drifts

namespace MatchingEngine
variable {s s' : MatchingEngine} {t : Taker} {fill : FillResult}

/-- A release for a trade, which the ledger says nothing of. -/
theorem drifts_releases {r : MatchingEngine} {symbol : Symbol} {side : Side} {id : OrderId} {qty : ℤ}
    (hledger : s'.accountLedger = s.accountLedger)
    (hreserved : ∀ kind a symbol', (s'.account a).reserved symbol' kind =
      (s.account a).reserved symbol' kind +
        if a = r.ownerAccountId id ∧ (kind = .qty → symbol' = symbol) then
          r.makerDelta side id qty (r.ownedQty id qty) kind else 0) :
    Drifts s s' fun a p => -r.released symbol side id qty a p :=
  (drifts_of_reserved hledger hreserved).congr fun a p => by
    unfold released
    rw [pledgePart_neg]
    split_ifs <;> omega

theorem drifts_settleFill (hqty : 0 ≤ fill.qty) (book : OrderBook) :
    Drifts s (s.settleFill t fill book) fun a p =>
      -s.released t.symbol t.side.opposite fill.makerId fill.qty a p := by
  have hjournal := journal_of_unfunded (unfunded_settleFill s t fill book)
  refine drifts_releases (congrArg Prod.fst hjournal) fun kind b symbol => ?_
  have hpaid : ((s.paid t fill book).account b).reserved symbol kind =
      (s.account b).reserved symbol kind := reserved_exchange _ _ _ _ _ _ _ _ _ _
  rw [((settleFill_frees s t hqty book).shifts kind).reserved, hpaid]

/-- The ledger entries of a fill tell of the maker's reserves. -/
theorem drifts_journalFill (s : MatchingEngine) (t : Taker) (fill : FillResult) (maker : AccountId) :
    Drifts s (s.journalFill t fill maker) fun a p =>
      if a = maker then pledgePart t.symbol (t.booksReleased fill) p else 0 := by
  unfold journalFill
  refine (((drifts_appendLedgerEntry s _).trans (drifts_appendLedgerEntry _ _)).steady
    ((steady_journalFee _ _ _ _ _ _).trans (steady_journalFee _ _ _ _ _ _))).congr fun a p => ?_
  have hmaker : (maker = a) = (a = maker) := propext eq_comm
  cases p with
  | margin =>
    cases hside : t.side with
    | bid => simp [AccountLedgerEntry.pledgeDelta, pledgePart, Taker.booksReleased, hside]
    | ask =>
      simp only [AccountLedgerEntry.pledgeDelta, pledgePart, Taker.booksReleased, hside, hmaker]
      by_cases ha : a = maker <;> simp [ha]
  | units symbol =>
    have hsymbol : (t.symbol = symbol) = (symbol = t.symbol) := propext eq_comm
    cases hside : t.side with
    | bid =>
      simp only [AccountLedgerEntry.pledgeDelta, pledgePart, Taker.booksReleased, hside, hmaker,
        hsymbol]
      by_cases ha : a = maker <;> by_cases hs : symbol = t.symbol <;> simp [ha, hs]
    | ask => simp [AccountLedgerEntry.pledgeDelta, pledgePart, Taker.booksReleased, hside]

theorem drifts_journaled (hqty : 0 ≤ fill.qty) (book : OrderBook) :
    Drifts s (s.journaled t fill book) ((Move.fill s t fill).unjournaled) :=
  ((drifts_settleFill hqty book).trans (drifts_journalFill _ t fill _)).congr fun _ _ =>
    neg_add_eq_sub _ _

theorem drifts_filled (hqty : 0 ≤ fill.qty) (book : OrderBook) :
    Drifts s (s.filled t fill book) ((Move.fill s t fill).unjournaled) :=
  (drifts_journaled hqty book).steady (.of_accounts
    (read_updateOwner MatchingEngine.accountLedger (fun _ _ => rfl) _ fill)
    (accounts_updateOwner _ _))

theorem drifts_breached (hqty : 0 ≤ fill.qty) (book : OrderBook) :
    Drifts s (s.breached t fill book) ((Move.breach s t fill).unjournaled) :=
  (drifts_settleFill hqty book).steady (.of_accounts rfl rfl)

/-- Both releases of an auction trade are left off the ledger. -/
theorem drifts_auctionTraded (s : MatchingEngine) (symbol : Symbol) (price : ℤ) {traded : ℤ}
    (hqty : 0 ≤ traded) (bidId askId : OrderId) (book : OrderBook) :
    Drifts s (s.auctionTraded symbol price traded bidId askId book)
      ((Move.auction s symbol bidId askId traded).unjournaled) := by
  obtain ⟨hbid, hask⟩ := (s.setBook symbol book).settleAuction_frees symbol bidId askId price hqty
  have hfirst : Drifts s ((s.setBook symbol book).bidReleased symbol bidId askId price traded)
      fun a p => -(s.setBook symbol book).released symbol .bid bidId traded a p := by
    have hjournal : ((s.setBook symbol book).bidReleased symbol bidId askId price traded).journal =
        s.journal := (journal_of_unfunded (unfunded_releaseCash _ _ _ _ _)).trans rfl
    refine drifts_releases (congrArg Prod.fst hjournal) fun kind a symbol' => ?_
    rw [(hbid.shifts kind).reserved, reserved_exchange]
    rfl
  have hjournaled : ((s.setBook symbol book).settleAuction symbol bidId askId price
      traded).unjournaled = ((s.setBook symbol book).auctionReleased symbol bidId askId price
        traded).unjournaled := unjournaled_settleAuction _ _ _ _ _ _
  have hsecond : Drifts ((s.setBook symbol book).bidReleased symbol bidId askId price traded)
      ((s.setBook symbol book).auctionReleased symbol bidId askId price traded)
      fun a p => -(s.setBook symbol book).released symbol .ask askId traded a p := by
    have hjournal : ((s.setBook symbol book).auctionReleased symbol bidId askId price traded).journal =
        ((s.setBook symbol book).bidReleased symbol bidId askId price traded).journal := by
      change ((((s.setBook symbol book).bidReleased symbol bidId askId price traded).releaseQty _ _ _
        _).releaseShortMargin _ _ _ _).journal = _
      exact journal_of_unfunded
        ((unfunded_releaseShortMargin _ _ _ _ _).trans (unfunded_releaseQty _ _ _ _ _))
    refine drifts_releases (congrArg Prod.fst hjournal) fun kind a symbol' => ?_
    rw [← account_of_money (money_of_unjournaled hjournaled), (hask.shifts kind).reserved]
  have hentries : Steady ((s.setBook symbol book).auctionReleased symbol bidId askId price traded)
      ((s.setBook symbol book).settleAuction symbol bidId askId price traded) :=
    ((steady_appendLedgerEntry _ rfl rfl).trans (steady_appendLedgerEntry _ rfl rfl)).trans
      ((steady_journalFee _ _ _ _ _ _).trans (steady_journalFee _ _ _ _ _ _))
  have howners : Steady ((s.setBook symbol book).settleAuction symbol bidId askId price traded)
      (s.auctionTraded symbol price traded bidId askId book) := by
    refine .of_accounts ?_ ?_
    · rw [auctionTraded, read_reduceOwner MatchingEngine.accountLedger fun _ _ => rfl,
        read_reduceOwner MatchingEngine.accountLedger fun _ _ => rfl]
    · rw [auctionTraded, accounts_reduceOwner, accounts_reduceOwner]
  exact ((hfirst.trans hsecond).steady (hentries.trans howners)).congr fun _ _ => rfl

/-- A resting order goes on the ledger with what it reserves, but for a negative short margin. -/
theorem drifts_rested (s : MatchingEngine) {t : Taker} (hpos : 0 ≤ t.remaining) :
    Drifts s (t.rested s) (Move.rest s t).unjournaled := by
  have hreserved := fun kind => (rested_sets (s := s) hpos kind).reserved
  cases hside : t.side with
  | bid =>
    have hledger : (t.rested s).accountLedger = (s.appendLedgerEntry
        { accountId := t.accountId, symbol := t.symbol, reason := "order_accepted_reserve",
          reservedCashDelta := t.reserve s .cash, relatedOrderId := some t.id }).accountLedger := by
      unfold Taker.reserve
      rw [rested_bid hside, hside]
      rfl
    refine (drifts_booked hledger hreserved).congr fun a p => ?_
    cases p <;> simp [Move.unjournaled, pledgePart, AccountLedgerEntry.pledgeDelta, Taker.reserve,
      hside, eq_comm (a := a)]
  | ask =>
    have hledger : (t.rested s).accountLedger = (s.appendLedgerEntry
        { accountId := t.accountId, symbol := t.symbol, reason := "order_accepted_reserve",
          reservedCashDelta := s.shortReserveOf t.accountId t.symbol t.price t.remaining,
          reservedPositionDelta := s.longReserveOf t.accountId t.symbol t.remaining,
          relatedOrderId := some t.id }).accountLedger := by
      have hstill := still_openSymbol (t.ownedIn s) t.accountId t.symbol
      have hlong := longReserveOf_congr t.accountId t.symbol hstill t.remaining
      have hlong' : (t.ownedIn s).longReserveOf t.accountId t.symbol t.remaining =
        s.longReserveOf t.accountId t.symbol t.remaining := rfl
      rw [rested_ask hside, reserveSell, hlong, hlong']
      unfold reserveShort reserveLong
      split_ifs <;> rfl
    refine (drifts_booked hledger hreserved).congr fun a p => ?_
    have haccount : (t.accountId = a) = (a = t.accountId) := propext eq_comm
    have hshort : s.shortMarginReserve t.accountId t.symbol t.price
        (t.remaining - s.longReserveOf t.accountId t.symbol t.remaining) =
        s.shortReserveOf t.accountId t.symbol t.price t.remaining := rfl
    cases p with
    | margin =>
      simp only [Move.unjournaled, pledgePart, AccountLedgerEntry.pledgeDelta, Taker.reserve, hside,
        haccount, hshort]
      by_cases ha : a = t.accountId <;> simp [ha]
    | units symbol =>
      have hsymbol : (t.symbol = symbol) = (symbol = t.symbol) := propext eq_comm
      simp only [Move.unjournaled, pledgePart, AccountLedgerEntry.pledgeDelta, Taker.reserve, hside,
        haccount, hsymbol]
      by_cases ha : a = t.accountId <;> by_cases hs : symbol = t.symbol <;> simp [ha, hs]

/-- What a cancel releases goes on the ledger. -/
theorem steady_release (kind : ReserveKind) {a : AccountId} {symbol : Symbol} {id : OrderId}
    {cash qty reserved : ℤ}
    (hledger : s'.accountLedger =
      (s.appendLedgerEntry (cancelRelease a symbol id cash qty)).accountLedger)
    (haccounts : s'.accounts =
      (s.updateAccount a fun account => account.hold symbol (-reserved) kind).accounts)
    (hcash : cash = kind.only reserved .cash + kind.only reserved .shortMargin)
    (hqty : qty = kind.only reserved .qty) : Steady s s' := by
  have hreserved : ∀ k b symbol', (s'.account b).reserved symbol' k =
      (s.account b).reserved symbol' k +
        if b = a ∧ (k = .qty → symbol' = symbol) then kind.only (-reserved) k else 0 :=
    fun k b symbol' => by
      rw [account_of_accounts haccounts, account_updateAccount]
      by_cases hb : b = a
      · rw [if_pos hb, AccountSnapshot.reserved_hold]
        simp only [hb, true_and]
      · rw [if_neg hb, if_neg fun h => hb h.1, add_zero]
  refine (drifts_booked hledger hreserved).congr fun b p => ?_
  subst hcash hqty
  unfold pledgePart AccountLedgerEntry.pledgeDelta cancelRelease ReserveKind.only
  cases p with
  | margin => cases kind <;> simp [eq_comm (a := b)]
  | units symbol' => cases kind <;> simp [eq_comm (a := b), eq_comm (a := symbol')]

theorem steady_cancelResting (s : MatchingEngine) (a : AccountId) (symbol : Symbol) (id : OrderId) :
    Steady s (s.cancelResting a symbol id) := by
  have hcash : ∀ s : MatchingEngine, Steady s (s.cancelCash a symbol id) := fun s => by
    unfold cancelCash
    split
    · exact .refl s
    · exact steady_release .cash rfl rfl (by simp [ReserveKind.only]) rfl
  have hqty : ∀ s : MatchingEngine, Steady s (s.cancelQty a symbol id) := fun s => by
    unfold cancelQty
    split
    · exact .refl s
    · exact steady_release .qty rfl rfl rfl rfl
  have hshort : ∀ s : MatchingEngine, Steady s (s.cancelShortMargin a symbol id) := fun s => by
    unfold cancelShortMargin
    split
    · exact .refl s
    · exact steady_release .shortMargin rfl rfl (by simp [ReserveKind.only]) rfl
  have hbook : Steady s (s.setBook symbol ((s.bookFor symbol).cancel id).2) := .of_accounts rfl rfl
  have hreleased := ((hbook.trans (hcash _)).trans (hqty _)).trans (hshort _)
  exact hreleased.trans (.of_accounts rfl rfl)

theorem steady_trackEvents (s : MatchingEngine) (events : List Event) :
    Steady s (s.trackEvents events) :=
  .of_accounts (congrArg Prod.fst (journal_trackEvents s events))
    (accounts_of_money (money_of_unjournaled (unjournaled_trackEvents s events)))

theorem steady_touchAccount (s : MatchingEngine) (a : AccountId) (symbol : Symbol) :
    Steady s (s.touchAccount a symbol) :=
  .of_reserved rfl fun kind b symbol' => reserved_touchAccount s a b symbol symbol' kind

end MatchingEngine

section Matching
variable {G : Guard} {symbol : Symbol} {s s' s'' : MatchingEngine} {t t' : Taker}
  {events rested : List Event} {entries : List Entry}

theorem unjournaledAll_cons (move : Move) (moves : List Move) (a : AccountId) (p : Pledge) :
    unjournaledAll (move :: moves) a p = move.unjournaled a p + unjournaledAll moves a p := by
  unfold unjournaledAll
  rw [List.map_cons, List.sum_cons]

theorem unjournaledAll_append (moves more : List Move) (a : AccountId) (p : Pledge) :
    unjournaledAll (moves ++ more) a p = unjournaledAll moves a p + unjournaledAll more a p := by
  unfold unjournaledAll
  rw [List.map_append, List.sum_append]

/-- One move, then more. -/
theorem Drifts.cons {move : Move} {moves : List Move} (h : Drifts s s' move.unjournaled)
    (h' : Drifts s' s'' (unjournaledAll moves)) : Drifts s s'' (unjournaledAll (move :: moves)) :=
  (h.trans h').congr fun a p => (unjournaledAll_cons move moves a p).symm

/-- One move. -/
theorem Drifts.single {move : Move} (h : Drifts s s' move.unjournaled) :
    Drifts s s' (unjournaledAll [move]) := h.cons (Steady.refl s')

theorem Finishes.drifts (h : Finishes s t rested s') :
    Drifts s s' (unjournaledAll (t.remainderMoves s)) := by
  cases h with
  | rest hpos htif =>
    rw [Taker.remainderMoves, if_pos ⟨hpos, htif⟩]
    exact (drifts_rested s hpos.le).single
  | expire hpos htif =>
    rw [Taker.remainderMoves, if_neg fun h => h.2 htif]
    exact steady_appendLedgerEntry s rfl rfl
  | done hdone =>
    rw [Taker.remainderMoves, if_neg fun h => absurd h.1 (not_lt.mpr hdone)]
    exact Steady.refl s

theorem wellFormed_filled {fill : FillResult} {book : OrderBook} {maker : Order} {rest : List Order}
    (hfill : BestFill (s.bookFor t.symbol) book t.side.opposite t.remaining fill maker rest) :
    ((s.filled t fill book).bookFor (t.after fill).symbol).WellFormed := by
  rw [bookFor_filled]
  exact (if_pos (rfl : (t.after fill).symbol = t.symbol)) ▸ hfill.wellFormed_after

/-- Some unit is left where there is a fill. -/
theorem remaining_pos_of_nextFill {next : FillResult × OrderBook} (h : s.nextFill t = some next) :
    0 < t.remaining := by
  unfold nextFill at h
  split_ifs at h with hpos
  exact hpos

theorem matchMoves_done {fuel : ℕ} (hnext : s.nextFill t = none) :
    matchMoves fuel s t = t.remainderMoves s := by
  cases fuel with
  | zero => rfl
  | succ fuel => rw [matchMoves, hnext]

/-- With fuel enough for the order, its moves go on past a fill, with fuel enough for what is left. -/
theorem matchMoves_next {fuel : ℕ} {fill : FillResult} {book : OrderBook}
    (hnext : s.nextFill t = some (fill, book)) (hqty : 0 < fill.qty) (hfuel : t.remaining ≤ fuel) :
    ∃ n : ℕ, (t.after fill).remaining ≤ n ∧ matchMoves fuel s t =
      if s.priceInBand t.symbol fill.price then
        .fill s t fill ::
          if (s.journaled t fill book).InvariantsHold t.symbol t.accountId
              (s.ownerAccountId fill.makerId) then
            matchMoves n (s.filled t fill book) (t.after fill)
          else []
      else .breach s t fill :: (t.after fill).remainderMoves (s.breached t fill book) := by
  have hpos := remaining_pos_of_nextFill hnext
  cases fuel with
  | zero => exact absurd hfuel (by push_cast; omega)
  | succ fuel =>
    have hleft : t.remaining - fill.qty ≤ fuel := by
      push_cast at hfuel
      omega
    exact ⟨fuel, hleft, by rw [matchMoves, hnext]⟩

/-- The quantity of the order is fuel enough for its moves. -/
theorem Matches.drifts {fuel : ℕ} (h : Matches s t events s' t')
    (hb : (s.bookFor t.symbol).WellFormed) (hfinishes : Finishes s' t' rested s'')
    (hfuel : t.remaining ≤ fuel) : Drifts s s'' (unjournaledAll (matchMoves fuel s t)) := by
  induction h generalizing fuel with
  | @done s t hnext =>
    rw [matchMoves_done hnext]
    exact hfinishes.drifts
  | @breach s t fill book hnext hband =>
    obtain ⟨maker, rest, hfill, -⟩ := nextFill_some hb hnext
    obtain ⟨n, -, hmoves⟩ := matchMoves_next hnext hfill.fill_qty_pos hfuel
    rw [hmoves, if_neg hband]
    exact (drifts_breached hfill.fill_qty_pos.le book).cons hfinishes.drifts
  | @fill s s' t t' fill book events hnext hband hhold _ ih =>
    obtain ⟨maker, rest, hfill, -⟩ := nextFill_some hb hnext
    obtain ⟨n, hleft, hmoves⟩ := matchMoves_next hnext hfill.fill_qty_pos hfuel
    rw [hmoves, if_pos hband, if_pos hhold]
    exact (drifts_filled hfill.fill_qty_pos.le book).cons
      (ih (wellFormed_filled hfill) hfinishes hleft)

/-- A fill that fails the engine's assertion is the last move. -/
theorem Fails.drifts {fuel : ℕ} (h : Fails s t s') (hb : (s.bookFor t.symbol).WellFormed)
    (hfuel : t.remaining ≤ fuel) : Drifts s s' (unjournaledAll (matchMoves fuel s t)) := by
  induction h generalizing fuel with
  | @abort s t fill book hnext hband hhold =>
    obtain ⟨maker, rest, hfill, -⟩ := nextFill_some hb hnext
    obtain ⟨n, -, hmoves⟩ := matchMoves_next hnext hfill.fill_qty_pos hfuel
    rw [hmoves, if_pos hband, if_neg hhold]
    exact (drifts_journaled hfill.fill_qty_pos.le book).single
  | @fill s s' t fill book hnext hband hhold _ ih =>
    obtain ⟨maker, rest, hfill, -⟩ := nextFill_some hb hnext
    obtain ⟨n, hleft, hmoves⟩ := matchMoves_next hnext hfill.fill_qty_pos hfuel
    rw [hmoves, if_pos hband, if_pos hhold]
    exact (drifts_filled hfill.fill_qty_pos.le book).cons (ih (wellFormed_filled hfill) hleft)

theorem inAuction_entry {e : Entry} (h : e.1.inAuction e.2.symbol) : e.moves = [.rest e.1 e.2] := by
  rw [Entry.moves, if_pos h]

theorem matching_entry {e : Entry} (h : ¬ e.1.inAuction e.2.symbol) :
    e.moves = matchMoves e.2.remaining.toNat e.1 e.2 := by
  rw [Entry.moves, if_neg h]

theorem Placing.drifts (hs : s.Sound G) (h : Placing G symbol s events entries s') :
    Drifts s s' (unjournaledAll (entries.flatMap Entry.moves)) := by
  cases h with
  | touch => exact steady_touchAccount s _ symbol
  | report => exact Steady.refl s
  | audit haudit => exact steady_appendLedgerEntry s haudit.reservedCash haudit.reservedPosition
  | @restAuction t hsymbol hadmits haccount hphase =>
    rw [List.flatMap_singleton, inAuction_entry hphase]
    exact (drifts_rested s hadmits.inFlight.2.le).single
  | @enter _ _ t _ _ _ hsymbol hadmits haccount hphase hfok hmatches hfinishes =>
    rw [List.flatMap_singleton, matching_entry hphase]
    exact hmatches.drifts (hs.book _) hfinishes (Int.self_le_toNat _)

/-- The guard of operations that run no auction. -/
def noAuction : Guard := { auction := fun _ _ _ => False }

/-- Nothing crosses there. -/
theorem Crosses.eq_of_guard {price qty remaining : ℤ} {steps : List (OrderBook × ℤ)}
    (h : Crosses symbol price s qty events steps s' remaining)
    (hauction : ∀ step ∈ steps, noAuction.auction step.1 price step.2) : s' = s := by
  cases h with
  | refl => rfl
  | trade => exact (hauction _ List.mem_cons_self).elim

theorem Step.drifts (hs : s.Sound noAuction) (h : Step noAuction symbol s events entries s') :
    Drifts s s' (unjournaledAll (entries.flatMap Entry.moves)) := by
  cases h with
  | placing h => exact h.drifts hs
  | track => exact steady_trackEvents s _
  | cancel => exact steady_cancelResting s _ _ _
  | @trigger id stop =>
    have hdropped : Steady s { s.dropStop symbol id with nextOrderId := s.nextOrderId + 1 } :=
      .of_accounts rfl rfl
    exact hdropped.trans (steady_appendLedgerEntry _ rfl rfl)
  | cross hauction hcrosses =>
    rw [hcrosses.eq_of_guard hauction]
    exact Steady.refl s
  | _ => exact Steady.of_accounts rfl rfl

theorem Steps.drifts (hs : s.Sound noAuction) (h : Steps (Step noAuction symbol) s events entries s') :
    Drifts s s' (unjournaledAll (entries.flatMap Entry.moves)) := by
  induction h with
  | refl => exact Steady.refl _
  | step hr _ ih =>
    refine ((hr.drifts hs).trans (ih (hr.sound hs))).congr fun a p => ?_
    rw [List.flatMap_append, unjournaledAll_append]

theorem Breaks.drifts (hs : s.Sound noAuction) (h : Breaks noAuction symbol s entries s') :
    Drifts s s' (unjournaledAll (entries.flatMap Entry.moves)) := by
  cases h with
  | entry hsymbol hadmits haccount hphase hfok hfails =>
    rw [List.flatMap_singleton, matching_entry hphase]
    exact hfails.drifts (hs.book _) (Int.self_le_toNat _)
  | auction hauction hcrosses =>
    rw [hcrosses.eq_of_guard hauction]
    exact Steady.refl s

theorem Broken.drifts (hs : s.Sound noAuction) (h : Broken noAuction symbol s entries s') :
    Drifts s s' (unjournaledAll (entries.flatMap Entry.moves)) := by
  obtain ⟨events, s₁, made, more, hsteps, hbreaks, rfl⟩ := h
  refine ((hsteps.drifts hs).trans (hbreaks.drifts (hsteps.sound hs))).congr fun a p => ?_
  rw [List.flatMap_append, unjournaledAll_append]

/-- The auction loop makes the moves of the auction. -/
theorem auctionLoop_drifts {price : ℤ} {fuel : ℕ} {remaining : ℤ} (hs : s.Sound G) :
    Outcome (auctionLoop symbol price fuel remaining) s
      (fun _ s' => Drifts s s' (unjournaledAll (auctionMoves symbol price fuel s remaining)))
      fun _ s' => Drifts s s' (unjournaledAll (auctionMoves symbol price fuel s remaining)) := by
  induction fuel generalizing s remaining with
  | zero => exact Steady.refl s
  | succ fuel ih =>
    rw [auctionLoop, auctionMoves]
    simp only [outcome_bind, outcome_get]
    cases hqty : nextAuctionQty (s.bookFor symbol) price remaining with
    | none => exact Steady.refl s
    | some traded =>
      obtain ⟨bid, book₁, ask, book₂, hbid, hask⟩ := auction_fills (hs.book symbol) hqty
      have hbidFill : auctionFill (s.bookFor symbol) .bid price traded = (some bid, book₁) := by
        rw [auctionFill, hbid]
      have haskFill : auctionFill book₁ .ask price traded = (some ask, book₂) := by
        rw [auctionFill, hask]
      dsimp only
      rw [hbidFill]
      dsimp only
      rw [haskFill]
      simp only [settleAuctionTrade, outcome_bind, outcome_get, outcome_set]
      have hs' : (s.auctionTraded symbol price traded bid.makerId ask.makerId book₂).Sound G :=
        (narrows_auctionTraded hs hbid hask).sound hs
      obtain ⟨hpos, -⟩ := nextAuctionQty_some (hs.book symbol) hqty
      have htrade := drifts_auctionTraded s symbol price hpos.le bid.makerId ask.makerId book₂
      by_cases hhold : (s.auctionTraded symbol price traded bid.makerId ask.makerId
          book₂).InvariantsHold symbol (s.ownerAccountId bid.makerId) (s.ownerAccountId ask.makerId)
      · rw [if_pos hhold]
        refine (outcome_assert_of_hold hhold).mpr (outcome_pure.mpr ?_)
        exact (ih hs').mono (fun _ _ h => htrade.cons h) fun _ _ h => htrade.cons h
      · rw [if_neg hhold]
        exact outcome_assert_of_not hhold fun _ => htrade.single

theorem uncross_drifts (hs : s.Sound G) : Outcome (uncross symbol) s
    (fun _ s' => Drifts s s' (unjournaledAll (s.uncrossMoves symbol)))
    fun _ s' => Drifts s s' (unjournaledAll (s.uncrossMoves symbol)) := by
  unfold uncross uncrossMoves
  simp only [outcome_bind, outcome_get]
  cases hprice : (s.computeAuctionIndicative symbol).price with
  | none => exact Steady.refl s
  | some price =>
    dsimp only
    split
    · rename_i hqty
      have hnone : (s.computeAuctionIndicative symbol).qty.toNat = 0 := Int.toNat_of_nonpos hqty
      rw [hnone]
      split_ifs
      · exact Steady.refl s
      · exact Steady.refl s
    · split
      · simp only [outcome_bind, outcome_set, outcome_pure]
        exact Steady.of_accounts rfl rfl
      · rename_i hband
        rw [if_pos (not_not.mp hband), outcome_bind]
        refine (auctionLoop_drifts hs).mono (fun r s₁ hloop => ?_) fun _ _ h => h
        obtain ⟨remaining, trades⟩ := r
        simp only [outcome_bind, outcome_get]
        have hended : Outcome (endAuction symbol) s₁ (fun _ s₂ => Steady s₁ s₂) fun _ _ => False := by
          unfold endAuction
          simp only [outcome_bind, outcome_get]
          split_ifs
          · exact Steady.of_accounts rfl rfl
          · exact Steady.refl s₁
        refine hended.mono (fun ended s₂ hended => ?_) fun _ _ h => h.elim
        simp only [outcome_modify, outcome_pure]
        exact hloop.steady (hended.trans (steady_trackEvents s₂ _))

end Matching

/-! Operations. -/

section Operation
variable {s : MatchingEngine} {op : Op}

theorem Op.guarded_noAuction (hop : ∀ symbol, op ≠ .uncross symbol) : op.Guarded noAuction s where
  account _ _ := trivial
  replace _ _ _ := trivial
  entry _ _ := trivial
  auction step hstep := by
    cases op with
    | uncross symbol => exact absurd rfl (hop symbol)
    | _ => cases hstep

/-- Setups touch neither reserves nor the ledger. -/
theorem Op.setup_steady (hop : op.isSetup) :
    Outcome op.exec s (fun _ s' => Steady s s') fun _ s' => Steady s s' := by
  rcases hop with hsetting | ⟨a, symbol, cash, qty, rfl⟩
  · have hunset : ∀ {s' : MatchingEngine}, s'.unset = s.unset → Steady s s' := fun h =>
      .of_accounts (congrArg (fun s => s.accountLedger) h) (accounts_of_money (money_of_unset h))
    exact (Op.exec_setting hsetting s).mono (fun _ _ h => hunset h.1) fun _ _ h =>
      hunset (by rw [h.1])
  · refine Steady.of_reserved rfl fun kind b symbol' => ?_
    rw [account_updateAccount]
    split_ifs
    · cases kind <;> rfl
    · rfl

/-- Whatever an operation does to reserves beyond the ledger it does by its moves. -/
theorem Op.exec_drifts (hs : s.Sound {}) (op : Op) :
    Drifts s (op.apply s) (unjournaledAll (op.moves s)) := by
  refine (Op.outcome_apply (P := fun s' => Drifts s s' (unjournaledAll (op.moves s)))).mp ?_
  by_cases hsetup : op.isSetup
  · have hmoves : op.moves s = [] := by
      rcases hsetup with hsetting | ⟨a, symbol, cash, qty, rfl⟩
      · cases op <;> first | rfl | exact absurd hsetting id
      · rfl
    rw [hmoves]
    exact Op.setup_steady hsetup
  by_cases huncross : ∃ symbol, op = .uncross symbol
  · obtain ⟨symbol, rfl⟩ := huncross
    exact uncross_drifts hs
  · have hop : ∀ symbol, op ≠ .uncross symbol := fun symbol h => huncross ⟨symbol, h⟩
    have hmoves : op.moves s = (op.entries s).flatMap Entry.moves := by
      cases op with
      | uncross symbol => exact absurd rfl (hop symbol)
      | _ => rfl
    have hs' : s.Sound noAuction := hs.of_guard (fun _ _ => trivial) fun _ _ => trivial
    have hguarded := Op.guarded_noAuction (s := s) hop
    rw [hmoves]
    exact (Op.exec_steps hs' hguarded.account hguarded.replace hguarded.auction
      (fun hsetting => hsetup (Or.inl hsetting)) fun a symbol cash qty h =>
        hsetup (Or.inr ⟨a, symbol, cash, qty, h⟩)).mono (fun _ _ h => h.drifts hs')
      fun _ _ h => h.drifts hs'

/-- The ledger only grows. -/
theorem Op.apply_grows (hs : s.Sound {}) (op : Op) :
    s.accountLedger <+: (op.apply s).accountLedger := by
  by_cases hstate : ∃ b symbol cash qty, op = .setAccountState b symbol cash qty
  · obtain ⟨b, symbol, cash, qty, rfl⟩ := hstate
    exact List.prefix_rfl
  · push Not at hstate
    have hall : Ledgered {} s (op.apply s) (op.entries s) :=
      Op.outcome_apply.mp (Op.exec_ledgered hs (Op.guarded_trivial op s) hstate)
    exact hall.booked.grows

theorem Op.pledgesTotal_appended (h : s.accountLedger <+: (op.apply s).accountLedger)
    (a : AccountId) (p : Pledge) : pledgesTotal (op.appended s) a p =
      pledgesTotal (op.apply s).accountLedger a p - pledgesTotal s.accountLedger a p := by
  obtain ⟨more, hmore⟩ := h
  have happended : op.appended s = more := by
    unfold Op.appended
    rw [← hmore, List.drop_left]
  rw [happended, ← hmore, pledgesTotal_append]
  omega

/-- In runs of such operations the ledger adds up to the reserves. -/
theorem Run.balanced {ops : List (Op × List Event)}
    (h : Run (fun _ s op => op.Balanced s) fresh ops s) (a : AccountId) (p : Pledge) :
    pledgesTotal s.accountLedger a p = (s.account a).pledged p := by
  have hfresh : ∀ a p, fresh.drift a p = 0 := fun a p => by cases p <;> rfl
  have hinvariant := h.invariant (I := fun s => s.Sound {} ∧ ∀ a p, s.drift a p = 0)
    ⟨sound_fresh _, hfresh⟩ fun {ops s op} ⟨hs, hzero⟩ hbalanced => by
      have hnext : (op.apply s).Sound {} ∧ ∀ a p, (op.apply s).drift a p = 0 :=
        ⟨Op.outcome_apply.mp (Op.exec_sound hs (Op.guarded_trivial op s)), fun a p => by
          rw [Op.exec_drifts hs op, hzero, hbalanced, add_zero]⟩
      exact (Op.outcome_apply (P := fun s' => s'.Sound {} ∧ ∀ a p, s'.drift a p = 0)).mpr hnext
  have hdrift := hinvariant.2 a p
  unfold drift at hdrift
  omega

/-- An order comes to rest, and if it is a short sale its margin is not negative. -/
def Move.restsPlainly : Move → Prop
  | .rest s t => 0 ≤ s.shortReserveOf t.accountId t.symbol t.price t.remaining
  | _ => False

instance (move : Move) : Decidable move.restsPlainly :=
  match move with
  | .rest .. => inferInstanceAs (Decidable (_ ≤ _))
  | .fill .. | .breach .. | .auction .. => inferInstanceAs (Decidable False)

/-- Without trades the ledger accounts for everything. -/
theorem Op.balanced_of_rests (h : ∀ move ∈ op.moves s, move.restsPlainly) : op.Balanced s := by
  intro a p
  refine List.sum_eq_zero fun x hx => ?_
  obtain ⟨move, hmove, rfl⟩ := List.mem_map.mp hx
  have hplain := h move hmove
  cases move with
  | rest s t =>
    have hshort : 0 ≤ s.shortReserveOf t.accountId t.symbol t.price t.remaining := hplain
    rw [Move.unjournaled, max_eq_right hshort, sub_self, ite_self]
  | _ => exact hplain.elim

end Operation

/-- Account 1 offers ten units that it holds, or sells them short. -/
def offer (position : ℤ) : List Op :=
  [.setAccountState 1 "X" 1000 position, .setAccountState 2 "X" 1000 0,
    .setAccountRiskConfig 1
      { mode := .cashOnly, allowShortSelling := true, shortMarginRequirement := 1 },
    .placeLimitOrder 1 "X" .ask 100 10 .gtc]

/-- Account 2 takes some of them. -/
def takeOffer : Op := .placeLimitOrder 2 "X" .bid 100 4 .gtc

end Tes
