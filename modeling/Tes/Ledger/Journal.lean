import Tes.Engine.Breaches
import Tes.Ledger.ProfitAndLoss

/-! The account ledger as a journal of cash and positions: what each step adds to it, and
what the settlement of a fill outside the price band leaves out. -/
namespace Tes
open MatchingEngine EStateM

/-- What a ledger entry moves: cash, or units of a symbol. -/
inductive Asset
  | cash
  | units (symbol : Symbol)
  deriving DecidableEq

def AccountSnapshot.holding (account : AccountSnapshot) : Asset → ℤ
  | .cash => account.cashBalance
  | .units symbol => account.position symbol

def AccountLedgerEntry.delta (entry : AccountLedgerEntry) : Asset → ℤ
  | .cash => entry.cashDelta
  | .units symbol => if entry.symbol = symbol then entry.positionDelta else 0

/-- The sum of an account's entries. -/
def entriesTotal (ledger : List AccountLedgerEntry) (a : AccountId) (asset : Asset) : ℤ :=
  ((ledger.filter fun entry => entry.accountId = a).map fun entry => entry.delta asset).sum

theorem entriesTotal_append (ledger more : List AccountLedgerEntry) (a : AccountId) (asset : Asset) :
    entriesTotal (ledger ++ more) a asset = entriesTotal ledger a asset + entriesTotal more a asset := by
  unfold entriesTotal
  rw [List.filter_append, List.map_append, List.sum_append]

theorem entriesTotal_singleton (entry : AccountLedgerEntry) (a : AccountId) (asset : Asset) :
    entriesTotal [entry] a asset = if entry.accountId = a then entry.delta asset else 0 := by
  unfold entriesTotal
  by_cases h : entry.accountId = a <;> simp [h]

/-- Ledger sequences increase strictly. -/
def LedgerOrdered (ledger : List AccountLedgerEntry) : Prop :=
  ledger.Pairwise fun entry later => entry.sequence < later.sequence

namespace MatchingEngine

/-- The ledger is in order and the next sequence is new. -/
structure LedgerSound (s : MatchingEngine) : Prop where
  ordered : LedgerOrdered s.accountLedger
  next : ∀ entry ∈ s.accountLedger, entry.sequence < s.nextLedgerSequence

/-- The ledger and its next sequence. -/
def journal (s : MatchingEngine) : List AccountLedgerEntry × ℕ := (s.accountLedger, s.nextLedgerSequence)

theorem journal_of_unfunded {s s' : MatchingEngine} (h : s.unfunded = s'.unfunded) :
    s.journal = s'.journal := by
  have hs : ∀ s : MatchingEngine, s.journal = s.unfunded.journal := fun _ => rfl
  rw [hs s, hs s', h]

theorem journal_trackEvents (s : MatchingEngine) (events : List Event) :
    (s.trackEvents events).journal = s.journal := by
  unfold trackEvents
  induction events generalizing s with
  | nil => rfl
  | cons event rest ih =>
    rw [List.foldl_cons, ih]
    unfold bumpSequenceNumber
    split <;> rfl

/-- From `s` to `s'` the ledger gains entries that add up to `delta`. -/
structure Appends (s s' : MatchingEngine) (delta : AccountId → Asset → ℤ) : Prop where
  grows : s.accountLedger <+: s'.accountLedger
  sound : s.LedgerSound → s'.LedgerSound
  sum : ∀ a asset, entriesTotal s'.accountLedger a asset =
    entriesTotal s.accountLedger a asset + delta a asset

section Appends
variable {s s' s'' : MatchingEngine} {delta delta' : AccountId → Asset → ℤ}

theorem Appends.trans (h : s.Appends s' delta) (h' : s'.Appends s'' delta') :
    s.Appends s'' fun a asset => delta a asset + delta' a asset where
  grows := h.grows.trans h'.grows
  sound hs := h'.sound (h.sound hs)
  sum a asset := by
    have hfirst := h.sum a asset
    have hsecond := h'.sum a asset
    omega

theorem Appends.congr (h : s.Appends s' delta) (hdelta : ∀ a asset, delta a asset = delta' a asset) :
    s.Appends s' delta' :=
  ⟨h.grows, h.sound, fun a asset => by rw [h.sum, hdelta]⟩

theorem appends_of_journal (h : s'.journal = s.journal) : s.Appends s' fun _ _ => 0 := by
  obtain ⟨hledger, hnext⟩ := Prod.mk.inj h
  refine ⟨hledger ▸ List.prefix_rfl, fun hs => ⟨hledger ▸ hs.ordered, fun entry hentry => ?_⟩,
    fun a asset => by rw [hledger, add_zero]⟩
  rw [hledger] at hentry
  rw [hnext]
  exact hs.next entry hentry

theorem appends_appendLedgerEntry (s : MatchingEngine) (entry : AccountLedgerEntry) :
    s.Appends (s.appendLedgerEntry entry) fun a asset =>
      if entry.accountId = a then entry.delta asset else 0 where
  grows := List.prefix_append _ _
  sound hs := by
    refine ⟨List.pairwise_append.mpr ⟨hs.ordered, List.pairwise_singleton _ _, ?_⟩, ?_⟩
    · intro old hold new hnew
      rw [List.mem_singleton.mp hnew]
      exact hs.next old hold
    · intro old hold
      rcases List.mem_append.mp hold with hold | hnew
      · exact Nat.lt_succ_of_lt (hs.next old hold)
      · rw [List.mem_singleton.mp hnew]
        exact Nat.lt_succ_self _
  sum a asset := by
    unfold appendLedgerEntry
    rw [entriesTotal_append, entriesTotal_singleton]
    cases asset <;> rfl

/-- An entry that moves nothing. -/
theorem appends_audit (s : MatchingEngine) {entry : AccountLedgerEntry}
    (hcash : entry.cashDelta = 0) (hposition : entry.positionDelta = 0) :
    s.Appends (s.appendLedgerEntry entry) fun _ _ => 0 :=
  (appends_appendLedgerEntry s entry).congr fun a asset => by
    cases asset <;> simp [AccountLedgerEntry.delta, hcash, hposition]

theorem appends_journalFee (s : MatchingEngine) (b : AccountId) (symbol : Symbol) (fee : ℤ)
    (id other : OrderId) : s.Appends (s.journalFee b symbol fee id other) fun a asset =>
      if b = a ∧ asset = .cash then -fee else 0 := by
  unfold journalFee
  split
  · refine (appends_appendLedgerEntry s _).congr fun a asset => ?_
    cases asset <;> simp [AccountLedgerEntry.delta]
  · rename_i hfee
    have hzero : fee = 0 := not_not.mp hfee
    refine (appends_of_journal rfl).congr fun a asset => ?_
    rw [hzero, neg_zero, ite_self]

end Appends

/-- What a trade moves for an account. -/
def tradeDelta (s : MatchingEngine) (symbol : Symbol) (side : Side) (price qty : ℤ)
    (taker maker a : AccountId) : Asset → ℤ
  | .cash =>
    -(if a = taker then side.signed (price * qty) + s.feeForNotional (price * qty) false else 0) -
      if a = maker then side.opposite.signed (price * qty) + s.feeForNotional (price * qty) true else 0
  | .units symbol' =>
    (if a = taker ∧ symbol' = symbol then side.signed qty else 0) +
      if a = maker ∧ symbol' = symbol then side.opposite.signed qty else 0

theorem tradeDelta_cash (s : MatchingEngine) (symbol : Symbol) (side : Side) (price qty : ℤ)
    (taker maker a : AccountId) : s.tradeDelta symbol side price qty taker maker a .cash =
      -(if a = taker then side.signed (price * qty) + s.feeForNotional (price * qty) false else 0) -
        if a = maker then -side.signed (price * qty) + s.feeForNotional (price * qty) true else 0 := by
  rw [tradeDelta, Side.signed_opposite]

theorem tradeDelta_units (s : MatchingEngine) (symbol symbol' : Symbol) (side : Side) (price qty : ℤ)
    (taker maker a : AccountId) : s.tradeDelta symbol side price qty taker maker a (.units symbol') =
      (if a = taker ∧ symbol' = symbol then side.signed qty else 0) +
        if a = maker ∧ symbol' = symbol then -side.signed qty else 0 := by
  rw [tradeDelta, Side.signed_opposite]

theorem holding_exchange (s : MatchingEngine) (symbol : Symbol) (side : Side) (price : ℤ) {qty : ℤ}
    (hqty : 0 ≤ qty) (taker maker a : AccountId) (asset : Asset) :
    ((s.exchange symbol side price qty taker maker).account a).holding asset =
      (s.account a).holding asset + s.tradeDelta symbol side price qty taker maker a asset := by
  cases asset with
  | cash =>
    have hcash := s.cashBalance_exchange symbol side price qty taker maker a
    simp only [AccountSnapshot.holding, tradeDelta]
    omega
  | units symbol' =>
    have hposition := s.position_exchange symbol symbol' side price hqty taker maker a
    simp only [AccountSnapshot.holding, tradeDelta]
    omega

/-- The ledger entries of a fill record the trade. -/
theorem appends_journalFill (s : MatchingEngine) (t : Taker) (fill : FillResult) (maker : AccountId) :
    s.Appends (s.journalFill t fill maker) fun a asset =>
      s.tradeDelta t.symbol t.side fill.price fill.qty t.accountId maker a asset := by
  unfold journalFill
  refine (((appends_appendLedgerEntry s _).trans (appends_appendLedgerEntry _ _)).trans
    ((appends_journalFee _ _ _ _ _ _).trans (appends_journalFee _ _ _ _ _ _))).congr fun a asset => ?_
  cases asset with
  | cash =>
    cases hside : t.side <;>
      simp only [AccountLedgerEntry.delta, tradeDelta, Side.signed, Side.opposite] <;> grind
  | units symbol =>
    cases hside : t.side <;>
      simp only [AccountLedgerEntry.delta, tradeDelta, Side.signed, Side.opposite] <;> grind


/-- The ledger entries of an auction trade record the trade. -/
theorem appends_settleAuction (s : MatchingEngine) (symbol : Symbol) (bidId askId : OrderId)
    (price qty : ℤ) : s.Appends (s.settleAuction symbol bidId askId price qty) fun a asset =>
      s.tradeDelta symbol .bid price qty (s.ownerAccountId bidId) (s.ownerAccountId askId) a asset := by
  have hreleased : s.Appends (s.auctionReleased symbol bidId askId price qty) fun _ _ => 0 :=
    appends_of_journal ((journal_of_unfunded (unfunded_auctionReleased _ _ _ _ _ _)).trans rfl)
  unfold settleAuction
  refine (hreleased.trans (((appends_appendLedgerEntry _ _).trans
    (appends_appendLedgerEntry _ _)).trans ((appends_journalFee _ _ _ _ _ _).trans
      (appends_journalFee _ _ _ _ _ _)))).congr fun a asset => ?_
  cases asset with
  | cash => simp only [AccountLedgerEntry.delta, tradeDelta, Side.signed, Side.opposite]; grind
  | units symbol => simp only [AccountLedgerEntry.delta, tradeDelta, Side.signed, Side.opposite]; grind

theorem appends_settleFill (s : MatchingEngine) (t : Taker) (fill : FillResult) (book : OrderBook) :
    s.Appends (s.settleFill t fill book) fun _ _ => 0 :=
  appends_of_journal ((journal_of_unfunded (unfunded_settleFill s t fill book)).trans rfl)

/-- The ledger gains entries that move nothing. -/
def Audits (s s' : MatchingEngine) : Prop := s.Appends s' fun _ _ => 0

theorem Audits.trans {s s' s'' : MatchingEngine} (h : s.Audits s') (h' : s'.Audits s'') :
    s.Audits s'' := (Appends.trans h h').congr fun _ _ => add_zero 0

theorem audits_rested (s : MatchingEngine) (t : Taker) : s.Audits (t.rested s) := by
  have howned : s.Audits (t.ownedIn s) := appends_of_journal rfl
  cases hside : t.side with
  | bid =>
    rw [rested_bid hside]
    refine howned.trans (Audits.trans (appends_of_journal ?_) (appends_audit _ ?_ ?_)) <;> rfl
  | ask =>
    rw [rested_ask hside]
    refine howned.trans (Audits.trans (appends_of_journal ?_) (appends_audit _ rfl rfl))
    unfold reserveShort reserveLong
    split_ifs <;> rfl

/-- A release that goes on the ledger, or nothing. -/
theorem audits_release {s s'' : MatchingEngine} (s' : MatchingEngine) {a : AccountId} {symbol : Symbol} {id : OrderId}
    {cash qty : ℤ} (h : s'.journal = s.journal)
    (h' : s''.journal = (s'.appendLedgerEntry (cancelRelease a symbol id cash qty)).journal) :
    s.Audits s'' :=
  Audits.trans (appends_of_journal h) (Audits.trans (appends_audit s' rfl rfl) (appends_of_journal h'))

theorem audits_cancelResting (s : MatchingEngine) (a : AccountId) (symbol : Symbol) (id : OrderId) :
    s.Audits (s.cancelResting a symbol id) := by
  have hcash : ∀ s : MatchingEngine, s.Audits (s.cancelCash a symbol id) := fun s => by
    unfold cancelCash
    split
    · exact appends_of_journal rfl
    · exact audits_release (s.updateAccount a _) rfl rfl
  have hqty : ∀ s : MatchingEngine, s.Audits (s.cancelQty a symbol id) := fun s => by
    unfold cancelQty
    split
    · exact appends_of_journal rfl
    · exact audits_release (s.updateAccount a _) rfl rfl
  have hshort : ∀ s : MatchingEngine, s.Audits (s.cancelShortMargin a symbol id) := fun s => by
    unfold cancelShortMargin
    split
    · exact appends_of_journal rfl
    · exact audits_release (s.updateAccount a _) rfl rfl
  have hbook : s.Audits (s.setBook symbol ((s.bookFor symbol).cancel id).2) := appends_of_journal rfl
  have hreleased := ((hbook.trans (hcash _)).trans (hqty _)).trans (hshort _)
  exact hreleased.trans (appends_of_journal rfl)


/-- What an account holds beyond what its ledger entries add up to. -/
def gap (s : MatchingEngine) (a : AccountId) (asset : Asset) : ℤ :=
  (s.account a).holding asset - entriesTotal s.accountLedger a asset

theorem SameHoldings.holding {s s' : MatchingEngine} (h : s.SameHoldings s') (a : AccountId)
    (asset : Asset) : (s'.account a).holding asset = (s.account a).holding asset := by
  cases asset with
  | cash => exact (h a).cash
  | units symbol => exact (h a).position symbol

end MatchingEngine

/-- From `x` to `y` only the top-up of account 0 can add anything. -/
structure Tops (G : Guard) (a : AccountId) (x y : ℤ) : Prop where
  le : x ≤ y
  eq : ¬ (a = defaultAccountId ∧ G.account a) → x = y

/-- From `s` to `s'` the ledger records all that holdings move by but `missing` and top-ups. -/
structure Booked (G : Guard) (s s' : MatchingEngine) (missing : AccountId → Asset → ℤ) : Prop where
  grows : s.accountLedger <+: s'.accountLedger
  sound : s.LedgerSound → s'.LedgerSound
  gap : ∀ a asset, Tops G a (s.gap a asset + missing a asset) (s'.gap a asset)

/-- What a fill outside the price band moves off the ledger. -/
def offLedger (e : Entry) (a : AccountId) (asset : Asset) : ℤ :=
  if e.2.Breaches e.1 then
    match e.1.nextFill e.2 with
    | some (fill, _) => e.1.tradeDelta e.2.symbol e.2.side fill.price fill.qty e.2.accountId
        (e.1.ownerAccountId fill.makerId) a asset
    | none => 0
  else 0

/-- The same of some entries. -/
def offLedgerAll (entries : List Entry) (a : AccountId) (asset : Asset) : ℤ :=
  (entries.map fun e => offLedger e a asset).sum

section Booked
variable {G : Guard} {symbol : Symbol} {s s' s'' : MatchingEngine} {events : List Event}
  {entries : List Entry} {delta missing missing' : AccountId → Asset → ℤ}

theorem Booked.of_appends (h : s.Appends s' delta)
    (hholding : ∀ a asset, (s'.account a).holding asset =
      (s.account a).holding asset + delta a asset + missing a asset) : Booked G s s' missing where
  grows := h.grows
  sound := h.sound
  gap a asset := by
    have hsum := h.sum a asset
    have heq : s.gap a asset + missing a asset = s'.gap a asset := by
      unfold MatchingEngine.gap
      rw [hholding, hsum]
      omega
    exact ⟨heq.le, fun _ => heq⟩

theorem Booked.of_audits (h : s.Audits s') (hsame : s.SameHoldings s') :
    Booked G s s' fun _ _ => 0 :=
  .of_appends h fun a asset => by rw [hsame.holding, add_zero, add_zero]

theorem Booked.refl (s : MatchingEngine) : Booked G s s fun _ _ => 0 :=
  .of_audits (appends_of_journal rfl) (.of_accounts rfl)

theorem Booked.trans (h : Booked G s s' missing) (h' : Booked G s' s'' missing') :
    Booked G s s'' fun a asset => missing a asset + missing' a asset where
  grows := h.grows.trans h'.grows
  sound hs := h'.sound (h.sound hs)
  gap a asset := by
    obtain ⟨hle, heq⟩ := h.gap a asset
    obtain ⟨hle', heq'⟩ := h'.gap a asset
    refine ⟨by omega, fun hnot => ?_⟩
    have := heq hnot
    have := heq' hnot
    omega

theorem Booked.congr (h : Booked G s s' missing)
    (hmissing : ∀ a asset, missing a asset = missing' a asset) : Booked G s s' missing' :=
  ⟨h.grows, h.sound, fun a asset => hmissing a asset ▸ h.gap a asset⟩

/-- Nothing missing, twice. -/
theorem Booked.all (h : Booked G s s' fun _ _ => 0) (h' : Booked G s' s'' missing) :
    Booked G s s'' missing := (h.trans h').congr fun _ _ => zero_add _

theorem booked_touchAccount (s : MatchingEngine) {b : AccountId} (hb : G.account b) :
    Booked G s (s.touchAccount b symbol) fun _ _ => 0 where
  grows := List.prefix_rfl
  sound hs := ⟨hs.ordered, hs.next⟩
  gap a asset := by
    have hsame : (s.touchAccount b symbol).accountLedger = s.accountLedger := rfl
    unfold MatchingEngine.gap
    rw [hsame, touchAccount, account_updateAccount]
    split_ifs with ha hdefault
    · refine ⟨?_, fun hnot => absurd ⟨ha.trans hdefault, ha ▸ hb⟩ hnot⟩
      cases asset with
      | cash => simp only [AccountSnapshot.holding]; omega
      | units symbol' =>
        simp only [AccountSnapshot.holding, AccountSnapshot.position, Finmap.valueD_insert]
        split_ifs with hsymbol
        · rw [hsymbol]; omega
        · omega
    · exact ⟨by omega, fun _ => by omega⟩
    · exact ⟨by omega, fun _ => by omega⟩

theorem booked_rested (s : MatchingEngine) (t : Taker) : Booked G s (t.rested s) fun _ _ => 0 :=
  .of_audits (audits_rested s t) (rested_sameHoldings t s)

/-- The holdings after a fill, whatever is done about the ledger. -/
theorem holding_settleFill {t : Taker} {fill : FillResult} (hqty : 0 ≤ fill.qty) (book : OrderBook)
    (a : AccountId) (asset : Asset) : ((s.settleFill t fill book).account a).holding asset =
      (s.account a).holding asset + s.tradeDelta t.symbol t.side fill.price fill.qty t.accountId
        (s.ownerAccountId fill.makerId) a asset := by
  rw [(sameHoldings_paid _ _ _ (settleFill_frees _ _ hqty _).holdings).holding,
    holding_exchange _ _ _ _ hqty]

theorem booked_journaled {t : Taker} {fill : FillResult} (hqty : 0 ≤ fill.qty) (book : OrderBook) :
    Booked G s (s.journaled t fill book) fun _ _ => 0 := by
  have hfees : ∀ a asset, (s.settleFill t fill book).tradeDelta t.symbol t.side fill.price fill.qty
      t.accountId (s.ownerAccountId fill.makerId) a asset = s.tradeDelta t.symbol t.side fill.price
        fill.qty t.accountId (s.ownerAccountId fill.makerId) a asset := fun a asset => by
    have hmodel : (s.settleFill t fill book).feeModel = s.feeModel :=
      (feeModel_of_frame (frame_settleFill s t fill book)).trans rfl
    cases asset <;> simp only [tradeDelta, feeForNotional, hmodel]
  refine .of_appends ((appends_settleFill s t fill book).trans (appends_journalFill _ t fill _))
    fun a asset => ?_
  have hsame : (s.journaled t fill book).account a = (s.settleFill t fill book).account a :=
    account_of_money (money_of_unjournaled (unjournaled_journalFill _ _ _ _)) a
  rw [hsame, holding_settleFill hqty, hfees]
  omega

theorem booked_filled {t : Taker} {fill : FillResult} (hqty : 0 ≤ fill.qty) (book : OrderBook) :
    Booked G s (s.filled t fill book) fun _ _ => 0 := by
  have hjournal : (s.filled t fill book).journal = (s.journaled t fill book).journal :=
    read_updateOwner journal (fun _ _ => rfl) _ fill
  exact (booked_journaled hqty book).all
    (.of_audits (appends_of_journal hjournal) (.of_accounts (accounts_updateOwner _ _)))

/-- Matching inside the price band is all on the ledger. -/
theorem Fillings.booked {t t' : Taker} (hb : (s.bookFor t.symbol).WellFormed)
    (h : Fillings s t events s' t') : Booked G s s' fun _ _ => 0 := by
  induction h with
  | done => exact .refl _
  | @fill s s' t t' fill book events hnext hband hhold _ ih =>
    obtain ⟨maker, rest, hfill, -⟩ := nextFill_some hb hnext
    have hafter : ((s.filled t fill book).bookFor (t.after fill).symbol).WellFormed := by
      rw [bookFor_filled]
      exact (if_pos (rfl : (t.after fill).symbol = t.symbol)) ▸ hfill.wellFormed_after
    exact (booked_filled hfill.fill_qty_pos.le book).all (ih hafter)

/-- An order that matches leaves its fill outside the price band off the ledger. -/
theorem booked_matches {t t' : Taker} (hadmits : s.Admits t) (hb : (s.bookFor t.symbol).WellFormed)
    (hphase : ¬ s.inAuction t.symbol) (h : Matches s t events s' t') :
    Booked G s s' (offLedger (s, t)) := by
  rcases hadmits.matches hb hphase h with ⟨hnot, hfillings⟩ | ⟨hbreach, fill, book, hnext, -, -, rfl, -⟩
  · exact (hfillings.booked hb).congr fun a asset => (if_neg hnot).symm
  · obtain ⟨maker, rest, hfill, -⟩ := nextFill_some hb hnext
    have hbreached : s.Audits (s.breached t fill book) :=
      Audits.trans (appends_settleFill s t fill book) (appends_of_journal rfl)
    refine .of_appends hbreached fun a asset => ?_
    have hholding := holding_settleFill (s := s) (t := t) hfill.fill_qty_pos.le book a asset
    have hoff : offLedger (s, t) a asset = s.tradeDelta t.symbol t.side fill.price fill.qty t.accountId
        (s.ownerAccountId fill.makerId) a asset := by
      unfold offLedger
      rw [if_pos hbreach, hnext]
    rw [hoff, add_zero]
    exact hholding

theorem Finishes.booked {t : Taker} (h : Finishes s t events s') : Booked G s s' fun _ _ => 0 := by
  cases h with
  | rest => exact booked_rested s t
  | expire => exact .of_audits (appends_audit s rfl rfl) (.of_accounts rfl)
  | done => exact .refl s

theorem Placing.booked (hs : s.Sound G) (h : Placing G symbol s events entries s') :
    Booked G s s' (offLedgerAll entries) := by
  cases h with
  | touch ha => exact booked_touchAccount s ha
  | report => exact .refl s
  | audit haudit => exact .of_audits (appends_audit s haudit.cash haudit.position) (.of_accounts rfl)
  | @restAuction t hsymbol hadmits haccount hphase =>
    refine (booked_rested s t).congr fun a asset => ?_
    have hnot : ¬ t.Breaches s := fun h => h.1 hphase
    simp [offLedgerAll, offLedger, hnot]
  | enter hsymbol hadmits haccount hphase hfok hmatches hfinishes =>
    refine ((booked_matches hadmits (hs.book _) hphase hmatches).trans hfinishes.booked).congr
      fun a asset => ?_
    simp [offLedgerAll]

theorem Crosses.booked {price qty remaining : ℤ} {steps : List (OrderBook × ℤ)} (hs : s.Sound G)
    (h : Crosses symbol price s qty events steps s' remaining) : Booked G s s' fun _ _ => 0 := by
  induction h with
  | refl => exact .refl _
  | @trade s s' remaining traded remaining' bid ask book book' events steps hqty hbid hask _ ih =>
    have hpos := (nextAuctionQty_some (hs.book symbol) hqty).1
    have hafter := (narrows_auctionTraded hs hbid hask).sound hs
    refine Booked.all ?_ (ih hafter)
    have hbook : s.Appends (s.setBook symbol book') fun _ _ => 0 := appends_of_journal rfl
    have hsettled := hbook.trans ((s.setBook symbol book').appends_settleAuction symbol bid.makerId
      ask.makerId price traded)
    have hjournal : (s.auctionTraded symbol price traded bid.makerId ask.makerId book').journal =
        ((s.setBook symbol book').settleAuction symbol bid.makerId ask.makerId price traded).journal := by
      rw [auctionTraded, read_reduceOwner journal fun _ _ => rfl, read_reduceOwner journal fun _ _ => rfl]
    refine .of_appends (hsettled.trans (appends_of_journal hjournal)) fun a asset => ?_
    rw [(sameHoldings_auctionTraded s symbol price hpos.le _ _ book').holding,
      holding_exchange _ _ _ _ hpos.le]
    have hfees : (s.setBook symbol book').tradeDelta symbol .bid price traded
        ((s.setBook symbol book').ownerAccountId bid.makerId)
        ((s.setBook symbol book').ownerAccountId ask.makerId) a asset =
        s.tradeDelta symbol .bid price traded (s.ownerAccountId bid.makerId)
          (s.ownerAccountId ask.makerId) a asset := by cases asset <;> rfl
    omega

theorem Step.booked (hs : s.Sound G) (h : Step G symbol s events entries s') :
    Booked G s s' (offLedgerAll entries) := by
  cases h with
  | placing h => exact h.booked hs
  | allocate => exact .of_audits (appends_of_journal rfl) (.of_accounts rfl)
  | track =>
    refine .of_audits (appends_of_journal ?_) (.of_accounts (accounts_of_money
      (money_of_unjournaled (unjournaled_trackEvents _ _))))
    exact journal_trackEvents _ _
  | cancel => exact .of_audits (audits_cancelResting _ _ _ _) (sameHoldings_cancelResting _ _ _ _)
  | addStop => exact .of_audits (appends_of_journal rfl) (.of_accounts rfl)
  | dropStop => exact .of_audits (appends_of_journal rfl) (.of_accounts rfl)
  | replaceStop => exact .of_audits (appends_of_journal rfl) (.of_accounts rfl)
  | @trigger id stop =>
    have hdropped : s.Audits { s.dropStop symbol id with nextOrderId := s.nextOrderId + 1 } :=
      appends_of_journal rfl
    refine .of_audits (hdropped.trans (appends_audit _ ?_ ?_)) (.of_accounts rfl) <;> rfl
  | haltAuction => exact .of_audits (appends_of_journal rfl) (.of_accounts rfl)
  | cross _ hcrosses => exact hcrosses.booked hs
  | endAuction => exact .of_audits (appends_of_journal rfl) (.of_accounts rfl)

theorem Steps.booked (hs : s.Sound G) (h : Steps (Step G symbol) s events entries s') :
    Booked G s s' (offLedgerAll entries) := by
  induction h with
  | refl => exact .refl _
  | step hr _ ih =>
    refine ((hr.booked hs).trans (ih (hr.sound hs))).congr fun a asset => ?_
    unfold offLedgerAll
    rw [List.map_append, List.sum_append]

/-- A fill that fails the engine's assertion is on the ledger. -/
theorem Fails.booked {t : Taker} (hb : (s.bookFor t.symbol).WellFormed) (h : Fails s t s') :
    ¬ t.Breaches s ∧ Booked G s s' fun _ _ => 0 := by
  have hfirst : ∀ {s : MatchingEngine} {t : Taker} {fill : FillResult} {book : OrderBook},
      s.nextFill t = some (fill, book) → s.priceInBand t.symbol fill.price → ¬ t.Breaches s := by
    rintro s t fill book hnext hband ⟨-, next, hmem, hout⟩
    rw [hnext] at hmem
    cases hmem
    exact hout hband
  induction h with
  | abort hnext hband =>
    obtain ⟨maker, rest, hfill, -⟩ := nextFill_some hb hnext
    exact ⟨hfirst hnext hband, booked_journaled hfill.fill_qty_pos.le _⟩
  | @fill s s' t fill book hnext hband hhold _ ih =>
    obtain ⟨maker, rest, hfill, -⟩ := nextFill_some hb hnext
    have hafter : ((s.filled t fill book).bookFor (t.after fill).symbol).WellFormed := by
      rw [bookFor_filled]
      exact (if_pos (rfl : (t.after fill).symbol = t.symbol)) ▸ hfill.wellFormed_after
    exact ⟨hfirst hnext hband, (booked_filled hfill.fill_qty_pos.le book).all (ih hafter).2⟩

theorem Breaks.booked (hs : s.Sound G) (h : Breaks G symbol s entries s') :
    Booked G s s' (offLedgerAll entries) := by
  cases h with
  | entry hsymbol hadmits haccount hphase hfok hfails =>
    obtain ⟨hnot, hbooked⟩ := hfails.booked (G := G) (hs.book _)
    refine hbooked.congr fun a asset => ?_
    simp [offLedgerAll, offLedger, hnot]
  | auction hauction hcrosses => exact hcrosses.booked hs

theorem Broken.booked (hs : s.Sound G) (h : Broken G symbol s entries s') :
    Booked G s s' (offLedgerAll entries) := by
  obtain ⟨events, s₁, made, more, hsteps, hbreaks, rfl⟩ := h
  refine ((hsteps.booked hs).trans (hbreaks.booked (hsteps.sound hs))).congr fun a asset => ?_
  unfold offLedgerAll
  rw [List.map_append, List.sum_append]

/-! At most one entry of an operation leaves the price band. -/

/-- A step makes one entry at most, and one that leaves the band halts the symbol. -/
theorem Step.entries_eq (hs : s.Sound G) (h : Step G symbol s events entries s') :
    entries = [] ∨ ∃ t, entries = [(s, t)] ∧ G.account t.accountId ∧
      (t.Breaches s → s'.isHalted symbol) := by
  cases h with
  | placing h =>
    cases h with
    | @restAuction t hsymbol hadmits haccount hphase =>
      exact Or.inr ⟨t, rfl, haccount, fun h => absurd hphase h.1⟩
    | @enter _ _ t _ _ _ hsymbol hadmits haccount hphase hfok hmatches hfinishes =>
      refine Or.inr ⟨_, rfl, haccount, fun hbreach => ?_⟩
      rcases hadmits.matches (hs.book _) hphase hmatches with
        ⟨hnot, -⟩ | ⟨-, fill, book, -, -, -, rfl, -⟩
      · exact absurd hbreach hnot
      · have hhalted : (s.breached t fill book).isHalted symbol := by
          rw [← hsymbol]
          exact isHalted_withHalt _ _ _
        cases hfinishes with
        | rest => exact (isHalted_congr (phases_rested _ _)).mpr hhalted
        | expire => exact hhalted
        | done => exact hhalted
    | _ => exact Or.inl rfl
  | _ => exact Or.inl rfl

theorem offLedgerAll_of_not {entries : List Entry} (h : ∀ e ∈ entries, ¬ e.2.Breaches e.1)
    (a : AccountId) (asset : Asset) : offLedgerAll entries a asset = 0 := by
  refine List.sum_eq_zero fun x hx => ?_
  obtain ⟨e, he, rfl⟩ := List.mem_map.mp hx
  exact if_neg (h e he)

theorem Steps.lone (hs : s.Sound G) (h : Steps (Step G symbol) s events entries s') {e : Entry}
    (he : e ∈ entries) (hbreach : e.2.Breaches e.1) (a : AccountId) (asset : Asset) :
    offLedgerAll entries a asset = offLedger e a asset := by
  induction h with
  | refl => cases he
  | @step s s' s'' events more entries others hr hrest ih =>
    have hsum : offLedgerAll (entries ++ others) a asset =
        offLedgerAll entries a asset + offLedgerAll others a asset := by
      unfold offLedgerAll
      rw [List.map_append, List.sum_append]
    rcases hr.entries_eq hs with rfl | ⟨t, rfl, -, hhalts⟩
    · exact hsum.trans ((zero_add _).trans (ih (hr.sound hs) he))
    · by_cases ht : t.Breaches s
      · obtain ⟨rfl, -⟩ := hrest.halted (hhalts ht)
        rw [List.append_nil, List.mem_singleton] at he
        subst he
        simp [offLedgerAll]
      · have hmem : e ∈ others := by
          rcases List.mem_append.mp he with he | he
          · rw [List.mem_singleton.mp he] at hbreach
            exact absurd hbreach ht
          · exact he
        rw [hsum, ih (hr.sound hs) hmem]
        simp [offLedgerAll, offLedger, ht]

theorem Steps.entrants (hs : s.Sound G) (h : Steps (Step G symbol) s events entries s') :
    ∀ e ∈ entries, G.account e.2.accountId ∧ (e.1.bookFor e.2.symbol).WellFormed := by
  induction h with
  | refl => simp
  | step hr _ ih =>
    intro e he
    rcases List.mem_append.mp he with he | he
    · rcases hr.entries_eq hs with rfl | ⟨t, rfl, haccount, -⟩
      · cases he
      · rw [List.mem_singleton.mp he]
        exact ⟨haccount, hs.book _⟩
    · exact ih (hr.sound hs) e he

end Booked

/-- What an operation leaves behind: bookings, and at most one entry that leaves the band. -/
structure Ledgered (G : Guard) (s s' : MatchingEngine) (entries : List Entry) : Prop where
  booked : Booked G s s' (offLedgerAll entries)
  lone : ∀ e ∈ entries, e.2.Breaches e.1 → ∀ a asset,
    offLedgerAll entries a asset = offLedger e a asset
  entrants : ∀ e ∈ entries, e.2.Breaches e.1 →
    G.account e.2.accountId ∧ (e.1.bookFor e.2.symbol).WellFormed

theorem Broken.ledgered {G : Guard} {symbol : Symbol} {s s' : MatchingEngine} {entries : List Entry}
    (hs : s.Sound G) (h : Broken G symbol s entries s') : Ledgered G s s' entries := by
  have hbooked := h.booked hs
  obtain ⟨events, s₁, made, more, hsteps, hbreaks, rfl⟩ := h
  have hmore : ∀ e ∈ more, ¬ e.2.Breaches e.1 := by
    cases hbreaks with
    | entry hsymbol hadmits haccount hphase hfok hfails =>
      have hnot := (hfails.booked (G := G) ((hsteps.sound hs).book _)).1
      exact fun e he => by rw [List.mem_singleton.mp he]; exact hnot
    | auction => simp
  have hmade : ∀ e ∈ made ++ more, e.2.Breaches e.1 → e ∈ made := fun e he hbreach =>
    (List.mem_append.mp he).resolve_right fun hmem => hmore e hmem hbreach
  refine ⟨hbooked, fun e he hbreach a asset => ?_, fun e he hbreach =>
    hsteps.entrants hs e (hmade e he hbreach)⟩
  have hsum : offLedgerAll (made ++ more) a asset =
      offLedgerAll made a asset + offLedgerAll more a asset := by
    unfold offLedgerAll
    rw [List.map_append, List.sum_append]
  rw [hsum, offLedgerAll_of_not hmore, add_zero, hsteps.lone hs (hmade e he hbreach) hbreach]

/-- Every operation but `setAccountState`, whether it returns or throws. -/
theorem Op.exec_ledgered {G : Guard} {s : MatchingEngine} {op : Op} (hs : s.Sound G)
    (hguarded : op.Guarded G s)
    (hstate : ∀ b symbol cash qty, op ≠ .setAccountState b symbol cash qty) :
    Outcome op.exec s (fun _ s' => Ledgered G s s' (op.entries s))
      fun _ s' => Ledgered G s s' (op.entries s) := by
  by_cases hsetting : op.isSetting
  · have hnone : op.entries s = [] := by
      cases op <;> first | rfl | exact absurd hsetting id
    rw [hnone]
    have hquiet : ∀ {s' : MatchingEngine}, s'.unset = s.unset → Ledgered G s s' [] := fun hunset => by
      have hjournal : _ = s.unset.journal := congrArg journal hunset
      exact ⟨.of_audits (appends_of_journal hjournal)
        (.of_accounts (accounts_of_money (money_of_unset hunset))), by simp, by simp⟩
    exact (Op.exec_setting hsetting s).mono (fun _ _ h => hquiet h.1) fun _ _ h => hquiet (by rw [h.1])
  · exact (Op.exec_steps hs hguarded.account hguarded.replace hguarded.auction hsetting hstate).mono
      (fun _ _ h => ⟨h.booked hs, fun e he hbreach => h.lone hs he hbreach, fun e he _ =>
        h.entrants hs e he⟩) fun _ _ h => h.ledgered hs

theorem Reachable.ledgerSound {s : MatchingEngine} (h : Reachable s) : s.LedgerSound := by
  obtain ⟨ops, hrun⟩ := h
  refine (hrun.invariant (I := fun s => s.Sound {} ∧ s.LedgerSound)
    ⟨sound_fresh _, List.Pairwise.nil, by simp [fresh]⟩ ?_).2
  rintro ops s op ⟨hs, hledger⟩ -
  have hsound := Op.exec_sound hs (Op.guarded_trivial op s)
  by_cases hstate : ∃ b symbol cash qty, op = .setAccountState b symbol cash qty
  · obtain ⟨b, symbol, cash, qty, rfl⟩ := hstate
    exact ⟨hsound, hledger.ordered, hledger.next⟩
  · push Not at hstate
    have hledgered := Op.exec_ledgered hs (Op.guarded_trivial op s) hstate
    unfold Outcome at *
    cases hexec : op.exec s with
    | ok events s' => rw [hexec] at hsound hledgered; exact ⟨hsound, hledgered.booked.sound hledger⟩
    | error e s' => rw [hexec] at hsound hledgered; exact ⟨hsound, hledgered.booked.sound hledger⟩

/-! The journal of an operation. -/

theorem Op.outcome_apply {op : Op} {s : MatchingEngine} {P : MatchingEngine → Prop} :
    Outcome op.exec s (fun _ s' => P s') (fun _ s' => P s') ↔ P (op.apply s) := by
  unfold Outcome Op.apply
  cases op.exec s <;> exact Iff.rfl

/-- The ledger entries an operation appends. -/
def Op.appended (op : Op) (s : MatchingEngine) : List AccountLedgerEntry :=
  (op.apply s).accountLedger.drop s.accountLedger.length

/-- The order's first fill leaves the price band, and it is a trade between two accounts or
one that costs an account other than 0 fees. -/
def Taker.Unrecorded (t : Taker) (s : MatchingEngine) : Prop :=
  t.Breaches s ∧ ∃ next ∈ s.nextFill t,
    s.ownerAccountId next.1.makerId ≠ t.accountId ∨
    t.accountId ≠ defaultAccountId ∧
      s.feeForNotional (next.1.price * next.1.qty) false +
        s.feeForNotional (next.1.price * next.1.qty) true ≠ 0

instance (t : Taker) (s : MatchingEngine) : Decidable (t.Unrecorded s) :=
  inferInstanceAs (Decidable (_ ∧ _))

/-- The ledger grows in order, and what the operation appends accounts for every change of
cash and positions; account 0 is left out where it may be topped up. -/
structure Op.Journaled (op : Op) (s : MatchingEngine) : Prop where
  grows : s.accountLedger <+: (op.apply s).accountLedger
  ordered : LedgerOrdered (op.apply s).accountLedger
  cash : ∀ a, (a = defaultAccountId → ¬ op.MayTouch s a) →
    entriesTotal (op.appended s) a .cash =
      ((op.apply s).account a).cashBalance - (s.account a).cashBalance
  position : ∀ a symbol, (a = defaultAccountId → ¬ op.MayTouch s a) →
    entriesTotal (op.appended s) a (.units symbol) =
      ((op.apply s).account a).position symbol - (s.account a).position symbol

theorem Op.entriesTotal_appended {op : Op} {s : MatchingEngine}
    (h : s.accountLedger <+: (op.apply s).accountLedger) (a : AccountId) (asset : Asset) :
    entriesTotal (op.appended s) a asset = entriesTotal (op.apply s).accountLedger a asset -
      entriesTotal s.accountLedger a asset := by
  obtain ⟨more, hmore⟩ := h
  have htotal := entriesTotal_append s.accountLedger more a asset
  rw [hmore] at htotal
  have happended : op.appended s = more := by
    unfold Op.appended
    rw [← hmore, List.drop_left]
  rw [happended]
  omega

/-- Nothing is off the ledger for the accounts that are not topped up. -/
theorem offLedger_of_not_unrecorded {e : Entry} {a : AccountId} (h : ¬ e.2.Unrecorded e.1)
    (ha : e.2.Breaches e.1 → a = defaultAccountId → e.2.accountId ≠ a) (asset : Asset) :
    offLedger e a asset = 0 := by
  obtain ⟨s, t⟩ := e
  unfold offLedger
  split_ifs with hbreach
  · obtain ⟨next, hnext, -⟩ := hbreach.2
    have hsome : s.nextFill t = some next := hnext
    dsimp only
    rw [hsome]
    have hfalse := fun hcase => h ⟨hbreach, next, hnext, hcase⟩
    have hself : s.ownerAccountId next.1.makerId = t.accountId :=
      not_not.mp fun hne => hfalse (Or.inl hne)
    have hfees : t.accountId ≠ defaultAccountId →
        s.feeForNotional (next.1.price * next.1.qty) false +
          s.feeForNotional (next.1.price * next.1.qty) true = 0 := fun hdefault =>
      not_not.mp fun hne => hfalse (Or.inr ⟨hdefault, hne⟩)
    dsimp only
    rw [hself]
    have hzero : a = t.accountId → t.accountId ≠ defaultAccountId := fun heq hdefault =>
      ha hbreach (heq.trans hdefault) heq.symm
    cases asset with
    | cash =>
      rw [tradeDelta_cash]
      split_ifs with heq
      · have := hfees (hzero heq)
        omega
      · rfl
    | units symbol =>
      rw [tradeDelta_units]
      split_ifs <;> omega
  · rfl

/-- A fill that goes unrecorded shows for an account other than 0. -/
theorem Taker.Unrecorded.offLedger_ne_zero {e : Entry} (hb : (e.1.bookFor e.2.symbol).WellFormed)
    (h : e.2.Unrecorded e.1) : ∃ a asset, a ≠ defaultAccountId ∧ offLedger e a asset ≠ 0 := by
  obtain ⟨s, t⟩ := e
  obtain ⟨hbreach, ⟨fill, book⟩, hnext, hcase⟩ := h
  have hsome : s.nextFill t = some (fill, book) := hnext
  obtain ⟨maker, rest, hfill, -⟩ := nextFill_some hb hsome
  have hpos := hfill.fill_qty_pos
  have hoff : ∀ a asset, offLedger (s, t) a asset = s.tradeDelta t.symbol t.side fill.price fill.qty
      t.accountId (s.ownerAccountId fill.makerId) a asset := fun a asset => by
    unfold offLedger
    rw [if_pos hbreach, hsome]
  have hsigned : t.side.signed fill.qty ≠ 0 := by
    cases t.side <;> simp only [Side.signed] <;> omega
  by_cases hself : s.ownerAccountId fill.makerId = t.accountId
  · obtain ⟨hdefault, hfees⟩ := hcase.resolve_left (not_not.mpr hself)
    refine ⟨t.accountId, .cash, hdefault, ?_⟩
    rw [hoff, hself, tradeDelta_cash, if_pos rfl, if_pos rfl]
    dsimp only at hfees
    omega
  · by_cases hdefault : t.accountId = defaultAccountId
    · refine ⟨s.ownerAccountId fill.makerId, .units t.symbol, fun h => hself (h.trans hdefault.symm), ?_⟩
      rw [hoff, tradeDelta_units, if_neg fun h => hself h.1, if_pos ⟨rfl, rfl⟩]
      omega
    · refine ⟨t.accountId, .units t.symbol, hdefault, ?_⟩
      rw [hoff, tradeDelta_units, if_pos ⟨rfl, rfl⟩, if_neg fun h => hself h.1.symm]
      omega

/-- The ledger journals every change of cash and positions, but for the settlement of a fill
outside the price band. Beyond the journal account 0 can only gain, by its top-up. -/
theorem exec_journaled_iff {s : MatchingEngine} (h : Reachable s) {op : Op}
    (hstate : ∀ b symbol cash qty, op ≠ .setAccountState b symbol cash qty) :
    (op.Journaled s ↔ ∀ e ∈ op.entries s, ¬ e.2.Unrecorded e.1) ∧
      ((∀ e ∈ op.entries s, ¬ e.2.Breaches e.1) → ∀ a asset, entriesTotal (op.appended s) a asset ≤
        ((op.apply s).account a).holding asset - (s.account a).holding asset) := by
  have hs := h.sound
  have hall : Ledgered {} s (op.apply s) (op.entries s) :=
    Op.outcome_apply.mp (Op.exec_ledgered hs (Op.guarded_trivial op s) hstate)
  have hgap : ∀ a asset, ((op.apply s).account a).holding asset - (s.account a).holding asset -
      entriesTotal (op.appended s) a asset = (op.apply s).gap a asset - s.gap a asset :=
    fun a asset => by
      rw [Op.entriesTotal_appended hall.booked.grows]
      unfold gap
      omega
  have hexact : ∀ a, (a = defaultAccountId → ¬ op.MayTouch s a) →
      Ledgered (notToppedUp a) s (op.apply s) (op.entries s) ∧ ∀ asset,
        ((op.apply s).account a).holding asset - (s.account a).holding asset -
          entriesTotal (op.appended s) a asset = offLedgerAll (op.entries s) a asset := fun a ha => by
    have hledgered : Ledgered (notToppedUp a) s (op.apply s) (op.entries s) :=
      Op.outcome_apply.mp (Op.exec_ledgered (hs.notToppedUp ha) (op.guarded_notToppedUp ha) hstate)
    refine ⟨hledgered, fun asset => ?_⟩
    have heq := (hledgered.booked.gap a asset).eq fun ⟨hdefault, hno⟩ => hno hdefault rfl
    rw [hgap]
    omega
  refine ⟨⟨fun hjournaled e he hunrecorded => ?_, fun hrecorded => ?_⟩, fun hnone a asset => ?_⟩
  · obtain ⟨a, asset, hdefault, hne⟩ := hunrecorded.offLedger_ne_zero
      (hall.entrants e he hunrecorded.1).2
    have hnot : a = defaultAccountId → ¬ op.MayTouch s a := fun heq => absurd heq hdefault
    have hoff := (hexact a hnot).2 asset
    rw [hall.lone e he hunrecorded.1] at hoff
    have hzero : entriesTotal (op.appended s) a asset =
        ((op.apply s).account a).holding asset - (s.account a).holding asset := by
      cases asset with
      | cash => exact hjournaled.cash a hnot
      | units symbol => exact hjournaled.position a symbol hnot
    omega
  · have hzero : ∀ a, (a = defaultAccountId → ¬ op.MayTouch s a) → ∀ asset,
        offLedgerAll (op.entries s) a asset = 0 := fun a ha asset => by
      refine List.sum_eq_zero fun x hx => ?_
      obtain ⟨e, he, rfl⟩ := List.mem_map.mp hx
      exact offLedger_of_not_unrecorded (hrecorded e he)
        (fun hbreach hdefault => ((hexact a ha).1.entrants e he hbreach).1 hdefault) asset
    refine ⟨hall.booked.grows, (hall.booked.sound h.ledgerSound).ordered, fun a ha => ?_,
      fun a symbol ha => ?_⟩
    · have hoff := (hexact a ha).2 .cash
      rw [hzero a ha] at hoff
      simp only [AccountSnapshot.holding] at hoff
      omega
    · have hoff := (hexact a ha).2 (.units symbol)
      rw [hzero a ha] at hoff
      simp only [AccountSnapshot.holding] at hoff
      omega
  · have hle := (hall.booked.gap a asset).le
    rw [offLedgerAll_of_not hnone] at hle
    have := hgap a asset
    omega

/-- An ask at 100, and then a band from 110. -/
def askBelowBand : List Op :=
  [.setAccountState 1 "X" 0 10, .setAccountState 2 "X" 5000 0,
    .placeLimitOrder 1 "X" .ask 100 8 .gtc, .setPriceBands "X" 110 200]

theorem exec_journaled_askBelowBand :
    ((Op.placeLimitOrder 2 "X" .bid 120 5 .gtc).Journaled (fresh.applyAll askBelowBand) ↔
      ∀ e ∈ (Op.placeLimitOrder 2 "X" .bid 120 5 .gtc).entries (fresh.applyAll askBelowBand),
        ¬ e.2.Unrecorded e.1) := by
  have hreach := reachable_applyAll askBelowBand
  exact (exec_journaled_iff hreach (by simp)).1

/-- A bid takes the ask below the band, and the ledger says nothing of it. -/
theorem not_journaled_askBelowBand : Reachable (fresh.applyAll askBelowBand) ∧
    ¬ (Op.placeLimitOrder 2 "X" .bid 120 5 .gtc).Journaled (fresh.applyAll askBelowBand) := by
  have hreach := reachable_applyAll askBelowBand
  refine ⟨hreach, fun h => ?_⟩
  have hcash := h.cash 2 fun hdefault => by cases hdefault
  have htotal : entriesTotal ((Op.placeLimitOrder 2 "X" .bid 120 5 .gtc).appended
      (fresh.applyAll askBelowBand)) 2 .cash = 0 := by decide +kernel
  have hpaid : (((Op.placeLimitOrder 2 "X" .bid 120 5 .gtc).apply
      (fresh.applyAll askBelowBand)).account 2).cashBalance -
        ((fresh.applyAll askBelowBand).account 2).cashBalance = -500 := by decide +kernel
  omega

end Tes
