import Tes.Library.ZuluTime
import Tes.Library.Lists
import Tes.Queue.RunQueue

/-! Listings of the SQLite store and of the store in memory: one sorts by the texts of the creation
times, the other by the times. -/
namespace Tes
open IsoTime Lists

section Listing
variable {V : Type}

/-- `ORDER BY created_at ASC, id ASC`, over the texts of the store. -/
def listByCreatedAt (createdAt : V → Datetime) (rows : Table V) : List (String × V) :=
  rows.entries.insertionSort fun a b =>
    (createdAt a.2).zuluformat < (createdAt b.2).zuluformat ∨
      (createdAt a.2).zuluformat = (createdAt b.2).zuluformat ∧ a.1 ≤ b.1

/-- The records of the store in memory, which keeps them in the order they were added in. -/
def sortedByCreatedAt (createdAt : V → Datetime) (records : List (String × V)) :
    List (String × V) :=
  records.insertionSort fun a b => createdAt a.2 ≤ createdAt b.2

/-- A listing is chronological, where the times differ the same as that of the store in memory, and
the texts compare as the times do. -/
structure ListsChronologically (createdAt : V → Datetime) (rows : Table V) : Prop where
  sorted : (listByCreatedAt createdAt rows).Pairwise fun a b => createdAt a.2 ≤ createdAt b.2
  sameOrder : (rows.entries.map fun e => createdAt e.2).Nodup →
    ∀ records, records.Perm rows.entries →
      listByCreatedAt createdAt rows = sortedByCreatedAt createdAt records
  texts : ∀ a ∈ rows.entries, ∀ b ∈ rows.entries, createdAt a.2 < createdAt b.2 →
    (createdAt a.2).zuluformat < (createdAt b.2).zuluformat

variable {createdAt : V → Datetime} {rows : Table V}

theorem mem_listByCreatedAt {id : String} {row : V} :
    (id, row) ∈ listByCreatedAt createdAt rows ↔ rows.find? id = some row := by
  unfold listByCreatedAt
  rw [List.mem_insertionSort, OrderedMap.mem_entries_iff]

theorem zuluformat_le_of_listed :
    (listByCreatedAt createdAt rows).Pairwise fun a b =>
      (createdAt a.2).zuluformat ≤ (createdAt b.2).zuluformat := by
  have hlex : ∀ a b : String × V, ((createdAt a.2).zuluformat < (createdAt b.2).zuluformat ∨
        (createdAt a.2).zuluformat = (createdAt b.2).zuluformat ∧ a.1 ≤ b.1) ↔
      toLex ((createdAt a.2).zuluformat, a.1) ≤ toLex ((createdAt b.2).zuluformat, b.1) := by
    intro a b
    rw [Prod.Lex.toLex_le_toLex]
  have hsorted := pairwise_insertionSort_key
    (fun e : String × V => toLex ((createdAt e.2).zuluformat, e.1)) hlex rows.entries
  exact hsorted.imp fun h => h.elim le_of_lt fun heq => heq.1.le

/-- A listing of the store is chronological exactly where no record is created at the start of a
second and another later in that second. -/
theorem listsChronologically_iff : ListsChronologically createdAt rows ↔
    ∀ a ∈ rows.entries, ∀ b ∈ rows.entries, ¬ (createdAt a.2).Opens (createdAt b.2) := by
  constructor
  · intro h a ha b hb hopens
    exact lt_asymm (h.texts a ha b hb hopens.2.2) hopens.zuluformat_gt
  · intro h
    have htexts : ∀ a ∈ rows.entries, ∀ b ∈ rows.entries, createdAt a.2 < createdAt b.2 →
        (createdAt a.2).zuluformat < (createdAt b.2).zuluformat := fun a ha b hb hlt =>
      Datetime.zuluformat_lt hlt (h a ha b hb)
    have hperm : (listByCreatedAt createdAt rows).Perm rows.entries := List.perm_insertionSort _ _
    have hsorted : (listByCreatedAt createdAt rows).Pairwise fun a b =>
        createdAt a.2 ≤ createdAt b.2 := by
      apply zuluformat_le_of_listed.imp_of_mem
      intro a b ha hb hle
      apply le_of_not_gt
      intro hlt
      exact hle.not_gt (htexts b (hperm.mem_iff.mp hb) a (hperm.mem_iff.mp ha) hlt)
    constructor
    · exact hsorted
    · intro hdistinct records hrecords
      have hsorted' : (sortedByCreatedAt createdAt records).Pairwise fun a b =>
          createdAt a.2 ≤ createdAt b.2 := 
        pairwise_insertionSort_key (fun e : String × V => createdAt e.2) (fun _ _ => Iff.rfl) _
      have hperm' : (sortedByCreatedAt createdAt records).Perm rows.entries :=
        (List.perm_insertionSort _ _).trans hrecords
      refine List.Perm.eq_of_pairwise ?_ hsorted hsorted' (hperm.trans hperm'.symm)
      intro a b ha hb hab hba
      exact List.inj_on_of_nodup_map hdistinct (hperm.mem_iff.mp ha) (hperm'.mem_iff.mp hb)
        (le_antisymm hab hba)
    · exact htexts

end Listing
end Tes
