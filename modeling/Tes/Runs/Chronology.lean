import Tes.Library.IsoTexts
import Tes.Runs.Listings
import Tes.Runs.Tournaments

/-! The store writes its times with `Z` for UTC, reads them back, and lists runs and tournaments by
their texts. -/
namespace Tes
open IsoTime

/-- A stored run with the time it was created at. -/
structure StoredRun where
  createdAt : Datetime
  record : RunRecord

namespace RunStore

/-- The text of a datetime in UTC, which a naive datetime is in already. -/
def formatDatetime (t : WallTime) : Option String := (t.utc 0).map Datetime.zuluformat

/-- The datetime of a text, at its offset. -/
def parseDatetime (text : String) : Option WallTime :=
  fromIsoformat (String.ofList (replaceFrom ['Z'] ['+', '0', '0', ':', '0', '0'] 0 text.toList))

/-- The text that the store keeps of a datetime is read back. -/
theorem parseDatetime_formatDatetime {t : WallTime} {d : Datetime} (h : t.utc 0 = some d) :
    (formatDatetime t).bind parseDatetime = some { wall := d, offset := some 0 } := by
  have hchars : replaceFrom ['Z'] ['+', '0', '0', ':', '0', '0'] 0 d.zuluformat.toList =
      d.isoChars := by
    unfold Datetime.zuluformat
    rw [String.toList_ofList, Datetime.zuluChars_eq, Datetime.isoChars_eq, ← List.append_assoc,
      replaceFrom_append (Datetime.notMem_body (by decide) (by decide) d), List.append_assoc]
    rfl
  unfold formatDatetime parseDatetime
  rw [h, Option.map_some, Option.bind_some, hchars]
  exact d.fromIsoformat_isoformat

end RunStore

/-- The listings of the runs and of the tournaments are chronological exactly where no record is
created at the start of a second and another later in that second: of two times the text of the
first is below that of the second but for such times. -/
theorem listings_chronological_iff (runs : Table StoredRun) (tournaments : Table TournamentRecord) :
    (ListsChronologically StoredRun.createdAt runs ↔
      ∀ a ∈ runs.entries, ∀ b ∈ runs.entries, ¬ a.2.createdAt.Opens b.2.createdAt) ∧
    (ListsChronologically TournamentRecord.createdAt tournaments ↔
      ∀ a ∈ tournaments.entries, ∀ b ∈ tournaments.entries,
        ¬ a.2.createdAt.Opens b.2.createdAt) ∧
    ∀ d e : Datetime, d < e → (d.zuluformat < e.zuluformat ↔ ¬ d.Opens e) :=
  ⟨listsChronologically_iff, listsChronologically_iff, fun _ _ => Datetime.zuluformat_lt_iff⟩

theorem inRange_halfSecond : 63839707200500000 < horizon := by decide

/-- Noon of the first day of 2024, and half a second later. -/
def wholeSecond : Datetime := ⟨63839707200000000, lt_trans (by decide) inRange_halfSecond⟩
def halfSecond : Datetime := ⟨63839707200500000, inRange_halfSecond⟩

def twoRuns : Table StoredRun :=
  ((∅ : Table StoredRun).insert "a" ⟨wholeSecond, { status := .pending }⟩).insert "b"
    ⟨halfSecond, { status := .pending }⟩

theorem not_listsChronologically_twoRuns : ¬ ListsChronologically StoredRun.createdAt twoRuns := by
  intro h
  have hmem : ∀ {id run}, twoRuns.find? id = some run → (id, run) ∈ twoRuns.entries := fun h =>
    OrderedMap.mem_entries_iff.mpr h
  have hfirst := @hmem "a" ⟨wholeSecond, { status := .pending }⟩ (by
    unfold twoRuns
    rw [OrderedMap.find?_insert, OrderedMap.find?_insert]
    rfl)
  have hsecond := @hmem "b" ⟨halfSecond, { status := .pending }⟩ (by
    unfold twoRuns
    rw [OrderedMap.find?_insert]
    rfl)
  exact listsChronologically_iff.mp h _ hfirst _ hsecond (by decide)

end Tes
