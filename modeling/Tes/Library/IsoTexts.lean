import Tes.Library.IsoTime

/-! Datetimes with any offset or none, the reading of ISO 8601 texts, and the texts that write `Z`
for UTC, which do not all compare as the datetimes do. -/
namespace IsoTime

/-! Reading. -/

/-- The number that decimal digits spell. -/
def value (field : List Char) : ℕ := field.foldl (fun n c => 10 * n + (c.toNat - 48)) 0

def readDigits (width : ℕ) (cs : List Char) : Option (ℕ × List Char) :=
  if (cs.take width).length = width ∧ (cs.take width).all Char.isDigit then
    some (value (cs.take width), cs.drop width)
  else none

def readChar (c : Char) : List Char → Option (List Char)
  | d :: rest => if d = c then some rest else none
  | [] => none

/-- What follows a separator; zero without the separator. -/
def readAfter (c : Char) (read : List Char → Option (ℕ × List Char)) (cs : List Char) :
    Option (ℕ × List Char) :=
  match cs with
  | d :: rest => if d = c then read rest else some (0, cs)
  | [] => some (0, [])

/-- Six digits of a second, or three. -/
def readFraction (cs : List Char) : Option (ℕ × List Char) :=
  (readDigits 6 cs).or ((readDigits 3 cs).map fun r => (r.1 * 1000, r.2))

/-- `SS[.fff[fff]]`, in microseconds. -/
def readSeconds (cs : List Char) : Option (ℕ × List Char) := do
  let (second, cs) ← readDigits 2 cs
  let (fraction, cs) ← readAfter '.' readFraction cs
  if second < 60 then some (second * 1000000 + fraction, cs) else none

/-- `MM[:SS[.fff[fff]]]`, in microseconds. -/
def readMinutes (cs : List Char) : Option (ℕ × List Char) := do
  let (minute, cs) ← readDigits 2 cs
  let (rest, cs) ← readAfter ':' readSeconds cs
  if minute < 60 then some (minute * 60000000 + rest, cs) else none

/-- `HH[:MM[:SS[.fff[fff]]]]`, in microseconds. -/
def readClock (cs : List Char) : Option (ℕ × List Char) := do
  let (hour, cs) ← readDigits 2 cs
  let (rest, cs) ← readAfter ':' readMinutes cs
  if hour < 24 then some (hour * 3600000000 + rest, cs) else none

/-- `YYYY-MM-DD`, in days. -/
def readDate (cs : List Char) : Option (ℕ × List Char) := do
  let (year, cs) ← readDigits 4 cs
  let cs ← readChar '-' cs
  let (month, cs) ← readDigits 2 cs
  let cs ← readChar '-' cs
  let (day, cs) ← readDigits 2 cs
  let start := daysBeforeMonth (isLeap year) month
  if 1 ≤ year ∧ 1 ≤ month ∧ month ≤ 12 ∧ 1 ≤ day ∧
      start + day ≤ daysBeforeMonth (isLeap year) (month + 1) then
    some (daysBeforeYear year + start + (day - 1), cs)
  else none

/-- `Z`, or a sign and the time of an offset, in microseconds; nothing for a naive datetime. -/
def readOffset : List Char → Option (Option ℤ)
  | [] => some none
  | sign :: rest =>
    if sign = 'Z' then if rest = [] then some (some 0) else none
    else match readClock rest with
      | some (offset, []) =>
        if sign = '+' then some (some offset)
        else if sign = '-' then some (some (-offset))
        else none
      | _ => none

/-- The time of the day after any separator, and the offset; midnight where the text ends. -/
def readTime : List Char → Option (ℕ × Option ℤ)
  | [] => some (0, none)
  | _ :: cs => do
    let (clock, cs) ← readClock cs
    let offset ← readOffset cs
    some (clock, offset)

/-- The datetime some microseconds later, unless that is out of range. -/
def Datetime.shift (d : Datetime) (micros : ℤ) : Option Datetime :=
  if h : 0 ≤ d.micros + micros ∧ d.micros + micros < horizon then
    some ⟨(d.micros + micros).toNat, by omega⟩
  else none

/-- The datetime of a day at a time of the day, unless that is out of range. -/
def atClock (day clock : ℕ) : Option Datetime :=
  if h : day * 86400000000 + clock < horizon then some ⟨day * 86400000000 + clock, h⟩ else none

/-- A datetime as it shows at some offset from UTC, in microseconds, or at none. -/
structure WallTime where
  wall : Datetime
  offset : Option ℤ := none
  deriving DecidableEq

namespace WallTime

/-- The same instant in UTC, where the calendar has it; `fallback` is the offset of a naive
datetime. -/
def utc (t : WallTime) (fallback : ℤ) : Option Datetime := t.wall.shift (-(t.offset.getD fallback))

end WallTime

/-- `YYYY-MM-DD[*HH[:MM[:SS[.fff[fff]]]][+HH:MM[:SS[.ffffff]]]]`, any character for the star. -/
def fromIsoformat (text : String) : Option WallTime := do
  let (day, cs) ← readDate text.toList
  let (clock, offset) ← readTime cs
  (atClock day clock).map fun wall => { wall, offset }

section Read
variable {width n : ℕ} {rest : List Char}

theorem digitChar_toNat (h : n < 10) : (Nat.digitChar n).toNat = 48 + n := by
  have hall : ∀ n < 10, (Nat.digitChar n).toNat = 48 + n := by decide
  exact hall n h

theorem isDigit_digits {c : Char} (hc : c ∈ digits width n) : c.isDigit = true := by
  have hall : ∀ n < 10, (Nat.digitChar n).isDigit = true := by decide
  induction width generalizing n with
  | zero => cases hc
  | succ width ih =>
    rw [digits] at hc
    rcases List.mem_append.mp hc with hinit | hlast
    · exact ih hinit
    · rw [List.mem_singleton.mp hlast]
      exact hall _ (Nat.mod_lt n (by decide))

theorem value_digits (h : n < 10 ^ width) : value (digits width n) = n := by
  induction width generalizing n with
  | zero =>
    rw [pow_zero] at h
    have hzero : n = 0 := by omega
    rw [hzero]
    rfl
  | succ width ih =>
    have hdiv : n / 10 < 10 ^ width := by
      rw [pow_succ] at h
      omega
    have hinit := ih hdiv
    unfold value at hinit ⊢
    rw [digits, List.foldl_append, hinit, List.foldl_cons, List.foldl_nil,
      digitChar_toNat (Nat.mod_lt n (by decide))]
    omega

/-- A field of a fixed width is read back. -/
theorem readDigits_digits (h : n < 10 ^ width) (rest : List Char) :
    readDigits width (digits width n ++ rest) = some (n, rest) := by
  have htake : (digits width n ++ rest).take width = digits width n :=
    List.take_left' (length_digits width n)
  have hdrop : (digits width n ++ rest).drop width = rest :=
    List.drop_left' (length_digits width n)
  have hall : (digits width n).all Char.isDigit = true :=
    List.all_eq_true.mpr fun c hc => isDigit_digits hc
  unfold readDigits
  rw [htake, hdrop, if_pos ⟨length_digits width n, hall⟩, value_digits h]

theorem readAfter_separator (c : Char) (read : List Char → Option (ℕ × List Char)) :
    readAfter c read (c :: rest) = read rest := if_pos rfl

theorem readSeconds_eq {second micros : ℕ} (hsecond : second < 60) (hmicros : micros < 1000000) :
    readSeconds (digits 2 second ++ (Datetime.fraction micros ++ '+' :: rest)) =
      some (second * 1000000 + micros, '+' :: rest) := by
  have hfraction : readAfter '.' readFraction (Datetime.fraction micros ++ '+' :: rest) =
      some (micros, '+' :: rest) := by
    unfold Datetime.fraction
    split_ifs with hzero
    · rw [hzero]
      rfl
    · rw [List.cons_append, readAfter_separator, readFraction, readDigits_digits hmicros]
      rfl
  unfold readSeconds
  rw [readDigits_digits (by omega), Option.bind_eq_bind, Option.bind_some]
  dsimp only
  rw [hfraction, Option.bind_some]
  exact if_pos hsecond

theorem readClock_eq {seconds micros : ℕ} (hseconds : seconds < 86400) (hmicros : micros < 1000000) :
    readClock (digits 2 (seconds / 3600) ++ ':' :: (digits 2 (seconds / 60 % 60) ++
      ':' :: (digits 2 (seconds % 60) ++ (Datetime.fraction micros ++ '+' :: rest)))) =
      some (seconds * 1000000 + micros, '+' :: rest) := by
  have hminutes : readMinutes (digits 2 (seconds / 60 % 60) ++
      ':' :: (digits 2 (seconds % 60) ++ (Datetime.fraction micros ++ '+' :: rest))) =
      some (seconds / 60 % 60 * 60000000 + (seconds % 60 * 1000000 + micros), '+' :: rest) := by
    unfold readMinutes
    rw [readDigits_digits (by omega), Option.bind_eq_bind, Option.bind_some]
    dsimp only
    rw [readAfter_separator, readSeconds_eq (by omega) hmicros, 
      Option.bind_some]
    exact if_pos (by omega)
  unfold readClock
  rw [readDigits_digits (by omega), Option.bind_eq_bind, Option.bind_some]
  dsimp only
  rw [readAfter_separator, hminutes, Option.bind_some]
  dsimp only
  rw [if_pos (by omega)]
  have htotal : seconds / 3600 * 3600000000 + (seconds / 60 % 60 * 60000000 +
      (seconds % 60 * 1000000 + micros)) = seconds * 1000000 + micros := by omega
  rw [htotal]

theorem readDate_eq (d : Datetime) :
    readDate (digits 4 (year d.day) ++ '-' :: (digits 2 d.monthOfYear ++ '-' ::
      (digits 2 d.dayOfMonth ++ rest))) = some (d.day, rest) := by
  obtain ⟨hpos, hyear, -⟩ := year_starts d.day
  obtain ⟨hmonth, hnext, hlast⟩ := d.monthOfYear_starts
  have hfirst : 1 ≤ d.monthOfYear := by
    unfold Datetime.monthOfYear month
    apply List.length_pos_of_mem (a := 0)
    apply List.mem_filter.mpr
    constructor
    · decide
    · apply decide_eq_true
      have hzero : daysBeforeMonth (isLeap (year d.day)) (0 + 1) = 0 := by
        cases isLeap (year d.day) <;> rfl
      omega
  have hstart : daysBeforeMonth (isLeap (year d.day)) d.monthOfYear + d.dayOfMonth =
      d.dayOfYear + 1 := by
    unfold Datetime.dayOfMonth
    omega
  have hday : daysBeforeYear (year d.day) + d.dayOfYear = d.day := by
    unfold Datetime.dayOfYear
    omega
  unfold readDate
  rw [readDigits_digits d.year_lt, Option.bind_eq_bind, Option.bind_some]
  dsimp only
  rw [readChar, if_pos rfl, Option.bind_eq_bind, Option.bind_some,
    readDigits_digits (by omega), Option.bind_some]
  dsimp only
  rw [readChar, if_pos rfl, Option.bind_some,
    readDigits_digits d.dayOfMonth_lt, Option.bind_some]
  dsimp only
  have hpositive : 1 ≤ d.dayOfMonth := by
    unfold Datetime.dayOfMonth
    omega
  rw [if_pos ⟨hpos, hfirst, hlast, hpositive, by omega⟩]
  have htotal : daysBeforeYear (year d.day) +
      daysBeforeMonth (isLeap (year d.day)) d.monthOfYear + (d.dayOfMonth - 1) = d.day := by omega
  rw [htotal]

end Read

namespace Datetime

theorem shift_zero (d : Datetime) : d.shift 0 = some d := by
  have hrange := d.inRange
  unfold shift
  rw [dif_pos (by omega)]
  have hmicros : (d.micros + 0 : ℤ).toNat = d.micros := by omega
  exact congrArg some (Datetime.ext hmicros)

theorem atClock_eq (d : Datetime) :
    atClock d.day (d.second * 1000000 + d.microsecond) = some d := by
  have hmicros : d.day * 86400000000 + (d.second * 1000000 + d.microsecond) = d.micros := by
    unfold day second microsecond
    omega
  have hlt : d.day * 86400000000 + (d.second * 1000000 + d.microsecond) < horizon := by
    rw [hmicros]
    exact d.inRange
  unfold atClock
  rw [dif_pos hlt]
  exact congrArg some (Datetime.ext hmicros)

theorem readTime_eq (d : Datetime) (separator : Char) :
    readTime (separator :: (digits 2 (d.second / 3600) ++ ':' :: (digits 2 (d.second / 60 % 60) ++
      ':' :: (digits 2 (d.second % 60) ++ (fraction d.microsecond ++
        ['+', '0', '0', ':', '0', '0']))))) =
      some (d.second * 1000000 + d.microsecond, some 0) := by
  have hoffset : readOffset ['+', '0', '0', ':', '0', '0'] = some (some 0) := by decide
  rw [readTime, readClock_eq d.second_lt d.microsecond_lt, Option.bind_eq_bind, Option.bind_some]
  dsimp only
  rw [hoffset, Option.bind_eq_bind, Option.bind_some]

/-- The text of a datetime is read back, in UTC. -/
theorem fromIsoformat_isoformat (d : Datetime) :
    fromIsoformat d.isoformat = some { wall := d, offset := some 0 } := by
  unfold fromIsoformat isoformat
  rw [String.toList_ofList, isoChars, readDate_eq, Option.bind_eq_bind, Option.bind_some]
  dsimp only
  rw [readTime_eq, Option.bind_eq_bind, Option.bind_some]
  dsimp only
  rw [atClock_eq, Option.map_some]

end Datetime
end IsoTime
