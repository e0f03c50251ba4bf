import Mathlib.Data.String.Basic
import Mathlib.Data.List.Lex
import Mathlib.Order.Monotone.Basic
import Mathlib.Data.Nat.Log
import Mathlib.Tactic.IntervalCases

/-! UTC datetimes to the microsecond, and their ISO 8601 texts, which compare as the
datetimes do. -/
namespace IsoTime

/-! Numbers of a fixed width. -/

/-- The last `width` decimal digits. -/
def digits : ℕ → ℕ → List Char
  | 0, _ => []
  | width + 1, n => digits width (n / 10) ++ [Nat.digitChar (n % 10)]

theorem digitChar_lt {a b : ℕ} (h : a < b) (hb : b < 10) : Nat.digitChar a < Nat.digitChar b := by
  have hall : ∀ b < 10, ∀ a < b, Nat.digitChar a < Nat.digitChar b := by decide
  exact hall b hb a h

theorem length_digits (width n : ℕ) : (digits width n).length = width := by
  induction width generalizing n with
  | zero => rfl
  | succ width ih => rw [digits, List.length_append, ih, List.length_singleton]

theorem append_lt_append {xs ys us vs : List Char} (h : xs < ys) (hlength : xs.length = ys.length) :
    xs ++ us < ys ++ vs := by
  induction xs generalizing ys with
  | nil =>
    rw [List.length_nil] at hlength
    rw [List.length_eq_zero_iff.mp hlength.symm] at h
    exact absurd h (List.not_lt_nil _)
  | cons x xs ih =>
    cases ys with
    | nil => cases hlength
    | cons y ys =>
      rw [List.cons_append, List.cons_append, List.cons_lt_cons_iff]
      rcases List.cons_lt_cons_iff.mp h with hhead | ⟨rfl, htail⟩
      · exact Or.inl hhead
      · exact Or.inr ⟨rfl, ih htail (Nat.succ.inj hlength)⟩

theorem digits_lt {width n m : ℕ} (h : n < m) (hm : m < 10 ^ width) :
    digits width n < digits width m := by
  induction width generalizing n m with
  | zero => omega
  | succ width ih =>
    rw [digits, digits]
    have hdiv : m / 10 < 10 ^ width := by
      rw [Nat.pow_succ] at hm
      omega
    rcases Nat.lt_or_ge (n / 10) (m / 10) with hlt | hge
    · exact append_lt_append (ih hlt hdiv) (by rw [length_digits, length_digits])
    · have heq : n / 10 = m / 10 := by omega
      rw [heq]
      refine List.append_left_lt (List.cons_lt_cons_iff.mpr (Or.inl (digitChar_lt ?_ ?_)))
      · omega
      · omega

/-- A field decides, or leaves the decision to what follows. -/
theorem field_lt (width : ℕ) {n m : ℕ} {us vs : List Char} (hm : m < 10 ^ width)
    (h : n < m ∨ n = m ∧ us < vs) : digits width n ++ us < digits width m ++ vs := by
  rcases h with hlt | ⟨rfl, htail⟩
  · exact append_lt_append (digits_lt hlt hm) (by rw [length_digits, length_digits])
  · exact List.append_left_lt htail

theorem separator_lt {c : Char} {us vs : List Char} (h : us < vs) : c :: us < c :: vs :=
  List.cons_lt_cons_iff.mpr (Or.inr ⟨rfl, h⟩)

/-! The proleptic Gregorian calendar. Days are counted from 0001-01-01. -/

theorem le_of_starts {start : ℕ → ℕ} (hmono : Monotone start) {n m a b : ℕ} (ha : start a ≤ n)
    (hb : m < start (b + 1)) (h : n ≤ m) : a ≤ b := by
  by_contra hlt
  have := hmono (show b + 1 ≤ a by omega)
  omega

def isLeap (year : ℕ) : Bool := year % 4 = 0 ∧ (year % 100 ≠ 0 ∨ year % 400 = 0)

def daysBeforeYear (year : ℕ) : ℕ :=
  (year - 1) * 365 + (year - 1) / 4 - (year - 1) / 100 + (year - 1) / 400

/-- Cycles of 400, 100, 4 and 1 years; the last day of a leap cycle is a fifth year's first. -/
def year (day : ℕ) : ℕ :=
  let n400 := day / 146097
  let n100 := day % 146097 / 36524
  let n4 := day % 146097 % 36524 / 1461
  let n1 := day % 146097 % 36524 % 1461 / 365
  n400 * 400 + n100 * 100 + n4 * 4 + n1 + if n1 = 4 ∨ n100 = 4 then 0 else 1

/-- The number of days of a year. -/
def daysInYear (leap : Bool) : ℕ := 365 + if leap then 1 else 0

theorem div_succ (k n : ℕ) : (n + 1) / k = n / k + if (n + 1) % k = 0 then 1 else 0 := by
  rw [Nat.succ_div]
  simp only [Nat.dvd_iff_mod_eq_zero]

theorem daysBeforeYear_succ {year : ℕ} (h : 1 ≤ year) :
    daysBeforeYear (year + 1) = daysBeforeYear year + daysInYear (isLeap year) := by
  obtain ⟨n, rfl⟩ : ∃ n, year = n + 1 := ⟨year - 1, by omega⟩
  have h100 : (n + 1) % 100 = 0 → (n + 1) % 4 = 0 := by omega
  have h400 : (n + 1) % 400 = 0 → (n + 1) % 100 = 0 := by omega
  have hle : (n + 1) / 100 ≤ n := by omega
  have hle' : n / 100 ≤ n := Nat.div_le_self n 100
  unfold daysBeforeYear daysInYear isLeap
  simp only [decide_eq_true_eq, Nat.add_sub_cancel, div_succ 4, div_succ 100,
    div_succ 400] at hle ⊢
  split_ifs at hle ⊢ <;> omega

theorem monotone_daysBeforeYear : Monotone daysBeforeYear := monotone_nat_of_le_succ fun year => by
  cases year with
  | zero => exact le_rfl
  | succ year =>
    rw [daysBeforeYear_succ (Nat.le_add_left 1 year)]
    omega

theorem daysBeforeYear_eq (a : ℕ) {b c d : ℕ} (hb : b ≤ 3) (hc : c ≤ 24) (hd : d ≤ 3) :
    daysBeforeYear (400 * a + 100 * b + 4 * c + d + 1) =
      146097 * a + 36524 * b + 1461 * c + 365 * d := by
  have h4 : (400 * a + 100 * b + 4 * c + d) / 4 = 100 * a + 25 * b + c := by omega
  have h100 : (400 * a + 100 * b + 4 * c + d) / 100 = 4 * a + b := by omega
  have h400 : (400 * a + 100 * b + 4 * c + d) / 400 = a := by omega
  unfold daysBeforeYear
  rw [Nat.add_sub_cancel, h4, h100, h400]
  omega

theorem year_starts (day : ℕ) :
    1 ≤ year day ∧ daysBeforeYear (year day) ≤ day ∧ day < daysBeforeYear (year day + 1) := by
  have hday : day = 146097 * (day / 146097) + day % 146097 := by omega
  generalize hn400 : day / 146097 = a at hday
  generalize hr400 : day % 146097 = r at hday
  have hr : r = 36524 * (r / 36524) + r % 36524 := by omega
  have hr400' : r < 146097 := by omega
  generalize hn100 : r / 36524 = b at hr
  generalize hr100 : r % 36524 = q at hr
  have hq : q = 1461 * (q / 1461) + q % 1461 := by omega
  have hq' : q < 36524 := by omega
  generalize hn4 : q / 1461 = c at hq
  generalize hr4 : q % 1461 = p at hq
  have hp : p = 365 * (p / 365) + p % 365 := by omega
  have hp' : p < 1461 := by omega
  generalize hn1 : p / 365 = d at hp
  generalize hr1 : p % 365 = rest at hp
  have hrest : rest < 365 := by omega
  have hyear : year day = 400 * a + 100 * b + 4 * c + d + if d = 4 ∨ b = 4 then 0 else 1 := by
    unfold year
    rw [hn400, hr400, hn100, hr100, hn4, hr4, hn1]
    dsimp only
    split_ifs <;> omega
  rw [hyear]
  by_cases hd : d = 4
  · -- the last day of a four-year cycle, which is not the last of a century
    have hc : c ≤ 23 := by omega
    have hb : b ≤ 3 := by omega
    have hstart := daysBeforeYear_eq a hb (show c ≤ 24 by omega) (le_refl 3)
    have hnext := daysBeforeYear_eq a hb (show c + 1 ≤ 24 by omega) (Nat.zero_le 3)
    have hy : 400 * a + 100 * b + 4 * c + 4 = 400 * a + 100 * b + 4 * c + 3 + 1 := by omega
    have hy' : 400 * a + 100 * b + 4 * c + 4 + 1 = 400 * a + 100 * b + 4 * (c + 1) + 0 + 1 := by omega
    rw [if_pos (Or.inl hd), hd, Nat.add_zero, hy', hnext, hy, hstart]
    omega
  · by_cases hb : b = 4
    · -- the last day of a four-century cycle
      have hstart := daysBeforeYear_eq a (le_refl 3) (le_refl 24) (le_refl 3)
      have hnext := daysBeforeYear_eq (a + 1) (Nat.zero_le 3) (Nat.zero_le 24) (Nat.zero_le 3)
      have hc : c = 0 ∧ d = 0 := by omega
      have hy : 400 * a + 100 * 4 + 4 * 0 + 0 = 400 * a + 100 * 3 + 4 * 24 + 3 + 1 := by omega
      have hy' : 400 * a + 100 * 4 + 4 * 0 + 0 + 1 =
          400 * (a + 1) + 100 * 0 + 4 * 0 + 0 + 1 := by omega
      rw [if_pos (Or.inr hb), hb, hc.1, hc.2, Nat.add_zero, hy', hnext, hy, hstart]
      omega
    · have hstart := daysBeforeYear_eq a (show b ≤ 3 by omega) (show c ≤ 24 by omega)
        (show d ≤ 3 by omega)
      rw [if_neg (by simp [hd, hb]), daysBeforeYear_succ (Nat.le_add_left 1 _), hstart]
      unfold daysInYear
      omega

def daysBeforeMonth (leap : Bool) (month : ℕ) : ℕ :=
  [0, 0, 31, 59, 90, 120, 151, 181, 212, 243, 273, 304, 334].getD month 365 +
    if leap ∧ 2 < month then 1 else 0

/-- The month of a day of the year, both counted from the start. -/
def month (leap : Bool) (dayOfYear : ℕ) : ℕ :=
  ((List.range 12).filter fun m => daysBeforeMonth leap (m + 1) ≤ dayOfYear).length

theorem monotone_daysBeforeMonth (leap : Bool) : Monotone (daysBeforeMonth leap) := by
  refine monotone_nat_of_le_succ fun m => ?_
  have hyear : ∀ leap, ∀ m < 13, daysBeforeMonth leap m ≤ daysBeforeMonth leap (m + 1) := by decide
  by_cases hm : m < 13
  · exact hyear leap m hm
  · have hlast : ∀ m, ¬ m < 13 → daysBeforeMonth leap m = 365 + if leap then 1 else 0 := by
      intro m hm
      unfold daysBeforeMonth
      rw [List.getD_eq_getElem?_getD, List.getElem?_eq_none (by simpa using hm)]
      simp [show 2 < m by omega]
    rw [hlast m hm, hlast (m + 1) (by omega)]

theorem month_starts (leap : Bool) {dayOfYear : ℕ} (h : dayOfYear < daysInYear leap) :
    daysBeforeMonth leap (month leap dayOfYear) ≤ dayOfYear ∧
      dayOfYear < daysBeforeMonth leap (month leap dayOfYear + 1) ∧ month leap dayOfYear ≤ 12 := by
  have hall : ∀ leap, ∀ d < daysInYear leap, daysBeforeMonth leap (month leap d) ≤ d ∧
      d < daysBeforeMonth leap (month leap d + 1) ∧ month leap d ≤ 12 := by
    decide +kernel
  exact hall leap dayOfYear h

/-! Datetimes. -/

/-- The number of microseconds in the years 1 to 9999. -/
def horizon : ℕ := 3652059 * 86400000000

theorem horizon_pos : 0 < horizon := by decide

/-- A datetime, in microseconds from 0001-01-01. -/
structure Datetime where
  micros : ℕ
  inRange : micros < horizon
  deriving DecidableEq

namespace Datetime

@[ext] theorem ext {d e : Datetime} (h : d.micros = e.micros) : d = e := by
  cases d
  cases e
  cases h
  rfl

instance : LinearOrder Datetime := LinearOrder.lift' micros fun _ _ => ext

/-- The start of a second. -/
def ofSeconds (seconds : ℕ) (h : seconds * 1000000 < horizon) : Datetime := ⟨seconds * 1000000, h⟩

theorem lt_iff {d e : Datetime} : d < e ↔ d.micros < e.micros := Iff.rfl

theorem le_iff {d e : Datetime} : d ≤ e ↔ d.micros ≤ e.micros := Iff.rfl

/-- The datetime some seconds later, unless that is out of range. -/
def addSeconds (d : Datetime) (seconds : ℤ) : Option Datetime :=
  let micros := d.micros + seconds * 1000000
  if h : 0 ≤ micros ∧ micros < horizon then some ⟨micros.toNat, by omega⟩ else none

theorem addSeconds_micros {d e : Datetime} {seconds : ℤ} (h : d.addSeconds seconds = some e) :
    (e.micros : ℤ) = d.micros + seconds * 1000000 := by
  unfold addSeconds at h
  dsimp only at h
  split_ifs at h with hrange
  rw [← Option.some.inj h]
  exact Int.toNat_of_nonneg hrange.1

def day (d : Datetime) : ℕ := d.micros / 86400000000

def dayOfYear (d : Datetime) : ℕ := d.day - daysBeforeYear (year d.day)

def monthOfYear (d : Datetime) : ℕ := month (isLeap (year d.day)) d.dayOfYear

def dayOfMonth (d : Datetime) : ℕ :=
  d.dayOfYear - daysBeforeMonth (isLeap (year d.day)) d.monthOfYear + 1

def second (d : Datetime) : ℕ := d.micros % 86400000000 / 1000000

def microsecond (d : Datetime) : ℕ := d.micros % 1000000

/-- The fraction of a second, left out when there is none. -/
def fraction (microsecond : ℕ) : List Char :=
  if microsecond = 0 then [] else '.' :: digits 6 microsecond

def isoChars (d : Datetime) : List Char :=
  digits 4 (year d.day) ++ '-' :: (digits 2 d.monthOfYear ++ '-' :: (digits 2 d.dayOfMonth ++
    'T' :: (digits 2 (d.second / 3600) ++ ':' :: (digits 2 (d.second / 60 % 60) ++
      ':' :: (digits 2 (d.second % 60) ++ (fraction d.microsecond ++
        ['+', '0', '0', ':', '0', '0']))))))

/-- The ISO 8601 text of a datetime. -/
def isoformat (d : Datetime) : String := String.ofList d.isoChars

/-! The fields of a datetime. -/
section Fields
variable (d : Datetime)

theorem day_lt : d.day < 3652059 := by
  have hrange := d.inRange
  unfold horizon at hrange
  unfold day
  omega

theorem year_lt : year d.day < 10 ^ 4 := by
  obtain ⟨-, hyear, -⟩ := year_starts d.day
  have hdays : daysBeforeYear (9999 + 1) = 3652059 := by norm_num [daysBeforeYear]
  have hlast : d.day < daysBeforeYear (9999 + 1) := by
    rw [hdays]
    exact d.day_lt
  have hle := le_of_starts monotone_daysBeforeYear hyear hlast le_rfl
  omega

theorem dayOfYear_lt : d.dayOfYear < daysInYear (isLeap (year d.day)) := by
  obtain ⟨hpos, hstart, hnext⟩ := year_starts d.day
  rw [daysBeforeYear_succ hpos] at hnext
  unfold dayOfYear
  omega

theorem monthOfYear_starts :
    daysBeforeMonth (isLeap (year d.day)) d.monthOfYear ≤ d.dayOfYear ∧
      d.dayOfYear < daysBeforeMonth (isLeap (year d.day)) (d.monthOfYear + 1) ∧
      d.monthOfYear ≤ 12 :=
  month_starts _ d.dayOfYear_lt

theorem dayOfMonth_lt : d.dayOfMonth < 10 ^ 2 := by
  have hfew : ∀ leap, ∀ m ≤ 12, daysBeforeMonth leap (m + 1) ≤ daysBeforeMonth leap m + 31 := by
    decide
  obtain ⟨-, hnext, hlast⟩ := d.monthOfYear_starts
  have hmonth := hfew (isLeap (year d.day)) _ hlast
  unfold dayOfMonth
  omega

theorem second_lt : d.second < 86400 := by
  unfold second
  omega

theorem microsecond_lt : d.microsecond < 1000000 := Nat.mod_lt _ (by decide)

end Fields

/-- The text down to the second. -/
def stampChars (d : Datetime) : List Char :=
  digits 4 (year d.day) ++ '-' :: (digits 2 d.monthOfYear ++ '-' :: (digits 2 d.dayOfMonth ++
    'T' :: (digits 2 (d.second / 3600) ++ ':' :: (digits 2 (d.second / 60 % 60) ++
      ':' :: digits 2 (d.second % 60)))))

theorem isoChars_eq (d : Datetime) :
    d.isoChars = d.stampChars ++ (fraction d.microsecond ++ ['+', '0', '0', ':', '0', '0']) := by
  unfold isoChars stampChars
  simp only [List.append_assoc, List.cons_append]

theorem length_stampChars (d : Datetime) : d.stampChars.length = 19 := by
  unfold stampChars
  simp only [List.length_append, List.length_cons, length_digits]

/-- The whole seconds since the start of the calendar. -/
def seconds (d : Datetime) : ℕ := d.micros / 1000000

theorem micros_eq (d : Datetime) : d.micros = d.seconds * 1000000 + d.microsecond := by
  unfold seconds microsecond
  omega

section Order
variable {d e : Datetime}

theorem stampChars_congr (h : d.seconds = e.seconds) : d.stampChars = e.stampChars := by
  have hday : d.day = e.day := by
    unfold day
    unfold seconds at h
    omega
  have hsecond : d.second = e.second := by
    unfold second
    unfold seconds at h
    omega
  unfold stampChars monthOfYear dayOfMonth monthOfYear dayOfYear
  rw [hday, hsecond]

theorem stampChars_lt (h : d.seconds < e.seconds) : d.stampChars < e.stampChars := by
  obtain ⟨-, hyear, -⟩ := year_starts d.day
  obtain ⟨-, heyear, heyear'⟩ := year_starts e.day
  have hday : d.day ≤ e.day := by
    unfold day
    unfold seconds at h
    omega
  unfold stampChars
  refine field_lt 4 e.year_lt ?_
  rcases (le_of_starts monotone_daysBeforeYear hyear heyear' hday).lt_or_eq with hlt | hsame
  · exact Or.inl hlt
  refine Or.inr ⟨hsame, separator_lt ?_⟩
  -- the same year, so the same months
  have hyears : daysBeforeYear (year d.day) = daysBeforeYear (year e.day) := by rw [hsame]
  have hdoys : d.dayOfYear ≤ e.dayOfYear := by
    unfold dayOfYear
    omega
  obtain ⟨hmonth, -, -⟩ := d.monthOfYear_starts
  obtain ⟨hemonth, hemonth', hlast⟩ := e.monthOfYear_starts
  rw [← hsame] at hemonth hemonth'
  have hmonths : d.monthOfYear ≤ e.monthOfYear :=
    le_of_starts (monotone_daysBeforeMonth _) hmonth hemonth' hdoys
  refine field_lt 2 (by omega) ?_
  rcases hmonths.lt_or_eq with hlt | heq
  · exact Or.inl hlt
  refine Or.inr ⟨heq, separator_lt ?_⟩
  -- the same month, so the same days
  have hstart : daysBeforeMonth (isLeap (year d.day)) d.monthOfYear =
      daysBeforeMonth (isLeap (year e.day)) e.monthOfYear := by rw [heq, hsame]
  have hdays : d.dayOfMonth ≤ e.dayOfMonth := by
    unfold dayOfMonth
    omega
  refine field_lt 2 e.dayOfMonth_lt ?_
  rcases hdays.lt_or_eq with hlt | heq
  · exact Or.inl hlt
  refine Or.inr ⟨heq, separator_lt ?_⟩
  -- the same day
  rw [hsame] at hemonth
  have hdays : d.day = e.day := by
    unfold dayOfMonth at heq
    have hdoy : d.dayOfYear = e.dayOfYear := by omega
    unfold dayOfYear at hdoy
    omega
  have hseconds : d.second < e.second := by
    unfold second
    unfold day at hdays
    unfold seconds at h
    omega
  have hesecond := e.second_lt
  refine field_lt 2 (by omega) ?_
  rcases (Nat.div_le_div_right hseconds.le : d.second / 3600 ≤ e.second / 3600).lt_or_eq with
    hlt | heq
  · exact Or.inl hlt
  refine Or.inr ⟨heq, separator_lt (field_lt 2 (by omega) ?_)⟩
  rcases (show d.second / 60 % 60 ≤ e.second / 60 % 60 by omega).lt_or_eq with hlt | heq'
  · exact Or.inl hlt
  have hlt : digits 2 (d.second % 60) < digits 2 (e.second % 60) :=
    digits_lt (by omega) (by omega)
  exact Or.inr ⟨heq', separator_lt hlt⟩

/-- Texts that continue the stamps compare as the seconds do, then as what continues them. -/
theorem stampChars_append_lt {us vs : List Char}
    (h : d.seconds < e.seconds ∨ d.seconds = e.seconds ∧ us < vs) :
    d.stampChars ++ us < e.stampChars ++ vs := by
  rcases h with hlt | ⟨heq, htail⟩
  · apply append_lt_append (stampChars_lt hlt)
    rw [length_stampChars, length_stampChars]
  · rw [stampChars_congr heq]
    exact List.append_left_lt htail

theorem fraction_lt {n m : ℕ} (h : n < m) (hm : m < 1000000) (rest : List Char) :
    fraction n ++ '+' :: rest < fraction m ++ '+' :: rest := by
  unfold fraction
  rw [if_neg (show m ≠ 0 by omega)]
  split_ifs with hn
  · exact List.cons_lt_cons_iff.mpr (Or.inl (by decide))
  · exact separator_lt (field_lt 6 hm (Or.inl h))

theorem isoChars_lt (h : d < e) : d.isoChars < e.isoChars := by
  have hmicros : d.micros < e.micros := h
  rw [micros_eq d, micros_eq e] at hmicros
  have hd := d.microsecond_lt
  have he := e.microsecond_lt
  rw [isoChars_eq, isoChars_eq]
  apply stampChars_append_lt
  rcases Nat.lt_or_ge d.seconds e.seconds with hlt | hge
  · exact Or.inl hlt
  · have hsame : d.seconds = e.seconds := by omega
    have hfraction : d.microsecond < e.microsecond := by omega
    exact Or.inr ⟨hsame, fraction_lt hfraction he _⟩

end Order

theorem isoformat_lt_iff {d e : Datetime} : d.isoformat < e.isoformat ↔ d < e := by
  have hlt : ∀ {d e : Datetime}, d < e → d.isoformat < e.isoformat := fun h => by
    unfold isoformat
    rw [String.lt_iff_toList_lt, String.toList_ofList, String.toList_ofList]
    exact isoChars_lt h
  constructor
  · intro h
    by_contra hge
    rcases (not_lt.mp hge).lt_or_eq with hgt | heq
    · exact lt_asymm h (hlt hgt)
    · rw [heq] at h
      exact lt_irrefl _ h
  · exact hlt

theorem isoformat_le_iff {d e : Datetime} : d.isoformat ≤ e.isoformat ↔ d ≤ e := by
  rw [← not_lt, isoformat_lt_iff, not_lt]

example : (Datetime.mk 63839663999999999 (by decide)).isoformat =
    "2023-12-31T23:59:59.999999+00:00" := by decide

end Datetime
end IsoTime
