import Tes.Library.IsoTime

/-! ISO 8601 texts that write `Z` for UTC. They compare as their datetimes do, but for the start of
a second: its text has no fraction, and `Z` is above the point. -/
namespace IsoTime

/-- A text with every occurrence of a part replaced, from the left; `skip` characters are left of
the last one. -/
def replaceFrom (old new : List Char) : ℕ → List Char → List Char
  | _, [] => []
  | skip + 1, _ :: cs => replaceFrom old new skip cs
  | 0, c :: cs =>
    if old.isPrefixOf (c :: cs) then new ++ replaceFrom old new (old.length - 1) cs
    else c :: replaceFrom old new 0 cs

/-- A text without the first character of the part stays. -/
theorem replaceFrom_append {c : Char} {rest new : List Char} {body : List Char} (hc : c ∉ body)
    (tail : List Char) :
    replaceFrom (c :: rest) new 0 (body ++ tail) = body ++ replaceFrom (c :: rest) new 0 tail := by
  induction body with
  | nil => rfl
  | cons b body ih =>
    rw [List.mem_cons, not_or] at hc
    obtain ⟨hb, hbody⟩ := hc
    have hprefix : ¬ (c :: rest).isPrefixOf (b :: (body ++ tail)) = true := by
      rw [List.isPrefixOf_cons_cons, Bool.and_eq_true, beq_iff_eq]
      exact fun h => hb h.1
    rw [List.cons_append, replaceFrom, if_neg hprefix, ih hbody, List.cons_append]

namespace Datetime

/-- The ISO 8601 text of a datetime, with `Z` for its offset. -/
def zuluformat (d : Datetime) : String :=
  String.ofList (replaceFrom ['+', '0', '0', ':', '0', '0'] ['Z'] 0 d.isoChars)

/-- The datetime is a whole second, and the other a later time within it. -/
def Opens (d e : Datetime) : Prop := d.microsecond = 0 ∧ d.seconds = e.seconds ∧ d < e

instance (d e : Datetime) : Decidable (d.Opens e) := inferInstanceAs (Decidable (_ ∧ _ ∧ _))

section Zulu
variable {d e : Datetime}

theorem notMem_digits {c : Char} (hdigit : c.isDigit = false) (width n : ℕ) :
    c ∉ digits width n := by
  have hall : ∀ n < 10, (Nat.digitChar n).isDigit = true := by decide
  induction width generalizing n with
  | zero => exact List.not_mem_nil
  | succ width ih =>
    rw [digits, List.mem_append, List.mem_singleton]
    rintro (hinit | hlast)
    · exact ih _ hinit
    · rw [hlast, hall _ (Nat.mod_lt n (by decide))] at hdigit
      cases hdigit

/-- A text down to the microsecond has digits and separators only. -/
theorem notMem_body {c : Char} (hdigit : c.isDigit = false) (hseparator : c ∉ ['-', 'T', ':', '.'])
    (d : Datetime) : c ∉ d.stampChars ++ fraction d.microsecond := by
  have hdigits := notMem_digits hdigit
  have hfraction : c ∉ fraction d.microsecond := by
    unfold fraction
    split_ifs
    · exact List.not_mem_nil
    · rw [List.mem_cons]
      rintro (hpoint | hmem)
      · exact hseparator (by simp [hpoint])
      · exact hdigits _ _ hmem
  simp only [List.mem_cons, List.not_mem_nil, or_false, not_or] at hseparator
  unfold stampChars
  simp [hdigits, hfraction, hseparator]

theorem zuluChars_eq (d : Datetime) :
    replaceFrom ['+', '0', '0', ':', '0', '0'] ['Z'] 0 d.isoChars =
      d.stampChars ++ (fraction d.microsecond ++ ['Z']) := by
  rw [isoChars_eq, ← List.append_assoc, replaceFrom_append (notMem_body (by decide) (by decide) d),
    List.append_assoc]
  rfl

theorem zuluformat_lt_of {us vs : List Char} (hd : fraction d.microsecond ++ ['Z'] = us)
    (he : fraction e.microsecond ++ ['Z'] = vs)
    (h : d.seconds < e.seconds ∨ d.seconds = e.seconds ∧ us < vs) :
    d.zuluformat < e.zuluformat := by
  unfold zuluformat
  rw [zuluChars_eq, zuluChars_eq, hd, he, String.lt_iff_toList_lt, String.toList_ofList,
    String.toList_ofList]
  exact stampChars_append_lt h

/-- The text of a whole second is above those of the times within it. -/
theorem Opens.zuluformat_gt (h : d.Opens e) : e.zuluformat < d.zuluformat := by
  obtain ⟨hwhole, hsame, hlt⟩ := h
  have hmicros : d.micros < e.micros := hlt
  rw [micros_eq d, micros_eq e] at hmicros
  have hd : fraction d.microsecond ++ ['Z'] = ['Z'] := by
    unfold fraction
    rw [if_pos hwhole]
    rfl
  have he : fraction e.microsecond ++ ['Z'] = '.' :: (digits 6 e.microsecond ++ ['Z']) := by
    unfold fraction
    rw [if_neg (by omega)]
    rfl
  apply zuluformat_lt_of he hd
  exact Or.inr ⟨hsame.symm, List.cons_lt_cons_iff.mpr (Or.inl (by decide))⟩

theorem zuluformat_lt (h : d < e) (hopens : ¬ d.Opens e) : d.zuluformat < e.zuluformat := by
  have hmicros : d.micros < e.micros := h
  rw [micros_eq d, micros_eq e] at hmicros
  have hdlt := d.microsecond_lt
  have helt := e.microsecond_lt
  apply zuluformat_lt_of rfl rfl
  rcases Nat.lt_or_ge d.seconds e.seconds with hlt | hge
  · exact Or.inl hlt
  · have hsame : d.seconds = e.seconds := by omega
    have hwhole : d.microsecond ≠ 0 := fun hzero => hopens ⟨hzero, hsame, h⟩
    unfold fraction
    rw [if_neg hwhole, if_neg (by omega)]
    have hfield := @field_lt 6 _ _ ['Z'] ['Z'] helt (Or.inl (show d.microsecond < _ by omega))
    exact Or.inr ⟨hsame, separator_lt hfield⟩

/-- The texts of two datetimes compare as these do, unless the first opens the second's second. -/
theorem zuluformat_lt_iff (h : d < e) : d.zuluformat < e.zuluformat ↔ ¬ d.Opens e :=
  ⟨fun hlt hopens => lt_asymm hlt hopens.zuluformat_gt, zuluformat_lt h⟩

end Zulu
end Datetime
end IsoTime
