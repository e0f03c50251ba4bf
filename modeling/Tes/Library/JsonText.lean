import Tes.Library.CanonicalJson
import Tes.Library.Texts

/-! JSON texts: a reader of characters, and a compact writer over the way it encodes the characters
of a string. A text is read back exactly if every character of its strings is encoded. -/
namespace Json.Text

/-! Tokens are read one by one. -/

inductive Token
  | lbrace
  | rbrace
  | lbracket
  | rbracket
  | colon
  | comma
  | str (s : String)
  | word (chars : List Char)

/-- A list or a dict that has begun, the dict with the key of the value to come. -/
inductive Frame
  | list (items : List Value)
  | dict (items : Dict) (key : String)

/-- What has been read, and what may come. -/
inductive State
  | value (stack : List Frame)
  | firstItem (stack : List Frame)
  | firstKey (stack : List Frame)
  | key (items : Dict) (stack : List Frame)
  | colon (items : Dict) (key : String) (stack : List Frame)
  | done (value : Value) (stack : List Frame)

/-- An integer, in its canonical form. -/
def readInt (chars : List Char) : Option ℤ :=
  (String.ofList chars).toInt?.bind fun n => if (toString n).toList = chars then some n else none

def isDigits (chars : List Char) : Bool := !chars.isEmpty && chars.all Char.isDigit

def isExponent : List Char → Bool
  | '+' :: chars => isDigits chars
  | '-' :: chars => isDigits chars
  | chars => isDigits chars

/-- An integer with a fraction, an exponent or both. -/
def isNumber (chars : List Char) : Bool :=
  let (mantissa, exponent) := chars.span fun c => c ≠ 'e' ∧ c ≠ 'E'
  let (whole, fraction) := mantissa.span (· ≠ '.')
  (whole = ['-', '0'] ∨ (readInt whole).isSome) &&
    (fraction.isEmpty || isDigits (fraction.drop 1)) &&
    (exponent.isEmpty || isExponent (exponent.drop 1))

def readWord (chars : List Char) : Option Value :=
  match readInt chars with
  | some n => some (.int n)
  | none =>
    if chars = ['n', 'u', 'l', 'l'] then some .null
    else if chars = ['t', 'r', 'u', 'e'] then some (.bool true)
    else if chars = ['f', 'a', 'l', 's', 'e'] then some (.bool false)
    else if chars = ['-', '0'] then some (.int 0)
    else if isNumber chars then some (.float (String.ofList chars))
    else none

/-- Read a token where a value may stand. -/
def feedValue (stack : List Frame) : Token → Option State
  | .lbrace => some (.firstKey stack)
  | .lbracket => some (.firstItem stack)
  | .str s => some (.done (.str s) stack)
  | .word chars => (readWord chars).map fun value => .done value stack
  | _ => none

def feed : State → Token → Option State
  | .value stack, token => feedValue stack token
  | .firstItem stack, .rbracket => some (.done (.list []) stack)
  | .firstItem stack, token => feedValue (.list [] :: stack) token
  | .firstKey stack, .rbrace => some (.done (.dict []) stack)
  | .firstKey stack, .str key => some (.colon [] key stack)
  | .key items stack, .str key => some (.colon items key stack)
  | .colon items key stack, .colon => some (.value (.dict items key :: stack))
  | .done value (.list items :: stack), .comma => some (.value (.list (items ++ [value]) :: stack))
  | .done value (.list items :: stack), .rbracket =>
    some (.done (.list (items ++ [value])) stack)
  | .done value (.dict items key :: stack), .comma => some (.key (items ++ [(key, value)]) stack)
  | .done value (.dict items key :: stack), .rbrace =>
    some (.done (.dict (items ++ [(key, value)])) stack)
  | _, _ => none

/-! Characters are read one by one. -/

/-- Where in a token the reader is. A high surrogate waits for its low one. -/
inductive Mode
  | outside
  | word (chars : List Char)
  | inside (chars : List Char) (high : Option ℕ)
  | escaped (chars : List Char) (high : Option ℕ)
  | hex (chars : List Char) (high : Option ℕ) (digits value : ℕ)

structure Scan where
  state : State
  mode : Mode

def isWordChar (c : Char) : Bool := c.isAlphanum || c = '+' || c = '-' || c = '.'

def punctuation (c : Char) : Option Token :=
  if c = '\x7b' then some .lbrace
  else if c = '\x7d' then some .rbrace
  else if c = '[' then some .lbracket
  else if c = ']' then some .rbracket
  else if c = ':' then some .colon
  else if c = ',' then some .comma
  else none

/-- The character that an escape of two characters stands for. -/
def simpleEscape (c : Char) : Option Char :=
  if c = '"' ∨ c = '\\' ∨ c = '/' then some c
  else if c = 'b' then some '\x08'
  else if c = 'f' then some '\x0c'
  else if c = 'n' then some '\n'
  else if c = 'r' then some '\r'
  else if c = 't' then some '\t'
  else none

def hexDigit (c : Char) : Option ℕ :=
  if c.isDigit then some (c.toNat - '0'.toNat)
  else if 'a' ≤ c ∧ c ≤ 'f' then some (c.toNat - 'a'.toNat + 10)
  else if 'A' ≤ c ∧ c ≤ 'F' then some (c.toNat - 'A'.toNat + 10)
  else none

/-- A unit of UTF-16 in a string; a surrogate alone is no character. -/
def readUnit (chars : List Char) (high : Option ℕ) (unit : ℕ) : Option Mode :=
  let low := 0xDC00 ≤ unit ∧ unit < 0xE000
  match high with
  | some high =>
    if low then
      some (.inside (chars ++ [Char.ofNat (0x10000 + (high - 0xD800) * 0x400 + (unit - 0xDC00))]) none)
    else none
  | none =>
    if low then none
    else if 0xD800 ≤ unit ∧ unit < 0xDC00 then some (.inside chars (some unit))
    else some (.inside (chars ++ [Char.ofNat unit]) none)

/-- Read a character outside a token. -/
def begin (state : State) (c : Char) : Option Scan :=
  if isWordChar c then some ⟨state, .word [c]⟩
  else if c = '"' then some ⟨state, .inside [] none⟩
  else if c ∈ [' ', '\t', '\n', '\r'] then some ⟨state, .outside⟩
  else (punctuation c).bind fun token => (feed state token).map fun state => ⟨state, .outside⟩

def step (s : Scan) (c : Char) : Option Scan :=
  match s.mode with
  | .outside => begin s.state c
  | .word chars =>
    if isWordChar c then some ⟨s.state, .word (chars ++ [c])⟩
    else (feed s.state (.word chars)).bind fun state => begin state c
  | .inside chars high =>
    if c < ' ' then none
    else if c = '\\' then some ⟨s.state, .escaped chars high⟩
    else if high.isSome then none
    else if c = '"' then
      (feed s.state (.str (String.ofList chars))).map fun state => ⟨state, .outside⟩
    else some ⟨s.state, .inside (chars ++ [c]) none⟩
  | .escaped chars high =>
    if c = 'u' then some ⟨s.state, .hex chars high 0 0⟩
    else if high.isSome then none
    else (simpleEscape c).map fun c => ⟨s.state, .inside (chars ++ [c]) none⟩
  | .hex chars high digits value =>
    (hexDigit c).bind fun digit =>
      if digits < 3 then some ⟨s.state, .hex chars high (digits + 1) (16 * value + digit)⟩
      else (readUnit chars high (16 * value + digit)).map fun mode => ⟨s.state, mode⟩

def run (s : Scan) (text : List Char) : Option Scan := text.foldlM step s

/-- What has been read when a token ends. -/
def Scan.flush (s : Scan) : Option State :=
  match s.mode with
  | .outside => some s.state
  | .word chars => feed s.state (.word chars)
  | _ => none

/-- The value of a text, if it is one of JSON. -/
def decode (text : String) : Option Value := do
  let s ← run ⟨.value [], .outside⟩ text.toList
  match ← s.flush with
  | .done value [] => some value
  | _ => none

/-! The writer. -/

/-- Characters that stand for a character of a string. -/
def Encodes (c : Char) (chars : List Char) : Prop :=
  (chars = [c] ∧ ' ' ≤ c ∧ c ≠ '"' ∧ c ≠ '\\') ∨
    ∃ x, chars = ['\\', x] ∧ x ≠ 'u' ∧ simpleEscape x = some c

/-- How the characters of a string are written: each is encoded, or it is a control character and
left as it is. -/
structure Escape where
  encode : Char → List Char
  encodes : ∀ c, Encodes c (encode c) ∨ encode c = [c] ∧ c < ' '

/-- Left as it is, a character other than a quote or a backslash is as an escape requires. -/
theorem encodes_self {c : Char} (hquote : c ≠ '"') (hbackslash : c ≠ '\\') :
    Encodes c [c] ∨ [c] = [c] ∧ c < ' ' := by
  rcases lt_or_ge c ' ' with hlt | hge
  · exact Or.inr ⟨rfl, hlt⟩
  · exact Or.inl (Or.inl ⟨rfl, hge, hquote, hbackslash⟩)

section Writer
variable (escape : Escape)

def Escape.text (s : String) : String := String.ofList (s.toList.flatMap escape.encode)

def quoted (s : String) : String := "\"" ++ escape.text s ++ "\""

/-- A string of characters that are left as they are. -/
def Escape.isPlain (s : String) : Bool := s.toList.all fun c => escape.encode c = [c]

theorem quoted_of_isPlain {escape : Escape} {s : String} (h : escape.isPlain s = true) :
    quoted escape s = "\"" ++ s ++ "\"" := by
  have hself : ∀ chars : List Char, (∀ c ∈ chars, escape.encode c = [c]) →
      chars.flatMap escape.encode = chars := by
    intro chars hall
    induction chars with
    | nil => rfl
    | cons c chars ih =>
      obtain ⟨hc, hchars⟩ := List.forall_mem_cons.mp hall
      rw [List.flatMap_cons, hc, ih hchars, List.singleton_append]
  have hchars : ∀ c ∈ s.toList, escape.encode c = [c] := by
    intro c hc
    exact of_decide_eq_true (List.all_eq_true.mp h c hc)
  unfold quoted Escape.text
  rw [hself _ hchars, String.ofList_toList]

mutual

def serialize : Value → String
  | .null => "null"
  | .bool b => if b then "true" else "false"
  | .int n => toString n
  | .float repr => repr
  | .str s => quoted escape s
  | .list items => "[" ++ ",".intercalate (serializeList items) ++ "]"
  | .dict items => "\x7b" ++ ",".intercalate (serializeItems items) ++ "\x7d"

def serializeList : List Value → List String
  | [] => []
  | value :: rest => serialize value :: serializeList rest

def serializeItems : List (String × Value) → List String
  | [] => []
  | (key, value) :: rest => (quoted escape key ++ ":" ++ serialize value) :: serializeItems rest

end

end Writer

/-- All texts of a value, its keys among them, and all its floats have some property. -/
inductive Each (text number : String → Prop) : Value → Prop
  | null : Each text number .null
  | bool (b : Bool) : Each text number (.bool b)
  | int (n : ℤ) : Each text number (.int n)
  | float {repr : String} (h : number repr) : Each text number (.float repr)
  | str {s : String} (h : text s) : Each text number (.str s)
  | list {items : List Value} (h : ∀ item ∈ items, Each text number item) :
      Each text number (.list items)
  | dict {items : List (String × Value)} (hkeys : ∀ item ∈ items, text item.1)
      (h : ∀ item ∈ items, Each text number item.2) : Each text number (.dict items)

/-- Every character of a string is encoded. -/
def Escape.Clean (escape : Escape) (s : String) : Prop :=
  ∀ c ∈ s.toList, Encodes c (escape.encode c)

/-- A text in one piece that is read as a float. -/
structure IsFloat (repr : String) : Prop where
  nonempty : repr.toList ≠ []
  word : ∀ c ∈ repr.toList, isWordChar c = true
  read : readWord repr.toList = some (.float repr)

section Each
variable {text number : String → Prop}

theorem each_float_iff {repr : String} : Each text number (.float repr) ↔ number repr :=
  ⟨fun | .float h => h, .float⟩

theorem each_str_iff {s : String} : Each text number (.str s) ↔ text s := ⟨fun | .str h => h, .str⟩

theorem each_list_iff {items : List Value} :
    Each text number (.list items) ↔ ∀ item ∈ items, Each text number item :=
  ⟨fun | .list h => h, .list⟩

theorem each_dict_iff {items : List (String × Value)} :
    Each text number (.dict items) ↔
      ∀ item ∈ items, text item.1 ∧ Each text number item.2 := by
  constructor
  · rintro (_ | _) item hitem
    rename_i hkeys h
    exact ⟨hkeys item hitem, h item hitem⟩
  · exact fun h => .dict (fun item hitem => (h item hitem).1) fun item hitem => (h item hitem).2

end Each

/-! What a part of a text leaves. -/

/-- A part that can be read under some condition leaves a state, and cannot be read otherwise. -/
def Outcome (condition : Prop) (result : Option Scan) (state : State) : Prop :=
  (condition → ∃ s, result = some s ∧ s.flush = some state) ∧ (¬ condition → result = none)

section Outcomes
variable {P Q : Prop} {s : Scan} {state next last : State} {xs ys : List Char} {c : Char}
  {token : Token}

theorem run_cons (s : Scan) (c : Char) (text : List Char) :
    run s (c :: text) = (step s c).bind fun s => run s text := List.foldlM_cons

theorem run_append (s : Scan) (xs ys : List Char) :
    run s (xs ++ ys) = (run s xs).bind fun s => run s ys := List.foldlM_append

theorem Outcome.congr (h : Outcome P (run s xs) state) (hiff : P ↔ Q) :
    Outcome Q (run s xs) state :=
  ⟨fun hQ => h.1 (hiff.mpr hQ), fun hQ => h.2 (mt hiff.mp hQ)⟩

theorem Outcome.append (h : Outcome P (run s xs) state)
    (hnext : ∀ s', s'.flush = some state → Outcome Q (run s' ys) next) :
    Outcome (P ∧ Q) (run s (xs ++ ys)) next := by
  rw [run_append]
  constructor
  · rintro ⟨hP, hQ⟩
    obtain ⟨s', hrun, hflush⟩ := h.1 hP
    rw [hrun]
    exact (hnext s' hflush).1 hQ
  · intro hboth
    by_cases hP : P
    · obtain ⟨s', hrun, hflush⟩ := h.1 hP
      rw [hrun]
      exact (hnext s' hflush).2 fun hQ => hboth ⟨hP, hQ⟩
    · rw [h.2 hP]
      rfl

theorem step_of_flush (hflush : s.flush = some state) (hword : isWordChar c = false) :
    step s c = begin state c := by
  obtain ⟨inner, mode⟩ := s
  cases mode with
  | outside =>
    rw [← Option.some.inj hflush]
    rfl
  | word chars =>
    have hfeed : feed inner (.word chars) = some state := hflush
    unfold step
    dsimp only
    rw [if_neg (by rw [hword]; exact Bool.false_ne_true), hfeed, Option.bind_some]
  | inside chars high => cases hflush
  | escaped chars high => cases hflush
  | hex chars high digits value => cases hflush

theorem begin_of_punctuation (h : punctuation c = some token) :
    isWordChar c = false ∧
      begin state c = (feed state token).map fun state => ⟨state, .outside⟩ := by
  have hc : c = '\x7b' ∨ c = '\x7d' ∨ c = '[' ∨ c = ']' ∨ c = ':' ∨ c = ',' := by
    unfold punctuation at h
    split_ifs at h <;> simp [*]
  rcases hc with rfl | rfl | rfl | rfl | rfl | rfl <;> cases h <;> exact ⟨rfl, rfl⟩

/-- A character that is a token by itself ends what stands before it. -/
theorem Outcome.punct (hflush : s.flush = some state) (hc : punctuation c = some token)
    (hfeed : feed state token = some next) (h : Outcome P (run ⟨next, .outside⟩ xs) last) :
    Outcome P (run s (c :: xs)) last := by
  obtain ⟨hword, hbegin⟩ := begin_of_punctuation hc
  rw [run_cons, step_of_flush hflush hword, hbegin, hfeed]
  exact h

theorem Outcome.nil (hflush : s.flush = some state) : Outcome True (run s []) state :=
  ⟨fun _ => ⟨s, rfl, hflush⟩, fun h => absurd trivial h⟩

end Outcomes

section Words
variable {state next : State} {chars : List Char}

theorem run_word_more (chars more : List Char) (h : ∀ c ∈ more, isWordChar c = true) :
    run ⟨state, .word chars⟩ more = some ⟨state, .word (chars ++ more)⟩ := by
  induction more generalizing chars with
  | nil => rw [List.append_nil]; rfl
  | cons c more ih =>
    obtain ⟨hc, hmore⟩ := List.forall_mem_cons.mp h
    have hstep : step ⟨state, .word chars⟩ c = some ⟨state, .word (chars ++ [c])⟩ := if_pos hc
    rw [run_cons, hstep, Option.bind_some, ih _ hmore, List.append_assoc, List.singleton_append]

theorem Outcome.word (hne : chars ≠ []) (h : ∀ c ∈ chars, isWordChar c = true)
    (hfeed : feed state (.word chars) = some next) :
    Outcome True (run ⟨state, .outside⟩ chars) next := by
  obtain ⟨c, more, rfl⟩ := List.exists_cons_of_ne_nil hne
  obtain ⟨hc, hmore⟩ := List.forall_mem_cons.mp h
  have hstep : step ⟨state, .outside⟩ c = some ⟨state, .word [c]⟩ := if_pos hc
  rw [run_cons, hstep, Option.bind_some, run_word_more [c] more hmore]
  exact Outcome.nil hfeed

theorem isWordChar_of_mem_toString {n : ℤ} {c : Char} (hc : c ∈ (toString n).toList) :
    isWordChar c = true := by
  by_cases hsign : c = '-'
  · rw [hsign]
    rfl
  · cases hdigit : c.isDigit with
    | true => simp [isWordChar, Char.isAlphanum, hdigit]
    | false => exact absurd hc (Texts.notMem_toString hdigit hsign n)

theorem toList_toString_ne (n : ℤ) : (toString n).toList ≠ [] := by
  intro h
  have hempty : toString n = "" := String.toList_eq_nil_iff.mp h
  cases n with
  | ofNat m => exact Nat.repr_ne_empty hempty
  | negSucc m =>
    have hchars := congrArg String.length hempty
    have hminus : toString (Int.negSucc m) = "-" ++ toString (m + 1) := rfl
    rw [hminus, String.length_append] at hchars
    simp at hchars

/-- An integer has digits and a sign only. -/
theorem readInt_eq_none {c : Char} (hc : c ∈ chars) (hdigit : c.isDigit = false) (hsign : c ≠ '-') :
    readInt chars = none := by
  rw [Option.eq_none_iff_forall_ne_some]
  intro n hn
  unfold readInt at hn
  obtain ⟨m, -, hm⟩ := Option.bind_eq_some_iff.mp hn
  split_ifs at hm with hcanonical
  rw [← hcanonical] at hc
  exact Texts.notMem_toString hdigit hsign m hc

theorem readWord_null : readWord "null".toList = some .null := by
  have hint : readInt "null".toList = none := @readInt_eq_none _ 'n' (by decide) (by decide) (by decide)
  unfold readWord
  rw [hint]
  rfl

theorem readWord_bool (b : Bool) :
    readWord (if b then "true" else "false").toList = some (.bool b) := by
  have hint : readInt (if b then "true" else "false").toList = none := by
    cases b <;> exact @readInt_eq_none _ 'e' (by decide) (by decide) (by decide)
  unfold readWord
  rw [hint]
  cases b <;> rfl

theorem readInt_toString (n : ℤ) : readInt (toString n).toList = some n := by
  have hparse : (toString n).toInt? = some n := Int.toInt?_repr n
  unfold readInt
  rw [String.ofList_toList, hparse, Option.bind_some, if_pos rfl]

theorem readWord_toString (n : ℤ) : readWord (toString n).toList = some (.int n) := by
  unfold readWord
  rw [readInt_toString]

/-- An integer with decimals is a number, and no integer. -/
theorem isFloat_decimals (n : ℤ) {decimals : String} (h : isDigits decimals.toList = true) :
    IsFloat (toString n ++ "." ++ decimals) := by
  have hchars : (toString n ++ "." ++ decimals).toList =
      (toString n).toList ++ '.' :: decimals.toList := by simp
  have hdigits : ∀ c ∈ decimals.toList, c.isDigit = true :=
    List.all_eq_true.mp (Bool.and_eq_true_iff.mp h).2
  have hpoint : '.' ∈ (toString n ++ "." ++ decimals).toList := by simp
  have hnumber : isNumber ((toString n).toList ++ '.' :: decimals.toList) = true := by
    have hplain : ∀ c ∈ (toString n).toList ++ '.' :: decimals.toList,
        decide (c ≠ 'e' ∧ c ≠ 'E') = true := by
      intro c hc
      rw [List.mem_append, List.mem_cons] at hc
      apply decide_eq_true
      rcases hc with hc | rfl | hc
      · constructor <;> rintro rfl <;> exact Texts.notMem_toString rfl (by decide) n hc
      · decide
      · constructor <;> rintro rfl <;> cases hdigits _ hc
    have hmantissa : ((toString n).toList ++ '.' :: decimals.toList).span
        (fun c => c ≠ 'e' ∧ c ≠ 'E') = ((toString n).toList ++ '.' :: decimals.toList, []) := by
      rw [List.span_eq_takeWhile_dropWhile, List.takeWhile_eq_self_iff.mpr hplain,
        List.dropWhile_eq_nil_iff.mpr hplain]
    have hinteger : ∀ c ∈ (toString n).toList, decide (c ≠ '.') = true := by
      intro c hc
      apply decide_eq_true
      rintro rfl
      exact Texts.notMem_toString rfl (by decide) n hc
    have hwhole : ((toString n).toList ++ '.' :: decimals.toList).span (· ≠ '.') =
        ((toString n).toList, '.' :: decimals.toList) := by
      rw [List.span_eq_takeWhile_dropWhile, List.takeWhile_append_of_pos hinteger,
        List.dropWhile_append_of_pos hinteger]
      simp
    have hsome : (readInt (toString n).toList).isSome = true := by
      rw [readInt_toString]
      rfl
    unfold isNumber
    rw [hmantissa]
    dsimp only
    rw [hwhole]
    dsimp only
    rw [decide_eq_true (Or.inr hsome)]
    simpa using h
  refine ⟨List.ne_nil_of_mem hpoint, ?_, ?_⟩
  · intro c hc
    rw [hchars, List.mem_append, List.mem_cons] at hc
    rcases hc with hc | rfl | hc
    · exact isWordChar_of_mem_toString hc
    · rfl
    · simp [isWordChar, Char.isAlphanum, hdigits c hc]
  · have hne : ∀ {chars}, '.' ∉ chars → (toString n ++ "." ++ decimals).toList ≠ chars :=
      fun hnot heq => hnot (heq ▸ hpoint)
    unfold readWord
    rw [readInt_eq_none hpoint (by decide) (by decide), if_neg (hne (by decide)),
      if_neg (hne (by decide)), if_neg (hne (by decide)), if_neg (hne (by decide)), hchars,
      if_pos hnumber, ← hchars, String.ofList_toList]

end Words

section Strings
variable {escape : Escape} {state next : State} {c : Char}

theorem Escape.encodes_iff : Encodes c (escape.encode c) ↔ ¬ (escape.encode c = [c] ∧ c < ' ') := by
  constructor
  · rintro (⟨-, hle, -, -⟩ | ⟨x, hpair, -, -⟩) ⟨hraw, hlt⟩
    · exact absurd hlt (not_lt.mpr hle)
    · rw [hraw] at hpair
      cases hpair
  · exact (escape.encodes c).resolve_right

/-- A string without control characters that are left as they are. -/
def Escape.isSafe (escape : Escape) (s : String) : Bool :=
  s.toList.all fun c => escape.encode c ≠ [c] ∨ 32 ≤ c.toNat

theorem Escape.clean_of_isSafe {s : String} (h : escape.isSafe s = true) : escape.Clean s := by
  intro c hc
  rw [Escape.encodes_iff]
  rintro ⟨hraw, hlt⟩
  rcases of_decide_eq_true (List.all_eq_true.mp h c hc) with hencoded | hle
  · exact hencoded hraw
  · have hcode : c.toNat < 32 := hlt
    omega

/-- The characters for one of a string are read as it, or not at all. -/
theorem run_encode (escape : Escape) (state : State) (acc : List Char) (c : Char) :
    (Encodes c (escape.encode c) → run ⟨state, .inside acc none⟩ (escape.encode c) =
      some ⟨state, .inside (acc ++ [c]) none⟩) ∧
    (¬ Encodes c (escape.encode c) → run ⟨state, .inside acc none⟩ (escape.encode c) = none) := by
  have hhigh : ¬ (none : Option ℕ).isSome = true := Bool.false_ne_true
  constructor
  · rintro (⟨hraw, hle, hquote, hescape⟩ | ⟨x, hpair, hunicode, hsimple⟩)
    · rw [hraw, run_cons]
      unfold step
      dsimp only
      rw [if_neg (not_lt.mpr hle), if_neg hescape, if_neg hhigh, if_neg hquote]
      rfl
    · have hfirst : step ⟨state, .inside acc none⟩ '\\' = some ⟨state, .escaped acc none⟩ := rfl
      have hsecond : step ⟨state, .escaped acc none⟩ x = some ⟨state, .inside (acc ++ [c]) none⟩ := by
        unfold step
        dsimp only
        rw [if_neg hunicode, if_neg hhigh, hsimple]
        rfl
      rw [hpair, run_cons, hfirst, Option.bind_some, run_cons, hsecond]
      rfl
  · intro hnot
    obtain ⟨hraw, hlt⟩ := (escape.encodes c).resolve_left hnot
    rw [hraw, run_cons]
    have hstep : step ⟨state, .inside acc none⟩ c = none := if_pos hlt
    rw [hstep]
    rfl

theorem run_text (escape : Escape) (state : State) (acc text : List Char) :
    ((∀ c ∈ text, Encodes c (escape.encode c)) →
      run ⟨state, .inside acc none⟩ (text.flatMap escape.encode) =
        some ⟨state, .inside (acc ++ text) none⟩) ∧
    (¬ (∀ c ∈ text, Encodes c (escape.encode c)) →
      run ⟨state, .inside acc none⟩ (text.flatMap escape.encode) = none) := by
  induction text generalizing acc with
  | nil =>
    constructor
    · intro _
      rw [List.append_nil]
      rfl
    · exact fun h => absurd (fun c hc => nomatch hc) h
  | cons c text ih =>
    rw [List.flatMap_cons, run_append, List.forall_mem_cons]
    obtain ⟨hencoded, hraw⟩ := run_encode escape state acc c
    constructor
    · rintro ⟨hc, htext⟩
      rw [hencoded hc, Option.bind_some, (ih (acc ++ [c])).1 htext, List.append_assoc,
        List.singleton_append]
    · intro hnot
      by_cases hc : Encodes c (escape.encode c)
      · rw [hencoded hc, Option.bind_some]
        exact (ih (acc ++ [c])).2 fun htext => hnot ⟨hc, htext⟩
      · rw [hraw hc]
        rfl

theorem toList_quoted (s : String) :
    (quoted escape s).toList = '"' :: (s.toList.flatMap escape.encode ++ ['"']) := by
  simp [quoted, Escape.text]

theorem Outcome.quoted {s : Scan} {text : String} (hflush : s.flush = some state)
    (hfeed : feed state (.str text) = some next) :
    Outcome (escape.Clean text) (run s (quoted escape text).toList) next := by
  have hquote : step s '"' = some ⟨state, .inside [] none⟩ := step_of_flush hflush rfl
  obtain ⟨hclean, hraw⟩ := run_text escape state [] text.toList
  rw [toList_quoted, run_cons, hquote, Option.bind_some, run_append]
  constructor
  · intro h
    rw [hclean h, Option.bind_some, run_cons]
    have hend : step ⟨state, .inside ([] ++ text.toList) none⟩ '"' = some ⟨next, .outside⟩ := by
      have htext : String.ofList ([] ++ text.toList) = text := String.ofList_toList
      change (feed state (.str (String.ofList ([] ++ text.toList)))).map _ = _
      rw [htext, hfeed]
      rfl
    rw [hend]
    exact ⟨_, rfl, rfl⟩
  · intro h
    rw [hraw h]
    rfl

end Strings

/-! What a value leaves. -/
section Values
variable {escape : Escape} {stack : List Frame} {state : State}

/-- The state takes what a value may begin with. -/
def Expects (state : State) (stack : List Frame) : Prop :=
  ∀ token, token ≠ .rbracket → feed state token = feedValue stack token

theorem expects_value (stack : List Frame) : Expects (.value stack) stack := fun _ _ => rfl

theorem expects_firstItem (stack : List Frame) : Expects (.firstItem stack) (.list [] :: stack) := by
  intro token hne
  cases token <;> first | rfl | exact absurd rfl hne

/-- The text of a value is read as it if all its texts are clean, and not at all otherwise. -/
def Reads (escape : Escape) (v : Value) : Prop :=
  ∀ state stack, Expects state stack →
    Outcome (Each escape.Clean (fun _ => True) v)
      (run ⟨state, .outside⟩ (serialize escape v).toList) (.done v stack)

/-- Texts behind others, each after a comma. -/
def commas (texts : List String) : List Char := texts.flatMap fun text => ',' :: text.toList

theorem toList_intercalate (text : String) (rest : List String) :
    (",".intercalate (text :: rest)).toList = text.toList ++ commas rest := by
  induction rest generalizing text with
  | nil => rw [String.intercalate_singleton]; exact (List.append_nil _).symm
  | cons next rest ih =>
    rw [String.intercalate_cons_cons, String.toList_append, String.toList_append, ih next]
    unfold commas
    rw [List.flatMap_cons, List.append_assoc]
    rfl

theorem reads_word {v : Value} {text : String} (htext : serialize escape v = text)
    (hne : text.toList ≠ []) (hword : ∀ c ∈ text.toList, isWordChar c = true)
    (hread : readWord text.toList = some v) (hclean : Each escape.Clean (fun _ => True) v) :
    Reads escape v := by
  intro state stack hstate
  have hfeed : feed state (.word text.toList) = some (.done v stack) := by
    rw [hstate (.word text.toList) Token.noConfusion]
    unfold feedValue
    dsimp only
    rw [hread]
    rfl
  rw [htext]
  exact (Outcome.word hne hword hfeed).congr (iff_of_true trivial hclean)

theorem serializeList_eq (items : List Value) :
    serializeList escape items = items.map (serialize escape) := by
  induction items with
  | nil => rfl
  | cons item rest ih => rw [serializeList, ih, List.map_cons]

theorem serializeItems_eq (items : List (String × Value)) :
    serializeItems escape items =
      items.map fun item => quoted escape item.1 ++ ":" ++ serialize escape item.2 := by
  induction items with
  | nil => rfl
  | cons item rest ih => rw [serializeItems, ih, List.map_cons]

/-- The items of a list behind one that has been read. -/
theorem outcome_items {items : List Value} (hreads : ∀ item ∈ items, Reads escape item)
    {before : List Value} {v : Value} {s : Scan}
    (hflush : s.flush = some (.done v (.list before :: stack))) :
    Outcome (∀ item ∈ items, Each escape.Clean (fun _ => True) item)
      (run s (commas (items.map (serialize escape)) ++ [']']))
      (.done (.list (before ++ v :: items)) stack) := by
  induction items generalizing before v s with
  | nil =>
    have hend : Outcome True (run s [']']) (.done (.list (before ++ [v])) stack) :=
      Outcome.punct hflush rfl rfl (Outcome.nil rfl)
    exact hend.congr (iff_of_true trivial fun item hitem => nomatch hitem)
  | cons item items ih =>
    obtain ⟨hitem, hitems⟩ := List.forall_mem_cons.mp hreads
    have hcons : commas ((item :: items).map (serialize escape)) ++ [']'] =
        ',' :: ((serialize escape item).toList ++
          (commas (items.map (serialize escape)) ++ [']'])) := by
      unfold commas
      rw [List.map_cons, List.flatMap_cons, List.cons_append, List.cons_append, List.append_assoc]
    have hassoc : before ++ v :: item :: items = (before ++ [v]) ++ item :: items := by simp
    rw [hcons, hassoc, List.forall_mem_cons]
    have hmore := (hitem _ _ (expects_value (.list (before ++ [v]) :: stack))).append
      fun s' hs' => ih hitems hs'
    exact Outcome.punct hflush rfl rfl hmore

/-- The state takes a key of a dict with some items. -/
def ExpectsKey (state : State) (items : Dict) (stack : List Frame) : Prop :=
  ∀ key, feed state (.str key) = some (.colon items key stack)

theorem toList_item (item : String × Value) :
    (quoted escape item.1 ++ ":" ++ serialize escape item.2).toList =
      (quoted escape item.1).toList ++ ':' :: (serialize escape item.2).toList := by
  simp

theorem outcome_item {item : String × Value} (hreads : Reads escape item.2) {items : Dict}
    {s : Scan} (hflush : s.flush = some state) (hstate : ExpectsKey state items stack) :
    Outcome (escape.Clean item.1 ∧ Each escape.Clean (fun _ => True) item.2)
      (run s (quoted escape item.1 ++ ":" ++ serialize escape item.2).toList)
      (.done item.2 (.dict items item.1 :: stack)) := by
  rw [toList_item]
  refine (Outcome.quoted hflush (hstate item.1)).append fun s' hs' => ?_
  exact Outcome.punct hs' rfl rfl (hreads _ _ (expects_value _))

/-- The items of a dict behind one that has been read. -/
theorem outcome_entries {items : Dict} (hreads : ∀ item ∈ items, Reads escape item.2)
    {before : Dict} {key : String} {v : Value} {s : Scan}
    (hflush : s.flush = some (.done v (.dict before key :: stack))) :
    Outcome (∀ item ∈ items, escape.Clean item.1 ∧ Each escape.Clean (fun _ => True) item.2)
      (run s (commas (items.map fun item => quoted escape item.1 ++ ":" ++ serialize escape item.2) ++
        ['\x7d']))
      (.done (.dict (before ++ (key, v) :: items)) stack) := by
  induction items generalizing before key v s with
  | nil =>
    have hend : Outcome True (run s ['\x7d']) (.done (.dict (before ++ [(key, v)])) stack) :=
      Outcome.punct hflush rfl rfl (Outcome.nil rfl)
    exact hend.congr (iff_of_true trivial fun item hitem => nomatch hitem)
  | cons item items ih =>
    obtain ⟨hitem, hitems⟩ := List.forall_mem_cons.mp hreads
    have hcons : commas ((item :: items).map fun item =>
          quoted escape item.1 ++ ":" ++ serialize escape item.2) ++ ['\x7d'] =
        ',' :: ((quoted escape item.1 ++ ":" ++ serialize escape item.2).toList ++
          (commas (items.map fun item => quoted escape item.1 ++ ":" ++ serialize escape item.2) ++
            ['\x7d'])) := by
      unfold commas
      rw [List.map_cons, List.flatMap_cons, List.cons_append, List.cons_append, List.append_assoc]
    have hassoc : before ++ (key, v) :: item :: items = (before ++ [(key, v)]) ++ item :: items := by
      simp
    have hkey : ExpectsKey (.key (before ++ [(key, v)]) stack) (before ++ [(key, v)]) stack :=
      fun _ => rfl
    rw [hcons, hassoc, List.forall_mem_cons]
    have hflushed : Scan.flush ⟨.key (before ++ [(key, v)]) stack, .outside⟩ =
        some (.key (before ++ [(key, v)]) stack) := rfl
    have hmore := (outcome_item hitem hflushed hkey).append fun s' hs' => ih hitems hs'
    exact Outcome.punct hflush rfl rfl hmore

theorem reads_list {items : List Value} (hreads : ∀ item ∈ items, Reads escape item) :
    Reads escape (.list items) := by
  intro state stack hstate
  have hopen : feed state .lbracket = some (.firstItem stack) := hstate .lbracket Token.noConfusion
  cases items with
  | nil =>
    have hend : Outcome True (run ⟨.firstItem stack, .outside⟩ [']']) (.done (.list []) stack) :=
      Outcome.punct rfl rfl rfl (Outcome.nil rfl)
    have hempty : Outcome True (run ⟨state, .outside⟩ ['[', ']']) (.done (.list []) stack) :=
      Outcome.punct rfl rfl hopen hend
    have htext : (serialize escape (.list [])).toList = ['[', ']'] := by
      rw [serialize, serializeList]
      decide
    rw [htext]
    refine hempty.congr (iff_of_true trivial (Each.list fun item hitem => ?_))
    cases hitem
  | cons item items =>
    obtain ⟨hitem, hitems⟩ := List.forall_mem_cons.mp hreads
    have htext : (serialize escape (.list (item :: items))).toList =
        '[' :: ((serialize escape item).toList ++
          (commas (items.map (serialize escape)) ++ [']'])) := by
      rw [serialize, serializeList_eq, List.map_cons, String.toList_append, String.toList_append,
        toList_intercalate, List.append_assoc, List.append_assoc]
      rfl
    have hinner := (hitem _ _ (expects_firstItem stack)).append fun s' hs' =>
      outcome_items hitems hs'
    have hbracket : punctuation '[' = some .lbracket := rfl
    have hall := Outcome.punct (s := ⟨state, .outside⟩) rfl hbracket hopen hinner
    rw [htext]
    refine hall.congr ?_
    rw [each_list_iff, List.forall_mem_cons]

theorem reads_dict {items : Dict} (hreads : ∀ item ∈ items, Reads escape item.2) :
    Reads escape (.dict items) := by
  intro state stack hstate
  have hopen : feed state .lbrace = some (.firstKey stack) := hstate .lbrace Token.noConfusion
  cases items with
  | nil =>
    have hend : Outcome True (run ⟨.firstKey stack, .outside⟩ ['\x7d']) (.done (.dict []) stack) :=
      Outcome.punct rfl rfl rfl (Outcome.nil rfl)
    have hempty : Outcome True (run ⟨state, .outside⟩ ['\x7b', '\x7d']) (.done (.dict []) stack) :=
      Outcome.punct rfl rfl hopen hend
    have htext : (serialize escape (.dict [])).toList = ['\x7b', '\x7d'] := by
      rw [serialize, serializeItems]
      decide
    rw [htext]
    refine hempty.congr (iff_of_true trivial (each_dict_iff.mpr fun item hitem => ?_))
    cases hitem
  | cons item items =>
    obtain ⟨hitem, hitems⟩ := List.forall_mem_cons.mp hreads
    have htext : (serialize escape (.dict (item :: items))).toList =
        '\x7b' :: ((quoted escape item.1 ++ ":" ++ serialize escape item.2).toList ++
          (commas (items.map fun item => quoted escape item.1 ++ ":" ++ serialize escape item.2) ++
            ['\x7d'])) := by
      rw [serialize, serializeItems_eq, List.map_cons, String.toList_append, String.toList_append,
        toList_intercalate, List.append_assoc, List.append_assoc]
      rfl
    have hkey : ExpectsKey (.firstKey stack) [] stack := fun _ => rfl
    have hflushed : Scan.flush ⟨.firstKey stack, .outside⟩ = some (.firstKey stack) := rfl
    have hinner := (outcome_item hitem hflushed hkey).append fun s' hs' => outcome_entries hitems hs'
    have hbrace : punctuation '\x7b' = some .lbrace := rfl
    have hall := Outcome.punct (s := ⟨state, .outside⟩) rfl hbrace hopen hinner
    rw [htext]
    refine hall.congr ?_
    rw [each_dict_iff, List.forall_mem_cons]

/-- Values whose floats are numbers are read as what they are. -/
theorem reads (v : Value) (hfloats : Each (fun _ => True) IsFloat v) : Reads escape v := by
  induction v using Value.induction with
  | scalar v hlist hdict =>
    cases v with
    | null =>
      have htext : serialize escape .null = "null" := rfl
      exact reads_word htext (by decide) (List.all_eq_true.mp (by decide +kernel)) readWord_null .null
    | bool b =>
      have htext : serialize escape (.bool b) = if b then "true" else "false" := rfl
      have hword : (if b then "true" else "false").toList.all isWordChar = true := by
        cases b <;> decide +kernel
      exact reads_word htext (by cases b <;> decide) (List.all_eq_true.mp hword) (readWord_bool b)
        (.bool b)
    | int n =>
      have htext : serialize escape (.int n) = toString n := rfl
      exact reads_word htext (toList_toString_ne n) (fun c hc => isWordChar_of_mem_toString hc)
        (readWord_toString n) (.int n)
    | float repr =>
      have htext : serialize escape (.float repr) = repr := rfl
      have hfloat : IsFloat repr := each_float_iff.mp hfloats
      exact reads_word htext hfloat.nonempty hfloat.word hfloat.read (.float trivial)
    | str s =>
      intro state stack hstate
      have hfeed : feed state (.str s) = some (.done (.str s) stack) :=
        hstate (.str s) Token.noConfusion
      exact (Outcome.quoted rfl hfeed).congr each_str_iff.symm
    | list items => exact absurd rfl (hlist items)
    | dict items => exact absurd rfl (hdict items)
  | list items ih => exact reads_list fun item hitem => ih item hitem (each_list_iff.mp hfloats item hitem)
  | dict items ih =>
    exact reads_dict fun item hitem => ih item hitem (each_dict_iff.mp hfloats item hitem).2

end Values

/-- The text of a value is read as it exactly if all its texts are clean; otherwise it is no JSON. -/
theorem decode_serialize {escape : Escape} {v : Value} (hfloats : Each (fun _ => True) IsFloat v) :
    (Each escape.Clean (fun _ => True) v → decode (serialize escape v) = some v) ∧
      (¬ Each escape.Clean (fun _ => True) v → decode (serialize escape v) = none) := by
  obtain ⟨hclean, hraw⟩ := reads v hfloats (.value []) [] (expects_value [])
  unfold decode
  constructor
  · intro h
    obtain ⟨s, hrun, hflush⟩ := hclean h
    rw [hrun, Option.bind_eq_bind, Option.bind_some, hflush]
    rfl
  · intro h
    rw [hraw h]
    rfl

end Json.Text
