import Tes.Events.Commands
import Tes.Events.Serialization

/-! Which malformed events and commands the parsers refuse otherwise than with a `ValueError`. -/
namespace Tes
open Json EventModels CommandModels

namespace RaisedErrors

/-- Exceptions of which some are a `ValueError`. -/
class Raised (ε : Type) where
  isValueError : ε → Bool

instance : Raised ParseError where
  isValueError
    | .unhashable | .missingKey _ => false
    | _ => true

instance : Raised CommandError where
  isValueError
    | .shared error => Raised.isValueError error
    | _ => true

/-- Another exception than a `ValueError` is raised. -/
def Escapes {ε α : Type} [Raised ε] (parsed : Except ε α) : Prop :=
  ∃ error, parsed = .error error ∧ Raised.isValueError error = false

/-- A list or an object, which Python cannot hash. -/
def isContainer : Option Value → Prop
  | some (.list _) | some (.dict _) => True
  | _ => False

section Bind
variable {ε α β : Type} [Raised ε]

@[simp] theorem escapes_ok (a : α) : ¬ Escapes (Except.ok a : Except ε α) := by
  rintro ⟨error, h, -⟩
  cases h

@[simp] theorem escapes_pure (a : α) : ¬ Escapes (pure a : Except ε α) := escapes_ok a

@[simp] theorem escapes_error (error : ε) :
    Escapes (Except.error error : Except ε α) ↔ Raised.isValueError error = false := by
  constructor
  · rintro ⟨error', h, hescapes⟩
    cases h
    exact hescapes
  · exact fun h => ⟨error, rfl, h⟩

/-- What escapes is raised first. -/
@[simp] theorem escapes_bind (x : Except ε α) (f : α → Except ε β) :
    Escapes (x >>= f) ↔ Escapes x ∨ ∃ a, x = .ok a ∧ Escapes (f a) := by
  cases x with
  | error error =>
    have hraised : (Except.error error >>= f) = Except.error error := rfl
    rw [hraised]
    simp
  | ok a =>
    have hreturns : (Except.ok a >>= f) = f a := rfl
    rw [hreturns]
    simp

@[simp] theorem escapes_map (f : α → β) (x : Except ε α) : Escapes (f <$> x) ↔ Escapes x := by
  cases x <;> simp

@[simp] theorem escapes_dite {c : Prop} [Decidable c] (x : c → Except ε α) (y : Except ε α) :
    Escapes (if h : c then x h else y) ↔ (∃ h : c, Escapes (x h)) ∨ ¬ c ∧ Escapes y := by
  by_cases h : c <;> simp [h]

@[simp] theorem escapes_shared (x : Parsed α) : Escapes (shared x) ↔ Escapes x := by
  cases x <;> simp [shared, Except.mapError, Raised.isValueError]

@[simp] theorem shared_eq_ok (x : Parsed α) (a : α) : shared x = .ok a ↔ x = .ok a := by
  cases x <;> simp [shared, Except.mapError]

end Bind

/-! What the checks of a field let through and what escapes them. -/
section Checks
variable {data : Dict} {field : String} {keys : List String}

theorem getItem_eq {value : Value} (h : data.get field = some value) :
    getItem data field = .ok value := by
  rw [getItem, h]

@[simp] theorem requireInt_eq_ok (n : ℤ) :
    requireInt data field = .ok n ↔ data.get field = some (.int n) := by
  unfold requireInt getItem
  cases data.get field with
  | none => simp [bind, Except.bind]
  | some value => cases value <;> simp [bind, Except.bind]

theorem escapes_requireInt (h : data.get field ≠ none) : ¬ Escapes (requireInt data field) := by
  obtain ⟨value, hvalue⟩ := Option.ne_none_iff_exists'.mp h
  unfold requireInt
  rw [getItem_eq hvalue]
  cases value <;> simp [Raised.isValueError, bind, Except.bind]

theorem escapes_requireOptionalInt (h : data.get field ≠ none) :
    ¬ Escapes (requireOptionalInt data field) := by
  obtain ⟨value, hvalue⟩ := Option.ne_none_iff_exists'.mp h
  unfold requireOptionalInt
  rw [getItem_eq hvalue]
  cases value <;> simp [Raised.isValueError, bind, Except.bind]

@[simp] theorem requireString_eq_ok (s : String) :
    requireString data field = .ok s ↔ data.get field = some (.str s) := by
  unfold requireString getItem
  cases data.get field with
  | none => simp [bind, Except.bind]
  | some value => cases value <;> simp [bind, Except.bind]

theorem escapes_requireString (h : data.get field ≠ none) :
    ¬ Escapes (requireString data field) := by
  obtain ⟨value, hvalue⟩ := Option.ne_none_iff_exists'.mp h
  unfold requireString
  rw [getItem_eq hvalue]
  cases value <;> simp [Raised.isValueError, bind, Except.bind]

@[simp] theorem escapes_optionalSymbol : ¬ Escapes (optionalSymbol data) := by
  unfold optionalSymbol
  split <;> simp [Raised.isValueError]

theorem escapes_requireLiteral {allowed : List String} {error : ParseError}
    (h : data.get field ≠ none) (herror : Raised.isValueError error = true) :
    Escapes (requireLiteral allowed error data field) ↔ isContainer (data.get field) := by
  obtain ⟨value, hvalue⟩ := Option.ne_none_iff_exists'.mp h
  unfold requireLiteral
  rw [getItem_eq hvalue, hvalue]
  cases value with
  | str s => by_cases hs : s ∈ allowed <;> simp [isContainer, hs, herror]
  | list items => simp [isContainer, Raised.isValueError]
  | dict items => simp [isContainer, Raised.isValueError]
  | _ => simp [isContainer, herror]

theorem requireLiteral_eq_ok {allowed : List String} {error : ParseError} (text : Literal allowed) :
    requireLiteral allowed error data field = .ok text ↔ data.get field = some (.str text.1) := by
  unfold requireLiteral getItem
  cases data.get field with
  | none => simp
  | some value =>
    cases value with
    | str s =>
      by_cases hs : s ∈ allowed
      · simp [hs, Subtype.ext_iff]
      · have hne : s ≠ text.1 := fun h => hs (h ▸ text.2)
        simp [hs, hne]
    | _ => simp

theorem escapes_requirePositiveInt (h : data.get field ≠ none) :
    ¬ Escapes (requirePositiveInt data field) := by
  unfold requirePositiveInt
  rw [escapes_bind, escapes_shared, not_or]
  refine ⟨escapes_requireInt h, ?_⟩
  rintro ⟨n, -, hescapes⟩
  split_ifs at hescapes
  · exact escapes_ok _ hescapes
  · simp [Raised.isValueError] at hescapes

theorem requirePositiveInt_eq_ok (n : PositiveInt) :
    requirePositiveInt data field = .ok n ↔ data.get field = some (.int n.1) := by
  rw [← requireInt_eq_ok]
  unfold requirePositiveInt shared
  cases requireInt data field with
  | error error => exact iff_of_false (fun h => by cases h) fun h => by cases h
  | ok m =>
    have hreturns : (Except.mapError CommandError.shared (.ok m) >>= fun parsed =>
        if h : 0 < parsed then Except.ok (⟨parsed, h⟩ : PositiveInt)
        else .error (.mustBePositive field)) =
        if h : 0 < m then .ok ⟨m, h⟩ else .error (.mustBePositive field) := rfl
    rw [hreturns]
    by_cases hm : 0 < m
    · simp [hm, Subtype.ext_iff]
    · have hne : m ≠ n.1 := fun h => hm (h ▸ n.2)
      simp [hm, hne]

theorem escapes_requireTimeInForce (h : data.get "time_in_force" ≠ none) :
    Escapes (requireTimeInForce data) ↔ isContainer (data.get "time_in_force") := by
  obtain ⟨value, hvalue⟩ := Option.ne_none_iff_exists'.mp h
  unfold requireTimeInForce
  rw [getItem_eq hvalue, hvalue]
  cases value with
  | str s => by_cases hs : s ∈ timesInForce <;> simp [isContainer, hs, Raised.isValueError]
  | list items => simp [isContainer, Raised.isValueError]
  | dict items => simp [isContainer, Raised.isValueError]
  | _ => simp [isContainer, Raised.isValueError]

theorem not_escapes_requireEventKeys {name : String} :
    ¬ Escapes (requireEventKeys data keys name) := by
  unfold requireEventKeys
  split_ifs
  · exact escapes_ok ()
  · exact fun h => Bool.noConfusion ((escapes_error _).mp h)

theorem not_escapes_requireExactKeys {name : String} :
    ¬ Escapes (requireExactKeys data keys name) := by
  unfold requireExactKeys
  split_ifs
  · exact escapes_ok ()
  · exact fun h => Bool.noConfusion ((escapes_error _).mp h)

theorem requireEventKeys_eq_ok {name : String} : requireEventKeys data keys name = .ok () ↔
    HasKeys data keys ∨ HasKeys data ("symbol" :: keys) := by
  unfold requireEventKeys
  split_ifs with h
  · exact iff_of_true rfl h
  · exact iff_of_false (fun heq => by cases heq) h

theorem requireExactKeys_eq_ok {name : String} :
    requireExactKeys data keys name = .ok () ↔ HasKeys data keys := by
  unfold requireExactKeys
  split_ifs with h
  · exact iff_of_true rfl h
  · exact iff_of_false (fun heq => by cases heq) h

end Checks

/-! The fields that are looked up in a set of literals, each with the checks that come before. -/

inductive Check
  | int (field : String)
  | positive (field : String)
  | text (field : String)
  | literal (allowed : List String) (field : String)
  | ordered (low high : String)

def Check.Passes (data : Dict) : Check → Prop
  | .int field => ∃ n, data.get field = some (.int n)
  | .positive field => ∃ n, 0 < n ∧ data.get field = some (.int n)
  | .text field => ∃ s, data.get field = some (.str s)
  | .literal allowed field => ∃ s ∈ allowed, data.get field = some (.str s)
  | .ordered low high =>
    ∃ m n, data.get low = some (.int m) ∧ data.get high = some (.int n) ∧ m ≤ n

/-- A kind of message with enumerated fields. -/
structure EnumeratedMessage where
  type : String
  keys : List String
  /-- Whether the data may have a symbol beside its keys. -/
  optionalSymbol : Bool
  fields : List (List Check × String)

def eventMessages : List EnumeratedMessage :=
  [⟨"OrderAccepted", ["order_id", "side", "price", "qty"], true, [([.int "order_id"], "side")]⟩,
    ⟨"HiddenOrderAccepted", ["order_id", "side", "price", "total_qty"], true,
      [([.int "order_id"], "side")]⟩,
    ⟨"IcebergOrderAccepted",
      ["order_id", "side", "price", "total_qty", "display_qty", "reserve_qty", "hidden_remaining",
        "current_visible_qty"], true, [([.int "order_id"], "side")]⟩,
    ⟨"IcebergReplenished",
      ["order_id", "side", "price", "replenished_qty", "reserve_qty", "hidden_remaining",
        "total_remaining_qty"], true, [([.int "order_id"], "side")]⟩,
    ⟨"OrderRejected", ["side", "price", "qty", "reason"], true,
      [([], "side"), ([.literal sides "side", .int "price", .int "qty"], "reason")]⟩,
    ⟨"CancelRejected", ["order_id", "reason"], true, [([.int "order_id"], "reason")]⟩,
    ⟨"StopOrderAccepted", ["order_id", "side", "stop_price", "qty", "limit_price"], true,
      [([.int "order_id"], "side")]⟩,
    ⟨"StopOrderTriggered",
      ["order_id", "resulting_order_id", "side", "stop_price", "qty", "limit_price"], true,
      [([.int "order_id", .int "resulting_order_id"], "side")]⟩,
    ⟨"AuctionStarted", ["symbol", "phase"], false, [([.text "symbol"], "phase")]⟩,
    ⟨"AuctionEnded", ["symbol", "phase"], false, [([.text "symbol"], "phase")]⟩]

def commandMessages : List EnumeratedMessage :=
  [⟨"LimitOrder", ["side", "price", "qty", "time_in_force"], true,
      [([], "side"),
        ([.literal sides "side", .positive "price", .positive "qty"], "time_in_force")]⟩,
    ⟨"HiddenOrder", ["side", "price", "qty"], true, [([], "side")]⟩,
    ⟨"IcebergOrder", ["side", "price", "total_qty", "display_qty"], true,
      [([.positive "total_qty", .positive "display_qty", .ordered "display_qty" "total_qty"],
        "side")]⟩,
    ⟨"MarketOrder", ["side", "qty"], true, [([], "side")]⟩,
    ⟨"StopMarketOrder", ["side", "stop_price", "qty"], true, [([], "side")]⟩,
    ⟨"StopLimitOrder", ["side", "stop_price", "limit_price", "qty"], true, [([], "side")]⟩,
    ⟨"SetTradingPhase", ["symbol", "phase"], false, [([.text "symbol"], "phase")]⟩]

/-- The keys are as declared, and a field holds a list or an object, while those checked before it
pass. -/
def EnumeratedMessage.HoldsContainer (m : EnumeratedMessage) (data : Dict) : Prop :=
  (HasKeys data m.keys ∨ m.optionalSymbol ∧ HasKeys data ("symbol" :: m.keys)) ∧
    ∃ field ∈ m.fields, (∀ check ∈ field.1, check.Passes data) ∧ isContainer (data.get field.2)

/-- A message of one of the kinds, with a list or an object in an enumerated field. -/
def HoldsContainer (messages : List EnumeratedMessage) (raw : Value) : Prop :=
  ∃ items data, raw = .dict items ∧ HasKeys items ["type", "data"] ∧
    Dict.get items "data" = some (.dict data) ∧
    ∃ m ∈ messages, Dict.get items "type" = some (.str m.type) ∧ m.HoldsContainer data

section Parsers
variable {data : Dict}

theorem present_of_hasKeys {keys : List String} (h : HasKeys data keys) :
    ∀ key ∈ keys, data.get key ≠ none := by
  intro key hkey hnone
  obtain ⟨item, hitem, rfl⟩ := List.mem_map.mp (h.2 key hkey)
  have hne := List.lookup_eq_none_iff.mp hnone item hitem
  exact bne_iff_ne.mp hne rfl

/-- Once the keys are checked the fields are there. -/
theorem escapes_keys_iff {ε α : Type} [Raised ε] {check : Except ε Unit} {body : Except ε α}
    {keys : List String} {K P : Prop} (hcheck : ¬ Escapes check) (hok : check = .ok () ↔ K)
    (hkeys : K → HasKeys data keys ∨ HasKeys data ("symbol" :: keys))
    (h : (∀ key ∈ keys, data.get key ≠ none) → (Escapes body ↔ P)) :
    Escapes (check >>= fun _ => body) ↔ K ∧ P := by
  rw [escapes_bind, or_iff_right hcheck]
  have hpresent : K → ∀ key ∈ keys, data.get key ≠ none := fun hK key hkey => by
    rcases hkeys hK with hkeys | hkeys
    · exact present_of_hasKeys hkeys key hkey
    · exact present_of_hasKeys hkeys key (List.mem_cons_of_mem _ hkey)
  rw [← hok] at hpresent ⊢
  exact ⟨fun ⟨_, hcheck, hbody⟩ => ⟨hcheck, (h (hpresent hcheck)).mp hbody⟩,
    fun ⟨hcheck, hP⟩ => ⟨(), hcheck, (h (hpresent hcheck)).mpr hP⟩⟩

section Keys
variable {α : Type} {keys : List String} {name : String} {P : Prop}

theorem escapes_eventKeys_iff {body : Parsed α}
    (h : (∀ key ∈ keys, data.get key ≠ none) → (Escapes body ↔ P)) :
    Escapes (requireEventKeys data keys name >>= fun _ => body) ↔
      (HasKeys data keys ∨ HasKeys data ("symbol" :: keys)) ∧ P :=
  escapes_keys_iff not_escapes_requireEventKeys requireEventKeys_eq_ok id h

theorem escapes_exactKeys_iff {body : Parsed α}
    (h : (∀ key ∈ keys, data.get key ≠ none) → (Escapes body ↔ P)) :
    Escapes (requireExactKeys data keys name >>= fun _ => body) ↔ HasKeys data keys ∧ P :=
  escapes_keys_iff not_escapes_requireExactKeys requireExactKeys_eq_ok Or.inl h

theorem escapes_commandKeys_iff {body : ParsedCommand α}
    (h : (∀ key ∈ keys, data.get key ≠ none) → (Escapes body ↔ P)) :
    Escapes (shared (requireEventKeys data keys name) >>= fun _ => body) ↔
      (HasKeys data keys ∨ HasKeys data ("symbol" :: keys)) ∧ P :=
  escapes_keys_iff ((escapes_shared _).not.mpr not_escapes_requireEventKeys)
    ((shared_eq_ok _ _).trans requireEventKeys_eq_ok) id h

theorem escapes_exactCommandKeys_iff {body : ParsedCommand α}
    (h : (∀ key ∈ keys, data.get key ≠ none) → (Escapes body ↔ P)) :
    Escapes (shared (requireExactKeys data keys name) >>= fun _ => body) ↔ HasKeys data keys ∧ P :=
  escapes_keys_iff ((escapes_shared _).not.mpr not_escapes_requireExactKeys)
    ((shared_eq_ok _ _).trans requireExactKeys_eq_ok) Or.inl h

end Keys

@[simp] theorem isValueError_invalidSide : Raised.isValueError ParseError.invalidSide = true := rfl

@[simp] theorem isValueError_invalidPhase : Raised.isValueError ParseError.invalidPhase = true := rfl

@[simp] theorem isValueError_invalidReason : Raised.isValueError ParseError.invalidReason = true :=
  rfl

theorem escapes_event_of_mem {m : EnumeratedMessage} (hm : m ∈ eventMessages) :
    Escapes (parseData m.type data) ↔ m.HoldsContainer data := by
  revert m
  simp only [eventMessages, List.forall_mem_cons, EnumeratedMessage.HoldsContainer, parseData,
    String.reduceEq, if_true, if_false, true_and, Bool.false_eq_true, false_and, or_false,
    List.not_mem_nil, false_imp_iff, implies_true, and_true]
  refine ⟨?_, ?_, ?_, ?_, ?_, ?_, ?_, ?_, ?_, ?_⟩
  case refine_9 | refine_10 =>
    refine escapes_exactKeys_iff fun hp => ?_
    simp only [List.forall_mem_cons] at hp
    simp [escapes_requireString, escapes_requireLiteral, hp, Check.Passes]
  all_goals
    refine escapes_eventKeys_iff fun hp => ?_
    simp only [List.forall_mem_cons] at hp
    simp [escapes_requireInt, escapes_requireOptionalInt, escapes_requireLiteral, hp,
      requireLiteral_eq_ok, Check.Passes, and_assoc]

theorem not_escapes_ite {ε α : Type} [Raised ε] {c : Prop} [Decidable c] {x y : Except ε α} (hx : ¬ Escapes x)
    (hy : ¬ Escapes y) : ¬ Escapes (if c then x else y) := by
  split_ifs
  · exact hx
  · exact hy

/-- The data of the other events has no enumerated field. -/
theorem not_escapes_event {eventType : String} (h : ∀ m ∈ eventMessages, eventType ≠ m.type) :
    ¬ Escapes (parseData eventType data) := by
  simp only [eventMessages, List.forall_mem_cons] at h
  simp only [parseData, h, if_false]
  refine not_escapes_ite ?_ <| not_escapes_ite ?_ <| not_escapes_ite ?_ <| not_escapes_ite ?_ <|
    not_escapes_ite ?_ <| not_escapes_ite ?_ <| not_escapes_ite ?_ <| not_escapes_ite ?_ <|
    not_escapes_ite ?_ <| not_escapes_ite ?_ <| not_escapes_ite ?_ <| not_escapes_ite ?_ ?_
  case refine_13 => simp [Raised.isValueError]
  all_goals
    first
    | refine (escapes_eventKeys_iff (P := False) fun hp => ?_).not.mpr (fun h => h.2)
    | refine (escapes_exactKeys_iff (P := False) fun hp => ?_).not.mpr (fun h => h.2)
  all_goals
    simp only [List.forall_mem_cons] at hp
    simp [escapes_requireInt, escapes_requireOptionalInt, escapes_requireString, hp]

theorem escapes_command_of_mem {m : EnumeratedMessage} (hm : m ∈ commandMessages) :
    Escapes (parseCommandData m.type data) ↔ m.HoldsContainer data := by
  revert m
  simp only [commandMessages, List.forall_mem_cons, EnumeratedMessage.HoldsContainer,
    parseCommandData, String.reduceEq, if_true, if_false, true_and, Bool.false_eq_true, false_and,
    or_false, List.not_mem_nil, false_imp_iff, implies_true, and_true]
  refine ⟨?_, ?_, ?_, ?_, ?_, ?_, ?_⟩
  case refine_7 =>
    refine escapes_exactCommandKeys_iff fun hp => ?_
    simp only [List.forall_mem_cons] at hp
    simp [escapes_requireString, escapes_requireLiteral, hp, Check.Passes]
  case refine_3 =>
    refine escapes_commandKeys_iff fun hp => ?_
    simp only [List.forall_mem_cons] at hp
    simp [escapes_requirePositiveInt, escapes_requireLiteral, requirePositiveInt_eq_ok, hp,
      Check.Passes, Raised.isValueError]
    constructor
    · rintro ⟨total, htotal, hpos, display, hdisplay, ⟨hpos', hle⟩, hside⟩
      exact ⟨⟨⟨total, hpos, htotal⟩, ⟨display, hpos', hdisplay⟩, display, hdisplay, total, htotal,
        hle⟩, hside⟩
    · rintro ⟨⟨⟨total, hpos, htotal⟩, ⟨display, hpos', hdisplay⟩, m, hm, n, hn, hle⟩, hside⟩
      rw [hdisplay] at hm
      rw [htotal] at hn
      cases hm
      cases hn
      exact ⟨total, htotal, hpos, display, hdisplay, ⟨hpos', hle⟩, hside⟩
  all_goals
    refine escapes_commandKeys_iff fun hp => ?_
    simp only [List.forall_mem_cons] at hp
    simp [escapes_requirePositiveInt, escapes_requireLiteral, escapes_requireTimeInForce, hp,
      requireLiteral_eq_ok, requirePositiveInt_eq_ok, Check.Passes, and_assoc]

theorem not_escapes_command {commandType : String}
    (h : ∀ m ∈ commandMessages, commandType ≠ m.type) :
    ¬ Escapes (parseCommandData commandType data) := by
  simp only [commandMessages, List.forall_mem_cons] at h
  simp only [parseCommandData, h, if_false]
  refine not_escapes_ite ?_ <| not_escapes_ite ?_ <| not_escapes_ite ?_ <| not_escapes_ite ?_ <|
    not_escapes_ite ?_ <| not_escapes_ite ?_ <| not_escapes_ite ?_ ?_
  case refine_8 => simp [Raised.isValueError]
  case refine_7 =>
    refine (escapes_commandKeys_iff (P := False) fun _ => ?_).not.mpr (fun h => h.2)
    simp
  all_goals
    first
    | refine (escapes_commandKeys_iff (P := False) fun hp => ?_).not.mpr (fun h => h.2)
    | refine (escapes_exactCommandKeys_iff (P := False) fun hp => ?_).not.mpr (fun h => h.2)
  all_goals
    simp only [List.forall_mem_cons] at hp
    simp [escapes_requirePositiveInt, escapes_requireString, hp]

theorem escapes_parseData (eventType : String) : Escapes (parseData eventType data) ↔
    ∃ m ∈ eventMessages, eventType = m.type ∧ m.HoldsContainer data := by
  constructor
  · intro hescapes
    by_contra hnone
    by_cases hlisted : ∃ m ∈ eventMessages, eventType = m.type
    · obtain ⟨m, hm, rfl⟩ := hlisted
      exact hnone ⟨m, hm, rfl, (escapes_event_of_mem hm).mp hescapes⟩
    · exact not_escapes_event (fun m hm heq => hlisted ⟨m, hm, heq⟩) hescapes
  · rintro ⟨m, hm, rfl, hholds⟩
    exact (escapes_event_of_mem hm).mpr hholds

theorem escapes_parseCommandData (commandType : String) :
    Escapes (parseCommandData commandType data) ↔
      ∃ m ∈ commandMessages, commandType = m.type ∧ m.HoldsContainer data := by
  constructor
  · intro hescapes
    by_contra hnone
    by_cases hlisted : ∃ m ∈ commandMessages, commandType = m.type
    · obtain ⟨m, hm, rfl⟩ := hlisted
      exact hnone ⟨m, hm, rfl, (escapes_command_of_mem hm).mp hescapes⟩
    · exact not_escapes_command (fun m hm heq => hlisted ⟨m, hm, heq⟩) hescapes
  · rintro ⟨m, hm, rfl, hholds⟩
    exact (escapes_command_of_mem hm).mpr hholds

end Parsers

theorem requireDict_eq_ok {raw : Value} {name : String} (items : Dict) :
    requireDict raw name = .ok items ↔ raw = .dict items := by
  cases raw <;> simp [requireDict]

theorem not_escapes_requireDict (raw : Value) (name : String) :
    ¬ Escapes (requireDict raw name) := by
  cases raw <;> simp [requireDict, Raised.isValueError]

theorem getItem_eq_ok {data : Dict} {field : String} (value : Value) :
    getItem data field = .ok value ↔ data.get field = some value := by
  unfold getItem
  cases data.get field <;> simp

theorem not_escapes_getItem {data : Dict} {field : String} (h : data.get field ≠ none) :
    ¬ Escapes (getItem data field) := by
  obtain ⟨value, hvalue⟩ := Option.ne_none_iff_exists'.mp h
  rw [getItem_eq hvalue]
  exact escapes_ok value

theorem escapes_parseEvent (raw : Value) :
    Escapes (parseEvent raw) ↔ HoldsContainer eventMessages raw := by
  unfold parseEvent HoldsContainer
  rw [escapes_bind, or_iff_right (not_escapes_requireDict raw _)]
  refine exists_congr fun items => ?_
  rw [requireDict_eq_ok, exists_and_left, exists_and_left]
  refine and_congr_right fun _ => escapes_exactKeys_iff fun hp => ?_
  obtain ⟨htype, hdata, -⟩ := List.forall_mem_cons.mp hp |>.imp_right List.forall_mem_cons.mp
  simp only [escapes_bind, escapes_requireString htype, requireString_eq_ok,
    not_escapes_getItem hdata, getItem_eq_ok, not_escapes_requireDict, requireDict_eq_ok,
    escapes_parseData, false_or]
  constructor
  · rintro ⟨_, htype, _, hdata, data, rfl, m, hm, rfl, hholds⟩
    exact ⟨data, hdata, m, hm, htype, hholds⟩
  · rintro ⟨data, hdata, m, hm, htype, hholds⟩
    exact ⟨m.type, htype, _, hdata, data, rfl, m, hm, rfl, hholds⟩

theorem escapes_parseCommand (raw : Value) :
    Escapes (parseCommand raw) ↔ HoldsContainer commandMessages raw := by
  unfold parseCommand HoldsContainer
  rw [escapes_bind, escapes_shared, or_iff_right (not_escapes_requireDict raw _)]
  refine exists_congr fun items => ?_
  rw [shared_eq_ok, requireDict_eq_ok, exists_and_left, exists_and_left]
  refine and_congr_right fun _ => escapes_exactCommandKeys_iff fun hp => ?_
  obtain ⟨htype, hdata, -⟩ := List.forall_mem_cons.mp hp |>.imp_right List.forall_mem_cons.mp
  simp only [escapes_bind, escapes_shared, shared_eq_ok, escapes_requireString htype,
    requireString_eq_ok, not_escapes_getItem hdata, getItem_eq_ok, not_escapes_requireDict,
    requireDict_eq_ok, escapes_parseCommandData, false_or]
  constructor
  · rintro ⟨_, htype, _, hdata, data, rfl, m, hm, rfl, hholds⟩
    exact ⟨data, hdata, m, hm, htype, hholds⟩
  · rintro ⟨data, hdata, m, hm, htype, hholds⟩
    exact ⟨m.type, htype, _, hdata, data, rfl, m, hm, rfl, hholds⟩

/-! What a model that is returned holds. -/

/-- The texts that the type of an event restricts, each with its literals. -/
def eventLiterals : TesEngineEvent → List (String × List String)
  | .orderAccepted _ side .. | .hiddenOrderAccepted _ side .. | .icebergOrderAccepted _ side ..
  | .icebergReplenished _ side .. | .stopOrderAccepted _ side .. | .stopOrderTriggered _ _ side .. =>
    [(side, sides)]
  | .orderRejected side _ _ reason _ => [(side, sides), (reason, rejectReasons)]
  | .cancelRejected _ reason _ => [(reason, rejectReasons)]
  | .auctionStarted _ phase | .auctionEnded _ phase => [(phase, tradingPhases)]
  | _ => []

def commandLiterals : TesCommand → List (String × List String)
  | .limitOrder side _ _ timeInForce _ => [(side, sides), (timeInForce, timesInForce)]
  | .hiddenOrder side .. | .icebergOrder side .. | .marketOrder side .. | .stopOrder side ..
  | .stopLimitOrder side .. => [(side, sides)]
  | .setTradingPhase _ phase => [(phase, tradingPhases)]
  | _ => []

/-- The ids, prices and quantities of a command. -/
def commandNumbers : TesCommand → List ℤ
  | .limitOrder _ price qty _ _ | .hiddenOrder _ price qty _ => [price, qty]
  | .icebergOrder _ price totalQty displayQty _ _ => [price, totalQty, displayQty]
  | .marketOrder _ qty _ => [qty]
  | .stopOrder _ stopPrice qty _ => [stopPrice, qty]
  | .stopLimitOrder _ stopPrice limitPrice qty _ => [stopPrice, limitPrice, qty]
  | .cancelOrder orderId => [orderId]
  | .replaceOrder orderId price qty => [orderId, price, qty]
  | .setPriceBands _ lowerPrice upperPrice => [lowerPrice, upperPrice]
  | _ => []

theorem eventLiterals_allowed (event : TesEngineEvent) :
    ∀ literal ∈ eventLiterals event, literal.1 ∈ literal.2 := by
  have hone : ∀ {allowed : List String} (text : Literal allowed),
      ∀ literal ∈ [((text : String), allowed)], literal.1 ∈ literal.2 :=
    fun text => List.forall_mem_singleton.mpr text.2
  cases event with
  | orderRejected side price qty reason symbol => exact List.forall_mem_cons.mpr ⟨side.2, hone reason⟩
  | _ => first | exact hone _ | exact List.forall_mem_nil _

theorem commandLiterals_allowed (command : TesCommand) :
    ∀ literal ∈ commandLiterals command, literal.1 ∈ literal.2 := by
  have hone : ∀ {allowed : List String} (text : Literal allowed),
      ∀ literal ∈ [((text : String), allowed)], literal.1 ∈ literal.2 :=
    fun text => List.forall_mem_singleton.mpr text.2
  cases command with
  | limitOrder side price qty timeInForce symbol =>
    exact List.forall_mem_cons.mpr ⟨side.2, hone timeInForce⟩
  | _ => first | exact hone _ | exact List.forall_mem_nil _

theorem commandNumbers_pos (command : TesCommand) : ∀ n ∈ commandNumbers command, 0 < n := by
  cases command <;> simp only [commandNumbers, List.forall_mem_cons, List.not_mem_nil,
    false_imp_iff, implies_true, and_true]
  case limitOrder price qty _ _ | hiddenOrder price qty _ => exact ⟨price.2, qty.2⟩
  case icebergOrder price totalQty displayQty _ _ => exact ⟨price.2, totalQty.2, displayQty.2⟩
  case marketOrder qty _ => exact qty.2
  case stopOrder stopPrice qty _ => exact ⟨stopPrice.2, qty.2⟩
  case stopLimitOrder stopPrice limitPrice qty _ => exact ⟨stopPrice.2, limitPrice.2, qty.2⟩
  case cancelOrder orderId => exact orderId.2
  case replaceOrder orderId price qty => exact ⟨orderId.2, price.2, qty.2⟩
  case setPriceBands lowerPrice upperPrice => exact ⟨lowerPrice.2, upperPrice.2⟩

/-- Nothing but a `ValueError` is raised, and what is returned is declared. -/
def OnlyValueError {ε α : Type} [Raised ε] (parsed : Except ε α) (declared : α → Prop) : Prop :=
  (∀ error, parsed = .error error → Raised.isValueError error = true) ∧
    ∀ a, parsed = .ok a → declared a

theorem onlyValueError_iff {ε α : Type} [Raised ε] {parsed : Except ε α} {declared : α → Prop}
    (hdeclared : ∀ a, declared a) : OnlyValueError parsed declared ↔ ¬ Escapes parsed := by
  unfold OnlyValueError Escapes
  rw [and_iff_left fun a _ => hdeclared a]
  push Not
  exact forall₂_congr fun error _ => by rw [ne_eq, Bool.not_eq_false]

/-- Only a `ValueError` is raised for an event or a command exactly if it has no list or object where a
literal is looked up; what is returned has its literals and positive numbers. -/
theorem parsers_raise_valueError_iff (raw : Value) :
    (OnlyValueError (parseEvent raw) (fun event => ∀ literal ∈ eventLiterals event,
        literal.1 ∈ literal.2) ↔ ¬ HoldsContainer eventMessages raw) ∧
      (OnlyValueError (parseCommand raw) (fun command => (∀ literal ∈ commandLiterals command,
        literal.1 ∈ literal.2) ∧ ∀ n ∈ commandNumbers command, 0 < n) ↔
        ¬ HoldsContainer commandMessages raw) := by
  constructor
  · rw [onlyValueError_iff eventLiterals_allowed, escapes_parseEvent]
  · rw [onlyValueError_iff fun command => ⟨commandLiterals_allowed command, commandNumbers_pos command⟩,
      escapes_parseCommand]

/-- A list for the reason of a rejection, and an object for the side of an order. -/
theorem parsers_raise_typeError :
    let rejected : Value := .dict [("type", .str "CancelRejected"),
      ("data", .dict [("order_id", .int 1), ("reason", .list [])])]
    let order : Value := .dict [("type", .str "MarketOrder"),
      ("data", .dict [("side", .dict []), ("qty", .int 1)])]
    ¬ OnlyValueError (parseEvent rejected) (fun event => ∀ literal ∈ eventLiterals event,
        literal.1 ∈ literal.2) ∧
      ¬ OnlyValueError (parseCommand order) (fun command => (∀ literal ∈ commandLiterals command,
        literal.1 ∈ literal.2) ∧ ∀ n ∈ commandNumbers command, 0 < n) := by
  intro rejected order
  have hevent : parseEvent rejected = .error .unhashable := by decide +kernel
  have hcommand : parseCommand order = .error (.shared .unhashable) := rfl
  constructor
  · intro h
    cases h.1 _ hevent
  · intro h
    cases h.1 _ hcommand

end RaisedErrors
end Tes
