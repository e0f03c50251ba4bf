import Mathlib.Data.Int.Notation
import Mathlib.Data.List.Dedup

/-! JSON values as Python programs hold them. -/
namespace Json

/-- A value. A float is given by its representation, a dict by its items: of two items with one
key the first counts. -/
inductive Value
  | null
  | bool (b : Bool)
  | int (n : ℤ)
  | float (repr : String)
  | str (s : String)
  | list (items : List Value)
  | dict (items : List (String × Value))

abbrev Dict := List (String × Value)

namespace Dict

/-- The value at a key. -/
def get (d : Dict) (key : String) : Option Value := d.lookup key

def keys (d : Dict) : List String := (d.map Prod.fst).dedup

end Dict

/-- A value, or `None` for a missing one, in a Boolean context. -/
def truthy : Option Value → Bool
  | none | some .null => false
  | some (.bool b) => b
  | some (.int n) => n ≠ 0
  | some (.float repr) => repr ≠ "0.0" ∧ repr ≠ "-0.0"
  | some (.str s) => s ≠ ""
  | some (.list items) => !items.isEmpty
  | some (.dict items) => !items.isEmpty

/-- The text of a value, or of `None` for a missing one; `render` gives the text of containers. -/
def pyStr (render : Value → String) : Option Value → String
  | none | some .null => "None"
  | some (.bool b) => if b then "True" else "False"
  | some (.int n) => toString n
  | some (.float repr) => repr
  | some (.str s) => s
  | some value => render value

end Json
