import Mathlib.Data.Rat.Init
import Mathlib.Tactic.Common

/-!
# DarkFactory.Python.JsonValue

What `json.loads` returns, and the float that stands in it.

* `Double` — a Python float: a number, an infinity or `nan`, which compares false with everything.
* `JsonValue` — null, a boolean, a number, a text, a list or a dict.
* `field`, `truthy`, `iterate` — `d.get(key)`, the truth of a value and `for x in value`.
-/

namespace DarkFactory
namespace Python

inductive Double where
  | nan
  | negInf
  | fin (q : Rat)
  | posInf
  deriving DecidableEq

namespace Double

def lt : Double → Double → Bool
  | .nan, _ | _, .nan => false
  | .fin p, .fin q => decide (p < q)
  | .negInf, .negInf | .posInf, _ | _, .negInf => false
  | .negInf, _ | .fin _, .posInf => true

def le (x y : Double) : Bool := lt x y || (decide (x = y) && decide (x ≠ .nan))

end Double

inductive JsonValue where
  | null
  | bool (b : Bool)
  | int (n : Int)
  | float (x : Double)
  | str (s : String)
  | arr (xs : List JsonValue)
  | obj (fields : List (String × JsonValue))

namespace JsonValue

def field (fields : List (String × JsonValue)) (key : String) : Option JsonValue :=
  (fields.find? fun m => decide (m.1 = key)).map Prod.snd

def truthy : JsonValue → Bool
  | .null => false
  | .bool b => b
  | .int n => decide (n ≠ 0)
  | .float x => decide (x ≠ .fin 0)
  | .str s => decide (s ≠ "")
  | .arr xs => !xs.isEmpty
  | .obj fields => !fields.isEmpty

/-- `d.get(key) or None`, which a caller replaces by its default. -/
def fieldOr (fields : List (String × JsonValue)) (key : String) : Option JsonValue :=
  (field fields key).filter truthy

/-- The values of `for x in value`, or none where Python raises a `TypeError`. -/
def iterate : JsonValue → Option (List JsonValue)
  | .str s => some (s.toList.map fun c => .str (String.ofList [c]))
  | .arr xs => some xs
  | .obj fields => some (fields.map fun m => .str m.1)
  | _ => none

end JsonValue
end Python
end DarkFactory
