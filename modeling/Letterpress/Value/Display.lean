import Letterpress.Value.Json

/-!
The text that a value leaves in a page. Lists join their items with commas, maps show
as JSON, and everything else shows bare.
-/

namespace Letterpress.Value

/-- Doubles show with the fewest digits that read back, all in their places. -/
def displayFloat (number : Float) : String :=
  match Decimal.ofFloat? .up number with
  | some decimal => decimal.positional
  | none => if number == number then (if 0.0 < number then "Infinity" else "-Infinity") else "NaN"

mutual

def display : Value → String
  | .null => ""
  | .bool true => "true"
  | .bool false => "false"
  | .int number => toString number.toInt
  | .float number => displayFloat number
  | .str text => text
  | .list items => displayItems items
  | .map entries => (Value.map entries).toJson.compact

def displayItems : List Value → String
  | [] => ""
  | [item] => display item
  | item :: rest => display item ++ "," ++ displayItems rest

end

end Letterpress.Value
