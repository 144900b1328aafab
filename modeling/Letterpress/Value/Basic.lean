import Letterpress.Value.Entries

/-!
The values that templates compute with. Integers have 64 bits, fractions are binary
doubles, and the entries of a map are kept as `Entries` describes.
-/

namespace Letterpress

inductive Value where
  | null
  | bool (flag : Bool)
  | int (number : Int64)
  | float (number : Float)
  | str (text : String)
  | list (items : List Value)
  | map (entries : List (String × Value))

namespace Value

/-- What counts as true in conditions: zero, NaN and everything empty do not. -/
def isTruthy : Value → Bool
  | .null => false
  | .bool flag => flag
  | .int number => number != 0
  | .float number => number != 0.0 && number == number
  | .str text => !text.isEmpty
  | .list items => !items.isEmpty
  | .map entries => !entries.isEmpty

def typeName : Value → String
  | .null => "null"
  | .bool _ => "bool"
  | .int _ => "integer"
  | .float _ => "float"
  | .str _ => "string"
  | .list _ => "list"
  | .map _ => "map"

def toFloat? : Value → Option Float
  | .int number => some (Float.ofInt number.toInt)
  | .float number => some number
  | _ => none

/-- Characters of a text, items of a list, entries of a map. -/
def size? : Value → Option Nat
  | .str text => some text.length
  | .list items => some items.length
  | .map entries => some entries.length
  | _ => none

def fitsInt (number : Int) : Bool :=
  -9223372036854775808 ≤ number && number < 9223372036854775808

/-- An integer of any size: out of range it becomes the nearest double. -/
def ofInt (number : Int) : Value :=
  if fitsInt number then .int (Int64.ofInt number) else .float (Float.ofInt number)

def ofNat (number : Nat) : Value := .int (Int64.ofNat number)

def ofPairs (pairs : List (String × Value)) : Value := .map (Entries.ofList pairs)

def emptyMap : Value := .map []

/-- Maps are looked into by name; no other value has names. -/
def entry? (name : String) : Value → Option Value
  | .map entries => Entries.find? name entries
  | _ => none

mutual

/-- Equality of structure: integers and doubles are never equal to each other, and
doubles compare as numbers. -/
def same : Value → Value → Bool
  | .null, .null => true
  | .bool left, .bool right => left == right
  | .int left, .int right => left == right
  | .float left, .float right => left == right
  | .str left, .str right => left == right
  | .list left, .list right => sameItems left right
  | .map left, .map right => sameEntries left right
  | _, _ => false

def sameItems : List Value → List Value → Bool
  | [], [] => true
  | left :: lefts, right :: rights => same left right && sameItems lefts rights
  | _, _ => false

def sameEntries : List (String × Value) → List (String × Value) → Bool
  | [], [] => true
  | (leftName, left) :: lefts, (rightName, right) :: rights =>
      leftName == rightName && same left right && sameEntries lefts rights
  | _, _ => false

end

end Letterpress.Value
