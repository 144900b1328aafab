import Letterpress.Value.Basic
import Letterpress.Json.Double
import Letterpress.Json.Printer
import Letterpress.Json.Reader

/-!
Values as JSON documents. Integers and doubles stay apart, since a double is always
written with a point or an exponent; doubles that JSON cannot write become `null`. A double
is written with the digits that stand for it, but they may be read as one of its neighbours.
-/

namespace Letterpress

def Json.ofFloat (number : Float) : Json :=
  match Decimal.ofFloat? .even number with
  | some decimal => .number (.ofDecimal decimal)
  | none => .null

namespace Value

mutual

def toJson : Value → Json
  | .null => .null
  | .bool flag => .bool flag
  | .int number => .number (.ofInt number.toInt)
  | .float number => Json.ofFloat number
  | .str text => .ofText text
  | .list items => .array (itemsToJson items)
  | .map entries => .object (entriesToJson entries)

def itemsToJson : List Value → List Json
  | [] => []
  | item :: rest => toJson item :: itemsToJson rest

def entriesToJson : List (String × Value) → List (List Char × Json)
  | [] => []
  | (name, value) :: rest => (Json.escape name.toList, toJson value) :: entriesToJson rest

end

/-- Integers in the range of 64 bits are integers, except a negative zero; all other
numbers are doubles. -/
def ofNumeral? (numeral : Numeral) : Option Value :=
  let number : Int := if numeral.negative then -(numeral.magnitude : Int) else numeral.magnitude
  if numeral.isWhole && fitsInt number && !(numeral.negative && number == 0) then
    some (.int (Int64.ofInt number))
  else numeral.toDouble?.map .float

def ofJson? : Nat → Json → Option Value
  | _, .null => some .null
  | _, .bool flag => some (.bool flag)
  | _, .number numeral => ofNumeral? numeral
  | _, .string literal => (Json.unescape? literal).map fun chars => .str (String.ofList chars)
  | 0, .array _ => none
  | 0, .object _ => none
  | room + 1, .array items => (items.mapM (ofJson? room)).map .list
  | room + 1, .object members =>
      (members.mapM fun (member : List Char × Json) => do
        let name ← Json.unescape? member.1
        let value ← ofJson? room member.2
        return (String.ofList name, value)).map ofPairs

/-- Arrays and objects may nest this deep in a text that is read as a value. -/
def nestingLimit : Nat := 127

def readJson? (text : String) : Option Value :=
  (Json.read? text).bind (ofJson? nestingLimit)

end Letterpress.Value
