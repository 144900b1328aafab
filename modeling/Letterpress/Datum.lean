import Letterpress.Value.Display

/-!
The data that an application hands to a page, before it becomes a `Value`. Kinds that
no template can tell apart are one constructor: every way of saying "nothing" is
`absent`, every wrapper `wrapped`, every list or tuple `sequence`.
-/

namespace Letterpress

inductive Datum where
  | absent
  | bool (flag : Bool)
  | integer (number : Int)
  /-- An integer of 128 bits, which no value can hold. -/
  | wideInteger (signed : Bool)
  | float (number : Float)
  | char (letter : Char)
  | text (content : String)
  | bytes (octets : List UInt8)
  /-- A case of an enumeration that carries nothing but its name. -/
  | variant (name : String)
  | wrapped (inner : Datum)
  | sequence (items : List Datum)
  | mapping (entries : List (Datum × Datum))
  | record (fields : List (String × Datum))
  /-- A map that gives a value before any key. -/
  | keyless (value : Datum)
  /-- Data that refuses to be read, for a reason of its own. -/
  | failing (reason : String)

inductive DatumError where
  | wideInteger (signed : Bool)
  | keyType (found : String)
  | missingKey
  | custom (reason : String)
  deriving DecidableEq, Repr

def DatumError.message : DatumError → String
  | .wideInteger true => "i128 is not supported"
  | .wideInteger false => "u128 is not supported"
  | .keyType found => s!"Map key must be a string, got {found}"
  | .missingKey => "Missing key for value"
  | .custom reason => reason

/-- The name under which a map keeps an entry. Scalars are named by their text. -/
def Value.keyName : Value → Except DatumError String
  | .str text => .ok text
  | .bool flag => .ok (Value.bool flag).display
  | .int number => .ok (Value.int number).display
  | .float number => .ok (Value.float number).display
  | other => .error (.keyType other.typeName)

namespace Datum

mutual

/-- Reads the data from left to right and stops at the first failure. Of entries with
one name the last counts. -/
def toValue : Datum → Except DatumError Value
  | .absent => .ok .null
  | .bool flag => .ok (.bool flag)
  | .integer number => .ok (.ofInt number)
  | .wideInteger signed => .error (.wideInteger signed)
  | .float number => .ok (.float number)
  | .char letter => .ok (.str (String.singleton letter))
  | .text content => .ok (.str content)
  | .bytes octets => .ok (.list (octets.map fun octet => .ofNat octet.toNat))
  | .variant name => .ok (.str name)
  | .wrapped inner => toValue inner
  | .sequence items => (itemsToValues items).map .list
  | .mapping entries => (entriesToPairs entries).map .ofPairs
  | .record fields => (fieldsToPairs fields).map .ofPairs
  | .keyless value => do
      let _ ← toValue value
      .error .missingKey
  | .failing reason => .error (.custom reason)

def itemsToValues : List Datum → Except DatumError (List Value)
  | [] => .ok []
  | item :: rest => do
      let value ← toValue item
      let values ← itemsToValues rest
      return value :: values

def entriesToPairs : List (Datum × Datum) → Except DatumError (List (String × Value))
  | [] => .ok []
  | (key, item) :: rest => do
      let name ← (← toValue key).keyName
      let value ← toValue item
      let pairs ← entriesToPairs rest
      return (name, value) :: pairs

def fieldsToPairs : List (String × Datum) → Except DatumError (List (String × Value))
  | [] => .ok []
  | (name, item) :: rest => do
      let value ← toValue item
      let pairs ← fieldsToPairs rest
      return (name, value) :: pairs

end

mutual

def ofValue : Value → Datum
  | .null => .absent
  | .bool flag => .bool flag
  | .int number => .integer number.toInt
  | .float number => .float number
  | .str content => .text content
  | .list items => .sequence (ofValues items)
  | .map entries => .mapping (ofEntries entries)

def ofValues : List Value → List Datum
  | [] => []
  | item :: rest => ofValue item :: ofValues rest

def ofEntries : List (String × Value) → List (Datum × Datum)
  | [] => []
  | (name, value) :: rest => (.text name, ofValue value) :: ofEntries rest

end

end Letterpress.Datum
