import Letterpress.Value.Display

/-!
What the operators of expressions do to values. Only negation and subtraction can
fail; comparison of things without an order is false, and addition of anything but
two numbers joins texts.
-/

namespace Letterpress

inductive BinaryOperator where
  | eq
  | ne
  | lt
  | le
  | gt
  | ge
  | add
  | sub
  deriving DecidableEq, Repr

inductive OperandError where
  | negation (operand : String)
  | subtraction (minuend subtrahend : String)
  deriving DecidableEq, Repr

def OperandError.message : OperandError → String
  | .negation operand => s!"cannot negate {operand}"
  | .subtraction minuend subtrahend => s!"cannot subtract {subtrahend} from {minuend}"

namespace Value

def index? : Value → Option Nat
  | .int number => if 0 ≤ number.toInt then some number.toInt.toNat else none
  | .float number =>
      let whole := number.toUInt64.toNat
      if Float.ofNat whole == number then some whole else none
  | _ => none

def isLengthKey : Value → Bool
  | .str text => text == "length"
  | _ => false

def lengthValue (value : Value) : Value :=
  match value.size? with
  | some size => .ofNat size
  | none => .null

/-- What stands under a key; `null` where nothing does. An entry named `length` hides
the length of its map. -/
def member (base key : Value) : Value :=
  match base with
  | .map entries =>
      match Entries.find? key.display entries with
      | some value => value
      | none => if key.display == "length" then base.lengthValue else .null
  | .list items =>
      match key.index? with
      | some position => items[position]?.getD .null
      | none => if key.isLengthKey then base.lengthValue else .null
  | .str text =>
      match key.index? with
      | some position =>
          match text.toList[position]? with
          | some char => .str (String.singleton char)
          | none => .null
      | none => if key.isLengthKey then base.lengthValue else .null
  | _ => .null

/-- The integer result of an operation, or the result of the same operation on
doubles where the integer does not fit. -/
def fitOr (number : Int) (otherwise : Float) : Value :=
  if fitsInt number then .int (Int64.ofInt number) else .float otherwise

def negate : Value → Except OperandError Value
  | .int number => .ok (fitOr (-number.toInt) (-Float.ofInt number.toInt))
  | .float number => .ok (.float (-number))
  | other => .error (.negation other.typeName)

def add (left right : Value) : Value :=
  match left, right with
  | .int a, .int b => fitOr (a.toInt + b.toInt) (Float.ofInt a.toInt + Float.ofInt b.toInt)
  | _, _ =>
      match left.toFloat?, right.toFloat? with
      | some a, some b => .float (a + b)
      | _, _ => .str (left.display ++ right.display)

def subtract (left right : Value) : Except OperandError Value :=
  match left, right with
  | .int a, .int b => .ok (fitOr (a.toInt - b.toInt) (Float.ofInt a.toInt - Float.ofInt b.toInt))
  | _, _ =>
      match left.toFloat?, right.toFloat? with
      | some a, some b => .ok (.float (a - b))
      | _, _ => .error (.subtraction left.typeName right.typeName)

/-- Numbers are equal as doubles, other values by structure. -/
def equals (left right : Value) : Bool :=
  match left.toFloat?, right.toFloat? with
  | some a, some b => a == b
  | _, _ => same left right

/-- Texts are ordered by code points and numbers as doubles. -/
def compare? (left right : Value) : Option Ordering :=
  match left, right with
  | .str a, .str b => some (if a = b then .eq else if a < b then .lt else .gt)
  | _, _ =>
      match left.toFloat?, right.toFloat? with
      | some a, some b =>
          if a < b then some .lt else if a == b then some .eq else if b < a then some .gt else none
      | _, _ => none

def applyBinary (operator : BinaryOperator) (left right : Value) : Except OperandError Value :=
  match operator with
  | .eq => .ok (.bool (equals left right))
  | .ne => .ok (.bool (!equals left right))
  | .lt => .ok (.bool (compare? left right == some .lt))
  | .le => .ok (.bool (compare? left right == some .lt || compare? left right == some .eq))
  | .gt => .ok (.bool (compare? left right == some .gt))
  | .ge => .ok (.bool (compare? left right == some .gt || compare? left right == some .eq))
  | .add => .ok (add left right)
  | .sub => subtract left right

/-- What a loop over a value binds in each round, to one variable or (`paired`) to
two; nothing for values that cannot be looped over. -/
def rounds? (paired : Bool) : Value → Option (List (List Value))
  | .null => some []
  | .list items =>
      some (items.zipIdx.map fun (item, position) =>
        if paired then [.ofNat position, item] else [item])
  | .map entries =>
      some (entries.map fun (name, value) => if paired then [.str name, value] else [.str name])
  | .str text =>
      some (text.toList.zipIdx.map fun (char, position) =>
        if paired then [.ofNat position, .str (String.singleton char)]
        else [.str (String.singleton char)])
  | _ => none

end Letterpress.Value
