import Letterpress.Json.Bytes
import Letterpress.Program.Basic
import Letterpress.Value.Json

/-!
Programs as JSON texts, the form in which they are stored. A case of an enumeration is
its name alone, or an object from its name to what it carries; records are objects and
may also be read from arrays in the order of their fields. Unknown fields are skipped,
known ones must be there once. A text in which arrays and objects nest too deep is
refused; only the values that operations push can nest freely.
-/

namespace Letterpress

namespace Json

def ofTexts (texts : List String) : Json := .array (texts.map ofText)

def ofCase (name : String) (payload : Json) : Json := ofMembers [(name, payload)]

def case? : Json → Option (String × Option Json)
  | .string literal => (unescape? literal).map fun name => (String.ofList name, none)
  | .object [(name, payload)] =>
      (unescape? name).map fun name => (String.ofList name, some payload)
  | _ => none

/-- Whether nothing is carried: not even `null` counts as something. -/
def carriesNothing : Option Json → Bool
  | none => true
  | some .null => true
  | some _ => false

/-- A natural number that fits a word of 64 bits. -/
def word? : Json → Option Nat
  | .number numeral =>
      if numeral.isWhole && !numeral.negative && numeral.magnitude < UInt64.size then
        some numeral.magnitude
      else none
  | _ => none

def items? : Json → Option (List Json)
  | .array items => some items
  | _ => none

def texts? (document : Json) : Option (List String) := do
  (← document.items?).mapM text?

def record? (fields : List String) : Json → Option (List Json)
  | .array items => if items.length == fields.length then some items else none
  | .object members => do
      let named ← (Json.object members).members?
      fields.mapM fun field =>
        match named.filter (fun member => member.1 == field) with
        | [member] => some member.2
        | _ => none
  | _ => none

end Json

def BinaryOperator.name : BinaryOperator → String
  | .eq => "Eq"
  | .ne => "Ne"
  | .lt => "Lt"
  | .le => "Le"
  | .gt => "Gt"
  | .ge => "Ge"
  | .add => "Add"
  | .sub => "Sub"

def BinaryOperator.all : List BinaryOperator := [.eq, .ne, .lt, .le, .gt, .ge, .add, .sub]

def BinaryOperator.ofJson? (document : Json) : Option BinaryOperator := do
  let (name, payload) ← document.case?
  if Json.carriesNothing payload then all.find? fun operator => operator.name == name else none

def Op.toJson : Op → Json
  | .push value => .ofCase "Push" value.toJson
  | .load name => .ofCase "Load" (.ofText name)
  | .member => .ofText "Member"
  | .neg => .ofText "Neg"
  | .not => .ofText "Not"
  | .binary operator => .ofCase "Binary" (.ofText operator.name)
  | .jumpIfFalsy target => .ofCase "JumpIfFalsy" (.ofNat target)
  | .jumpIfTruthy target => .ofCase "JumpIfTruthy" (.ofNat target)

/-- An operation whose pushed value may nest at most `room` deep. -/
def Op.ofJson? (room : Nat) (document : Json) : Option Op := do
  match ← document.case? with
  | ("Member", payload) => if Json.carriesNothing payload then some .member else none
  | ("Neg", payload) => if Json.carriesNothing payload then some .neg else none
  | ("Not", payload) => if Json.carriesNothing payload then some .not else none
  | ("Push", some payload) => (Value.ofJson? room payload).map .push
  | ("Load", some payload) => payload.text?.map .load
  | ("Binary", some payload) => (BinaryOperator.ofJson? payload).map .binary
  | ("JumpIfFalsy", some payload) => payload.word?.map .jumpIfFalsy
  | ("JumpIfTruthy", some payload) => payload.word?.map .jumpIfTruthy
  | _ => none

def Code.toJson (code : Code) : Json := .array (code.map Op.toJson)

/-- Code of which the array stands at a given depth, the whole document being at one.
The array and the objects of the operations count towards the limit. -/
def Code.ofJson? (depth : Nat) (document : Json) : Option Code := do
  (← document.items?).mapM (Op.ofJson? (Value.nestingLimit - (depth + 1)))

def Instruction.toJson : Instruction → Json
  | .text content => .ofCase "Text" (.ofText content)
  | .emit code => .ofCase "Emit" code.toJson
  | .jumpIfFalse test target => .ofCase "JumpIfFalse" (.array [test.toJson, .ofNat target])
  | .jump target => .ofCase "Jump" (.ofNat target)
  | .loopStart names iterable =>
      .ofCase "LoopStart"
        (.ofMembers [("vars", .ofTexts names), ("iterable", iterable.toJson)])
  | .iterate target => .ofCase "Iterate" (.ofNat target)

def Instruction.ofJson? (document : Json) : Option Instruction := do
  match ← document.case? with
  | ("Text", some payload) => payload.text?.map .text
  | ("Emit", some payload) => (Code.ofJson? 4 payload).map .emit
  | ("JumpIfFalse", some (.array [test, target])) => do
      return .jumpIfFalse (← Code.ofJson? 5 test) (← target.word?)
  | ("Jump", some payload) => payload.word?.map .jump
  | ("LoopStart", some payload) => do
      match ← payload.record? ["vars", "iterable"] with
      | [names, iterable] => return .loopStart (← names.texts?) (← Code.ofJson? 5 iterable)
      | _ => none
  | ("Iterate", some payload) => payload.word?.map .iterate
  | _ => none

namespace Program

def toJson (program : Program) : Json :=
  .ofMembers
    [("name", .ofText program.name), ("sources", .ofTexts program.sources),
      ("compiled_at", .ofText program.compiledAt.toText),
      ("instrs", .array (program.instructions.map Instruction.toJson))]

def ofJson? (document : Json) : Option Program := do
  match ← document.record? ["name", "sources", "compiled_at", "instrs"] with
  | [name, sources, compiledAt, instructions] =>
      return ⟨← name.text?, ← sources.texts?, ← Instant.read? (← compiledAt.text?),
        ← (← instructions.items?).mapM Instruction.ofJson?⟩
  | _ => none

def encode (program : Program) : String := program.toJson.compact

def decode? (text : String) : Option Program := (Json.read? text).bind ofJson?

def decodeBytes? (bytes : ByteArray) : Option Program := (Json.readBytes? bytes).bind ofJson?

end Letterpress.Program
