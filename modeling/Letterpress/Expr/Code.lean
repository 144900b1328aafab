import Letterpress.Expr.Basic
import Letterpress.Expr.Scope

/-!
Expressions as code for a stack. `lower` writes operands before their operator and
the second operand of `and` and `or` behind a jump that keeps the first one; targets
count from the start of the code. Code need not come from an expression, so running it
can fail in ways that lowered code does not, and it need not end.
-/

namespace Letterpress

inductive Op where
  | push (value : Value)
  /-- Pushes what a name means, `null` if nothing binds it. -/
  | load (name : String)
  /-- Pops a key and a base, and pushes what stands under the key. -/
  | member
  | neg
  | not
  /-- Pops the right operand, then the left one. -/
  | binary (operator : BinaryOperator)
  /-- Jumps and keeps the top if it is not truthy, otherwise drops it. -/
  | jumpIfFalsy (target : Nat)
  /-- Jumps and keeps the top if it is truthy, otherwise drops it. -/
  | jumpIfTruthy (target : Nat)

abbrev Code := List Op

inductive CodeError where
  | operand (error : OperandError)
  | underflow
  | leftover
  | endless
  deriving DecidableEq, Repr

def CodeError.message : CodeError → String
  | .operand error => error.message
  | .underflow => "expression stack underflow"
  | .leftover => "malformed expression code"
  | .endless => "expression code does not end"

/-- The code of an expression that is placed at address `start`. -/
def Expr.lowerAt (start : Nat) : Expr → Code
  | .literal value => [.push value]
  | .var name => [.load name]
  | .member base key =>
      let first := base.lowerAt start
      first ++ key.lowerAt (start + first.length) ++ [.member]
  | .neg operand => operand.lowerAt start ++ [.neg]
  | .not operand => operand.lowerAt start ++ [.not]
  | .binary operator left right =>
      let first := left.lowerAt start
      first ++ right.lowerAt (start + first.length) ++ [.binary operator]
  | .and left right =>
      let first := left.lowerAt start
      let second := right.lowerAt (start + first.length + 1)
      first ++ .jumpIfFalsy (start + first.length + 1 + second.length) :: second
  | .or left right =>
      let first := left.lowerAt start
      let second := right.lowerAt (start + first.length + 1)
      first ++ .jumpIfTruthy (start + first.length + 1 + second.length) :: second

def Expr.lower (expression : Expr) : Code := expression.lowerAt 0

namespace Code

/-- One operation: the address to go on at, and the stack there. -/
def step (scope : Scope) (op : Op) (address : Nat) (stack : List Value) :
    Except CodeError (Nat × List Value) :=
  match op, stack with
  | .push value, stack => .ok (address + 1, value :: stack)
  | .load name, stack => .ok (address + 1, scope.lookup name :: stack)
  | .member, key :: base :: rest => .ok (address + 1, base.member key :: rest)
  | .neg, operand :: rest =>
      match operand.negate with
      | .ok result => .ok (address + 1, result :: rest)
      | .error error => .error (.operand error)
  | .not, operand :: rest => .ok (address + 1, .bool (!operand.isTruthy) :: rest)
  | .binary operator, right :: left :: rest =>
      match Value.applyBinary operator left right with
      | .ok result => .ok (address + 1, result :: rest)
      | .error error => .error (.operand error)
  | .jumpIfFalsy target, top :: rest =>
      if top.isTruthy then .ok (address + 1, rest) else .ok (target, top :: rest)
  | .jumpIfTruthy target, top :: rest =>
      if top.isTruthy then .ok (target, top :: rest) else .ok (address + 1, rest)
  | _, _ => .error .underflow

/-- Code ends where no operation stands, with exactly its result on the stack. -/
def finish : List Value → Except CodeError Value
  | [] => .error .underflow
  | [result] => .ok result
  | _ => .error .leftover

/-- Runs code from an address on; nothing if that never ends. -/
def run (scope : Scope) (code : Code) (address : Nat) (stack : List Value) :
    Option (Except CodeError Value) :=
  match code[address]? with
  | none => some (finish stack)
  | some op =>
      match step scope op address stack with
      | .error error => some (.error error)
      | .ok (next, stack) => code |>.run scope next stack
partial_fixpoint

/-- The value of code. Code that never ends has none, and `endless` stands for that. -/
def eval (scope : Scope) (code : Code) : Except CodeError Value :=
  (run scope code 0 []).getD (.error .endless)

end Letterpress.Code
