import Letterpress.Expr.Parser
import Letterpress.Error
import Letterpress.Program.Basic
import Letterpress.Template.Inheritance

/-!
Code for templates. Each node becomes one stretch of instructions that control enters
at its start and leaves at its end:

* a condition jumps over its nodes, and its nodes over the `else` nodes, if any;
* a loop starts, iterates, runs its body and jumps back to the iteration, whose own
  target is the end of the stretch.
-/

namespace Letterpress

def expressionCode (owner : String) (source : String) (offset : Nat) :
    Except TemplateError Code :=
  match Expr.parse source with
  | .ok expression => .ok expression.lower
  | .error error => .error (.expression owner error offset)

def loopHeader (owner : String) (source : String) (offset : Nat) :
    Except TemplateError LoopHeader :=
  (LoopHeader.parse source).mapError fun error => .expression owner error offset

mutual

def Node.emitAt (owner : String) (start : Nat) : Node → Except TemplateError (List Instruction)
  | .text content => .ok [.text content]
  | .output expression offset => do
      let code ← expressionCode owner expression offset
      return [.emit code]
  | .block _ body => emitAllAt owner start body
  | .ifThen test offset yes => do
      let code ← expressionCode owner test offset
      let first ← emitAllAt owner (start + 1) yes
      return .jumpIfFalse code (start + 1 + first.length) :: first
  | .ifElse test offset yes no => do
      let code ← expressionCode owner test offset
      let first ← emitAllAt owner (start + 1) yes
      let second ← emitAllAt owner (start + 1 + first.length + 1) no
      let afterFirst := start + 1 + first.length + 1
      return .jumpIfFalse code afterFirst ::
        (first ++ .jump (afterFirst + second.length) :: second)
  | .loop header offset body => do
      let parsed ← loopHeader owner header offset
      let inner ← emitAllAt owner (start + 2) body
      return .loopStart parsed.names parsed.iterable.lower ::
        .iterate (start + 2 + inner.length + 1) :: (inner ++ [.jump (start + 1)])

def emitAllAt (owner : String) (start : Nat) : List Node → Except TemplateError (List Instruction)
  | [] => .ok []
  | node :: rest => do
      let first ← node.emitAt owner start
      let others ← emitAllAt owner (start + first.length) rest
      return first ++ others

end

def emitOwnedAt (start : Nat) : List OwnedNode → Except TemplateError (List Instruction)
  | [] => .ok []
  | owned :: rest => do
      let first ← owned.node.emitAt owned.owner start
      let others ← emitOwnedAt (start + first.length) rest
      return first ++ others

def Template.generate (template : Template) (now : Instant) : Except TemplateError Program := do
  let instructions ← emitOwnedAt 0 template.resolve
  return ⟨template.page.name, template.chain, now, instructions⟩

end Letterpress
