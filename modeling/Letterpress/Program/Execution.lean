import Letterpress.Error
import Letterpress.Program.Basic

/-!
Running a program on a context. A loop is a frame with the rounds that are still to
come; the variables of a round are bound when the round starts and unbound when the
next one is asked for. Programs need not come from templates, so running one can fail
in ways that generated programs do not, and it need not end.
-/

namespace Letterpress

structure LoopFrame where
  names : List String
  rounds : List (List Value)
  /-- Whether the variables of a round are bound. -/
  bound : Bool

/-- What a run has come to: the next address, the text so far, what names mean, and the
loops that are running, the innermost first. -/
structure Machine where
  address : Nat
  output : String
  scope : Scope
  loops : List LoopFrame

namespace Machine

def start (context : Value) : Machine := ⟨0, "", .ofContext context, []⟩

def evaluate (machine : Machine) (code : Code) : Except RenderProblem Value :=
  (code.eval machine.scope).mapError .code

def next (machine : Machine) : Machine := { machine with address := machine.address + 1 }

def goTo (machine : Machine) (target : Nat) : Machine := { machine with address := target }

def iterate (machine : Machine) (target : Nat) : Except RenderProblem Machine :=
  match machine.loops with
  | [] => .error .strayIteration
  | loop :: outer =>
      let scope :=
        if loop.bound then machine.scope.unbind loop.names.length else machine.scope
      match loop.rounds with
      | [] => .ok { machine with address := target, scope, loops := outer }
      | values :: rounds =>
          .ok
            { machine with
              address := machine.address + 1
              scope := scope.bind loop.names values
              loops := { loop with rounds, bound := true } :: outer }

def step (machine : Machine) : Instruction → Except RenderProblem Machine
  | .text content => .ok { machine.next with output := machine.output ++ content }
  | .emit code => do
      let value ← machine.evaluate code
      return { machine.next with output := machine.output ++ value.display }
  | .jumpIfFalse test target => do
      let value ← machine.evaluate test
      return if value.isTruthy then machine.next else machine.goTo target
  | .jump target => .ok (machine.goTo target)
  | .loopStart names iterable => do
      let value ← machine.evaluate iterable
      match value.rounds? (1 < names.length) with
      | some rounds => return { machine.next with loops := ⟨names, rounds, false⟩ :: machine.loops }
      | none => .error (.notIterable value.typeName)
  | .iterate target => machine.iterate target

/-- Runs instructions to their end; nothing if that never comes. -/
def run (instructions : List Instruction) (machine : Machine) :
    Option (Except RenderProblem String) :=
  match instructions[machine.address]? with
  | none => some (.ok machine.output)
  | some instruction =>
      match machine.step instruction with
      | .error problem => some (.error problem)
      | .ok next => next |>.run instructions
partial_fixpoint

end Machine

namespace Program

/-- The page of a program. A program that never ends has none, and `endless` stands for
that. -/
def execute (program : Program) (context : Value) : Except TemplateError String :=
  match Machine.run program.instructions (.start context) with
  | some outcome => outcome.mapError (.render program.name)
  | none => .error (.render program.name .endless)

end Letterpress.Program
