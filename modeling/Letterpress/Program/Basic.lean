import Letterpress.Expr.Code
import Letterpress.Instant

/-!
Programs: what is left of a template once everything about it is decided but the
context. Targets count instructions from the start of the program.
-/

namespace Letterpress

inductive Instruction where
  | text (content : String)
  /-- Writes what an expression displays as. -/
  | emit (code : Code)
  | jumpIfFalse (test : Code) (target : Nat)
  | jump (target : Nat)
  /-- Starts a loop that binds the variables anew in each round. -/
  | loopStart (names : List String) (iterable : Code)
  /-- Starts the next round, or ends the loop and jumps. -/
  | iterate (target : Nat)

/-- `sources` are the names of the files that went into the program, its own first. -/
structure Program where
  name : String
  sources : List String
  compiledAt : Instant
  instructions : List Instruction

end Letterpress
