/-!
What can be wrong with the text of an expression, and where. Offsets count bytes from
the start of the expression's own text; people count columns from one.
-/

namespace Letterpress

inductive SyntaxProblem where
  | unterminatedString
  | invalidNumber (literal : String)
  | unexpectedCharacter (char : Char)
  | unexpectedEnd
  | unexpectedKeyword (keyword : String)
  | unexpectedSymbol (symbol : String)
  | expectedSymbol (symbol : String)
  | expectedAttribute
  | expectedVariable
  | expectedLoopWord
  | trailingInput
  deriving DecidableEq, Repr

def SyntaxProblem.message : SyntaxProblem → String
  | .unterminatedString => "unterminated string literal"
  | .invalidNumber literal => s!"invalid number `{literal}`"
  | .unexpectedCharacter char => s!"unexpected character `{char}`"
  | .unexpectedEnd => "unexpected end of expression"
  | .unexpectedKeyword keyword => s!"unexpected keyword `{keyword}`"
  | .unexpectedSymbol symbol => s!"unexpected `{symbol}`"
  | .expectedSymbol symbol => s!"expected `{symbol}`"
  | .expectedAttribute => "expected attribute name after `.`"
  | .expectedVariable => "expected identifier"
  | .expectedLoopWord => "expected `of` or `in`"
  | .trailingInput => "unexpected trailing input"

structure SyntaxError where
  problem : SyntaxProblem
  offset : Nat
  deriving DecidableEq, Repr

def SyntaxError.message (error : SyntaxError) : String :=
  let column := error.offset + 1
  s!"{error.problem.message} (column {column})"

end Letterpress
