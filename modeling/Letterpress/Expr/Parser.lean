import Letterpress.Expr.Token

/-!
The grammar of expressions, from the loosest level to the tightest:

* disjunction: conjunctions joined by `or` or `||`, to the left;
* conjunction: negations joined by `and` or `&&`, to the left;
* negation: `not` or `!` before a negation, or a comparison;
* comparison: one sum, or two with one comparing symbol between them;
* sum: accesses joined by `+` or `-`, to the left;
* access: a primary followed by any number of `.name` and `[disjunction]`;
* primary: a literal, a variable, a disjunction in parentheses, `-` before a primary.

A reader takes the lexemes ahead and answers a tree with the lexemes that follow it.
A text that is no expression is refused at the first lexeme that cannot stand where
it stands, or at the end of the text.
-/

namespace Letterpress.Expr

/-- Why reading stopped, with the lexemes that were still ahead. -/
structure Stuck where
  problem : SyntaxProblem
  rest : List Lexeme

def Stuck.locate (sourceSize : Nat) (stuck : Stuck) : SyntaxError :=
  match stuck.rest with
  | [] => ⟨stuck.problem, sourceSize⟩
  | lexeme :: _ => ⟨stuck.problem, lexeme.offset⟩

abbrev Outcome := Except Stuck (Expr × List Lexeme)

inductive Level where
  | disjunction
  | conjunction
  | negation
  | comparison
  | sum
  | access
  | primary
  deriving DecidableEq, Repr

def orOperator? : Token → Option (Expr → Expr → Expr)
  | .name "or" => some .or
  | .symbol .either => some .or
  | _ => none

def andOperator? : Token → Option (Expr → Expr → Expr)
  | .name "and" => some .and
  | .symbol .both => some .and
  | _ => none

def sumOperator? : Token → Option (Expr → Expr → Expr)
  | .symbol .plus => some (.binary .add)
  | .symbol .minus => some (.binary .sub)
  | _ => none

def comparison? : Token → Option BinaryOperator
  | .symbol .equal => some .eq
  | .symbol .identical => some .eq
  | .symbol .unequal => some .ne
  | .symbol .different => some .ne
  | .symbol .less => some .lt
  | .symbol .atMost => some .le
  | .symbol .greater => some .gt
  | .symbol .atLeast => some .ge
  | _ => none

def isNegation : Token → Bool
  | .name "not" => true
  | .symbol .bang => true
  | _ => false

def expect (symbol : Symbol) (input : List Lexeme) : Except Stuck (List Lexeme) :=
  match input with
  | ⟨.symbol found, _⟩ :: rest =>
      if found = symbol then .ok rest else .error ⟨.expectedSymbol symbol.text, input⟩
  | _ => .error ⟨.expectedSymbol symbol.text, input⟩

def joinLeft (operator? : Token → Option (Expr → Expr → Expr)) (operand : List Lexeme → Outcome) :
    Nat → Expr → List Lexeme → Outcome
  | 0, left, input => .ok (left, input)
  | fuel + 1, left, input =>
      match input with
      | [] => .ok (left, [])
      | lexeme :: rest =>
          match operator? lexeme.token with
          | none => .ok (left, input)
          | some combine =>
              match operand rest with
              | .error stuck => .error stuck
              | .ok (right, rest) => joinLeft operator? operand fuel (combine left right) rest

def joinAccess (index : List Lexeme → Outcome) : Nat → Expr → List Lexeme → Outcome
  | 0, base, input => .ok (base, input)
  | fuel + 1, base, input =>
      match input with
      | ⟨.symbol .dot, _⟩ :: rest =>
          match rest with
          | ⟨.name field, _⟩ :: rest =>
              joinAccess index fuel (.member base (.literal (.str field))) rest
          | _ => .error ⟨.expectedAttribute, rest⟩
      | ⟨.symbol .openBracket, _⟩ :: rest =>
          match index rest with
          | .error stuck => .error stuck
          | .ok (key, rest) =>
              match expect .closeBracket rest with
              | .error stuck => .error stuck
              | .ok rest => joinAccess index fuel (.member base key) rest
      | _ => .ok (base, input)

def ofWord (word : String) : Except SyntaxProblem Expr :=
  if word = "true" then .ok (.literal (.bool true))
  else if word = "false" then .ok (.literal (.bool false))
  else if word = "null" ∨ word = "undefined" then .ok (.literal .null)
  else if word ∈ reserved then .error (.unexpectedKeyword word)
  else .ok (.var word)

/-- Reads a tree of one level. Each call goes one level down or starts over inside
brackets, so `fuel` beyond ten per lexeme is never used up. -/
def read : Nat → Level → List Lexeme → Outcome
  | 0, _, input => .error ⟨.unexpectedEnd, input⟩
  | fuel + 1, .disjunction, input =>
      match read fuel .conjunction input with
      | .error stuck => .error stuck
      | .ok (left, rest) => joinLeft orOperator? (read fuel .conjunction) rest.length left rest
  | fuel + 1, .conjunction, input =>
      match read fuel .negation input with
      | .error stuck => .error stuck
      | .ok (left, rest) => joinLeft andOperator? (read fuel .negation) rest.length left rest
  | fuel + 1, .negation, input =>
      match input with
      | [] => read fuel .comparison input
      | lexeme :: rest =>
          if isNegation lexeme.token then
            match read fuel .negation rest with
            | .error stuck => .error stuck
            | .ok (operand, rest) => .ok (.not operand, rest)
          else read fuel .comparison input
  | fuel + 1, .comparison, input =>
      match read fuel .sum input with
      | .error stuck => .error stuck
      | .ok (left, []) => .ok (left, [])
      | .ok (left, lexeme :: rest) =>
          match comparison? lexeme.token with
          | none => .ok (left, lexeme :: rest)
          | some operator =>
              match read fuel .sum rest with
              | .error stuck => .error stuck
              | .ok (right, rest) => .ok (.binary operator left right, rest)
  | fuel + 1, .sum, input =>
      match read fuel .access input with
      | .error stuck => .error stuck
      | .ok (left, rest) => joinLeft sumOperator? (read fuel .access) rest.length left rest
  | fuel + 1, .access, input =>
      match read fuel .primary input with
      | .error stuck => .error stuck
      | .ok (base, rest) => joinAccess (read fuel .disjunction) rest.length base rest
  | fuel + 1, .primary, input =>
      match input with
      | [] => .error ⟨.unexpectedEnd, []⟩
      | ⟨.str content, _⟩ :: rest => .ok (.literal (.str content), rest)
      | ⟨.int number, _⟩ :: rest => .ok (.literal (.int number), rest)
      | ⟨.float number, _⟩ :: rest => .ok (.literal (.float number), rest)
      | ⟨.name word, _⟩ :: rest =>
          match ofWord word with
          | .error problem => .error ⟨problem, input⟩
          | .ok tree => .ok (tree, rest)
      | ⟨.symbol .openParen, _⟩ :: rest =>
          match read fuel .disjunction rest with
          | .error stuck => .error stuck
          | .ok (inner, rest) =>
              match expect .closeParen rest with
              | .error stuck => .error stuck
              | .ok rest => .ok (inner, rest)
      | ⟨.symbol .minus, _⟩ :: rest =>
          match read fuel .primary rest with
          | .error stuck => .error stuck
          | .ok (operand, rest) => .ok (.neg operand, rest)
      | ⟨.symbol symbol, _⟩ :: _ => .error ⟨.unexpectedSymbol symbol.text, input⟩

def enoughFuel (input : List Lexeme) : Nat := 10 * input.length + 10

def readDisjunction (input : List Lexeme) : Outcome := read (enoughFuel input) .disjunction input

def expectEnd (input : List Lexeme) : Except Stuck Unit :=
  if input.isEmpty then .ok () else .error ⟨.trailingInput, input⟩

def ofLexemes (input : List Lexeme) : Except Stuck Expr := do
  let (tree, rest) ← readDisjunction input
  expectEnd rest
  return tree

def parse (source : String) : Except SyntaxError Expr := do
  let lexemes ← lex source
  (ofLexemes lexemes).mapError (Stuck.locate source.utf8ByteSize)

end Expr

namespace LoopHeader

open Letterpress.Expr

def readVariable (input : List Lexeme) : Except Stuck (String × List Lexeme) :=
  match input with
  | ⟨.name word, _⟩ :: rest =>
      if word ∈ reserved then .error ⟨.expectedVariable, input⟩ else .ok (word, rest)
  | _ => .error ⟨.expectedVariable, input⟩

/-- An opening parenthesis may stand around the whole header. -/
def skipOpening (input : List Lexeme) : Bool × List Lexeme :=
  match input with
  | ⟨.symbol .openParen, _⟩ :: rest => (true, rest)
  | _ => (false, input)

/-- One declaring word may stand before the variables. -/
def skipDeclaration (input : List Lexeme) : List Lexeme :=
  match input with
  | ⟨.name word, _⟩ :: rest => if word ∈ ["let", "const", "var"] then rest else input
  | _ => input

def readVariables (input : List Lexeme) : Except Stuck (List String × List Lexeme) := do
  let (first, rest) ← readVariable input
  match rest with
  | ⟨.symbol .comma, _⟩ :: rest =>
      let (second, rest) ← readVariable rest
      return ([first, second], rest)
  | _ => return ([first], rest)

def expectLoopWord (input : List Lexeme) : Except Stuck (List Lexeme) :=
  match input with
  | ⟨.name word, _⟩ :: rest =>
      if word = "of" ∨ word = "in" then .ok rest else .error ⟨.expectedLoopWord, input⟩
  | _ => .error ⟨.expectedLoopWord, input⟩

def ofLexemes (input : List Lexeme) : Except Stuck LoopHeader := do
  let (wrapped, rest) := skipOpening input
  let (names, rest) ← readVariables (skipDeclaration rest)
  let rest ← expectLoopWord rest
  let (iterable, rest) ← readDisjunction rest
  let rest ← if wrapped then expect .closeParen rest else .ok rest
  expectEnd rest
  return ⟨names, iterable⟩

/-- Reads `name of expression` or `name, name of expression`. -/
def parse (source : String) : Except SyntaxError LoopHeader := do
  let lexemes ← lex source
  (ofLexemes lexemes).mapError (Stuck.locate source.utf8ByteSize)

end Letterpress.LoopHeader
