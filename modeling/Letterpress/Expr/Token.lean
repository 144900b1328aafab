import Letterpress.Expr.Basic
import Letterpress.Expr.SyntaxError
import Letterpress.Text.Alphabetic
import Letterpress.Text.Blank
import Letterpress.Text.Numeric

/-!
The words of expressions and how a text falls into them. Of several symbols that a
text could start with, the longest counts. A number that no double can hold is
refused here, so every literal is finite.
-/

namespace Letterpress.Expr

inductive Symbol where
  | identical
  | different
  | equal
  | unequal
  | atMost
  | atLeast
  | both
  | either
  | less
  | greater
  | bang
  | plus
  | minus
  | dot
  | comma
  | openBracket
  | closeBracket
  | openParen
  | closeParen
  deriving DecidableEq, Repr

def Symbol.text : Symbol → String
  | .identical => "==="
  | .different => "!=="
  | .equal => "=="
  | .unequal => "!="
  | .atMost => "<="
  | .atLeast => ">="
  | .both => "&&"
  | .either => "||"
  | .less => "<"
  | .greater => ">"
  | .bang => "!"
  | .plus => "+"
  | .minus => "-"
  | .dot => "."
  | .comma => ","
  | .openBracket => "["
  | .closeBracket => "]"
  | .openParen => "("
  | .closeParen => ")"

/-- Longer symbols come before the symbols that they start with. -/
def Symbol.all : List Symbol :=
  [.identical, .different, .equal, .unequal, .atMost, .atLeast, .both, .either, .less, .greater,
    .bang, .plus, .minus, .dot, .comma, .openBracket, .closeBracket, .openParen, .closeParen]

inductive Token where
  | name (word : String)
  | str (content : String)
  | int (number : Int64)
  | float (number : Float)
  | symbol (symbol : Symbol)

structure Lexeme where
  token : Token
  offset : Nat

def afterText? : List Char → List Char → Option (List Char)
  | [], chars => some chars
  | _ :: _, [] => none
  | wanted :: more, char :: rest => if wanted = char then afterText? more rest else none

def readSymbol? (chars : List Char) : Option (Symbol × List Char) :=
  Symbol.all.findSome? fun symbol =>
    (afterText? symbol.text.toList chars).map fun rest => (symbol, rest)

def escaped (mark : Char) : Char :=
  match mark with
  | 'n' => '\n'
  | 't' => '\t'
  | 'r' => '\r'
  | other => other

/-- The content of a string literal after its opening quote, and what follows it. A
backslash that ends the text closes the literal. -/
def readString? (quote : Char) : List Char → Option (List Char × List Char)
  | [] => none
  | char :: rest =>
      if char = quote then some ([], rest)
      else if char = '\\' then
        match rest with
        | [] => some ([], [])
        | mark :: rest =>
            (readString? quote rest).map fun (content, rest) => (escaped mark :: content, rest)
      else (readString? quote rest).map fun (content, rest) => (char :: content, rest)

/-- The whole digits of a number, its decimal places, and what follows. A point that
no digit follows is not part of the number. -/
def splitNumber (chars : List Char) : List Char × List Char × List Char :=
  let whole := chars.takeWhile Decimal.isDigit
  let after := chars.dropWhile Decimal.isDigit
  match after with
  | '.' :: next :: rest =>
      if Decimal.isDigit next then
        (whole, (next :: rest).takeWhile Decimal.isDigit, (next :: rest).dropWhile Decimal.isDigit)
      else (whole, [], after)
  | _ => (whole, [], after)

/-- Whole numbers that fit become integers, all others doubles if these are finite. -/
def numberToken? (whole places : List Char) : Option Token :=
  let number := Decimal.ofDigits whole
  if places.isEmpty && Value.fitsInt number then some (.int (Int64.ofInt number))
  else
    let decimal : Decimal := ⟨false, Decimal.ofDigits (whole ++ places), -(places.length : Int)⟩
    let double := decimal.toDouble
    if (Decimal.Dyadic.ofFloat? double).isSome then some (.float double) else none

def startsName (char : Char) : Bool := Text.isAlphabetic char || char == '_' || char == '$'

def continuesName (char : Char) : Bool :=
  Text.isAlphabetic char || Text.isNumeric char || char == '_' || char == '$'

def readToken (first : Char) (rest : List Char) : Except SyntaxProblem (Token × List Char) :=
  if first = '"' ∨ first = '\'' then
    match readString? first rest with
    | some (content, rest) => .ok (.str (String.ofList content), rest)
    | none => .error .unterminatedString
  else if Decimal.isDigit first then
    let (whole, places, rest) := splitNumber (first :: rest)
    match numberToken? whole places with
    | some token => .ok (token, rest)
    | none =>
        .error (.invalidNumber (String.ofList
          (if places.isEmpty then whole else whole ++ '.' :: places)))
  else if startsName first then
    let word := String.ofList (first :: rest.takeWhile continuesName)
    .ok (.name word, rest.dropWhile continuesName)
  else
    match readSymbol? (first :: rest) with
    | some (symbol, rest) => .ok (.symbol symbol, rest)
    | none => .error (.unexpectedCharacter first)

def lexFrom : Nat → Nat → List Char → Except SyntaxError (List Lexeme)
  | _, _, [] => .ok []
  | 0, _, _ :: _ => .ok []
  | fuel + 1, offset, first :: rest =>
      if Text.isBlank first then lexFrom fuel (offset + first.utf8Size) rest
      else
        match readToken first rest with
        | .error problem => .error ⟨problem, offset⟩
        | .ok (token, after) =>
            let size := Text.byteSize (first :: rest) - Text.byteSize after
            (lexFrom fuel (offset + size) after).map (⟨token, offset⟩ :: ·)

def lex (source : String) : Except SyntaxError (List Lexeme) :=
  lexFrom source.toList.length 0 source.toList

end Letterpress.Expr
