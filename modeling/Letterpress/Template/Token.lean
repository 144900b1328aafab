import Letterpress.Text.Blank

/-!
How the text of a template falls into tokens. A span opens with two braces or with a
brace and a percent sign, and runs to the first matching close on the same line; where
there is none, the opening is text like everything else. `segments` loses nothing: its
sources in order are the template. Tokens drop text that is all blank.
-/

namespace Letterpress.Template

inductive Delimiter where
  | output
  | directive
  deriving DecidableEq, Repr

/-- The character after the opening brace, and before the closing one. -/
def Delimiter.mark : Delimiter → Char
  | .output => '{'
  | .directive => '%'

def Delimiter.closingMark : Delimiter → Char
  | .output => '}'
  | .directive => '%'

inductive Segment where
  | text (chars : List Char)
  | span (delimiter : Delimiter) (inner : List Char)
  deriving DecidableEq, Repr

def Segment.source : Segment → List Char
  | .text chars => chars
  | .span delimiter inner => '{' :: delimiter.mark :: (inner ++ [delimiter.closingMark, '}'])

def isLineBreak (char : Char) : Bool := char == '\n' || char == '\r'

/-- The characters before the first close on this line, and those after it. -/
def splitAtClose? (closingMark : Char) : List Char → Option (List Char × List Char)
  | [] => none
  | [_] => none
  | first :: second :: rest =>
      if first = closingMark ∧ second = '}' then some ([], rest)
      else if isLineBreak first then none
      else
        (splitAtClose? closingMark (second :: rest)).map fun (inner, after) =>
          (first :: inner, after)

def spanAtHead? : List Char → Option (Delimiter × List Char × List Char)
  | '{' :: '{' :: rest => (splitAtClose? '}' rest).map fun split => (.output, split)
  | '{' :: '%' :: rest => (splitAtClose? '%' rest).map fun split => (.directive, split)
  | _ => none

def joinText (char : Char) : List Segment → List Segment
  | .text chars :: rest => .text (char :: chars) :: rest
  | rest => .text [char] :: rest

def segmentsWithin : Nat → List Char → List Segment
  | _, [] => []
  | 0, chars => [.text chars]
  | fuel + 1, char :: rest =>
      match spanAtHead? (char :: rest) with
      | some (delimiter, inner, after) => .span delimiter inner :: segmentsWithin fuel after
      | none => joinText char (segmentsWithin fuel rest)

def segments (chars : List Char) : List Segment := segmentsWithin chars.length chars

inductive TokenKind where
  | text (content : String)
  | output (expression : String)
  | directive (keyword arguments : String)
  deriving DecidableEq, Repr

/-- A token with its text as it stands in the template, and the offset of that text. -/
structure Token where
  kind : TokenKind
  raw : String
  offset : Nat
  deriving DecidableEq, Repr

def Token.stop (token : Token) : Nat := token.offset + token.raw.utf8ByteSize

def Segment.kind : Segment → TokenKind
  | .text chars => .text (String.ofList chars)
  | .span .output inner => .output (String.ofList (Text.trim inner))
  | .span .directive inner =>
      let (keyword, arguments) := Text.cutAtBlank (Text.trim inner)
      .directive (String.ofList keyword) (String.ofList (Text.trim arguments))

def Segment.isBlank : Segment → Bool
  | .text chars => chars.all Text.isBlank
  | .span _ _ => false

def tokensFrom (offset : Nat) : List Segment → List Token
  | [] => []
  | segment :: rest =>
      let later := tokensFrom (offset + Text.byteSize segment.source) rest
      if segment.isBlank then later
      else ⟨segment.kind, String.ofList segment.source, offset⟩ :: later

def tokenize (source : String) : List Token := tokensFrom 0 (segments source.toList)

end Letterpress.Template
