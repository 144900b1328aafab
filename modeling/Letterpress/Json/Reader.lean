import Letterpress.Json.Basic

/-!
Reading documents. Every reader takes the characters ahead and answers what it read
with the characters that follow, or nothing. Depth is not limited here, and literals
are not interpreted: a string only has to be closed and free of unknown escapes.
-/

namespace Letterpress

def Numeral.readWhole? (chars : List Char) : Option (List Char × List Char) :=
  match chars with
  | '0' :: rest => some (['0'], rest)
  | _ =>
      let digits := chars.takeWhile Decimal.isDigit
      if digits.isEmpty then none else some (digits, chars.dropWhile Decimal.isDigit)

def Numeral.readDigits? (chars : List Char) : Option (List Char × List Char) :=
  let digits := chars.takeWhile Decimal.isDigit
  if digits.isEmpty then none else some (digits, chars.dropWhile Decimal.isDigit)

def Numeral.readPlaces? (chars : List Char) : Option (List Char × List Char) :=
  match chars with
  | '.' :: rest => readDigits? rest
  | _ => some ([], chars)

def Numeral.readPower? (chars : List Char) : Option (Option (Bool × List Char) × List Char) :=
  match chars with
  | mark :: rest =>
      if mark = 'e' ∨ mark = 'E' then
        match rest with
        | '-' :: rest => (readDigits? rest).map fun (digits, rest) => (some (true, digits), rest)
        | '+' :: rest => (readDigits? rest).map fun (digits, rest) => (some (false, digits), rest)
        | rest => (readDigits? rest).map fun (digits, rest) => (some (false, digits), rest)
      else some (none, chars)
  | [] => some (none, [])

def Numeral.read? (chars : List Char) : Option (Numeral × List Char) := do
  let (negative, chars) := match chars with
    | '-' :: rest => (true, rest)
    | chars => (false, chars)
  let (whole, chars) ← readWhole? chars
  let (places, chars) ← readPlaces? chars
  let (power, chars) ← readPower? chars
  return (⟨negative, whole, places, power⟩, chars)

namespace Json

def isBlank (char : Char) : Bool :=
  char == ' ' || char == '\n' || char == '\t' || char == '\r'

def skipBlanks (chars : List Char) : List Char := chars.dropWhile isBlank

def readLiteral? : List Char → Option (List Char × List Char)
  | [] => none
  | '"' :: rest => some ([], rest)
  | '\\' :: 'u' :: a :: b :: c :: d :: rest =>
      if (codeUnit? a b c d).isSome then
        (readLiteral? rest).map fun (literal, rest) =>
          ('\\' :: 'u' :: a :: b :: c :: d :: literal, rest)
      else none
  | '\\' :: mark :: rest =>
      if (simpleEscape? mark).isSome then
        (readLiteral? rest).map fun (literal, rest) => ('\\' :: mark :: literal, rest)
      else none
  | char :: rest =>
      if char = '\\' ∨ char.toNat < 0x20 then none
      else (readLiteral? rest).map fun (literal, rest) => (char :: literal, rest)

mutual

/-- `fuel` bounds the nesting of these readers; two per character always suffice. -/
def readValue? : Nat → List Char → Option (Json × List Char)
  | 0, _ => none
  | fuel + 1, chars =>
      match skipBlanks chars with
      | 'n' :: 'u' :: 'l' :: 'l' :: rest => some (.null, rest)
      | 't' :: 'r' :: 'u' :: 'e' :: rest => some (.bool true, rest)
      | 'f' :: 'a' :: 'l' :: 's' :: 'e' :: rest => some (.bool false, rest)
      | '"' :: rest => (readLiteral? rest).map fun (literal, rest) => (.string literal, rest)
      | '[' :: rest =>
          match skipBlanks rest with
          | ']' :: rest => some (.array [], rest)
          | rest => (readItems? fuel rest).map fun (items, rest) => (.array items, rest)
      | '{' :: rest =>
          match skipBlanks rest with
          | '}' :: rest => some (.object [], rest)
          | rest => (readMembers? fuel rest).map fun (members, rest) => (.object members, rest)
      | chars => (Numeral.read? chars).map fun (numeral, rest) => (.number numeral, rest)

def readItems? : Nat → List Char → Option (List Json × List Char)
  | 0, _ => none
  | fuel + 1, chars =>
      match readValue? fuel chars with
      | none => none
      | some (item, rest) =>
          match skipBlanks rest with
          | ']' :: rest => some ([item], rest)
          | ',' :: rest => (readItems? fuel rest).map fun (items, rest) => (item :: items, rest)
          | _ => none

def readMembers? : Nat → List Char → Option (List (List Char × Json) × List Char)
  | 0, _ => none
  | fuel + 1, chars =>
      match skipBlanks chars with
      | '"' :: rest =>
          match readLiteral? rest with
          | none => none
          | some (name, rest) =>
              match skipBlanks rest with
              | ':' :: rest =>
                  match readValue? fuel rest with
                  | none => none
                  | some (value, rest) =>
                      match skipBlanks rest with
                      | '}' :: rest => some ([(name, value)], rest)
                      | ',' :: rest =>
                          (readMembers? fuel rest).map fun (members, rest) =>
                            ((name, value) :: members, rest)
                      | _ => none
              | _ => none
      | _ => none

end

def read? (text : String) : Option Json :=
  let chars := text.toList
  match readValue? (2 * chars.length + 2) chars with
  | some (document, rest) => if (skipBlanks rest).isEmpty then some document else none
  | none => none

end Letterpress.Json
