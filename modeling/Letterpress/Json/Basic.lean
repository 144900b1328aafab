import Letterpress.Decimal.Text

/-!
JSON documents as syntax trees. Numbers and strings are held as they are written,
with their digits and escapes, so that a document can be well formed although some
literal in it denotes no number in range or no text. What a literal denotes is asked
by whoever needs it.
-/

namespace Letterpress

/-- A number as written: sign, whole digits, the digits after a point (none means no
point), and an exponent with its sign. -/
structure Numeral where
  negative : Bool
  whole : List Char
  places : List Char
  power : Option (Bool × List Char)
  deriving DecidableEq, Repr

inductive Json where
  | null
  | bool (value : Bool)
  | number (numeral : Numeral)
  | string (literal : List Char)
  | array (items : List Json)
  | object (members : List (List Char × Json))
  deriving Inhabited

namespace Numeral

def ofNat (number : Nat) : Numeral := ⟨false, Decimal.digitsOf number, [], none⟩

def ofInt (number : Int) : Numeral := ⟨number < 0, Decimal.digitsOf number.natAbs, [], none⟩

def isWhole (numeral : Numeral) : Bool := numeral.places.isEmpty && numeral.power.isNone

def magnitude (numeral : Numeral) : Nat := Decimal.ofDigits numeral.whole

/-- Floating point numbers are written with the digits of the decimal, always
with a point or an exponent: in place from `1e-5` up to below `1e16`, otherwise with
one digit before the point and a signed exponent. -/
def ofDecimal (decimal : Decimal) : Numeral :=
  let digits := Decimal.digitsOf decimal.digits
  let leading : Int := decimal.exponent + digits.length - 1
  if decimal.digits == 0 then ⟨decimal.negative, ['0'], ['0'], none⟩
  else if leading < -5 || 16 ≤ leading then
    ⟨decimal.negative, digits.take 1, digits.drop 1,
      some (leading < 0, Decimal.digitsOf leading.natAbs)⟩
  else if leading < 0 then
    ⟨decimal.negative, ['0'], List.replicate (leading.natAbs - 1) '0' ++ digits, none⟩
  else
    let wholeCount := leading.toNat + 1
    let padded := digits ++ List.replicate (wholeCount - digits.length) '0'
    let places := padded.drop wholeCount
    ⟨decimal.negative, padded.take wholeCount, if places.isEmpty then ['0'] else places, none⟩

end Numeral

namespace Json

def hexDigit (value : Nat) : Char :=
  if value < 10 then Char.ofNat ('0'.toNat + value) else Char.ofNat ('a'.toNat + (value - 10))

def hexValue? (char : Char) : Option Nat :=
  if '0' ≤ char && char ≤ '9' then some (char.toNat - '0'.toNat)
  else if 'a' ≤ char && char ≤ 'f' then some (char.toNat - 'a'.toNat + 10)
  else if 'A' ≤ char && char ≤ 'F' then some (char.toNat - 'A'.toNat + 10)
  else none

/-- Quotes, backslashes and the characters below the space are escaped, all others
stand for themselves. -/
def escapeChar (char : Char) : List Char :=
  if char = '"' then ['\\', '"']
  else if char = '\\' then ['\\', '\\']
  else if char = '\x08' then ['\\', 'b']
  else if char = '\x0c' then ['\\', 'f']
  else if char = '\n' then ['\\', 'n']
  else if char = '\r' then ['\\', 'r']
  else if char = '\t' then ['\\', 't']
  else if char.toNat < 0x20 then
    ['\\', 'u', '0', '0', hexDigit (char.toNat / 16), hexDigit (char.toNat % 16)]
  else [char]

def escape (chars : List Char) : List Char := chars.flatMap escapeChar

def codeUnit? (first second third fourth : Char) : Option Nat := do
  let a ← hexValue? first
  let b ← hexValue? second
  let c ← hexValue? third
  let d ← hexValue? fourth
  return a * 4096 + b * 256 + c * 16 + d

def simpleEscape? (char : Char) : Option Char :=
  match char with
  | '"' => some '"'
  | '\\' => some '\\'
  | '/' => some '/'
  | 'b' => some '\x08'
  | 'f' => some '\x0c'
  | 'n' => some '\n'
  | 'r' => some '\r'
  | 't' => some '\t'
  | _ => none

/-- The characters that a literal denotes. Surrogate code units must come in pairs. -/
def unescape? : List Char → Option (List Char)
  | [] => some []
  | '\\' :: 'u' :: a :: b :: c :: d :: rest =>
      match codeUnit? a b c d with
      | none => none
      | some unit =>
          if 0xD800 ≤ unit && unit < 0xDC00 then
            match rest with
            | '\\' :: 'u' :: e :: f :: g :: h :: rest =>
                match codeUnit? e f g h with
                | none => none
                | some low =>
                    if 0xDC00 ≤ low && low < 0xE000 then
                      (unescape? rest).map
                        (Char.ofNat (0x10000 + (unit - 0xD800) * 0x400 + (low - 0xDC00)) :: ·)
                    else none
            | _ => none
          else if 0xDC00 ≤ unit && unit < 0xE000 then none
          else (unescape? rest).map (Char.ofNat unit :: ·)
  | '\\' :: mark :: rest =>
      match simpleEscape? mark with
      | none => none
      | some char => (unescape? rest).map (char :: ·)
  | char :: rest => if char = '\\' then none else (unescape? rest).map (char :: ·)

def ofText (text : String) : Json := .string (escape text.toList)

def ofNat (number : Nat) : Json := .number (.ofNat number)

def ofMembers (members : List (String × Json)) : Json :=
  .object (members.map fun member => (escape member.1.toList, member.2))

def text? : Json → Option String
  | .string literal => (unescape? literal).map String.ofList
  | _ => none

/-- The members with their names read; nothing if some name denotes no text. -/
def members? : Json → Option (List (String × Json))
  | .object members =>
      members.mapM fun member => (unescape? member.1).map fun name => (String.ofList name, member.2)
  | _ => none

end Letterpress.Json
