import Letterpress.Text.Visible

/-!
Text in double quotes, as listings of errors show it: on one line, with every
character that would not show as itself written by its code point.
-/

namespace Letterpress.Text

def codePointEscape (char : Char) : List Char :=
  ['\\', 'u', '{'] ++ Nat.toDigits 16 char.toNat ++ ['}']

def quoteChar (char : Char) : List Char :=
  if char = '"' then ['\\', '"']
  else if char = '\\' then ['\\', '\\']
  else if char = '\n' then ['\\', 'n']
  else if char = '\r' then ['\\', 'r']
  else if char = '\t' then ['\\', 't']
  else if char.toNat = 0 then ['\\', '0']
  else if isVisible char then [char]
  else codePointEscape char

def quoted (text : String) : String :=
  String.ofList ('"' :: (text.toList.flatMap quoteChar ++ ['"']))

end Letterpress.Text
