/-!
Bytes as characters, also where they are no text. A byte that begins no character of
UTF-8 stands by itself.
-/

namespace Letterpress.Text.Utf8

theorem fromUTF8?_toUTF8 (text : String) : String.fromUTF8? text.toUTF8 = some text :=
  dif_pos text.isValidUTF8

def first? (bytes : List UInt8) : Option Char :=
  ByteArray.utf8DecodeChar? ⟨(bytes.take 4).toArray⟩ 0

/-- The characters of a sequence after some of its first bytes; `none` for each byte
outside all characters. -/
def lettersAfter : Nat → List UInt8 → List (Option Char)
  | _, [] => []
  | skipped + 1, _ :: rest => lettersAfter skipped rest
  | 0, byte :: rest =>
      match first? (byte :: rest) with
      | some char => some char :: lettersAfter (char.utf8Size - 1) rest
      | none => none :: lettersAfter 0 rest

def letters (bytes : ByteArray) : List (Option Char) := lettersAfter 0 bytes.data.toList

end Letterpress.Text.Utf8
