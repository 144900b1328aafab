import Letterpress.Json.Reader
import Letterpress.Text.Utf8

/-!
Documents as bytes. A string literal may hold bytes outside all characters, and then
denotes no text; as long as nobody asks for its text the document can still be read.
-/

namespace Letterpress.Json

/-- What stands in a literal for a byte outside all characters: two escapes of low
surrogates, of which one at least stays without its pair, whatever comes before. -/
def strayByte : List Char := ['\\', 'u', 'd', 'c', '0', '0', '\\', 'u', 'd', 'c', '0', '0']

/-- A document's letters as characters, from inside a literal or from outside. Bytes that
are no characters can stand only in literals, and not as the mark of an escape. -/
def spell? : Bool → List (Option Char) → Option (List Char)
  | _, [] => some []
  | false, none :: _ => none
  | false, some char :: rest => (spell? (char == '"') rest).map (char :: ·)
  | true, none :: rest => (spell? true rest).map (strayByte ++ ·)
  | true, some '\\' :: some mark :: rest =>
      (spell? true rest).map fun chars => '\\' :: mark :: chars
  | true, some '\\' :: _ => none
  | true, some char :: rest => (spell? (char != '"') rest).map (char :: ·)

def readBytes? (bytes : ByteArray) : Option Json :=
  match String.fromUTF8? bytes with
  | some text => read? text
  | none => (spell? false (Text.Utf8.letters bytes)).bind fun chars => read? (String.ofList chars)

theorem readBytes?_toUTF8 (text : String) : readBytes? text.toUTF8 = read? text := by
  simp only [readBytes?, Text.Utf8.fromUTF8?_toUTF8]

end Letterpress.Json
