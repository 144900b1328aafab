import Letterpress.Json.Basic

/-!
The compact text of a document: no blanks between tokens, members in the order held.
-/

namespace Letterpress

def Numeral.render (numeral : Numeral) : List Char :=
  (if numeral.negative then ['-'] else []) ++ numeral.whole ++
    (if numeral.places.isEmpty then [] else '.' :: numeral.places) ++
    (match numeral.power with
      | none => []
      | some (negative, digits) => 'e' :: (if negative then '-' else '+') :: digits)

namespace Json

mutual

def render : Json → List Char
  | .null => ['n', 'u', 'l', 'l']
  | .bool true => ['t', 'r', 'u', 'e']
  | .bool false => ['f', 'a', 'l', 's', 'e']
  | .number numeral => numeral.render
  | .string literal => '"' :: (literal ++ ['"'])
  | .array items => '[' :: (renderItems items ++ [']'])
  | .object members => '{' :: (renderMembers members ++ ['}'])

def renderItems : List Json → List Char
  | [] => []
  | [item] => render item
  | item :: rest => render item ++ ',' :: renderItems rest

def renderMembers : List (List Char × Json) → List Char
  | [] => []
  | [(name, value)] => '"' :: (name ++ '"' :: ':' :: render value)
  | (name, value) :: rest =>
      '"' :: (name ++ '"' :: ':' :: (render value ++ ',' :: renderMembers rest))

end

def compact (document : Json) : String := String.ofList document.render

end Letterpress.Json
