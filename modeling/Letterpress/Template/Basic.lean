/-!
Templates as trees. One file is a `Layer`; a template is the layer of its own file with
the layers that it extends, the nearest first. Expressions are kept as text with the
offset of their token, and are read when code is generated.
-/

namespace Letterpress

inductive Node where
  | text (content : String)
  | output (expression : String) (offset : Nat)
  | block (name : String) (body : List Node)
  | ifThen (test : String) (offset : Nat) (yes : List Node)
  | ifElse (test : String) (offset : Nat) (yes no : List Node)
  | loop (header : String) (offset : Nat) (body : List Node)

structure Layer where
  name : String
  nodes : List Node

structure Template where
  page : Layer
  ancestors : List Layer

/-- The names of the template and of everything it extends, nearest first. -/
def Template.chain (template : Template) : List String :=
  template.page.name :: template.ancestors.map Layer.name

def Layer.blocks (layer : Layer) : List (String × List Node) :=
  layer.nodes.filterMap fun node =>
    match node with
    | .block name body => some (name, body)
    | _ => none

end Letterpress
