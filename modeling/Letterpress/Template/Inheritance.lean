import Letterpress.Template.Basic

/-!
What a template with ancestors shows: the nodes of the outermost ancestor, with blocks
at its top replaced by the blocks of the same name that nearer layers have at theirs.
The rest of what a nearer layer says is not shown.
-/

namespace Letterpress

structure OwnedNode where
  owner : String
  node : Node

namespace Layer

/-- The body of the last block at the top of a layer under a name. -/
def lastBlock? (layer : Layer) (name : String) : Option (List Node) :=
  (layer.blocks.reverse.find? fun block => block.1 == name).map Prod.snd

/-- Replaces a block by the one that the layer has under the same name. -/
def override (layer : Layer) (owned : OwnedNode) : OwnedNode :=
  match owned.node with
  | .block name _ =>
      match layer.lastBlock? name with
      | some body => ⟨layer.name, .block name body⟩
      | none => owned
  | _ => owned

def resolve (layer : Layer) : List Layer → List OwnedNode
  | [] => layer.nodes.map (OwnedNode.mk layer.name)
  | parent :: more => (parent.resolve more).map layer.override

end Layer

def Template.resolve (template : Template) : List OwnedNode :=
  template.page.resolve template.ancestors

end Letterpress
