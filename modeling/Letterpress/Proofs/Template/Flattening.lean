import Letterpress.Program.Generation
import Letterpress.Proofs.Outcome

/-!
What a chain of templates shows is what one flat list of nodes shows: the nodes of the
outermost layer, in which each block at the top gives way to the nodes of the nearest
layer that has a block of its name. Blocks are found here by their names alone; that
replacements are replaced again on the way in is a matter of `Layer.resolve`.
-/

namespace Letterpress

/-- The bodies of the blocks at the top of a layer under a name, in the order of the text. -/
def Layer.bodies (layer : Layer) (name : String) : List (List Node) :=
  layer.nodes.filterMap fun node =>
    match node with
    | .block other body => if other = name then some body else none
    | _ => none

/-- What the nearest of the layers that has a block under a name puts there: the last of
its blocks, with the name of the layer. -/
def nearestBody? (name : String) : List Layer → Option (String × List Node)
  | [] => none
  | layer :: further =>
      match (layer.bodies name).getLast? with
      | some body => some (layer.name, body)
      | none => nearestBody? name further

/-- The nodes that a node of the outermost layer gives way to. -/
def standIns (nearer : List Layer) (owner : String) (node : Node) : List OwnedNode :=
  match node with
  | .block name body =>
      let (owner, shown) := (nearestBody? name nearer).getD (owner, body)
      shown.map (OwnedNode.mk owner)
  | other => [⟨owner, other⟩]

namespace Template

def outermost (template : Template) : Layer :=
  template.ancestors.getLast?.getD template.page

def inner (template : Template) : List Layer := (template.page :: template.ancestors).dropLast

def flattened (template : Template) : List OwnedNode :=
  template.outermost.nodes.flatMap (standIns template.inner template.outermost.name)

end Template

theorem mem_bodies {layer : Layer} {name : String} {body : List Node} :
    body ∈ layer.bodies name ↔ .block name body ∈ layer.nodes := by
  rw [Layer.bodies, List.mem_filterMap]
  constructor
  · rintro ⟨node, member, found⟩
    cases node with
    | block other inside =>
        obtain ⟨same, here⟩ := Option.ite_none_right_eq_some.mp found
        cases same
        cases here
        exact member
    | text | output | ifThen | ifElse | loop => cases found
  · intro member
    exact ⟨_, member, if_pos rfl⟩

theorem named_blocks_are_bodies (layer : Layer) (name : String) :
    (layer.blocks.filter fun block => block.1 == name).map Prod.snd = layer.bodies name := by
  rw [Layer.blocks, List.filter_filterMap, List.map_filterMap, Layer.bodies]
  congr 1
  funext node
  cases node with
  | block other body => by_cases same : other = name <;> simp [same, Option.filter]
  | text | output | ifThen | ifElse | loop => rfl

theorem last_block_is_last_body (layer : Layer) (name : String) :
    layer.lastBlock? name = (layer.bodies name).getLast? := by
  rw [Layer.lastBlock?, ← named_blocks_are_bodies, List.getLast?_map, ← List.head?_filter,
    List.filter_reverse, List.head?_reverse]

def shownInside (nearer : List Layer) (owner : String) (node : Node) : OwnedNode :=
  match node with
  | .block name body =>
      let (owner, shown) := (nearestBody? name nearer).getD (owner, body)
      ⟨owner, .block name shown⟩
  | other => ⟨owner, other⟩

theorem override_shown_inside (layer : Layer) (nearer : List Layer) (owner : String)
    (node : Node) :
    layer.override (shownInside nearer owner node) = shownInside (layer :: nearer) owner node := by
  cases node with
  | block name body =>
      simp only [shownInside, Layer.override, nearestBody?, last_block_is_last_body]
      cases (layer.bodies name).getLast? <;> rfl
  | text | output | ifThen | ifElse | loop => rfl

theorem shown_inside_nothing (owner : String) (node : Node) :
    shownInside [] owner node = ⟨owner, node⟩ := by
  cases node <;> rfl

theorem outermost_of_parent (layer parent : Layer) (more : List Layer) :
    (Template.mk layer (parent :: more)).outermost = (Template.mk parent more).outermost := by
  simp only [Template.outermost, List.getLast?_cons, Option.getD_some]

theorem resolve_eq_map_shown (layer : Layer) (ancestors : List Layer) :
    layer.resolve ancestors =
      (Template.mk layer ancestors).outermost.nodes.map
        (shownInside (Template.mk layer ancestors).inner
          (Template.mk layer ancestors).outermost.name) := by
  induction ancestors generalizing layer with
  | nil =>
      apply List.map_congr_left
      intro node _
      exact (shown_inside_nothing layer.name node).symm
  | cons parent more resolved =>
      rw [Layer.resolve, resolved parent, List.map_map, outermost_of_parent]
      apply List.map_congr_left
      intro node _
      exact override_shown_inside layer _ _ node

theorem emit_owned_by (owner : String) (nodes : List Node) (rest : List OwnedNode)
    (start : Nat) :
    emitOwnedAt start (nodes.map (OwnedNode.mk owner) ++ rest) = (do
      let first ← emitAllAt owner start nodes
      let others ← emitOwnedAt (start + first.length) rest
      return first ++ others) := by
  induction nodes generalizing start with
  | nil =>
      simp only [List.map_nil, List.nil_append, emitAllAt, bind, Except.bind, pure, Except.pure,
        List.length_nil, Nat.add_zero]
      cases emitOwnedAt start rest <;> rfl
  | cons node nodes emitted =>
      simp only [List.map_cons, List.cons_append, emitOwnedAt, emitAllAt, emitted, bind,
        Except.bind, pure, Except.pure]
      cases node.emitAt owner start with
      | error error => rfl
      | ok first =>
          dsimp only
          cases emitAllAt owner (start + first.length) nodes with
          | error error => rfl
          | ok others =>
              simp only [List.length_append, Nat.add_assoc]
              cases emitOwnedAt (start + (first.length + others.length)) rest <;> simp

theorem emit_stand_ins (nearer : List Layer) (owner : String) (node : Node)
    (rest : List OwnedNode) (start : Nat) :
    emitOwnedAt start (shownInside nearer owner node :: rest) =
      emitOwnedAt start (standIns nearer owner node ++ rest) := by
  cases node with
  | block name body => exact (emit_owned_by _ _ rest start).symm
  | text | output | ifThen | ifElse | loop => rfl

theorem emit_behind (front : List OwnedNode) {back other : List OwnedNode}
    (same : ∀ start, emitOwnedAt start back = emitOwnedAt start other) (start : Nat) :
    emitOwnedAt start (front ++ back) = emitOwnedAt start (front ++ other) := by
  induction front generalizing start with
  | nil => exact same start
  | cons owned front emitted => simp only [List.cons_append, emitOwnedAt, emitted]

theorem emit_flat_map_stand_ins (nearer : List Layer) (owner : String) (nodes : List Node)
    (start : Nat) :
    emitOwnedAt start (nodes.map (shownInside nearer owner)) =
      emitOwnedAt start (nodes.flatMap (standIns nearer owner)) := by
  induction nodes generalizing start with
  | nil => rfl
  | cons node nodes emitted =>
      rw [List.map_cons, List.flatMap_cons, emit_stand_ins]
      exact emit_behind _ emitted start

theorem emit_resolved (template : Template) :
    emitOwnedAt 0 template.resolve = emitOwnedAt 0 template.flattened := by
  rw [Template.resolve, resolve_eq_map_shown, emit_flat_map_stand_ins]
  rfl

/-- Generating code for a chain of templates, of any length, generates the code of its
flat list, or fails as that does. -/
theorem generate_emits_flattened (template : Template) (now : Instant) :
    (template.generate now).map Program.instructions = emitOwnedAt 0 template.flattened := by
  rw [Template.generate, emit_resolved]
  cases emitOwnedAt 0 template.flattened <;> rfl

/-- All that counts of the inner layers is which bodies they give to the blocks at the
top of the outermost one. -/
theorem flattened_congr {template other : Template}
    (sameOutermost : other.outermost = template.outermost)
    (sameBodies : ∀ name body, .block name body ∈ template.outermost.nodes →
      nearestBody? name other.inner = nearestBody? name template.inner) :
    other.flattened = template.flattened := by
  rw [Template.flattened, Template.flattened, sameOutermost]
  rw [List.flatMap_def, List.flatMap_def]
  apply congrArg List.flatten
  apply List.map_congr_left
  intro node member
  cases node with
  | block name body => simp only [standIns, sameBodies name body member]
  | text | output | ifThen | ifElse | loop => rfl

end Letterpress
