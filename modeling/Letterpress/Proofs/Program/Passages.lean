import Letterpress.Proofs.Template.Flattening

/-!
Templates that have no program. What has to be read before there is code are the passages of
a template: the expressions that it shows, the tests of its conditions and the headers of its
loops. They are taken in the order of the page, a test or header before what it governs, both
branches of a condition one after the other. There is a program exactly if all of them parse,
and otherwise the first that does not is reported, under the name of the file it stands in.
Parts of the files that are not shown are not read, so nothing in them can be reported.
-/

namespace Letterpress

inductive Phrasing where
  | expression
  | header

/-- A text that is read when code is generated, with the file that it stands in and the
offset of its token there. -/
structure Passage where
  phrasing : Phrasing
  owner : String
  source : String
  offset : Nat

namespace Passage

def problem? (passage : Passage) : Option SyntaxError :=
  match passage.phrasing with
  | .expression => failure? (Expr.parse passage.source)
  | .header => failure? (LoopHeader.parse passage.source)

def report (passage : Passage) (problem : SyntaxError) : TemplateError :=
  .expression passage.owner problem passage.offset

def error? (passage : Passage) : Option TemplateError := passage.problem?.map passage.report

end Passage

mutual

def Node.passages (owner : String) : Node → List Passage
  | .text _ => []
  | .output source offset => [⟨.expression, owner, source, offset⟩]
  | .block _ body => passagesOf owner body
  | .ifThen test offset yes => ⟨.expression, owner, test, offset⟩ :: passagesOf owner yes
  | .ifElse test offset yes no =>
      ⟨.expression, owner, test, offset⟩ :: (passagesOf owner yes ++ passagesOf owner no)
  | .loop header offset body => ⟨.header, owner, header, offset⟩ :: passagesOf owner body

def passagesOf (owner : String) : List Node → List Passage
  | [] => []
  | node :: rest => node.passages owner ++ passagesOf owner rest

end

def Template.passages (template : Template) : List Passage :=
  template.flattened.flatMap fun owned => owned.node.passages owned.owner

section Failures

variable {owner : String}

theorem expression_failure (owner source : String) (offset : Nat) :
    failure? (expressionCode owner source offset) =
      Passage.error? ⟨.expression, owner, source, offset⟩ := by
  rw [expressionCode, Passage.error?, Passage.problem?]
  cases Expr.parse source <;> rfl

theorem header_failure (owner source : String) (offset : Nat) :
    failure? (loopHeader owner source offset) =
      Passage.error? ⟨.header, owner, source, offset⟩ := failure_mapError _ _

theorem first_error_cons (passage : Passage) (rest : List Passage) :
    (passage :: rest).findSome? Passage.error? =
      passage.error?.or (rest.findSome? Passage.error?) := by
  rw [List.findSome?_cons]
  cases passage.error? <;> rfl

mutual

/-- Wherever its instructions are placed, a node fails with the error of its first passage
that has one. -/
theorem node_failure (node : Node) (start : Nat) :
    failure? (node.emitAt owner start) = (node.passages owner).findSome? Passage.error? := by
  cases node with
  | text content => rfl
  | output source offset =>
      rw [Node.emitAt, failure_return, expression_failure, Node.passages, first_error_cons]
      exact Option.or_none.symm
  | block name body =>
      rw [Node.emitAt, Node.passages]
      exact nodes_failure body start
  | ifThen test offset yes =>
      rw [Node.emitAt, Node.passages, first_error_cons, ← expression_failure]
      apply failure_bind
      intro code
      rw [failure_return]
      exact nodes_failure yes _
  | ifElse test offset yes no =>
      rw [Node.emitAt, Node.passages, first_error_cons, ← expression_failure,
        List.findSome?_append]
      apply failure_bind
      intro code
      rw [← nodes_failure yes (start + 1)]
      apply failure_bind
      intro first
      rw [failure_return]
      exact nodes_failure no _
  | loop header offset body =>
      rw [Node.emitAt, Node.passages, first_error_cons, ← header_failure]
      apply failure_bind
      intro parsed
      rw [failure_return]
      exact nodes_failure body _

theorem nodes_failure (nodes : List Node) (start : Nat) :
    failure? (emitAllAt owner start nodes) =
      (passagesOf owner nodes).findSome? Passage.error? := by
  cases nodes with
  | nil => rfl
  | cons node rest =>
      rw [emitAllAt, passagesOf, List.findSome?_append, ← node_failure node start]
      apply failure_bind
      intro first
      rw [failure_return]
      exact nodes_failure rest _

end

theorem owned_failure (nodes : List OwnedNode) (start : Nat) :
    failure? (emitOwnedAt start nodes) =
      (nodes.flatMap fun owned => owned.node.passages owned.owner).findSome?
        Passage.error? := by
  induction nodes generalizing start with
  | nil => rfl
  | cons owned rest later =>
      rw [emitOwnedAt, List.flatMap_cons, List.findSome?_append, ← node_failure owned.node start]
      apply failure_bind
      intro first
      rw [failure_return]
      exact later _

/-- A template fails with the error of its first passage that has one. -/
theorem generate_failure (template : Template) (now : Instant) :
    failure? (template.generate now) = template.passages.findSome? Passage.error? := by
  rw [Template.generate, failure_return, emit_resolved]
  exact owned_failure template.flattened 0

end Failures

section Pruning

def Layer.hasBlock (layer : Layer) (name : String) : Bool := !(layer.bodies name).isEmpty

def Layer.shownPart (layer outermost : Layer) (nearer : List Layer) : Layer where
  name := layer.name
  nodes := outermost.blocks.filterMap fun block =>
    if nearer.any (·.hasBlock block.1) then none
    else (layer.bodies block.1).getLast?.map (.block block.1)

def shownParts (outermost : Layer) (nearer : List Layer) : List Layer → List Layer
  | [] => []
  | layer :: further =>
      layer.shownPart outermost nearer :: shownParts outermost (layer :: nearer) further

def Layer.unreplaced (inner : List Layer) (outermost : Layer) : Layer where
  name := outermost.name
  nodes := outermost.nodes.map fun node =>
    match node with
    | .block name body => .block name (if inner.any (·.hasBlock name) then [] else body)
    | other => other

/-- A template without what it does not show: loose content and unused blocks of the layers
inside the outermost one, and all blocks that others replace. -/
def Template.pruned (template : Template) : Template :=
  let outermost := template.outermost.unreplaced template.inner
  match shownParts template.outermost [] template.inner with
  | [] => ⟨outermost, []⟩
  | page :: more => ⟨page, more ++ [outermost]⟩

theorem no_nearest_iff (name : String) (layers : List Layer) :
    nearestBody? name layers = none ↔ layers.any (·.hasBlock name) = false := by
  induction layers with
  | nil => simp [nearestBody?]
  | cons layer further later =>
      rw [nearestBody?, List.any_cons, Bool.or_eq_false_iff, Layer.hasBlock]
      cases bodies : layer.bodies name with
      | nil => simpa using later
      | cons body others => simp [List.getLast?_cons]

theorem blocks_named {layer : Layer} {name : String} {body : List Node}
    (member : .block name body ∈ layer.nodes) : name ∈ layer.blocks.map Prod.fst := by
  have listed : (name, body) ∈ layer.blocks := List.mem_filterMap.mpr ⟨_, member, rfl⟩
  exact List.mem_map_of_mem listed

/-- A block is shown of a layer if the outermost one has its name, no layer further inside
does, and no later block of the layer does. -/
theorem shown_body_iff {layer outermost : Layer} {nearer : List Layer} {name : String}
    {body : List Node} :
    body ∈ (layer.shownPart outermost nearer).bodies name ↔
      name ∈ outermost.blocks.map Prod.fst ∧ nearer.any (·.hasBlock name) = false ∧
        (layer.bodies name).getLast? = some body := by
  rw [mem_bodies, Layer.shownPart, List.mem_filterMap]
  constructor
  · rintro ⟨block, member, found⟩
    split at found
    · cases found
    · next unreplaced =>
        obtain ⟨last, is_last, same⟩ := Option.map_eq_some_iff.mp found
        cases same
        exact ⟨List.mem_map_of_mem member, Bool.eq_false_iff.mpr unreplaced, is_last⟩
  · rintro ⟨wanted, unreplaced, is_last⟩
    obtain ⟨block, member, rfl⟩ := List.mem_map.mp wanted
    exact ⟨block, member, by simp [unreplaced, is_last]⟩

/-- Under the names that are looked for, what is shown of a layer has the same last block. -/
theorem last_shown_body {layer outermost : Layer} {nearer : List Layer} {name : String}
    (wanted : name ∈ outermost.blocks.map Prod.fst)
    (unreplaced : nearer.any (·.hasBlock name) = false) :
    ((layer.shownPart outermost nearer).bodies name).getLast? =
      (layer.bodies name).getLast? := by
  cases shown : ((layer.shownPart outermost nearer).bodies name).getLast? with
  | some body => exact (shown_body_iff.mp (List.mem_of_getLast? shown)).2.2.symm
  | none =>
      cases is_last : (layer.bodies name).getLast? with
      | none => rfl
      | some body =>
          have member := shown_body_iff.mpr ⟨wanted, unreplaced, is_last⟩
          rw [List.getLast?_eq_none_iff.mp shown] at member
          cases member

theorem nearest_shown {outermost : Layer} {name : String}
    (wanted : name ∈ outermost.blocks.map Prod.fst) (inner : List Layer) {nearer : List Layer}
    (unreplaced : nearer.any (·.hasBlock name) = false) :
    nearestBody? name (shownParts outermost nearer inner) = nearestBody? name inner := by
  induction inner generalizing nearer with
  | nil => rfl
  | cons layer further later =>
      rw [shownParts, nearestBody?, nearestBody?, last_shown_body wanted unreplaced]
      cases bodies : (layer.bodies name).getLast? with
      | some body => rfl
      | none =>
          apply later
          rw [List.any_cons, unreplaced, Layer.hasBlock, List.getLast?_eq_none_iff.mp bodies]
          rfl

theorem shown_parts_names (outermost : Layer) (nearer inner : List Layer) :
    (shownParts outermost nearer inner).map Layer.name = inner.map Layer.name := by
  induction inner generalizing nearer with
  | nil => rfl
  | cons layer further later =>
      rw [shownParts, List.map_cons, List.map_cons, later]
      rfl

theorem pruned_layers (template : Template) :
    template.pruned.inner = shownParts template.outermost [] template.inner ∧
      template.pruned.outermost = template.outermost.unreplaced template.inner := by
  rw [Template.pruned]
  split
  · next alone => rw [alone]; exact ⟨rfl, rfl⟩
  · next page more layers =>
      rw [layers]
      constructor
      · rw [Template.inner, ← List.cons_append, List.dropLast_concat]
      · rw [Template.outermost, List.getLast?_concat, Option.getD_some]

theorem layers_split (template : Template) :
    template.page :: template.ancestors = template.inner ++ [template.outermost] := by
  have last : (template.page :: template.ancestors).getLast? = some template.outermost :=
    List.getLast?_cons
  obtain ⟨inner, layers⟩ := List.getLast?_eq_some_iff.mp last
  rw [Template.inner, layers, List.dropLast_concat]

theorem pruned_names (template : Template) : template.pruned.chain = template.chain := by
  obtain ⟨inner, outermost⟩ := pruned_layers template
  have pruned_split := congrArg (List.map Layer.name) (layers_split template.pruned)
  have split := congrArg (List.map Layer.name) (layers_split template)
  rw [inner, outermost, List.map_append, shown_parts_names] at pruned_split
  rw [List.map_append] at split
  exact pruned_split.trans split.symm

theorem pruned_flattened (template : Template) :
    template.pruned.flattened = template.flattened := by
  obtain ⟨inner, outermost⟩ := pruned_layers template
  rw [Template.flattened, Template.flattened, inner, outermost, Layer.unreplaced,
    List.flatMap_map]
  rw [List.flatMap_def, List.flatMap_def]
  apply congrArg List.flatten
  apply List.map_congr_left
  intro node member
  cases node with
  | block name body =>
      have shown : nearestBody? name (shownParts template.outermost [] template.inner) =
          nearestBody? name template.inner := nearest_shown (blocks_named member) _ rfl
      simp only [standIns, shown]
      cases nearest : nearestBody? name template.inner with
      | some nearer => rfl
      | none => rw [(no_nearest_iff name template.inner).mp nearest]; rfl
  | text | output | ifThen | ifElse | loop => rfl

theorem generate_pruned (template : Template) (now : Instant) :
    template.pruned.generate now = template.generate now := by
  have names := pruned_names template
  have page : template.pruned.page.name = template.page.name := List.head_eq_of_cons_eq names
  rw [Template.generate, Template.generate, emit_resolved, emit_resolved, pruned_flattened,
    names, page]

end Pruning

/-- There is a program exactly if all passages of what the template shows parse. If one does
not, the first of them is reported, with the name of the file it stands in. What a template
does not show has no part in that: without it the outcome is the same. -/
theorem generate_fails_at_first_passage (template : Template) (now : Instant) :
    ((∃ program, template.generate now = .ok program) ↔
      ∀ passage ∈ template.passages, passage.problem? = none) ∧
    (∀ error, template.generate now = .error error ↔
      ∃ before passage after problem, template.passages = before ++ passage :: after ∧
        (∀ earlier ∈ before, earlier.problem? = none) ∧ passage.problem? = some problem ∧
        error = .expression passage.owner problem passage.offset) ∧
    template.pruned.generate now = template.generate now := by
  refine ⟨?_, fun error => ?_, generate_pruned template now⟩
  · rw [← failure_eq_none, generate_failure, List.findSome?_eq_none_iff]
    simp only [Passage.error?, Option.map_eq_none_iff]
  · rw [← failure_eq_some, generate_failure, List.findSome?_eq_some_iff]
    simp only [Passage.error?, Option.map_eq_none_iff, Option.map_eq_some_iff]
    constructor
    · rintro ⟨before, passage, after, layout, ⟨problem, wrong, rfl⟩, parsed⟩
      exact ⟨before, passage, after, problem, layout, parsed, wrong, rfl⟩
    · rintro ⟨before, passage, after, problem, layout, parsed, wrong, rfl⟩
      exact ⟨before, passage, after, layout, ⟨problem, wrong, rfl⟩, parsed⟩

/-- Of a page with loose content, a block that its base has, and one that it does not. -/
example : Template.passages
    ⟨⟨"page", [.output "a ==" 0,
        .block "body" [.ifElse "x" 30 [.output "y" 40] [.loop "z of" 60 [.output "z" 75]]],
        .block "notes" [.output "(" 120]]⟩,
      [⟨"base", [.block "body" [.output "- -" 15], .output "n" 90]⟩]⟩ =
    [⟨.expression, "page", "x", 30⟩, ⟨.expression, "page", "y", 40⟩, ⟨.header, "page", "z of", 60⟩,
      ⟨.expression, "page", "z", 75⟩, ⟨.expression, "base", "n", 90⟩] := rfl

end Letterpress
