import Letterpress.Template.Library
import Letterpress.Proofs.Template.OnePass
import Mathlib.Data.List.Basic

/-!
Which tokens make up a template. Read from the left, directives open scopes and close
them again, and no scope is open at the end. The tree that is read is the only one that
says what the tokens say, in their order.
-/

namespace Letterpress.Template

inductive ScopeKind where
  | block
  | ifThen
  | ifElse
  | loop
  deriving DecidableEq

/-- The directive that opens a scope. An `else` leaves it with the `if`. -/
def ScopeKind.keyword : ScopeKind → String
  | .block => "block"
  | .ifThen => "if"
  | .ifElse => "if"
  | .loop => "for"

def ScopeKind.closer : ScopeKind → String
  | .block => "endblock"
  | .ifThen => "endif"
  | .ifElse => "endif"
  | .loop => "endfor"

structure Scope where
  kind : ScopeKind
  offset : Nat

def blockName (arguments : String) : String :=
  String.ofList (Text.unquote (Text.firstWord arguments.toList))

def keywords : List String :=
  ["extends", "block", "if", "for", "else", "endif", "endblock", "endfor"]

def Token.Extends (token : Token) : Prop :=
  ∃ arguments, token.kind = .directive "extends" arguments

/-- What a directive opens. It has to say for what. -/
inductive Opens (token : Token) : ScopeKind → Prop
  | block {arguments : String} (directive : token.kind = .directive "block" arguments)
      (named : blockName arguments ≠ "") : Opens token .block
  | ifThen {test : String} (directive : token.kind = .directive "if" test) (asked : test ≠ "") :
      Opens token .ifThen
  | loop {header : String} (directive : token.kind = .directive "for" header)
      (ranged : header ≠ "") : Opens token .loop

/-- What a token makes of the open scopes, the innermost first. -/
inductive Moves (token : Token) : List Scope → List Scope → Prop
  | text {scopes : List Scope} {content : String} (shown : token.kind = .text content) :
      Moves token scopes scopes
  | output {scopes : List Scope} {expression : String} (shown : token.kind = .output expression) :
      Moves token scopes scopes
  | unknown {scopes : List Scope} {keyword arguments : String}
      (directive : token.kind = .directive keyword arguments) (unknown : keyword ∉ keywords) :
      Moves token scopes scopes
  | opens {scopes : List Scope} {kind : ScopeKind} (opening : Opens token kind) :
      Moves token scopes (⟨kind, token.offset⟩ :: scopes)
  | switch {outer : List Scope} {offset : Nat} {arguments : String}
      (directive : token.kind = .directive "else" arguments) :
      Moves token (⟨.ifThen, offset⟩ :: outer) (⟨.ifElse, offset⟩ :: outer)
  | closes {scope : Scope} {outer : List Scope} {arguments : String}
      (directive : token.kind = .directive scope.kind.closer arguments) :
      Moves token (scope :: outer) outer

/-- What is wrong with a token that can make nothing of the open scopes. -/
inductive Offends (token : Token) (scopes : List Scope) : DirectiveProblem → Prop
  | block {arguments : String} (directive : token.kind = .directive "block" arguments)
      (unnamed : blockName arguments = "") : Offends token scopes .blockWithoutName
  | ifThen (directive : token.kind = .directive "if" "") :
      Offends token scopes .ifWithoutCondition
  | loop (directive : token.kind = .directive "for" "") : Offends token scopes .loopWithoutHeader
  | terminator {keyword arguments : String}
      (directive : token.kind = .directive keyword arguments)
      (terminates : keyword ∈ ["else", "endif", "endblock", "endfor"])
      (refused : ∀ scope ∈ scopes.head?, keyword ≠ scope.kind.closer ∧
        ¬ (keyword = "else" ∧ scope.kind = .ifThen)) :
      Offends token scopes (.unexpected keyword)

inductive Nested : List Scope → List Token → List Scope → Prop
  | none {scopes : List Scope} : Nested scopes [] scopes
  | token {scopes next last : List Scope} {token : Token} {rest : List Token}
      (moves : Moves token scopes next) (after : Nested next rest last) :
      Nested scopes (token :: rest) last

def WellNested (tokens : List Token) : Prop := Nested [] tokens []

/-- Why tokens are no template: the first of them that offends, or, where none does, the
innermost of the scopes that are still open at the end. -/
inductive Rejected (name : String) : List Token → TemplateError → Prop
  | offence {front back : List Token} {token : Token} {scopes : List Scope}
      {problem : DirectiveProblem} (nested : Nested [] front scopes)
      (offends : Offends token scopes problem) :
      Rejected name (front ++ token :: back) (.directive name problem token.offset)
  | unclosed {tokens : List Token} {innermost : Scope} {outer : List Scope}
      (nested : Nested [] tokens (innermost :: outer)) :
      Rejected name tokens (.unterminated name innermost.kind.keyword innermost.offset)

/-- What a token says to the tree. -/
inductive Piece where
  | text (content : String)
  | output (expression : String) (offset : Nat)
  | openBlock (name : String)
  | openIf (test : String) (offset : Nat)
  | openLoop (header : String) (offset : Nat)
  | otherwise
  | endBlock
  | endIf
  | endLoop

/-- Unknown directives are text. To extend is to say nothing to the tree. -/
def Token.piece? (token : Token) : Option Piece :=
  match token.kind with
  | .text content => some (.text content)
  | .output expression => some (.output expression token.offset)
  | .directive keyword arguments =>
      if keyword = "extends" then none
      else if keyword = "block" then some (.openBlock (blockName arguments))
      else if keyword = "if" then some (.openIf arguments token.offset)
      else if keyword = "for" then some (.openLoop arguments token.offset)
      else if keyword = "else" then some .otherwise
      else if keyword = "endblock" then some .endBlock
      else if keyword = "endif" then some .endIf
      else if keyword = "endfor" then some .endLoop
      else some (.text token.raw)

mutual

def nodePieces : Node → List Piece
  | .text content => [.text content]
  | .output expression offset => [.output expression offset]
  | .block name body => .openBlock name :: (flatten body ++ [.endBlock])
  | .ifThen test offset yes => .openIf test offset :: (flatten yes ++ [.endIf])
  | .ifElse test offset yes no =>
      .openIf test offset :: (flatten yes ++ .otherwise :: (flatten no ++ [.endIf]))
  | .loop header offset body => .openLoop header offset :: (flatten body ++ [.endLoop])

def flatten : List Node → List Piece
  | [] => []
  | node :: rest => nodePieces node ++ flatten rest

end

theorem flatten_nil : flatten [] = [] := rfl

theorem flatten_append (front back : List Node) :
    flatten (front ++ back) = flatten front ++ flatten back := by
  induction front with
  | nil => rfl
  | cons node front joined => rw [List.cons_append, flatten, flatten, joined, List.append_assoc]

theorem flatten_snoc (nodes : List Node) (node : Node) :
    flatten (node :: nodes).reverse = flatten nodes.reverse ++ nodePieces node := by
  rw [List.reverse_cons, flatten_append, flatten, flatten, List.append_nil]

def Ends : List Piece → Prop
  | [] => True
  | .otherwise :: _ => True
  | .endBlock :: _ => True
  | .endIf :: _ => True
  | .endLoop :: _ => True
  | _ => False

theorem node_ends_nothing (node : Node) (rest : List Piece) : ¬ Ends (nodePieces node ++ rest) := by
  cases node <;> simp [nodePieces, Ends]

mutual

theorem node_unique (node other : Node) (rest rest' : List Piece)
    (same : nodePieces node ++ rest = nodePieces other ++ rest') : node = other ∧ rest = rest' := by
  cases node with
  | text content => cases other <;> simp_all [nodePieces]
  | output expression offset => cases other <;> simp_all [nodePieces]
  | block name body =>
      cases other <;> simp only [nodePieces, List.cons_append, List.append_assoc, List.cons.injEq,
        List.nil_append, reduceCtorEq, false_and, Piece.openBlock.injEq] at same
      next otherName otherBody =>
        obtain ⟨rfl, same⟩ := same
        obtain ⟨rfl, ended⟩ := nodes_unique body otherBody _ _ same trivial trivial
        exact ⟨rfl, (List.cons.inj ended).2⟩
  | ifThen test offset yes =>
      cases other <;> simp only [nodePieces, List.cons_append, List.append_assoc, List.cons.injEq,
        List.nil_append, reduceCtorEq, false_and, Piece.openIf.injEq] at same
      next otherTest otherOffset otherYes =>
        obtain ⟨⟨rfl, rfl⟩, same⟩ := same
        obtain ⟨rfl, ended⟩ := nodes_unique yes otherYes _ _ same trivial trivial
        exact ⟨rfl, (List.cons.inj ended).2⟩
      next otherTest otherOffset otherYes otherNo =>
        obtain ⟨-, ended⟩ := nodes_unique yes otherYes _ _ same.2 trivial trivial
        cases (List.cons.inj ended).1
  | ifElse test offset yes no =>
      cases other <;> simp only [nodePieces, List.cons_append, List.append_assoc, List.cons.injEq,
        List.nil_append, reduceCtorEq, false_and, Piece.openIf.injEq] at same
      next otherTest otherOffset otherYes =>
        obtain ⟨-, ended⟩ := nodes_unique yes otherYes _ _ same.2 trivial trivial
        cases (List.cons.inj ended).1
      next otherTest otherOffset otherYes otherNo =>
        obtain ⟨⟨rfl, rfl⟩, same⟩ := same
        obtain ⟨rfl, ended⟩ := nodes_unique yes otherYes _ _ same trivial trivial
        obtain ⟨rfl, closed⟩ :=
          nodes_unique no otherNo _ _ (List.cons.inj ended).2 trivial trivial
        exact ⟨rfl, (List.cons.inj closed).2⟩
  | loop header offset body =>
      cases other <;> simp only [nodePieces, List.cons_append, List.append_assoc, List.cons.injEq,
        List.nil_append, reduceCtorEq, false_and, Piece.openLoop.injEq] at same
      next otherHeader otherOffset otherBody =>
        obtain ⟨⟨rfl, rfl⟩, same⟩ := same
        obtain ⟨rfl, ended⟩ := nodes_unique body otherBody _ _ same trivial trivial
        exact ⟨rfl, (List.cons.inj ended).2⟩

theorem nodes_unique (nodes others : List Node) (rest rest' : List Piece)
    (same : flatten nodes ++ rest = flatten others ++ rest') (ends : Ends rest)
    (ends' : Ends rest') : nodes = others ∧ rest = rest' := by
  cases nodes with
  | nil =>
      cases others with
      | nil => exact ⟨rfl, same⟩
      | cons other others =>
          rw [flatten, List.nil_append, flatten, List.append_assoc] at same
          exact absurd (same ▸ ends) (node_ends_nothing other _)
  | cons node nodes =>
      cases others with
      | nil =>
          rw [flatten_nil, flatten, List.append_assoc, List.nil_append] at same
          exact absurd (same ▸ ends') (node_ends_nothing node _)
      | cons other others =>
          rw [flatten, flatten, List.append_assoc, List.append_assoc] at same
          obtain ⟨rfl, later⟩ := node_unique node other _ _ same
          obtain ⟨rfl, ended⟩ := nodes_unique nodes others rest rest' later ends ends'
          exact ⟨rfl, ended⟩

end

/-- A tree is known by what it says. -/
theorem flatten_injective {nodes others : List Node} (same : flatten nodes = flatten others) :
    nodes = others :=
  (nodes_unique nodes others [] [] (congrArg (· ++ []) same) trivial trivial).1

def Opening.kind : Opening → ScopeKind
  | .block _ => .block
  | .ifThen _ => .ifThen
  | .ifElse _ _ => .ifElse
  | .loop _ => .loop

theorem keyword_of_kind (opening : Opening) : opening.keyword = opening.kind.keyword := by
  cases opening <;> rfl

theorem closed_by_closer (opening : Opening) (keyword : String) :
    opening.closedBy keyword = (keyword == opening.kind.closer) := by
  cases opening <;> rfl

def Frame.scope (frame : Frame) : Scope := ⟨frame.opening.kind, frame.offset⟩

def Frame.pieces (frame : Frame) : List Piece :=
  flatten frame.outer.reverse ++
    match frame.opening with
    | .block name => [.openBlock name]
    | .ifThen test => [.openIf test frame.offset]
    | .ifElse test yes => .openIf test frame.offset :: (flatten yes ++ [.otherwise])
    | .loop header => [.openLoop header frame.offset]

def ScopeKind.closing : ScopeKind → Piece
  | .block => .endBlock
  | .ifThen => .endIf
  | .ifElse => .endIf
  | .loop => .endLoop

theorem closed_frame_pieces (frame : Frame) (nodes : List Node) :
    flatten (frame.node nodes :: frame.outer).reverse =
      frame.pieces ++ flatten nodes ++ [frame.opening.kind.closing] := by
  rw [flatten_snoc, Frame.pieces, Frame.node]
  cases frame.opening <;> simp [nodePieces, Opening.kind, ScopeKind.closing]

namespace Progress

def scopes (progress : Progress) : List Scope := progress.frames.map Frame.scope

def pieces (progress : Progress) : List Piece :=
  progress.frames.reverse.flatMap Frame.pieces ++ flatten progress.nodes.reverse

theorem add_pieces (progress : Progress) (node : Node) :
    (progress.add node).pieces = progress.pieces ++ nodePieces node := by
  rw [pieces, pieces, add, flatten_snoc, List.append_assoc]

theorem open_pieces (progress : Progress) (opening : Opening) (offset : Nat) (piece : Piece)
    (meaning : (Frame.mk opening offset progress.nodes).pieces =
      flatten progress.nodes.reverse ++ [piece]) :
    (progress.openScope opening offset).pieces = progress.pieces ++ [piece] := by
  simp only [pieces, openScope, List.reverse_cons, List.flatMap_append, List.flatMap_singleton,
    meaning, List.reverse_nil, flatten_nil, List.append_nil, List.append_assoc]

/-- A step that takes a token in: the scopes move, and the token is the next that was read. -/
structure Takes (progress : Progress) (token : Token) (scopes : List Scope)
    (next : Progress) : Prop where
  step : progress.step token = .ok next
  scopes : next.scopes = scopes
  pieces : ∃ piece, token.piece? = some piece ∧ next.pieces = progress.pieces ++ [piece]
  parent : next.parent = progress.parent

theorem takes_text {progress : Progress} {token : Token} {node : Node} {piece : Piece}
    (step : progress.step token = .ok (progress.add node)) (meaning : token.piece? = some piece)
    (written : nodePieces node = [piece]) :
    progress.Takes token progress.scopes (progress.add node) :=
  ⟨step, rfl, ⟨piece, meaning, by rw [add_pieces, written]⟩, rfl⟩

theorem takes_opening {progress : Progress} {token : Token} {opening : Opening} {piece : Piece}
    (step : progress.step token = .ok (progress.openScope opening token.offset))
    (meaning : token.piece? = some piece)
    (written : (Frame.mk opening token.offset progress.nodes).pieces =
      flatten progress.nodes.reverse ++ [piece]) :
    progress.Takes token (⟨opening.kind, token.offset⟩ :: progress.scopes)
      (progress.openScope opening token.offset) :=
  ⟨step, rfl, ⟨piece, meaning, open_pieces progress opening token.offset piece written⟩, rfl⟩

theorem takes_opens {progress : Progress} {token : Token} {kind : ScopeKind}
    (opening : Opens token kind) :
    ∃ next, progress.Takes token (⟨kind, token.offset⟩ :: progress.scopes) next := by
  cases opening with
  | @block arguments directive named =>
      have step : progress.step token =
          .ok (progress.openScope (.block (blockName arguments)) token.offset) := by
        have shown : (blockName arguments).isEmpty = false := by simpa using named
        simp only [blockName] at shown
        simp [Progress.step, directive, terminators, openBlock, shown, blockName]
      exact ⟨_, takes_opening step (by simp [Token.piece?, directive]) rfl⟩
  | @ifThen test directive asked =>
      have step : progress.step token = .ok (progress.openScope (.ifThen test) token.offset) := by
        simp [Progress.step, directive, terminators, openIf, asked]
      exact ⟨_, takes_opening step (by simp [Token.piece?, directive]) rfl⟩
  | @loop header directive ranged =>
      have step : progress.step token = .ok (progress.openScope (.loop header) token.offset) := by
        simp [Progress.step, directive, terminators, openLoop, ranged]
      exact ⟨_, takes_opening step (by simp [Token.piece?, directive]) rfl⟩

theorem step_terminator {progress : Progress} {token : Token} {keyword arguments : String}
    (directive : token.kind = .directive keyword arguments) (terminates : keyword ∈ terminators) :
    progress.step token = progress.terminate keyword token.offset := by
  simp only [Progress.step, directive, if_pos terminates]

theorem takes_close {progress : Progress} {token : Token} {scope : Scope} {outer : List Scope}
    {arguments : String} (innermost : progress.scopes = scope :: outer)
    (directive : token.kind = .directive scope.kind.closer arguments) :
    ∃ next, progress.Takes token outer next := by
  obtain ⟨frame, frames, held, rfl, rfl⟩ := List.map_eq_cons_iff.mp innermost
  have terminates : frame.scope.kind.closer ∈ terminators := by
    cases frame.scope.kind <;> decide
  have meaning : token.piece? = some frame.opening.kind.closing := by
    rw [Token.piece?, directive]
    cases kind : frame.opening.kind <;>
      simp [Frame.scope, kind, ScopeKind.closer, ScopeKind.closing]
  refine ⟨⟨frame.node progress.nodes.reverse :: frame.outer, frames, progress.parent⟩, ?_, rfl,
    ⟨_, meaning, ?_⟩, rfl⟩
  · rw [step_terminator directive terminates, terminate, held]
    simp only [closed_by_closer, Frame.scope, beq_self_eq_true, if_true]
  · rw [pieces, closed_frame_pieces, pieces, held]
    simp

theorem takes_switch {progress : Progress} {token : Token} {outer : List Scope} {offset : Nat}
    {arguments : String} (innermost : progress.scopes = ⟨.ifThen, offset⟩ :: outer)
    (directive : token.kind = .directive "else" arguments) :
    ∃ next, progress.Takes token (⟨.ifElse, offset⟩ :: outer) next := by
  obtain ⟨⟨opening, offset, before⟩, frames, held, scope, rfl⟩ := List.map_eq_cons_iff.mp innermost
  obtain ⟨kind, rfl⟩ := Scope.mk.inj scope
  cases opening with
  | ifThen test =>
      refine ⟨⟨[], ⟨.ifElse test progress.nodes.reverse, offset, before⟩ :: frames,
        progress.parent⟩, ?_, rfl, ⟨.otherwise, by simp [Token.piece?, directive], ?_⟩, rfl⟩
      · rw [step_terminator directive (by decide), terminate, held]
        rfl
      · simp [pieces, held, Frame.pieces, flatten_nil]
  | block | ifElse | loop => cases kind

/-- Whatever the scopes allow, the reading does. -/
theorem takes_of_moves {progress : Progress} {token : Token} {scopes : List Scope}
    (moves : Moves token progress.scopes scopes) : ∃ next, progress.Takes token scopes next := by
  generalize started : progress.scopes = start at moves
  cases moves with
  | @text _ content shown =>
      subst started
      exact ⟨_, takes_text (by rw [Progress.step, shown]) (by rw [Token.piece?, shown]) rfl⟩
  | @output _ expression shown =>
      subst started
      exact ⟨_, takes_text (by rw [Progress.step, shown]) (by rw [Token.piece?, shown]) rfl⟩
  | @unknown _ keyword arguments directive unknown =>
      subst started
      simp only [keywords, List.mem_cons, List.not_mem_nil, or_false, not_or] at unknown
      have step : progress.step token = .ok (progress.add (.text token.raw)) := by
        simp [Progress.step, directive, terminators, unknown]
      exact ⟨_, takes_text step (by simp [Token.piece?, directive, unknown]) rfl⟩
  | opens opening =>
      subst started
      exact takes_opens opening
  | switch directive => exact takes_switch started directive
  | closes directive => exact takes_close started directive

theorem step_of_offence {progress : Progress} {token : Token} {problem : DirectiveProblem}
    (offends : Offends token progress.scopes problem) :
    progress.step token = .error (.directive problem token.offset) := by
  cases offends with
  | @block arguments directive unnamed =>
      rw [blockName] at unnamed
      simp [Progress.step, directive, terminators, openBlock, unnamed]
  | ifThen directive => simp [Progress.step, directive, terminators, openIf]
  | loop directive => simp [Progress.step, directive, terminators, openLoop]
  | @terminator keyword arguments directive terminates refused =>
      rw [step_terminator directive terminates, terminate]
      cases held : progress.frames with
      | nil => rfl
      | cons frame frames =>
          have innermost : frame.scope ∈ progress.scopes.head? := by
            rw [scopes, held]
            rfl
          obtain ⟨notCloser, notElse⟩ := refused frame.scope innermost
          have open_still : frame.opening.closedBy keyword = false := by
            rw [closed_by_closer]
            simpa [Frame.scope] using notCloser
          simp only [open_still, Bool.false_eq_true, if_false]
          cases kind : frame.opening with
          | ifThen test =>
              have notElse : keyword ≠ "else" := by
                intro same
                exact notElse ⟨same, by rw [Frame.scope, kind]; rfl⟩
              simp [notElse]
          | block | ifElse | loop => rfl

end Progress

theorem terminator_verdict {token : Token} {keyword arguments : String} (scopes : List Scope)
    (directive : token.kind = .directive keyword arguments)
    (terminates : keyword ∈ ["else", "endif", "endblock", "endfor"]) :
    (∃ next, Moves token scopes next) ∨ ∃ problem, Offends token scopes problem := by
  cases scopes with
  | nil => exact .inr ⟨_, .terminator directive terminates (by simp)⟩
  | cons scope outer =>
      by_cases closes : keyword = scope.kind.closer
      · exact .inl ⟨outer, .closes (closes ▸ directive)⟩
      by_cases switches : keyword = "else" ∧ scope.kind = .ifThen
      · obtain ⟨kind, offset⟩ := scope
        obtain ⟨rfl, rfl⟩ := switches
        exact .inl ⟨_, .switch directive⟩
      · apply Or.inr
        exact ⟨_, .terminator directive terminates (by simpa using ⟨closes, not_and.mp switches⟩)⟩

/-- A token moves the scopes or offends, if it does not extend another template. -/
theorem moves_or_offends (token : Token) (scopes : List Scope) (standalone : ¬ token.Extends) :
    (∃ next, Moves token scopes next) ∨ ∃ problem, Offends token scopes problem := by
  cases kind : token.kind with
  | text content => exact .inl ⟨scopes, .text kind⟩
  | output expression => exact .inl ⟨scopes, .output kind⟩
  | directive keyword arguments =>
      by_cases terminates : keyword ∈ ["else", "endif", "endblock", "endfor"]
      · exact terminator_verdict scopes kind terminates
      by_cases block : keyword = "block"
      · subst block
        by_cases named : blockName arguments = ""
        · exact .inr ⟨_, .block kind named⟩
        · exact .inl ⟨_, .opens (.block kind named)⟩
      by_cases ifThen : keyword = "if"
      · subst ifThen
        by_cases asked : arguments = ""
        · exact .inr ⟨_, .ifThen (asked ▸ kind)⟩
        · exact .inl ⟨_, .opens (.ifThen kind asked)⟩
      by_cases loop : keyword = "for"
      · subst loop
        by_cases ranged : arguments = ""
        · exact .inr ⟨_, .loop (ranged ▸ kind)⟩
        · exact .inl ⟨_, .opens (.loop kind ranged)⟩
      · have notExtends : keyword ≠ "extends" := by
          intro same
          exact standalone ⟨arguments, same ▸ kind⟩
        refine .inl ⟨scopes, .unknown kind ?_⟩
        simp only [List.mem_cons, List.not_mem_nil, or_false, not_or] at terminates
        simp [keywords, notExtends, block, ifThen, loop, terminates]

theorem nested_or_offends (tokens : List Token) (scopes : List Scope)
    (standalone : ∀ token ∈ tokens, ¬ token.Extends) :
    (∃ last, Nested scopes tokens last) ∨
      ∃ front token back between problem, tokens = front ++ token :: back ∧
        Nested scopes front between ∧ Offends token between problem := by
  induction tokens generalizing scopes with
  | nil => exact .inl ⟨scopes, .none⟩
  | cons token rest verdict =>
      rcases moves_or_offends token scopes (standalone token (by simp)) with
        ⟨next, moves⟩ | ⟨problem, offends⟩
      · rcases verdict next fun other member => standalone other (by simp [member]) with
          ⟨last, nested⟩ | ⟨front, other, back, between, problem, rfl, nested, offends⟩
        · exact .inl ⟨last, .token moves nested⟩
        · exact .inr ⟨token :: front, other, back, between, problem, rfl, .token moves nested,
            offends⟩
      · exact .inr ⟨[], token, rest, scopes, problem, rfl, .none, offends⟩

/-- The reading follows the scopes, and reads every token on the way. -/
theorem read_nested {progress : Progress} {tokens : List Token} {last : List Scope}
    (nested : Nested progress.scopes tokens last) (rest : List Token) :
    ∃ next, readFrom progress (tokens ++ rest) = readFrom next rest ∧ next.scopes = last ∧
      next.parent = progress.parent ∧ ∃ pieces, tokens.map Token.piece? = pieces.map some ∧
        next.pieces = progress.pieces ++ pieces := by
  generalize started : progress.scopes = start at nested
  induction nested generalizing progress with
  | none => exact ⟨progress, rfl, started, rfl, [], rfl, (List.append_nil _).symm⟩
  | @token start between last token tokens moves after follow =>
      subst started
      obtain ⟨middle, step, scopes, ⟨piece, meaning, taken⟩, parent⟩ :=
        Progress.takes_of_moves moves
      obtain ⟨next, read, ended, kept, pieces, said, all⟩ := follow scopes
      refine ⟨next, ?_, ended, kept.trans parent, piece :: pieces, ?_, ?_⟩
      · rw [List.cons_append, readFrom, step]
        exact read
      · rw [List.map_cons, meaning, said, List.map_cons]
      · rw [all, taken, List.append_assoc, List.singleton_append]

theorem read_from_start {tokens : List Token} {last : List Scope} (nested : Nested [] tokens last)
    (rest : List Token) :
    ∃ next, readTokens (tokens ++ rest) = readFrom next rest ∧ next.scopes = last ∧
      next.parent = none ∧ ∃ pieces, tokens.map Token.piece? = pieces.map some ∧
        next.pieces = pieces := by
  rw [read_tokens_eq]
  exact read_nested (show Nested Progress.start.scopes tokens last from nested) rest

theorem read_well_nested {tokens : List Token} (nested : WellNested tokens) :
    ∃ nodes, readTokens tokens = ⟨none, .ok nodes⟩ ∧
      (flatten nodes).map some = tokens.map Token.piece? := by
  obtain ⟨next, read, scopes, parent, pieces, said, all⟩ := read_from_start nested []
  rw [List.append_nil] at read
  have closed : next.frames = [] := List.map_eq_nil_iff.mp scopes
  refine ⟨next.nodes.reverse, ?_, ?_⟩
  · rw [read, readFrom, parent, Progress.finish, closed]
  · rw [said, ← all, Progress.pieces, closed]
    rfl

theorem read_unclosed {tokens : List Token} {innermost : Scope} {outer : List Scope}
    (nested : Nested [] tokens (innermost :: outer)) :
    readTokens tokens =
      ⟨none, .error (.unterminated innermost.kind.keyword innermost.offset)⟩ := by
  obtain ⟨next, read, scopes, parent, -⟩ := read_from_start nested []
  obtain ⟨frame, frames, held, rfl, -⟩ := List.map_eq_cons_iff.mp scopes
  rw [List.append_nil] at read
  rw [read, readFrom, parent, Progress.finish, held]
  simp only [keyword_of_kind]
  rfl

theorem read_offence {front back : List Token} {token : Token} {scopes : List Scope}
    {problem : DirectiveProblem} (nested : Nested [] front scopes)
    (offends : Offends token scopes problem) :
    readTokens (front ++ token :: back) = ⟨none, .error (.directive problem token.offset)⟩ := by
  obtain ⟨next, read, rfl, parent, -⟩ := read_from_start nested (token :: back)
  rw [read, readFrom, Progress.step_of_offence offends, parent]

theorem parse_standalone {tokens : List Token} {outcome : Except Fault (List Node)}
    (read : readTokens tokens = ⟨none, outcome⟩) (library : Library) (name : String) :
    parse library name tokens = assemble name ⟨none, outcome⟩ [] := by
  rw [parse, read]

theorem parse_well_nested {tokens : List Token} (nested : WellNested tokens) (library : Library)
    (name : String) :
    ∃ nodes, parse library name tokens = .ok ⟨⟨name, nodes⟩, []⟩ ∧
      (flatten nodes).map some = tokens.map Token.piece? := by
  obtain ⟨nodes, read, meaning⟩ := read_well_nested nested
  exact ⟨nodes, parse_standalone read library name, meaning⟩

theorem parse_rejected {tokens : List Token} {name : String} {error : TemplateError}
    (rejected : Rejected name tokens error) (library : Library) :
    parse library name tokens = .error error := by
  cases rejected with
  | offence nested offends => exact parse_standalone (read_offence nested offends) library name
  | unclosed nested => exact parse_standalone (read_unclosed nested) library name

theorem well_nested_or_rejected (name : String) (tokens : List Token)
    (standalone : ∀ token ∈ tokens, ¬ token.Extends) :
    WellNested tokens ∨ ∃ error, Rejected name tokens error := by
  rcases nested_or_offends tokens [] standalone with
    ⟨last, nested⟩ | ⟨front, token, back, between, problem, rfl, nested, offends⟩
  · cases last with
    | nil => exact .inl nested
    | cons innermost outer => exact .inr ⟨_, .unclosed nested⟩
  · exact .inr ⟨_, .offence nested offends⟩

/-- Tokens that extend nothing are a template if and only if they are well nested, and then
the template is the one tree that says just what they say, in their order. Else the error
is that of the first token that offends or of the innermost scope that stays open. -/
theorem parse_follows_nesting (library : Library) (name : String) (tokens : List Token)
    (standalone : ∀ token ∈ tokens, ¬ token.Extends) :
    ((∃ template, parse library name tokens = .ok template) ↔ WellNested tokens) ∧
      (∀ template, parse library name tokens = .ok template ↔
        WellNested tokens ∧ template.page.name = name ∧ template.ancestors = [] ∧
          (flatten template.page.nodes).map some = tokens.map Token.piece?) ∧
      ∀ error, parse library name tokens = .error error ↔ Rejected name tokens error := by
  rcases well_nested_or_rejected name tokens standalone with nested | ⟨error, rejected⟩
  · obtain ⟨nodes, parsed, meaning⟩ := parse_well_nested nested library name
    refine ⟨⟨fun _ => nested, fun _ => ⟨_, parsed⟩⟩, ?_, ?_⟩
    · intro template
      rw [parsed]
      constructor
      · intro same
        cases same
        exact ⟨nested, rfl, rfl, meaning⟩
      · rintro ⟨-, named, alone, told⟩
        have pieces := List.map_injective_iff.mpr (fun _ _ => Option.some.inj)
          (told.trans meaning.symm)
        rw [← flatten_injective pieces, ← named, ← alone]
    · intro error
      constructor
      · intro failed
        rw [parsed] at failed
        cases failed
      · intro rejected
        exact parse_rejected rejected library
  · have failed := parse_rejected rejected library
    have not_nested : ¬ WellNested tokens := by
      intro nested
      obtain ⟨nodes, parsed, -⟩ := parse_well_nested nested library name
      rw [parsed] at failed
      cases failed
    refine ⟨⟨?_, fun nested => absurd nested not_nested⟩, ?_, ?_⟩
    · rintro ⟨template, parsed⟩
      rw [failed] at parsed
      cases parsed
    · intro template
      constructor
      · intro parsed
        rw [failed] at parsed
        cases parsed
      · exact fun claimed => absurd claimed.1 not_nested
    · intro other
      constructor
      · intro same
        rw [failed] at same
        cases same
        exact rejected
      · exact fun rejected => parse_rejected rejected library

def emptyElse : List Token :=
  [⟨.directive "if" "a", "\x7b% if a %\x7d", 0⟩, ⟨.text "x", "x", 10⟩,
    ⟨.directive "else" "", "\x7b% else %\x7d", 11⟩,
    ⟨.directive "endif" "", "\x7b% endif %\x7d", 21⟩]

theorem empty_else_parses :
    (∀ token ∈ emptyElse, ¬ token.Extends) ∧
      parse (.ofFiles []) "page" emptyElse =
        .ok ⟨⟨"page", [.ifElse "a" 0 [.text "x"] []]⟩, []⟩ := by
  have standalone : ∀ token ∈ emptyElse, ¬ token.Extends := by
    simp [emptyElse, Token.Extends]
  refine ⟨standalone,
    ((parse_follows_nesting (.ofFiles []) "page" emptyElse standalone).2.1 _).mpr
      ⟨?_, rfl, rfl, rfl⟩⟩
  exact .token (.opens (.ifThen rfl (by decide))) (.token (.text rfl)
    (.token (.switch rfl) (.token (.closes (by rfl)) .none)))

end Letterpress.Template
