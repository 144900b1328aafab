import Letterpress.Error
import Letterpress.Template.Basic
import Letterpress.Template.Token

/-!
Reading the tokens of one file into nodes, by descent into the scopes that directives open.
Whoever reads a scope says which words end it there; the same words are out of place anywhere
else. Reading does not look into other files: an `extends` directive is noted with the offset
where it stands, and a fault comes with what was noted before it.
-/

namespace Letterpress.Template

inductive Fault where
  | directive (problem : DirectiveProblem) (offset : Nat)
  | unterminated (keyword : String) (offset : Nat)
  deriving DecidableEq, Repr

def Fault.toError (template : String) : Fault → TemplateError
  | .directive problem offset => .directive template problem offset
  | .unterminated keyword offset => .unterminated template keyword offset

/-- The template to extend, with the offset of the directive that says so. -/
abbrev Parent := Option (String × Nat)

structure Halt where
  fault : Fault
  parent : Parent

abbrev Remaining (tokens : List Token) := { rest : List Token // rest.length ≤ tokens.length }

structure Stretch (tokens : List Token) where
  nodes : List Node
  stop : Option String
  rest : Remaining tokens
  parent : Parent

/-- A node that has read tokens of its own. -/
structure Branch (tokens : List Token) where
  node : Node
  rest : Remaining tokens
  parent : Parent

/-- The same stretch, counted from an earlier token. -/
def Stretch.within {tokens earlier : List Token} (bound : tokens.length ≤ earlier.length)
    (stretch : Stretch tokens) : Stretch earlier :=
  { stretch with rest := ⟨stretch.rest.1, Nat.le_trans stretch.rest.2 bound⟩ }

/-- The words that may only end a scope or a part of one. -/
def terminators : List String := ["else", "endif", "endblock", "endfor"]

def noteParent (parent : Parent) (arguments : String) (offset : Nat) : Except Fault Parent :=
  let target := String.ofList (Text.unquote arguments.toList)
  if target.isEmpty then .error (.directive .extendsNothing offset)
  else
    match parent with
    | some (earlier, _) => .error (.directive (.extendsTwice earlier) offset)
    | none => .ok (some (target, offset))

mutual

/-- Reads nodes behind those of `target` until one of the words of `stops` has ended them.
The tokens must not run out inside a scope, and so `opener` says what opened it. -/
def parseNodes (parent : Parent) (target : List Node) (stops : List String)
    (opener : Option (String × Nat)) (tokens : List Token) : Except Halt (Stretch tokens) :=
  match tokens with
  | [] =>
      match opener with
      | some (keyword, offset) => .error ⟨.unterminated keyword offset, parent⟩
      | none => .ok ⟨target, none, ⟨[], Nat.le_refl 0⟩, parent⟩
  | token :: rest =>
      let goOn (parent : Parent) (target : List Node) :=
        (parseNodes parent target stops opener rest).map (.within (Nat.le_succ rest.length))
      match token.kind with
      | .text content => goOn parent (.text content :: target)
      | .output expression => goOn parent (.output expression token.offset :: target)
      | .directive keyword arguments =>
          if keyword ∈ stops then
            .ok ⟨target, some keyword, ⟨rest, Nat.le_succ rest.length⟩, parent⟩
          else if keyword = "extends" then
            match noteParent parent arguments token.offset with
            | .error fault => .error ⟨fault, parent⟩
            | .ok noted => goOn noted target
          else
            match parseBranch? parent keyword arguments token.offset rest with
            | some (.error halt) => .error halt
            | some (.ok ⟨node, ⟨left, bound⟩, parent⟩) =>
                (parseNodes parent (node :: target) stops opener left).map
                  (.within (Nat.le_succ_of_le bound))
            | none =>
                if keyword ∈ terminators then
                  .error ⟨.directive (.unexpected keyword) token.offset, parent⟩
                else goOn parent (.text token.raw :: target)
termination_by 3 * tokens.length

def parseBranch? (parent : Parent) (keyword arguments : String) (offset : Nat)
    (tokens : List Token) : Option (Except Halt (Branch tokens)) :=
  if keyword = "block" then some (parseBlock parent arguments offset tokens)
  else if keyword = "if" then some (parseIf parent arguments offset tokens)
  else if keyword = "for" then some (parseFor parent arguments offset tokens)
  else none
termination_by 3 * tokens.length + 2

def parseBlock (parent : Parent) (arguments : String) (offset : Nat) (tokens : List Token) :
    Except Halt (Branch tokens) :=
  let name := String.ofList (Text.unquote (Text.firstWord arguments.toList))
  if name.isEmpty then .error ⟨.directive .blockWithoutName offset, parent⟩
  else
    (parseNodes parent [] ["endblock"] (some ("block", offset)) tokens).map fun body =>
      ⟨.block name body.nodes.reverse, body.rest, body.parent⟩
termination_by 3 * tokens.length + 1

def parseIf (parent : Parent) (test : String) (offset : Nat) (tokens : List Token) :
    Except Halt (Branch tokens) :=
  if test.isEmpty then .error ⟨.directive .ifWithoutCondition offset, parent⟩
  else
    match parseNodes parent [] ["else", "endif"] (some ("if", offset)) tokens with
    | .error halt => .error halt
    | .ok ⟨yes, stop, ⟨left, bound⟩, parent⟩ =>
        if stop = some "else" then
          match parseNodes parent [] ["endif"] (some ("if", offset)) left with
          | .error halt => .error halt
          | .ok ⟨no, _, ⟨rest, shorter⟩, parent⟩ =>
              .ok ⟨.ifElse test offset yes.reverse no.reverse,
                ⟨rest, Nat.le_trans shorter bound⟩, parent⟩
        else .ok ⟨.ifThen test offset yes.reverse, ⟨left, bound⟩, parent⟩
termination_by 3 * tokens.length + 1

def parseFor (parent : Parent) (header : String) (offset : Nat) (tokens : List Token) :
    Except Halt (Branch tokens) :=
  if header.isEmpty then .error ⟨.directive .loopWithoutHeader offset, parent⟩
  else
    (parseNodes parent [] ["endfor"] (some ("for", offset)) tokens).map fun body =>
      ⟨.loop header offset body.nodes.reverse, body.rest, body.parent⟩
termination_by 3 * tokens.length + 1

end

structure Reading where
  parent : Parent
  outcome : Except Fault (List Node)

def readTokens (tokens : List Token) : Reading :=
  match parseNodes none [] [] none tokens with
  | .error ⟨fault, parent⟩ => ⟨parent, .error fault⟩
  | .ok ⟨nodes, _, _, parent⟩ => ⟨parent, .ok nodes.reverse⟩

def readSource (source : String) : Reading := readTokens (tokenize source)

end Letterpress.Template
