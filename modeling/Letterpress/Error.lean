import Letterpress.Datum
import Letterpress.Expr.Code
import Letterpress.Expr.SyntaxError
import Letterpress.Files.Failure
import Letterpress.Text.Quoted

/-!
Everything that can go wrong between the name of a template and its page. An error
names the template or the path it is about; errors of compilation also point at a byte
of the template's text. `message` says it in one line, `listing` shows the parts.
-/

namespace Letterpress

inductive DirectiveProblem where
  | extendsNothing
  | extendsTwice (parent : String)
  /-- The names on the way, from the page that was asked for back to one of them. -/
  | circular (chain : List String)
  | blockWithoutName
  | ifWithoutCondition
  | loopWithoutHeader
  | unexpected (keyword : String)
  deriving DecidableEq, Repr

def DirectiveProblem.message : DirectiveProblem → String
  | .extendsNothing => "`extends` requires a template path"
  | .extendsTwice parent => s!"template already extends `{parent}`"
  | .circular chain => "circular inheritance: " ++ " -> ".intercalate chain
  | .blockWithoutName => "`block` requires a name"
  | .ifWithoutCondition => "`if` requires a condition"
  | .loopWithoutHeader => "`for` requires a loop header"
  | .unexpected keyword => s!"unexpected `{keyword}`"

inductive RenderProblem where
  | code (error : CodeError)
  | notIterable (found : String)
  | strayIteration
  | endless
  deriving DecidableEq, Repr

def RenderProblem.message : RenderProblem → String
  | .code error => error.message
  | .notIterable found => s!"cannot iterate over {found}"
  | .strayIteration => "`Iterate` outside of a loop"
  | .endless => "program does not end"

inductive ContextProblem where
  | datum (error : DatumError)
  | notAMap (found : String)
  deriving DecidableEq, Repr

def ContextProblem.message : ContextProblem → String
  | .datum error => error.message
  | .notAMap found => s!"expected a map, got {found}"

inductive TemplateError where
  | directoryMissing (path : String)
  | notFound (template : String)
  | unterminated (template keyword : String) (offset : Nat)
  | directive (template : String) (problem : DirectiveProblem) (offset : Nat)
  | expression (template : String) (error : SyntaxError) (offset : Nat)
  | render (template : String) (problem : RenderProblem)
  | context (problem : ContextProblem)
  | source (path : String) (failure : Files.Failure)
  | artifact (path : String) (failure : Files.Failure)
  deriving DecidableEq, Repr

namespace TemplateError

/-- The byte of the template's text that an error of compilation points at. -/
def offset? : TemplateError → Option Nat
  | .unterminated _ _ offset => some offset
  | .directive _ _ offset => some offset
  | .expression _ _ offset => some offset
  | _ => none

def message : TemplateError → String
  | .directoryMissing path => s!"Template directory does not exist: {path}"
  | .notFound template => s!"Template not found: {template}"
  | .unterminated template keyword offset =>
      s!"Unterminated `{keyword}` block in {template} at byte {offset}"
  | .directive template problem offset =>
      s!"Parse error in {template} at byte {offset}: {problem.message}"
  | .expression template error offset =>
      s!"Invalid expression in {template} at byte {offset}: {error.message}"
  | .render template problem => s!"Render error in {template}: {problem.message}"
  | .context problem => s!"Invalid render context: {problem.message}"
  | .source path failure => s!"Cannot read template source {path}: {failure.message}"
  | .artifact path failure => s!"Artifact I/O error on {path}: {failure.message}"

def listLine (name text : String) : String :=
  name ++ "(\n    " ++ Text.quoted text ++ ",\n)"

def listFieldsBelow (indent name : String) (fields : List (String × String)) : String :=
  let lines := fields.map fun field => indent ++ "    " ++ field.1 ++ ": " ++ field.2 ++ ",\n"
  name ++ " \x7b\n" ++ String.join lines ++ indent ++ "\x7d"

def listFields (name : String) (fields : List (String × String)) : String :=
  listFieldsBelow "" name fields

def listFailure (failure : Files.Failure) : String :=
  let fields := [("kind", failure.kind), ("message", Text.quoted failure.description)]
  match failure.code? with
  | some code => listFieldsBelow "    " "Os" (("code", toString code) :: fields)
  | none => listFieldsBelow "    " "Error" fields

def listing : TemplateError → String
  | .directoryMissing path => listLine "TemplateDirectoryMissing" path
  | .notFound template => listLine "TemplateNotFound" template
  | .unterminated template keyword offset =>
      listFields "UnterminatedBlock"
        [("template", Text.quoted template), ("keyword", Text.quoted keyword),
          ("offset", toString offset)]
  | .directive template problem offset =>
      listFields "Parse"
        [("template", Text.quoted template), ("message", Text.quoted problem.message),
          ("offset", toString offset)]
  | .expression template error offset =>
      listFields "Expression"
        [("template", Text.quoted template), ("message", Text.quoted error.message),
          ("offset", toString offset)]
  | .render template problem =>
      listFields "Render"
        [("template", Text.quoted template), ("message", Text.quoted problem.message)]
  | .context problem => listLine "Context" problem.message
  | .source path failure =>
      listFields "SourceIo" [("path", Text.quoted path), ("source", listFailure failure)]
  | .artifact path failure =>
      listFields "ArtifactIo" [("path", Text.quoted path), ("source", listFailure failure)]

end Letterpress.TemplateError
