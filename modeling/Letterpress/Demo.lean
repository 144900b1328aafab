import Letterpress.Engine.Basic

/-!
The demonstration: one page rendered four times, with a condition that alternates, and
the count of compiles in the end. The first arguments name the template directory and
the template.
-/

namespace Letterpress.Demo

open Files

structure Report where
  code : Nat
  output : String
  errors : String
  deriving DecidableEq, Repr

def defaultDirectory : String := "./templates"

def defaultTemplate : String := "index.html"

def page (round : Nat) : Datum :=
  .record
    [("title", .text "Home"), ("test", .bool (round % 2 == 0)),
      ("items", .sequence [.text "Evan", .text "John", .text "Jane"])]

def indentLines (indent text : String) : String :=
  String.ofList <| text.toList.flatMap fun char =>
    if char = '\n' then '\n' :: indent.toList else [char]

def causes (error : TemplateError) : List String :=
  match error with
  | .source _ failure => [error.message, failure.message]
  | .artifact _ failure => [error.message, failure.message]
  | _ => [error.message]

/-- Causes are numbered from zero if there is more than one. -/
def renderCauses (causes : List String) : String :=
  match causes with
  | [cause] => "    " ++ indentLines "    " cause ++ "\n"
  | _ =>
      String.join <| causes.zipIdx.map fun (cause, position) =>
        "    " ++ toString position ++ ": " ++ indentLines "       " cause ++ "\n"

def failure (attempt : String) (error : TemplateError) : String :=
  "Error: " ++ attempt ++ "\n\nCaused by:\n" ++ renderCauses (causes error)

/-- All pages are rendered, whether or not an earlier one fails. -/
def renderPages (engine : Engine) (name : String) :
    List Nat → World → List (Except TemplateError String) × World
  | [], world => ([], world)
  | round :: rest, world =>
      let (outcome, world) := (engine.render name (page round)).run.run world
      let (outcomes, world) := renderPages engine name rest world
      (outcome :: outcomes, world)

def showPages (name : String) (compiles : Nat) :
    Nat → List (Except TemplateError String) → Report
  | _, [] => ⟨0, s!"compiled {compiles} time(s)\n", ""⟩
  | position, .ok html :: rest =>
      let later := showPages name compiles (position + 1) rest
      { later with output := s!"--- render #{position} ---\n{html}\n" ++ later.output }
  | _, .error error :: _ => ⟨1, "", failure s!"render {name}" error⟩

def run (disk : Disk) (now : Instant) (environment : Option String) (arguments : List String) :
    Report × Disk :=
  let directory := arguments.head?.getD defaultDirectory
  let name := (arguments.drop 1).head?.getD defaultTemplate
  let options : Options := { environment := .ofName (environment.getD "") }
  match Engine.openAt disk directory options now with
  | (.error error, disk) => (⟨1, "", failure s!"open template directory {directory}" error⟩, disk)
  | (.ok engine, disk) =>
      let (outcomes, world) := renderPages engine name (List.range 4) ⟨disk, 0, now⟩
      (showPages name world.compiles 0 outcomes, world.disk)

end Letterpress.Demo
