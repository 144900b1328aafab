import Letterpress.Engine.Basic

/-!
A build while somebody else gives files new content. The build goes step by step: it reads
the file of a template and then, one after another, the files that this extends; when it has
them all it makes the program, which bears the time of that step; last it stores the program.
Between two steps anything can happen to the files. Each step and each rewrite has a time, and
what it writes bears that time.
-/

namespace Letterpress

open Files

inductive Build where
  /-- Reads a file next. Those that wait for what they extend have been read, the last of
  them first. -/
  | reading (waiting : List (String × Template.Reading)) (name : String)
  | generating (template : Template)
  | storing (program : Program)
  | stored (program : Program)
  | failed (error : TemplateError)

inductive Happening where
  /-- The build goes on by a step. -/
  | step
  /-- The file of a template gets new content. -/
  | rewrite (name : String) (content : ByteArray)

structure Race where
  disk : Disk
  build : Build

def Template.complete (parent : Template) :
    List (String × Template.Reading) → Except TemplateError Template
  | [] => .ok parent
  | (name, reading) :: waiting => do
      let template ← assemble name reading (parent.page :: parent.ancestors)
      template.complete waiting

namespace Engine

def place? (engine : Engine) (disk : Disk) (name : String) : Option Location :=
  match engine.sourcePath name with
  | .ok path => (disk.locate path).toOption
  | .error _ => none

/-- Reads a file. What it extends is read next, and where it extends nothing, the template
is put together from all that was read. -/
def readNext (engine : Engine) (disk : Disk) (waiting : List (String × Template.Reading))
    (name : String) : Except TemplateError Build := do
  let text ← engine.load disk name
  let reading := Template.readSource text
  match reading.parent with
  | none =>
      let last ← Template.assemble name reading []
      let template ← last.complete waiting
      return .generating template
  | some (target, offset) =>
      let names := (waiting.map Prod.fst).reverse ++ [name]
      if target ∈ names then
        throw (.directive name (.circular (names ++ [target])) offset)
      else return .reading ((name, reading) :: waiting) target

def advance (engine : Engine) (disk : Disk) (now : Instant) :
    Build → Except TemplateError Build × Disk
  | .reading waiting name => (engine.readNext disk waiting name, disk)
  | .generating template => ((template.generate now).map .storing, disk)
  | .storing program =>
      let (saved, after) := engine.store.save disk program now
      (saved.map fun _ => .stored program, after)
  | .stored program => (.ok (.stored program), disk)
  | .failed error => (.error error, disk)

/-- Gives a file new content. Nothing happens where there is no file. -/
def rewrite (engine : Engine) (disk : Disk) (name : String) (content : ByteArray)
    (now : Instant) : Disk :=
  match engine.place? disk name with
  | none => disk
  | some location =>
      match disk.lookup location with
      | some (.file _ _) => disk.set location (.file content now)
      | _ => disk

def happen (engine : Engine) (race : Race) (now : Instant) : Happening → Race
  | .step =>
      let (next, disk) := engine.advance race.disk now race.build
      match next with
      | .ok build => ⟨disk, build⟩
      | .error error => ⟨disk, .failed error⟩
  | .rewrite name content => { race with disk := engine.rewrite race.disk name content now }

def happenAll (engine : Engine) (race : Race) : List (Instant × Happening) → Race
  | [] => race
  | (now, happening) :: rest => engine.happenAll (engine.happen race now happening) rest

end Engine

end Letterpress
