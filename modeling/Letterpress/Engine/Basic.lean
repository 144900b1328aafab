import Letterpress.Options
import Letterpress.Program.Execution
import Letterpress.Program.Generation
import Letterpress.Store
import Letterpress.Template.Library

/-!
An engine over one directory of templates. Everything that it does to the world is a
step from one `World` to the next: it reads and writes the disk, counts its compiles,
and reads the clock. A step that fails leaves the world that it has made so far.
-/

namespace Letterpress

open Files

structure Engine where
  /-- The template directory, as a path without detours. -/
  directory : String
  store : Store
  options : Options

structure World where
  disk : Disk
  /-- Programs compiled and stored since the engine was opened. -/
  compiles : Nat
  now : Instant

abbrev Action := ExceptT TemplateError (StateM World)

namespace Engine

/-- Sets up an engine over a directory, and creates the folder of its store. -/
def openAt (disk : Disk) (directory : String) (options : Options) (now : Instant) :
    Except TemplateError Engine × Disk :=
  match disk.entry directory with
  | .ok (location, .folder _) =>
      let canonical := disk.pathOf location
      let store : Store := ⟨Path.join canonical options.artifactDirectory⟩
      let (outcome, created) := store.create disk now
      (outcome.map fun _ => ⟨canonical, store, options⟩, created)
  | _ => (.error (.directoryMissing directory), disk)

/-- Where a template's source is. Names that do not stay inside the template directory
are the names of no template. -/
def sourcePath (engine : Engine) (name : String) : Except TemplateError String :=
  if Path.staysInside name then .ok (Path.join engine.directory name) else .error (.notFound name)

def load (engine : Engine) (disk : Disk) (name : String) : Except TemplateError String :=
  match engine.sourcePath name with
  | .error error => .error error
  | .ok path =>
      match disk.readText path with
      | .ok text => .ok text
      | .error .notFound => .error (.notFound name)
      | .error failure => .error (.source path failure)

theorem mem_texts_of_load {engine : Engine} {disk : Disk} {name text : String}
    (loaded : engine.load disk name = .ok text) : text ∈ disk.texts := by
  unfold load at loaded
  split at loaded
  · cases loaded
  · next path inside =>
      split at loaded
      · next held readable =>
          injection loaded with same
          exact same ▸ Disk.mem_texts_of_readText readable
      · cases loaded
      · cases loaded

def library (engine : Engine) (disk : Disk) : Library where
  load := engine.load disk
  texts := disk.texts
  mem_texts := mem_texts_of_load

def compile (engine : Engine) (disk : Disk) (name : String) : Except TemplateError Template :=
  Template.compile (engine.library disk) name

def build (engine : Engine) (name : String) : Action Program := do
  let world ← get
  let template ← liftExcept (engine.compile world.disk name)
  let program ← liftExcept (template.generate world.now)
  let (saved, disk) := engine.store.save world.disk program world.now
  set { world with disk }
  liftExcept saved
  set { world with disk, compiles := world.compiles + 1 }
  return program
where
  liftExcept {Result : Type} (outcome : Except TemplateError Result) : Action Result :=
    ExceptT.mk (pure outcome)

/-- Whether some source of a program changed after the program was compiled. Sources
that cannot be looked at count as changed. -/
def isStale (engine : Engine) (disk : Disk) (program : Program) : Bool :=
  program.sources.any fun source =>
    match engine.sourcePath source with
    | .error _ => true
    | .ok path =>
        match disk.entry path with
        | .ok (_, entry) => entry.modified.isAfter program.compiledAt
        | .error _ => true

def stored? (engine : Engine) (disk : Disk) (name : String) : Option Program :=
  match engine.store.load? disk name with
  | some program =>
      if engine.options.checkModified && engine.isStale disk program then none else some program
  | none => none

/-- The program of a template, from the store if that is wanted and possible. -/
def program (engine : Engine) (name : String) : Action Program := do
  let path ← ExceptT.mk (pure (engine.sourcePath name))
  let world ← get
  if !world.disk.isFile path then throw (.notFound name)
  if engine.options.isCached then
    match engine.stored? world.disk name with
    | some program => return program
    | none => engine.build name
  else engine.build name

/-- The context that a value makes: a map is one, and nothing is an empty one. -/
def contextOf (value : Value) : Except TemplateError Value :=
  match value with
  | .map entries => .ok (.map entries)
  | .null => .ok .emptyMap
  | other => .error (.context (.notAMap other.typeName))

def renderValue (engine : Engine) (name : String) (value : Value) : Action String := do
  let context ← ExceptT.mk (pure (contextOf value))
  let program ← engine.program name
  ExceptT.mk (pure (program.execute context))

/-- Renders a template with data, which must make a map or nothing. -/
def render (engine : Engine) (name : String) (data : Datum) : Action String := do
  let value ← ExceptT.mk (pure (data.toValue.mapError fun error => .context (.datum error)))
  engine.renderValue name value

def invalidate (engine : Engine) (name : String) : Action Bool := do
  let world ← get
  let (removed, disk) ← ExceptT.mk (pure (engine.store.remove world.disk name world.now))
  set { world with disk }
  return removed

def clear (engine : Engine) : Action Nat := do
  let world ← get
  let (outcome, disk) := engine.store.clear world.disk world.now
  set { world with disk }
  ExceptT.mk (pure outcome)

end Letterpress.Engine
