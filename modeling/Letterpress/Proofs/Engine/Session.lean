import Letterpress.Engine.Precompile

/-!
Sessions: an engine at work on a world, one request after another, each at a time of its
own. The directories stay the same while a session lasts; opening the engine again may
change everything else about it. A request that fails leaves the world that it has made.
-/

namespace Letterpress

open Files

inductive Request where
  | reopen (options : Options)
  | render (name : String) (data : Datum)
  | renderValue (name : String) (value : Value)
  | precompileAll
  | invalidate (name : String)
  | clear

/-- The template directory, and the folder of the store seen from there. -/
structure Site where
  directory : String
  artifactDirectory : String

structure Session where
  engine : Engine
  world : World

def Site.openAt (site : Site) (disk : Disk) (options : Options) (now : Instant) :
    Except TemplateError Engine × Disk :=
  Engine.openAt disk site.directory
    { options with artifactDirectory := site.artifactDirectory } now

namespace Session

def start (site : Site) (disk : Disk) (options : Options) (now : Instant) :
    Except TemplateError Session :=
  match site.openAt disk options now with
  | (.ok engine, disk) => .ok ⟨engine, disk, 0, now⟩
  | (.error error, _) => .error error

def perform {Result : Type} (session : Session) (now : Instant)
    (action : Engine → Action Result) : Except TemplateError Result × Session :=
  let (outcome, world) := (action session.engine).run.run { session.world with now }
  (outcome, { session with world })

/-- An engine that cannot be opened again stays as it is. -/
def serve (site : Site) (session : Session) (now : Instant) : Request → Session
  | .reopen options =>
      match site.openAt session.world.disk options now with
      | (.ok engine, disk) => ⟨engine, disk, 0, now⟩
      | (.error _, disk) => { session with world := { session.world with disk } }
  | .render name data => (session.perform now fun engine => engine.render name data).2
  | .renderValue name value => (session.perform now fun engine => engine.renderValue name value).2
  | .precompileAll => (session.perform now fun engine => engine.precompileAll).2
  | .invalidate name => (session.perform now fun engine => engine.invalidate name).2
  | .clear => (session.perform now fun engine => engine.clear).2

def serveAll (site : Site) (session : Session) : List (Instant × Request) → Session
  | [] => session
  | (now, request) :: rest => serveAll site (session.serve site now request) rest

end Session

/-- An engine that was opened stands on a folder, and the folder of its store was created. -/
theorem Engine.open_eq_ok {disk opened : Disk} {directory : String} {options : Options}
    {now : Instant} {engine : Engine}
    (opens : openAt disk directory options now = (.ok engine, opened)) :
    ∃ location modified, disk.entry directory = .ok (location, .folder modified) ∧
      engine = ⟨disk.pathOf location,
        ⟨Path.join (disk.pathOf location) options.artifactDirectory⟩, options⟩ ∧
      disk.createFolders (Path.join (disk.pathOf location) options.artifactDirectory) now =
        (.ok (), opened) := by
  unfold openAt at opens
  split at opens
  · next location modified found =>
      dsimp only [Store.create] at opens
      rcases made : disk.createFolders
        (Path.join (disk.pathOf location) options.artifactDirectory) now with ⟨outcome, created⟩
      rw [made] at opens
      cases outcome with
      | error failure => cases opens
      | ok done =>
          cases opens
          exact ⟨location, modified, found, rfl, made⟩
  · cases opens

section Steps

variable {Result Next : Type} {world : World}

theorem run_bind (first : Action Result) (next : Result → Action Next) :
    (first >>= next).run.run world =
      match first.run.run world with
      | (.ok result, after) => (next result).run.run after
      | (.error error, after) => (.error error, after) := by
  rcases ran : first.run.run world with ⟨outcome, after⟩
  have goes_on : (first >>= next).run.run world =
      (ExceptT.bindCont next outcome).run after := by
    change (first.run >>= ExceptT.bindCont next).run world = _
    rw [StateT.run_bind, ran]
    rfl
  rw [goes_on]
  cases outcome <;> rfl

theorem run_get : (get : Action World).run.run world = (.ok world, world) := rfl

theorem run_set (after : World) : (set after : Action PUnit).run.run world = (.ok ⟨⟩, after) := rfl

theorem run_throw (error : TemplateError) :
    (throw error : Action Result).run.run world = (.error error, world) := rfl

theorem run_outcome (outcome : Except TemplateError Result) :
    (ExceptT.mk (pure outcome) : Action Result).run.run world = (outcome, world) := rfl

theorem run_pure (result : Result) :
    (pure result : Action Result).run.run world = (.ok result, world) := rfl

/-- A program as the files make it, before it is stored. -/
def Engine.make (engine : Engine) (name : String) (disk : Disk) (now : Instant) :
    Except TemplateError Program := do
  let template ← engine.compile disk name
  template.generate now

theorem Engine.build_run (engine : Engine) (name : String) (world : World) :
    (engine.build name).run.run world =
      match engine.make name world.disk world.now with
      | .error error => (.error error, world)
      | .ok program =>
          match engine.store.save world.disk program world.now with
          | (.error error, disk) => (.error error, { world with disk })
          | (.ok (), disk) =>
              (.ok program, { world with disk, compiles := world.compiles + 1 }) := by
  unfold Engine.build Engine.build.liftExcept Engine.make
  rw [run_bind, run_get]
  dsimp only
  rw [run_bind, run_outcome]
  cases engine.compile world.disk name with
  | error error => rfl
  | ok template =>
      dsimp only
      rw [run_bind, run_outcome]
      change _ = match template.generate world.now with
        | .error error => _
        | .ok program => _
      cases template.generate world.now with
      | error error => rfl
      | ok program =>
          dsimp only
          generalize engine.store.save world.disk program world.now = saving
          obtain ⟨outcome, disk⟩ := saving
          cases outcome <;> rfl

end Steps

end Letterpress
