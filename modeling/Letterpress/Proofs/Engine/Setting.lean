import Letterpress.Proofs.Engine.Session
import Letterpress.Proofs.Program.Artifact
import Letterpress.Proofs.Store
import Letterpress.Proofs.Template.Library

/-!
The disk under a session. The template files stay as they were, and whatever the store
gives as a program for a template is one that the files make. No clock is asked for this:
the time of a program decides whether it is used again, not what it shows. Nor does it
matter whether two names share a digest, since a program carries its name.
-/

namespace Letterpress

open Files

theorem Engine.stored_eq_some {engine : Engine} {disk : Disk} {name : String} {program : Program} :
    engine.stored? disk name = some program ↔
      engine.store.load? disk name = some program ∧
        (engine.options.checkModified = true → engine.isStale disk program = false) := by
  unfold Engine.stored?
  cases engine.store.load? disk name with
  | none => simp
  | some held =>
      simp only [Option.ite_none_left_eq_some, Bool.and_eq_true, not_and, Bool.not_eq_true,
        Option.some.injEq]
      constructor
      · rintro ⟨usable, rfl⟩
        exact ⟨rfl, usable⟩
      · rintro ⟨rfl, usable⟩
        exact ⟨usable, rfl⟩

/-- Two disks that hold the same at the sources of some templates. -/
def Engine.Agree (engine : Engine) (among : String → Prop) (disk other : Disk) : Prop :=
  ∀ name path, among name → engine.sourcePath name = .ok path →
    other.entry path = disk.entry path

namespace Engine.Agree

variable {engine : Engine} {among : String → Prop} {disk other : Disk} {name : String}

theorem symm (agree : engine.Agree among disk other) : engine.Agree among other disk :=
  fun name path asked there => (agree name path asked there).symm

theorem load_same (agree : engine.Agree among disk other) (asked : among name) :
    engine.load other name = engine.load disk name := by
  unfold Engine.load
  split
  · rfl
  · next path there =>
      rw [Disk.readText, Disk.readText, Disk.read, Disk.read, agree name path asked there]

theorem compile_same (agree : engine.Agree among disk other)
    (closed : Template.Closed (engine.library disk) among) (asked : among name) :
    engine.compile other name = engine.compile disk name :=
  Template.compile_from_agrees (fun _ asked => agree.load_same asked) closed _ name asked

end Engine.Agree

/-- A site on a disk: the two folders that its directories are, and the names that are
used for templates there. -/
structure Setting extends Site where
  disk : Disk
  root : Location
  folder : Location
  used : String → Prop

namespace Setting

variable (setting : Setting)

def engine (options : Options) : Engine where
  directory := setting.disk.pathOf setting.root
  store := ⟨Path.join (setting.disk.pathOf setting.root) setting.artifactDirectory⟩
  options := { options with artifactDirectory := setting.artifactDirectory }

def library : Library := (setting.engine {}).library setting.disk

def compile (name : String) : Except TemplateError Template :=
  Template.compile setting.library name

/-- The files make a program for a template, at some time. -/
def Makes (name : String) (program : Program) : Prop :=
  ∃ template now, setting.compile name = .ok template ∧ template.generate now = .ok program

/-- What has to hold when a session begins. The folder of the store is there and holds no
source of a used template. Under the names of programs there are no folders; and files
there are programs made from these files, or nothing that counts as a program. -/
structure Ready : Prop where
  store : (setting.engine {}).store.Ready setting.disk setting.folder
  directory : ∃ modified,
    setting.disk.entry setting.directory = .ok (setting.root, .folder modified)
  apart : ∀ name, setting.used name → Path.staysInside name = true →
    ¬setting.folder <+: setting.root ++ Path.components name
  closed : Template.Closed setting.library setting.used
  free : ∀ name, setting.used name → ∀ modified,
    setting.disk.lookup (setting.folder ++ [Store.fileName name]) ≠ some (.folder modified)
  stored : ∀ name, setting.used name → ∀ content modified,
    setting.disk.lookup (setting.folder ++ [Store.fileName name]) =
        some (.file content modified) →
      Store.decode? name content = none ∨
        ∃ program, setting.Makes name program ∧ content = program.encode.toUTF8
  floats : ∀ name program, setting.used name → setting.Makes name program → program.FloatsExact

def page (name : String) (context : Value) : Except TemplateError String := do
  let path ← (setting.engine {}).sourcePath name
  if setting.disk.isFile path then
    let template ← setting.compile name
    let program ← template.generate (.ofSeconds 0)
    program.execute context
  else .error (.notFound name)

def SameShow (program other : Program) : Prop :=
  program.name = other.name ∧ program.instructions = other.instructions

structure Sound (disk : Disk) : Prop where
  changed : Disk.ChangedIn setting.folder setting.disk disk
  free : ∀ name, setting.used name → ∀ modified,
    disk.lookup (setting.folder ++ [Store.fileName name]) ≠ some (.folder modified)
  stored : ∀ name program, setting.used name →
    (setting.engine {}).store.load? disk name = some program →
      ∃ made, setting.Makes name made ∧ SameShow program made

end Setting

section Invariant

variable {setting : Setting} {disk after : Disk} {name : String} {program : Program}

theorem execute_same {other : Program} (same : Setting.SameShow program other) (context : Value) :
    program.execute context = other.execute context := by
  rw [Program.execute, Program.execute, same.1, same.2]

/-- A program carries the name of the template that it was asked for by. -/
theorem generated_name {library : Library} {template : Template} {now : Instant}
    (compiled : Template.compile library name = .ok template)
    (generated : template.generate now = .ok program) : program.name = name := by
  rw [(generate_eq_ok generated).1]
  exact Template.compile_from_name compiled

theorem made_name (made : setting.Makes name program) : program.name = name := by
  obtain ⟨template, now, compiled, generated⟩ := made
  exact generated_name compiled generated

theorem decoded_made {made : Program} (makes : setting.Makes name made)
    (exact_floats : made.FloatsExact) {wanted : String}
    (decoded : Store.decode? wanted made.encode.toUTF8 = some program) :
    wanted = name ∧ Setting.SameShow program made := by
  have named := made_name makes
  obtain ⟨template, now, _, generated⟩ := makes
  obtain ⟨decodes, carries⟩ := Store.decode_eq_some.mp decoded
  obtain ⟨same_name, _, same_instructions⟩ :=
    Program.decode_of_generated generated exact_floats decodes
  exact ⟨by rw [← carries, same_name, named], same_name, same_instructions⟩

theorem Setting.Ready.sound (ready : setting.Ready) : setting.Sound setting.disk where
  changed := .refl
  free := ready.free
  stored := by
    intro name program used loaded
    rw [Store.load_eq ready.store] at loaded
    split at loaded
    · next content modified held =>
        rcases ready.stored name used content modified held with unreadable | ⟨made, makes, rfl⟩
        · rw [unreadable] at loaded
          cases loaded
        · have exact_floats := ready.floats name made used makes
          exact ⟨made, makes, (decoded_made makes exact_floats loaded).2⟩
    · cases loaded

theorem Setting.Sound.store_ready (sound : setting.Sound disk) (ready : setting.Ready) :
    (setting.engine {}).store.Ready disk setting.folder := ready.store.kept sound.changed

theorem Setting.Sound.shrunk (sound : setting.Sound disk) (ready : setting.Ready)
    (shrunk : Disk.ShrunkIn setting.folder disk after) : setting.Sound after := by
  refine ⟨sound.changed.trans shrunk.changed, ?_, ?_⟩
  · intro name used
    exact Store.free_shrunk shrunk (sound.free name used)
  · intro name program used loaded
    have before := Store.load_shrunk (sound.store_ready ready) shrunk loaded
    exact sound.stored name program used before

theorem Setting.Sound.saved (sound : setting.Sound disk) (ready : setting.Ready)
    (used : setting.used name) (makes : setting.Makes name program) (now : Instant) :
    ∃ after, (setting.engine {}).store.save disk program now = (.ok (), after) ∧
      setting.Sound after := by
  have store := sound.store_ready ready
  have free := sound.free name used
  rw [← made_name makes] at free
  obtain ⟨after, saved⟩ := Store.save_works store now free
  have changed := (Store.save_changes store saved).1
  refine ⟨after, saved, sound.changed.trans changed, ?_, ?_⟩
  · intro other other_used
    exact Store.free_saved store saved (sound.free other other_used)
  · intro other loaded_program other_used loaded
    rcases Store.load_saved store saved loaded with before | read
    · exact sound.stored other loaded_program other_used before
    · have exact_floats := ready.floats name program used makes
      obtain ⟨same_name, same_show⟩ := decoded_made makes exact_floats read
      exact ⟨program, same_name ▸ makes, same_show⟩

theorem root_names (ready : setting.Ready) : ∀ part ∈ setting.root, Path.IsName part := by
  obtain ⟨modified, found⟩ := ready.directory
  exact ready.store.formed.names _ (Disk.mem_of_find? (Disk.entry_eq_ok.mp found).2)

/-- The path of a used template's source goes straight down from the root, and not into the
folder of the store. -/
theorem source_parts (ready : setting.Ready) (used : setting.used name) {path : String}
    (there : (setting.engine {}).sourcePath name = .ok path) :
    ∃ parts, setting.disk.partsBelow? path = some parts ∧ ".." ∉ parts ∧
      ¬setting.folder <+: parts.filter fun part => !Path.isIdle part := by
  unfold Engine.sourcePath at there
  split at there
  · next inside =>
      cases there
      have names := root_names ready
      have confined := Path.stays_inside_iff.mp inside
      refine ⟨setting.root ++ Path.parts name, ?_, ?_, ?_⟩
      · exact Disk.parts_below_location ready.store.formed.toMounted names confined.relative
      · intro dots
        rcases List.mem_append.mp dots with in_root | in_name
        · exact (names _ in_root).down rfl
        · exact confined.level in_name
      · rw [List.filter_append, Path.names_lead names]
        exact ready.apart name used inside
  · cases there

/-- The sources of used templates are as they were after a change in the folder of the store. -/
theorem agree_of_changed (ready : setting.Ready) (mount : disk.mount = setting.disk.mount)
    (changed : Disk.ChangedIn setting.folder disk after) :
    (setting.engine {}).Agree setting.used disk after := by
  intro name path used there
  obtain ⟨parts, below, down, apart⟩ := source_parts ready used there
  rw [← Disk.parts_below_same mount] at below
  exact Disk.entry_apart changed.mount (fun _ => changed.lookup) below down apart

theorem Setting.Sound.agree (sound : setting.Sound disk) (ready : setting.Ready) :
    (setting.engine {}).Agree setting.used setting.disk disk :=
  agree_of_changed ready rfl sound.changed

theorem Setting.Sound.compile_same (sound : setting.Sound disk) (ready : setting.Ready)
    (options : Options) (used : setting.used name) :
    (setting.engine options).compile disk name = setting.compile name :=
  (sound.agree ready).compile_same ready.closed used

theorem opens_found {modified : Instant} (mount : disk.mount = setting.disk.mount)
    (store : (setting.engine {}).store.Ready disk setting.folder)
    (found : disk.entry setting.directory = .ok (setting.root, .folder modified))
    (options : Options) (now : Instant) :
    setting.openAt disk options now = (.ok (setting.engine options), disk) := by
  have same_path : disk.pathOf setting.root = setting.disk.pathOf setting.root := by
    rw [Disk.pathOf, mount]
    rfl
  obtain ⟨store_modified, store_found⟩ := store.there
  have created := Disk.create_existing store_found now
  unfold Site.openAt Engine.openAt
  rw [found]
  dsimp only [Store.create]
  rw [same_path]
  have store_path : Path.join (setting.disk.pathOf setting.root) setting.artifactDirectory =
    (setting.engine {}).store.directory := rfl
  rw [store_path, created]
  rfl

end Invariant

end Letterpress
