import Letterpress.Proofs.Engine.Confinement
import Letterpress.Proofs.Engine.Once
import Letterpress.Proofs.Files.Tree
import Letterpress.Proofs.Shelf

/-!
One template after another is built. Each build puts a program into the folder of the store
and leaves all else as it was, but for the times of folders. So what a template makes does not
depend on what was built before it, and its program stays until the same template is built
again.
-/

namespace Letterpress

open Files

namespace Engine

/-- None of the names begins with a dot. -/
def Shown (names : List String) : Prop := ∀ name ∈ names, isHidden name = false

/-- The way to a file that counts as a template. No dot hides it, and if the folder of the
store is the template directory or below it, the file is not in there. -/
structure IsTemplate (disk : Disk) (root folder : Location) (names : List String) : Prop where
  file : ∃ content modified, disk.lookup (root ++ names) = some (.file content modified)
  shown : Shown names
  outside : root <+: folder → ¬folder <+: root ++ names

def HasTemplate (disk : Disk) (root folder : Location) (name : String) : Prop :=
  ∃ names, IsTemplate disk root folder names ∧ "/".intercalate names = name

/-- An engine as it is opened: its template directory is a folder, and so is the folder of its
store, which is where the options say. -/
structure Placed (engine : Engine) (disk : Disk) (root folder : Location) : Prop
    extends engine.Rooted disk root where
  seen : engine.store.directory = Path.join engine.directory engine.options.artifactDirectory
  ready : engine.store.Ready disk folder

/-- All templates of a directory tree can be built. Each is made of files that programs are
not stored in, and has a file of its own to be stored in, which is no folder. -/
structure Buildable (engine : Engine) (disk : Disk) (root folder : Location) : Prop
    extends engine.Placed disk root folder where
  tree : disk.IsTree
  apart : Store.Apart (HasTemplate disk root folder)
  free : ∀ name, HasTemplate disk root folder name → ∀ since,
    disk.lookup (folder ++ [Store.fileName name]) ≠ some (.folder since)
  makes : ∀ name, HasTemplate disk root folder name → ∃ now program,
    engine.make name disk now = .ok program ∧ program.FitsMemory ∧
      ∀ source ∈ program.sources, ∀ other, HasTemplate disk root folder other →
        root ++ Path.components source ≠ folder ++ [Store.fileName other]

/-- Nothing but programs of templates was stored since. -/
structure Stocked (root folder : Location) (start disk : Disk) : Prop where
  kept : Disk.ChangedIn folder start disk
  folders : Disk.SameFolders start disk
  distinct : disk.Distinct
  others : ∀ place, (∀ name, HasTemplate start root folder name →
    place ≠ folder ++ [Store.fileName name]) → Entry.Alike (start.lookup place) (disk.lookup place)

/-- The store holds the program that a template makes, to be read from there. -/
def Holds (engine : Engine) (start : Disk) (now : Instant) (disk : Disk) (name : String) : Prop :=
  ∃ program, engine.make name start now = .ok program ∧
    engine.store.load? disk name = some program.reread

inductive Builds (engine : Engine) : World → List String → World → Prop
  | nothing {world : World} : Builds engine world [] world
  | one {world middle after : World} {name : String} {names : List String} {program : Program}
      (ran : (engine.build name).run.run world = (.ok program, middle))
      (others : Builds engine middle names after) : Builds engine world (name :: names) after

section Stocking

variable {engine : Engine} {start disk after : Disk} {root folder : Location} {name : String}
  {program : Program} {now later : Instant} {world : World}

theorem make_later (made : engine.make name disk now = .ok program) (later : Instant) :
    engine.make name disk later = .ok { program with compiledAt := later } := by
  obtain ⟨template, compiled, generated⟩ := bind_eq_ok.mp made
  rw [make, compiled]
  change template.generate later = _
  rw [Template.generate_later template now later, generated]
  rfl

theorem save_distinct {store : Store} (distinct : disk.Distinct)
    (saved : store.save disk program now = (.ok (), after)) : after.Distinct := by
  have ends := Store.save_ends store disk program now
  rw [saved] at ends
  cases ends with
  | stored found located wrote =>
      exact Disk.touch_distinct (Disk.write_distinct (Disk.set_distinct distinct _ _) wrote) _ _

theorem Stocked.refl (distinct : start.Distinct) : Stocked root folder start start where
  kept := .refl
  folders := .refl start
  distinct := distinct
  others := fun _ _ => .inl rfl

theorem Stocked.saved (stocked : Stocked root folder start disk)
    (ready : engine.store.Ready start folder)
    (here : HasTemplate start root folder program.name)
    (saved : engine.store.save disk program now = (.ok (), after)) :
    Stocked root folder start after := by
  have ready_now := ready.kept stocked.kept
  obtain ⟨location, located, -, replaced⟩ := Store.save_saved saved
  cases (Store.locate_program ready_now program.name).symm.trans located
  refine ⟨stocked.kept.trans (Store.save_changes ready_now saved).1,
    stocked.folders.trans replaced.same_folders, save_distinct stocked.distinct saved, ?_⟩
  intro place elsewhere
  exact (stocked.others place elsewhere).trans (replaced.others place (elsewhere _ here))

theorem Stocked.entry_same (stocked : Stocked root folder start disk) {path : String}
    {location : Location} {content : ByteArray} {modified : Instant}
    (found : start.entry path = .ok (location, .file content modified))
    (elsewhere : ∀ name, HasTemplate start root folder name →
      location ≠ folder ++ [Store.fileName name]) :
    disk.entry path = .ok (location, .file content modified) := by
  obtain ⟨located, held⟩ := Disk.entry_eq_ok.mp found
  refine Disk.entry_eq_ok.mpr ⟨stocked.folders.located located, ?_⟩
  rcases stocked.others location elsewhere with same | ⟨_, _, stood, _⟩
  · exact same.trans held
  · cases stood.symm.trans held

theorem Stocked.load_same (stocked : Stocked root folder start disk)
    (rooted : engine.Rooted start root) {source text : String}
    (loaded : engine.load start source = .ok text)
    (elsewhere : ∀ name, HasTemplate start root folder name →
      root ++ Path.components source ≠ folder ++ [Store.fileName name]) :
    engine.load disk source = .ok text := by
  obtain ⟨path, there, is_file⟩ := source_of_load loaded
  unfold Disk.isFile at is_file
  split at is_file
  · next location content modified found =>
      have place := rooted.source_found there found
      have same := stocked.entry_same found (place ▸ elsewhere)
      rw [← loaded, load, load, there]
      dsimp only
      rw [Disk.readText, Disk.readText, Disk.read, Disk.read, found, same]
  · cases is_file

/-- What a template makes of its files does not depend on what is stored. -/
theorem Stocked.make_same (stocked : Stocked root folder start disk)
    (rooted : engine.Rooted start root) (made : engine.make name start now = .ok program)
    (elsewhere : ∀ source ∈ program.sources, ∀ other, HasTemplate start root folder other →
      root ++ Path.components source ≠ folder ++ [Store.fileName other]) :
    engine.make name disk now = .ok program := by
  obtain ⟨template, compiled, generated⟩ := bind_eq_ok.mp made
  obtain ⟨asked, searched, -⟩ := Template.compile_searched (engine.library start) name
  change _ = some (Template.Searched.mk asked (engine.compile start name)) at searched
  rw [compiled] at searched
  have found := Template.found_of_search searched
  have sources := (generate_eq_ok generated).2.1
  have again : engine.compile disk name = .ok template := by
    apply Template.compile_of_search
    apply Template.search_of_found (found.elsewhere _)
    intro source member
    obtain ⟨text, loaded⟩ := found.loaded source member
    have apart := elsewhere source (sources ▸ member)
    rw [loaded]
    exact congrArg some (stocked.load_same rooted (Option.some.inj loaded) apart)
  rw [make, again]
  exact generated

namespace Buildable

variable (buildable : engine.Buildable start root folder)
include buildable

theorem makes_at (here : HasTemplate start root folder name)
    (stocked : Stocked root folder start disk) (now : Instant) :
    ∃ program, engine.make name start now = .ok program ∧
      engine.make name disk now = .ok program ∧ program.FitsMemory := by
  obtain ⟨began, program, made, fits, elsewhere⟩ := buildable.makes name here
  have made_now := make_later made now
  refine ⟨_, made_now, ?_, ⟨fits.instructions, fits.codes⟩⟩
  exact stocked.make_same buildable.toRooted made_now elsewhere

/-- A template can be built at any time, whatever was built before. -/
theorem build_works (here : HasTemplate start root folder name)
    (stocked : Stocked root folder start world.disk) :
    ∃ program disk, engine.make name start world.now = .ok program ∧ program.FitsMemory ∧
      engine.Stores name world program disk := by
  obtain ⟨program, made, made_now, fits⟩ := buildable.makes_at here stocked world.now
  obtain ⟨template, compiled, generated⟩ := bind_eq_ok.mp made_now
  have named := generated_name compiled generated
  have free (since : Instant) :
      world.disk.lookup (folder ++ [Store.fileName program.name]) ≠ some (.folder since) := by
    intro stands
    obtain ⟨before, stood⟩ := (stocked.folders.folders _).mp ⟨since, stands⟩
    rw [named] at stood
    exact buildable.free name here before stood
  obtain ⟨disk, saved⟩ := Store.save_works (buildable.ready.kept stocked.kept) world.now free
  exact ⟨program, disk, made, fits, made_now, saved⟩

theorem build_stocks (here : HasTemplate start root folder name)
    (stocked : Stocked root folder start world.disk) (proper : world.now.Proper)
    {after : World} (ran : (engine.build name).run.run world = (.ok program, after)) :
    Stocked root folder start after.disk ∧ after.now = world.now ∧
      after.compiles = world.compiles + 1 ∧
      ∀ other, HasTemplate start root folder other →
        engine.Holds start world.now world.disk other ∨ other = name →
          engine.Holds start world.now after.disk other := by
  obtain ⟨program, disk, made, fits, stores⟩ := buildable.build_works here stocked
  cases ran.symm.trans stores.run
  have saved := stores.saved
  obtain ⟨template, compiled, generated⟩ := bind_eq_ok.mp stores.makes
  have named := generated_name compiled generated
  have ready := buildable.ready.kept stocked.kept
  have ready_after := ready.kept (Store.save_changes ready saved).1
  refine ⟨stocked.saved buildable.ready (named ▸ here) saved, rfl, rfl, ?_⟩
  intro other there held
  by_cases same : other = name
  · subst same
    have loaded := (Store.save_saved saved).load
    rw [generated_decodes generated proper fits, named] at loaded
    exact ⟨program, made, loaded⟩
  · obtain ⟨stored, stored_made, loaded⟩ := held.resolve_right same
    have different :
        folder ++ [Store.fileName other] ≠ folder ++ [Store.fileName program.name] := by
      rw [named]
      intro alike
      have files := List.singleton_inj.mp (List.append_cancel_left alike)
      exact same (buildable.apart.files there here files)
    refine ⟨stored, stored_made, ?_⟩
    rw [← loaded, Store.load_eq ready_after, Store.load_eq ready,
      (Store.save_changes ready saved).2 _ (Disk.child_apart folder _),
      Disk.lookup_set_of_ne different]

theorem builds_stock {names : List String} {after : World}
    (built : engine.Builds world names after)
    (all_here : ∀ name ∈ names, HasTemplate start root folder name)
    (stocked : Stocked root folder start world.disk) (proper : world.now.Proper) :
    Stocked root folder start after.disk ∧ after.now = world.now ∧
      after.compiles = world.compiles + names.length ∧
      ∀ other, HasTemplate start root folder other →
        engine.Holds start world.now world.disk other ∨ other ∈ names →
          engine.Holds start world.now after.disk other := by
  induction built with
  | nothing => exact ⟨stocked, rfl, rfl, fun other _ held => held.resolve_right List.not_mem_nil⟩
  | @one world middle after name names program ran _ later =>
      obtain ⟨here, others_here⟩ := List.forall_mem_cons.mp all_here
      obtain ⟨stocked, now, compiles, held⟩ := buildable.build_stocks here stocked proper ran
      rw [← now] at proper
      obtain ⟨last, last_now, last_compiles, last_held⟩ := later others_here stocked proper
      refine ⟨last, last_now.trans now, ?_, ?_⟩
      · rw [last_compiles, compiles, List.length_cons]
        omega
      · rw [now] at last_held
        intro other there before
        apply last_held other there
        rcases before with stored | member
        · exact .inl (held other there (.inl stored))
        · exact (List.mem_cons.mp member).imp_left fun first => held other there (.inr first)

end Buildable

theorem Builds.append {names others : List String} {middle after : World}
    (first : engine.Builds world names middle) (second : engine.Builds middle others after) :
    engine.Builds world (names ++ others) after := by
  induction first with
  | nothing => exact second
  | one ran _ later => exact .one ran (later second)

end Stocking

end Engine

end Letterpress
