import Letterpress.Proofs.Engine.Transparency
import Letterpress.Proofs.Instant
import Letterpress.Proofs.Program.Simulation
import Letterpress.Proofs.Program.Stored

/-!
What a render leaves behind. A build that fails has at most modified the folder of the store,
since a file on its way into its place is dropped again. One that does not fail has changed
the one file of its program, and the file reads back as the program, but for the doubles in it.
-/

namespace Letterpress

open Files

/-- Nothing was compiled, no file came, went or changed, and no folder came or went. -/
structure World.Untouched (before after : World) : Prop where
  compiles : after.compiles = before.compiles
  now : after.now = before.now
  disk : Disk.Touched before.disk after.disk

theorem World.Untouched.refl (world : World) : Untouched world world := ⟨rfl, rfl, .refl _⟩

namespace Engine

/-- A template was compiled and its program stored, and nothing else happened. The file is
read if memory can have the lengths of the program and a date can have its time: as the
program with its doubles read again, which is the program if its doubles are exact. -/
structure Rebuilt (engine : Engine) (name : String) (before after : World) : Prop where
  compiles : after.compiles = before.compiles + 1
  now : after.now = before.now
  program : ∃ template program, engine.compile before.disk name = .ok template ∧
    template.generate before.now = .ok program ∧
    engine.store.Saved name program.encode.toUTF8 before.disk after.disk ∧
    (before.now.Proper → program.FitsMemory →
      engine.store.load? after.disk name = some program.reread) ∧
    (program.FloatsExact → program.reread = program)

/-- A program is made of a template, and the store takes it. -/
structure Stores (engine : Engine) (name : String) (world : World) (program : Program)
    (disk : Disk) : Prop where
  makes : engine.make name world.disk world.now = .ok program
  saved : engine.store.save world.disk program world.now = (.ok (), disk)

section Steps

variable {engine : Engine} {name : String} {world after : World} {program : Program}
  {disk : Disk}

theorem Stores.run (stores : engine.Stores name world program disk) :
    (engine.build name).run.run world =
      (.ok program, { world with disk, compiles := world.compiles + 1 }) := by
  rw [build_run, stores.makes]
  dsimp only
  rw [stores.saved]

theorem generated_decodes {template : Template} {now : Instant}
    (generated : template.generate now = .ok program) (proper : now.Proper)
    (fits : program.FitsMemory) :
    Store.decode? program.name program.encode.toUTF8 = some program.reread := by
  have read := (Program.generated_reads generated fits (Instant.read_text proper)).2
  exact Store.decode_eq_some.mpr ⟨read, rfl⟩

theorem Stores.rebuilt (stores : engine.Stores name world program disk) :
    engine.Rebuilt name world { world with disk, compiles := world.compiles + 1 } := by
  obtain ⟨template, compiled, generated⟩ := bind_eq_ok.mp stores.makes
  have named := generated_name compiled generated
  have kept := Store.save_saved stores.saved
  rw [named] at kept
  refine ⟨rfl, rfl, template, program, compiled, generated, kept, ?_,
    Program.reread_of_exact generated⟩
  intro proper fits
  rw [kept.load, ← named]
  exact generated_decodes generated proper fits

theorem Stores.loaded (stores : engine.Stores name world program disk) (proper : world.now.Proper)
    (whole : program.KeptWhole) : engine.store.load? disk name = some program := by
  obtain ⟨template, made, compiled, generated, -, reads, unchanged⟩ := stores.rebuilt.program
  cases stores.makes.symm.trans (bind_eq_ok.mpr ⟨template, compiled, generated⟩)
  have read := reads proper whole.fits
  rwa [unchanged whole.exact_floats] at read

def HasSource (engine : Engine) (disk : Disk) (name : String) : Prop :=
  ∃ path, engine.sourcePath name = .ok path ∧ disk.isFile path = true

theorem HasSource.kept {location : Location} {content : ByteArray} {after : Disk}
    (source : engine.HasSource disk name) (replaced : Disk.Replaced location content disk after) :
    engine.HasSource after name := by
  obtain ⟨path, there, is_file⟩ := source
  refine ⟨path, there, ?_⟩
  unfold Disk.isFile at is_file
  split at is_file
  · next place held since found =>
      obtain ⟨located, stands⟩ := Disk.entry_eq_ok.mp found
      obtain ⟨bytes, dated, stands_after⟩ := replaced.file stands
      rw [Disk.isFile, Disk.entry_eq_ok.mpr ⟨replaced.located located, stands_after⟩]
  · cases is_file

theorem source_of_load {text : String} (loaded : engine.load disk name = .ok text) :
    engine.HasSource disk name := by
  unfold load at loaded
  split at loaded
  · cases loaded
  · next path there =>
      refine ⟨path, there, ?_⟩
      cases read : disk.readText path with
      | error failure =>
          rw [read] at loaded
          cases failure <;> cases loaded
      | ok held =>
          simp only [Disk.readText, Disk.read, bind_eq_ok] at read
          obtain ⟨content, ⟨⟨location, entry⟩, found, opened⟩, -⟩ := read
          rw [Disk.isFile, found]
          cases entry with
          | file content modified => rfl
          | folder modified => cases opened

theorem source_of_compile {template : Template} (compiled : engine.compile disk name = .ok template) :
    engine.HasSource disk name := by
  obtain ⟨text, loaded⟩ := Template.load_of_compile compiled
  exact source_of_load loaded

theorem stored_none (missing : engine.store.load? disk name = none) :
    engine.stored? disk name = none := by
  unfold stored?
  rw [missing]

theorem source_path_error {error : TemplateError}
    (refused : engine.sourcePath name = .error error) : error = .notFound name := by
  unfold sourcePath at refused
  split at refused
  · cases refused
  · cases refused
    rfl

theorem program_missing (missing : ¬engine.HasSource world.disk name) :
    (engine.program name).run.run world = (.error (.notFound name), world) := by
  unfold Engine.program
  rw [run_bind, run_outcome]
  cases there : engine.sourcePath name with
  | error error =>
      cases source_path_error there
      rfl
  | ok path =>
      have no_file : world.disk.isFile path = false :=
        Bool.eq_false_iff.mpr fun is_file => missing ⟨path, there, is_file⟩
      dsimp only
      rw [run_bind, run_get]
      dsimp only
      rw [no_file]
      rfl

theorem program_of_source (source : engine.HasSource world.disk name)
    (cached : engine.options.isCached = true) :
    (engine.program name).run.run world =
      match engine.stored? world.disk name with
      | some program => (.ok program, world)
      | none => (engine.build name).run.run world := by
  obtain ⟨path, there, is_file⟩ := source
  unfold Engine.program
  rw [run_bind, run_outcome, there]
  dsimp only
  rw [run_bind, run_get]
  dsimp only
  rw [is_file, cached]
  cases engine.stored? world.disk name <;> rfl

theorem program_uncached {path : String} (there : engine.sourcePath name = .ok path)
    (is_file : world.disk.isFile path = true) (uncached : engine.options.isCached = false) :
    (engine.program name).run.run world = (engine.build name).run.run world := by
  unfold Engine.program
  rw [run_bind, run_outcome, there]
  dsimp only
  rw [run_bind, run_get]
  dsimp only
  rw [is_file, uncached]
  rfl

end Steps

def letterWorld : World := ⟨letters.disk, 0, .ofSeconds 1⟩

theorem letter_generated : ∃ program,
    (Template.assemble "letter.html" (Template.readSource "Dear {{ name }}") [] >>=
      fun template => template.generate (.ofSeconds 1)) = .ok program ∧ program.KeptWhole := by
  have made : ((Template.assemble "letter.html" (Template.readSource "Dear {{ name }}") [] >>=
      fun template => template.generate (.ofSeconds 1)).toOption.any
        fun program => decide program.FitsMemory) = true := by
    decide +kernel
  obtain ⟨program, generated, fits⟩ := (Option.any_eq_true _ _).mp made
  have made := toOption_eq_some.mp generated
  obtain ⟨template, assembled, generated⟩ := bind_eq_ok.mp made
  exact ⟨program, made, of_decide_eq_true fits,
    Program.exact_of_pushless letter_read.2.2.1 assembled generated⟩

theorem letter_compiled : (letters.engine {}).compile letters.disk "letter.html" =
    Template.assemble "letter.html" (Template.readSource "Dear {{ name }}") [] :=
  Template.compile_alone (toOption_eq_some.mp letter_read.1) letter_read.2.1

theorem letter_made : ∃ template program,
    (letters.engine {}).compile letters.disk "letter.html" = .ok template ∧
      template.generate letterWorld.now = .ok program ∧ program.KeptWhole := by
  obtain ⟨program, made, whole⟩ := letter_generated
  rw [← letter_compiled] at made
  obtain ⟨template, compiled, generated⟩ := bind_eq_ok.mp made
  exact ⟨template, program, compiled, generated, whole⟩

theorem letter_there : (letters.engine {}).options.isCached = false ∧
    ((letters.engine {}).sourcePath "letter.html").toOption = some "/srv/letter.html" ∧
      letters.disk.isFile "/srv/letter.html" = true := by
  decide

theorem letter_located : letters.disk.locate "/srv/letter.html" = .ok ["letter.html"] := by
  apply toOption_eq_some.mp
  decide

/-- A program that shows a literal shows it as it is read again after it was stored. -/
theorem literal_of_reread {program : Program} {value : Value}
    (shows : program.literal? = some value) : program.reread.literal? = some value.reread := by
  rw [Program.literal?, Program.reread, Program.instructions_of_literal shows]
  rfl

/-- The letter with a number in place of its text. -/
def figures : Disk :=
  letters.disk.set ["letter.html"] (.file "{{ 0.9999999999999999 }}".toUTF8 (.ofSeconds 0))

def figuresEngine : Engine := letters.engine { cached := some true }

theorem figures_generated : ∃ program,
    (Template.assemble "letter.html" (Template.readSource "{{ 0.9999999999999999 }}") [] >>=
      fun template => template.generate (.ofSeconds 1)) = .ok program ∧ program.FitsMemory ∧
      ∀ context, program.execute context = .ok "0.9999999999999999" ∧
        program.reread.execute context = .ok "1" := by
  have made : ((Template.assemble "letter.html" (Template.readSource "{{ 0.9999999999999999 }}")
      [] >>= fun template => template.generate (.ofSeconds 1)).toOption.any fun program =>
        decide program.FitsMemory && program.literal?.any fun value =>
          value.display == "0.9999999999999999" && value.reread.display == "1") = true := by
    decide +kernel
  obtain ⟨program, generated, facts⟩ := (Option.any_eq_true _ _).mp made
  rw [Bool.and_eq_true, decide_eq_true_eq] at facts
  obtain ⟨fits, shown⟩ := facts
  obtain ⟨value, shows, texts⟩ := (Option.any_eq_true _ _).mp shown
  rw [Bool.and_eq_true, beq_iff_eq, beq_iff_eq] at texts
  refine ⟨program, toOption_eq_some.mp generated, fits, fun context => ⟨?_, ?_⟩⟩
  · rw [Program.execute_literal shows, texts.1]
  · rw [Program.execute_literal (literal_of_reread shows), texts.2]

theorem figures_store : figuresEngine.store.Ready figures letters.folder :=
  letters_store.kept (letters_overwritten _ _)

theorem figures_found : (figuresEngine.load figures "letter.html").toOption =
      some "{{ 0.9999999999999999 }}" ∧
    (Template.readSource "{{ 0.9999999999999999 }}").parent = none ∧
    figuresEngine.options.isCached = true := by
  decide +kernel

theorem figures_apart (name : String) :
    figures.lookup (letters.folder ++ [Store.fileName name]) =
      letters.disk.lookup (letters.folder ++ [Store.fileName name]) := by
  refine Disk.lookup_set_of_ne fun same => ?_
  cases congrArg List.length same

theorem figures_free {name : String} (named : name = "letter.html") (since : Instant) :
    figures.lookup (letters.folder ++ [Store.fileName name]) ≠ some (.folder since) := by
  rw [figures_apart, named]
  exact letters_ready.free "letter.html" rfl since

theorem figures_compiled : figuresEngine.compile figures "letter.html" =
    Template.assemble "letter.html" (Template.readSource "{{ 0.9999999999999999 }}") [] :=
  Template.compile_alone (toOption_eq_some.mp figures_found.1) figures_found.2.1

theorem figures_unstored : figuresEngine.stored? figures "letter.html" = none := by
  apply stored_none
  rw [Store.load_eq figures_store, figures_apart]
  unfold letters
  generalize Store.fileName "letter.html" = file
  simpa [Disk.lookup, Disk.find?] using letter_read.2.2.2

theorem figures_build : ∃ program disk,
    figuresEngine.Stores "letter.html" ⟨figures, 0, .ofSeconds 1⟩ program disk ∧
      program.FitsMemory ∧ ∀ context, program.execute context = .ok "0.9999999999999999" ∧
        program.reread.execute context = .ok "1" := by
  obtain ⟨program, generated, fits, shown⟩ := figures_generated
  have makes : figuresEngine.make "letter.html" figures (.ofSeconds 1) = .ok program := by
    rw [make, figures_compiled]
    exact generated
  obtain ⟨template, compiled, generated⟩ := bind_eq_ok.mp makes
  obtain ⟨disk, saved⟩ := Store.save_works figures_store (.ofSeconds 1)
    (figures_free (generated_name compiled generated))
  exact ⟨program, disk, ⟨makes, saved⟩, fits, shown⟩

/-- The first to ask for the program builds it, and the next finds another in its place. -/
theorem figures_gotten : ∃ program disk,
    figuresEngine.make "letter.html" figures (.ofSeconds 1) = .ok program ∧
    program.FitsMemory ∧
    (figuresEngine.program "letter.html").run.run ⟨figures, 0, .ofSeconds 1⟩ =
      (.ok program, ⟨disk, 1, .ofSeconds 1⟩) ∧
    figuresEngine.store.load? disk "letter.html" = some program.reread ∧
    (figuresEngine.program "letter.html").run.run ⟨disk, 1, .ofSeconds 1⟩ =
      (.ok program.reread, ⟨disk, 1, .ofSeconds 1⟩) ∧
    ∀ context, program.execute context = .ok "0.9999999999999999" ∧
      program.reread.execute context = .ok "1" := by
  obtain ⟨program, disk, stores, fits, shown⟩ := figures_build
  obtain ⟨loaded, -, cached⟩ := figures_found
  have source : figuresEngine.HasSource (World.mk figures 0 (.ofSeconds 1)).disk "letter.html" :=
    source_of_load (toOption_eq_some.mp loaded)
  obtain ⟨template, other, compiled, generated, saved, reads, -⟩ := stores.rebuilt.program
  cases stores.makes.symm.trans (bind_eq_ok.mpr ⟨template, compiled, generated⟩)
  have read := reads (by decide) fits
  refine ⟨program, disk, stores.makes, fits, ?_, read, ?_, shown⟩
  · refine (program_of_source source cached).trans ?_
    dsimp only
    rw [figures_unstored]
    exact stores.run
  · obtain ⟨location, -, -, replaced⟩ := saved
    have source_after :
        figuresEngine.HasSource (World.mk disk 1 (.ofSeconds 1)).disk "letter.html" :=
      source.kept replaced
    have stored : figuresEngine.stored? disk "letter.html" = some program.reread :=
      stored_eq_some.mpr ⟨read, nofun⟩
    refine (program_of_source source_after cached).trans ?_
    dsimp only
    rw [stored]

theorem ne_of_pages {program other : Program} {context : Value} {page page_of_other : String}
    (shows : program.execute context = .ok page)
    (other_shows : other.execute context = .ok page_of_other) (different : page ≠ page_of_other) :
    program ≠ other := by
  rintro rfl
  exact different (Except.ok.inj (shows.symm.trans other_shows))

end Engine

end Letterpress
