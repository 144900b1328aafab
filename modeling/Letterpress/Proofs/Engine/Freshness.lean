import Letterpress.Proofs.Engine.Actions
import Letterpress.Proofs.Engine.Upkeep
import Letterpress.Proofs.Files.Edits

/-!
Stored programs while their sources change. A program names every file that went into it,
and with them every file that could make it come out otherwise. So if none of these looks
younger than the program, the files make the same program still. Stored programs that are
stale may be anything: they wait to be replaced.
-/

namespace Letterpress

open Files

section Staleness

variable {engine : Engine} {disk other : Disk} {program : Program} {among : String → Prop}

theorem stale_eq_false :
    engine.isStale disk program = false ↔
      ∀ source ∈ program.sources, ∃ path location entry,
        engine.sourcePath source = .ok path ∧ disk.entry path = .ok (location, entry) ∧
          entry.modified.isAfter program.compiledAt = false := by
  unfold Engine.isStale
  rw [List.any_eq_false]
  constructor
  · intro none_younger source member
    have not_younger := none_younger source member
    split at not_younger
    · exact absurd rfl not_younger
    · next path there =>
        split at not_younger
        · next location entry found =>
            exact ⟨path, location, entry, there, found, Bool.eq_false_iff.mpr not_younger⟩
        · exact absurd rfl not_younger
  · intro each source member
    obtain ⟨path, location, entry, there, found, old⟩ := each source member
    simp [there, found, old]

theorem Engine.Agree.fresh_same (agree : engine.Agree among disk other)
    (sources : ∀ source ∈ program.sources, among source)
    (fresh : engine.isStale disk program = false) : engine.isStale other program = false := by
  rw [stale_eq_false] at fresh ⊢
  intro source member
  obtain ⟨path, location, entry, there, found, old⟩ := fresh source member
  have same := agree source path (sources source member) there
  exact ⟨path, location, entry, there, same.trans found, old⟩

end Staleness

namespace Setting

variable (setting : Setting)

def on (disk : Disk) : Setting := { setting with disk }

/-- What a program would be replaced by if it were made again. -/
def Matches (disk : Disk) (name : String) (program : Program) : Prop :=
  ∃ made, (setting.on disk).Makes name made ∧ SameShow program made ∧
    program.sources = made.sources

/-- Files from which used templates can be made and stored: what is extended is used as
well, and doubles are written exactly. -/
structure Suited (disk : Disk) : Prop where
  closed : Template.Closed ((setting.engine {}).library disk) setting.used
  floats : ∀ name program, setting.used name → (setting.on disk).Makes name program →
    program.FloatsExact

/-- A disk where stored programs are stale or what the files make. -/
structure Coherent (disk : Disk) : Prop where
  mount : disk.mount = setting.disk.mount
  store : (setting.engine {}).store.Ready disk setting.folder
  grounded : Disk.Grounded setting.folder disk
  free : ∀ name, setting.used name → ∀ modified,
    disk.lookup (setting.folder ++ [Store.fileName name]) ≠ some (.folder modified)
  suited : setting.Suited disk
  stored : ∀ name program, setting.used name →
    (setting.engine {}).store.load? disk name = some program →
      (∀ source ∈ program.sources, setting.used source) ∧
        ((setting.engine {}).isStale disk program = false → setting.Matches disk name program)

/-- Times after all stored programs of used templates. -/
def Late (disk : Disk) (time : Instant) : Prop :=
  ∀ name program, setting.used name →
    (setting.engine {}).store.load? disk name = some program →
      time.isAfter program.compiledAt = true

/-- Files changed while no engine was at work. The folder of the store was left alone and
can still be reached, and all that is new is dated after what is stored. -/
structure Edited (before after : Disk) : Prop where
  files : Disk.Edited setting.folder (setting.Late before) before after
  alone : ∀ location, setting.folder <+: location →
    after.lookup location = before.lookup location
  there : ∃ modified, after.entry (setting.engine {}).store.directory =
    .ok (setting.folder, .folder modified)
  suited : setting.Suited after

end Setting

section Coherence

variable {setting : Setting} {disk after : Disk} {name : String} {program : Program}
  {template : Template} {now : Instant} {options : Options}

theorem engine_on (mount : disk.mount = setting.disk.mount) :
    (setting.on disk).engine = setting.engine := by
  funext options
  simp only [Setting.engine, Setting.on, Disk.pathOf, mount]

theorem compile_on (mount : disk.mount = setting.disk.mount) (name : String) :
    (setting.on disk).compile name = (setting.engine {}).compile disk name := by
  rw [Setting.compile, Setting.library, engine_on mount]
  rfl

/-- The sources of a program are all that its template was made from. -/
theorem matched_chain (mount : disk.mount = setting.disk.mount)
    (matched : setting.Matches disk name program) :
    ∃ template, (setting.engine {}).compile disk name = .ok template ∧
      program.sources = template.chain := by
  obtain ⟨made, ⟨template, now, compiled, generated⟩, _, same_sources⟩ := matched
  rw [compile_on mount] at compiled
  exact ⟨template, compiled, same_sources.trans (generate_eq_ok generated).2.1⟩

theorem matched_sources (suited : setting.Suited disk) (mount : disk.mount = setting.disk.mount)
    (used : setting.used name) (matched : setting.Matches disk name program) :
    ∀ source ∈ program.sources, setting.used source := by
  obtain ⟨template, compiled, chain⟩ := matched_chain mount matched
  rw [chain]
  exact Template.chain_used suited.closed used compiled

theorem matched_same (mount : disk.mount = setting.disk.mount)
    (mount_after : after.mount = setting.disk.mount)
    (same : (setting.engine {}).compile after name = (setting.engine {}).compile disk name)
    (matched : setting.Matches disk name program) : setting.Matches after name program := by
  obtain ⟨made, ⟨template, now, compiled, generated⟩, matches_made⟩ := matched
  refine ⟨made, ⟨template, now, ?_, generated⟩, matches_made⟩
  rw [compile_on mount_after, same, ← compile_on mount]
  exact compiled

/-- What is read where the program of a template was written is that program. -/
theorem matched_decoded {made : Program} (makes : (setting.on disk).Makes name made)
    (exact_floats : made.FloatsExact)
    (decoded : Store.decode? name made.encode.toUTF8 = some program) :
    setting.Matches disk name program := by
  obtain ⟨decodes, _⟩ := Store.decode_eq_some.mp decoded
  exact ⟨made, makes, (decoded_made makes exact_floats decoded).2,
    (Program.heading_of_encode decodes).2.1⟩

theorem Setting.Suited.agree (suited : setting.Suited disk)
    (mount : disk.mount = setting.disk.mount) (mount_after : after.mount = setting.disk.mount)
    (agree : (setting.engine {}).Agree setting.used disk after) : setting.Suited after where
  closed := by
    intro name text target offset used loaded extended
    exact suited.closed used ((agree.load_same used).symm.trans loaded) extended
  floats := by
    rintro name program used ⟨template, now, compiled, generated⟩
    refine suited.floats name program used ⟨template, now, ?_, generated⟩
    rw [compile_on mount, ← agree.compile_same suited.closed used, ← compile_on mount_after]
    exact compiled

/-- A change in the folder of the store, after which every stored program is one that was
stored before or is made from these files. -/
theorem Setting.Coherent.changed (coherent : setting.Coherent disk) (ready : setting.Ready)
    (changed : Disk.ChangedIn setting.folder disk after)
    (free : ∀ name, setting.used name → ∀ modified,
      after.lookup (setting.folder ++ [Store.fileName name]) ≠ some (.folder modified))
    (stored : ∀ name program, setting.used name →
      (setting.engine {}).store.load? after name = some program →
        (setting.engine {}).store.load? disk name = some program ∨
          setting.Matches disk name program) : setting.Coherent after := by
  have agree := agree_of_changed ready coherent.mount changed
  have mount_after := changed.mount.trans coherent.mount
  refine ⟨mount_after, coherent.store.kept changed, coherent.grounded.changed changed, free,
    coherent.suited.agree coherent.mount mount_after agree, ?_⟩
  intro name program used loaded
  have same := agree.compile_same coherent.suited.closed used
  rcases stored name program used loaded with before | matched
  · obtain ⟨sources, fresh_matched⟩ := coherent.stored name program used before
    refine ⟨sources, fun fresh => ?_⟩
    have fresh_before := agree.symm.fresh_same sources fresh
    exact matched_same coherent.mount mount_after same (fresh_matched fresh_before)
  · exact ⟨matched_sources coherent.suited coherent.mount used matched,
      fun _ => matched_same coherent.mount mount_after same matched⟩

theorem Setting.Coherent.shrunk (coherent : setting.Coherent disk) (ready : setting.Ready)
    (shrunk : Disk.ShrunkIn setting.folder disk after) : setting.Coherent after := by
  apply coherent.changed ready shrunk.changed
  · intro name used
    exact Store.free_shrunk shrunk (coherent.free name used)
  · intro name program used loaded
    exact .inl (Store.load_shrunk coherent.store shrunk loaded)

/-- Saving a program that was just made, under whatever name. -/
theorem Setting.Coherent.saved (coherent : setting.Coherent disk) (ready : setting.Ready)
    (compiled : (setting.engine options).compile disk name = .ok template)
    (generated : template.generate now = .ok program)
    (saved : (setting.engine options).store.save disk program now = (.ok (), after)) :
    setting.Coherent after := by
  apply coherent.changed ready (Store.save_changes coherent.store saved).1
  · intro other used
    exact Store.free_saved coherent.store saved (coherent.free other used)
  · intro other loaded_program used loaded
    rcases Store.load_saved coherent.store saved loaded with before | read
    · exact .inl before
    · -- the name inside decides, also where two names share a file
      obtain ⟨decodes, carries⟩ := Store.decode_eq_some.mp read
      have makes : (setting.on disk).Makes name program :=
        ⟨template, now, (compile_on coherent.mount name).trans compiled, generated⟩
      have same_name : other = name := by
        rw [← carries, (Program.heading_of_encode decodes).1, made_name makes]
      subst same_name
      have exact_floats := coherent.suited.floats other program used makes
      exact .inr (matched_decoded makes exact_floats read)

theorem Setting.Coherent.upheld (ready : setting.Ready) (options : Options) :
    (setting.engine options).Upholds setting.Coherent where
  saves := by
    intro disk name template program now coherent compiled generated
    rcases saved : (setting.engine options).store.save disk program now with ⟨outcome, after⟩
    cases outcome with
    | ok done => exact coherent.saved ready compiled generated saved
    | error error => exact coherent.shrunk ready (Store.save_fails_shrinks coherent.store saved)
  removes := fun coherent removed =>
    coherent.shrunk ready (Store.remove_shrinks coherent.store removed)
  clears := fun coherent => coherent.shrunk ready (Store.clear_shrinks coherent.store _)

theorem Setting.Ready.coherent (ready : setting.Ready)
    (grounded : Disk.Grounded setting.folder setting.disk) : setting.Coherent setting.disk where
  mount := rfl
  store := ready.store
  grounded := grounded
  free := ready.free
  suited := ⟨ready.closed, ready.floats⟩
  stored := by
    intro name program used loaded
    rw [Store.load_eq ready.store] at loaded
    split at loaded
    · next content modified held =>
        rcases ready.stored name used content modified held with unreadable | ⟨made, makes, rfl⟩
        · rw [unreadable] at loaded
          cases loaded
        · have matched : setting.Matches setting.disk name program :=
            matched_decoded makes (ready.floats name made used makes) loaded
          exact ⟨matched_sources ⟨ready.closed, ready.floats⟩ rfl used matched, fun _ => matched⟩
    · cases loaded

/-- Sources that do not look changed are not changed. -/
theorem agree_of_fresh (coherent : setting.Coherent disk) (ready : setting.Ready)
    (edited : setting.Edited disk after) (used : setting.used name)
    (loaded : (setting.engine {}).store.load? disk name = some program)
    (fresh : (setting.engine {}).isStale after program = false) :
    (setting.engine {}).Agree (· ∈ program.sources) disk after := by
  intro source path member there
  have source_used := (coherent.stored name program used loaded).1 source member
  obtain ⟨parts, below, down, apart⟩ := source_parts ready source_used there
  rw [← Disk.parts_below_same (edited.files.mount.trans coherent.mount)] at below
  obtain ⟨_, location, entry, there_again, found, old⟩ :=
    stale_eq_false.mp fresh source member
  cases there.symm.trans there_again
  have location_apart : ¬setting.folder <+: location := by
    obtain ⟨others, checked, followed⟩ := Disk.locate_eq_ok.mp (Disk.entry_eq_ok.mp found).1
    cases below.symm.trans (Disk.checked_eq_ok.mp checked).2.2
    rw [Disk.follow_straight down followed]
    exact apart
  have not_late : ¬setting.Late disk entry.modified := by
    intro late
    rw [late name program used loaded] at old
    cases old
  have found_before :=
    edited.files.entry_before coherent.grounded below down found location_apart not_late
  exact found.trans found_before.symm

theorem Setting.Coherent.edited (coherent : setting.Coherent disk) (ready : setting.Ready)
    (edited : setting.Edited disk after) : setting.Coherent after := by
  have mount_after := edited.files.mount.trans coherent.mount
  have store_after : (setting.engine {}).store.Ready after setting.folder :=
    { formed :=
        { absolute := by rw [mount_after]; exact ready.store.formed.absolute
          named := by rw [mount_after]; exact ready.store.formed.named
          names := edited.files.names coherent.store.formed.names }
      there := edited.there
      short := coherent.store.short }
  have inside (name : String) : after.lookup (setting.folder ++ [Store.fileName name]) =
      disk.lookup (setting.folder ++ [Store.fileName name]) :=
    edited.alone _ (List.prefix_append setting.folder [Store.fileName name])
  refine ⟨mount_after, store_after, edited.files.grounded coherent.grounded, ?_, edited.suited, ?_⟩
  · intro name used modified
    rw [inside name]
    exact coherent.free name used modified
  · intro name program used loaded
    rw [Store.load_eq store_after, inside name, ← Store.load_eq coherent.store] at loaded
    obtain ⟨sources, fresh_matched⟩ := coherent.stored name program used loaded
    refine ⟨sources, fun fresh => ?_⟩
    have agree := agree_of_fresh coherent ready edited used loaded fresh
    have matched := fresh_matched (agree.symm.fresh_same (fun _ member => member) fresh)
    obtain ⟨template, compiled, chain⟩ := matched_chain coherent.mount matched
    have closed : Template.Closed ((setting.engine {}).library disk) (· ∈ program.sources) := by
      rw [chain]
      exact Template.chain_closed compiled
    have own : name ∈ program.sources := by
      rw [chain, ← Template.compile_from_name compiled]
      exact List.mem_cons_self
    exact matched_same coherent.mount mount_after (agree.compile_same closed own) matched

/-- A single change made late is such an edit, if it keeps away from the folder of the store
and leaves files that suit. -/
theorem edited_of_change (change : Disk.Change) (late : setting.Late disk now)
    (dated : ∀ date ∈ change.date?, setting.Late disk date)
    (alone : ∀ location, setting.folder <+: location →
      (disk.make now change).lookup location = disk.lookup location)
    (there : ∃ modified, (disk.make now change).entry (setting.engine {}).store.directory =
      .ok (setting.folder, .folder modified))
    (suited : setting.Suited (disk.make now change)) :
    setting.Edited disk (disk.make now change) where
  files := Disk.make_edited change late dated
  alone := alone
  there := there
  suited := suited

end Coherence

end Letterpress
