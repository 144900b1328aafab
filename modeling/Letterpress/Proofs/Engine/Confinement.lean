import Letterpress.Proofs.Engine.Frame
import Letterpress.Proofs.Engine.Setting
import Letterpress.Proofs.Template.Search

/-!
What an engine can reach. A name leads into the template directory or nowhere: names that
could lead out of it are refused before anything on the disk is looked at, wherever they
come from, and what is outside of the directory makes no difference to what the others
give. All files inside can be reached by the names that they get in a walk.
-/

namespace Letterpress

open Files

namespace Engine

variable {engine : Engine} {disk other : Disk} {root : Location} {name path : String}

/-- An engine whose template directory is a folder of a disk. -/
structure Rooted (engine : Engine) (disk : Disk) (root : Location) : Prop where
  formed : disk.WellFormed
  directory : engine.directory = disk.pathOf root
  folders : disk.FolderPath root

/-- How an engine answers to a name that can be no template's: in the same way on every disk,
and with nothing done. -/
structure Refuses (engine : Engine) (name : String) : Prop where
  path : engine.sourcePath name = .error (.notFound name)
  load : ∀ disk, engine.load disk name = .error (.notFound name)
  compile : ∀ disk, engine.compile disk name = .error (.notFound name)
  program : ∀ world, (engine.program name).run.run world = (.error (.notFound name), world)
  build : ∀ world, (engine.build name).run.run world = (.error (.notFound name), world)
  /-- A context that is none is told first. -/
  renderValue : ∀ value world, (engine.renderValue name value).run.run world =
    ((contextOf value).bind fun _ => .error (.notFound name), world)
  stale : ∀ disk program, name ∈ program.sources → engine.isStale disk program = true

theorem source_path_eq_ok :
    engine.sourcePath name = .ok path ↔
      Path.Confined name ∧ path = Path.join engine.directory name := by
  unfold sourcePath
  by_cases inside : Path.staysInside name = true
  · rw [if_pos inside]
    constructor
    · intro same
      cases same
      exact ⟨Path.stays_inside_iff.mp inside, rfl⟩
    · rintro ⟨-, rfl⟩
      rfl
  · rw [if_neg inside]
    constructor
    · nofun
    · rintro ⟨confined, -⟩
      exact absurd (Path.stays_inside_iff.mpr confined) inside

theorem source_path_of_confined (confined : Path.Confined name) :
    engine.sourcePath name = .ok (Path.join engine.directory name) :=
  source_path_eq_ok.mpr ⟨confined, rfl⟩

theorem source_path_refused (escapes : ¬Path.Confined name) :
    engine.sourcePath name = .error (.notFound name) := by
  unfold sourcePath
  rw [if_neg fun inside => escapes (Path.stays_inside_iff.mp inside)]

theorem refuses (escapes : ¬Path.Confined name) : engine.Refuses name := by
  have path : engine.sourcePath name = .error (.notFound name) := source_path_refused escapes
  have load (disk : Disk) : engine.load disk name = .error (.notFound name) := by
    rw [Engine.load, path]
  have compile (disk : Disk) : engine.compile disk name = .error (.notFound name) :=
    Template.compile_refused (load disk)
  have program (world : World) :
      (engine.program name).run.run world = (.error (.notFound name), world) := by
    rw [Engine.program, run_bind, run_outcome, path]
  refine ⟨path, load, compile, program, ?_, ?_, ?_⟩
  · intro world
    rw [Engine.build, run_bind, run_get]
    dsimp only
    rw [Engine.build.liftExcept, run_bind, run_outcome, compile]
  · intro value world
    rw [Engine.renderValue, run_bind, run_outcome]
    cases contextOf value with
    | error error => rfl
    | ok context =>
        dsimp only
        rw [run_bind, program]
        rfl
  · intro disk program member
    refine List.any_eq_true.mpr ⟨name, member, ?_⟩
    rw [path]

namespace Rooted

variable (rooted : engine.Rooted disk root)
include rooted

theorem names : ∀ part ∈ root, Path.IsName part := by
  obtain ⟨modified, held⟩ := rooted.folders root List.prefix_rfl
  exact rooted.formed.names _ (Disk.mem_of_find? held)

/-- The parts of the path of a source go straight down from the root. -/
theorem source_below (there : engine.sourcePath name = .ok path) :
    disk.partsBelow? path = some (root ++ Path.parts name) ∧ ".." ∉ root ++ Path.parts name ∧
      (root ++ Path.parts name).filter (fun part => !Path.isIdle part) =
        root ++ Path.components name := by
  obtain ⟨confined, rfl⟩ := source_path_eq_ok.mp there
  rw [rooted.directory]
  refine ⟨?_, ?_, ?_⟩
  · exact Disk.parts_below_location rooted.formed.toMounted rooted.names confined.relative
  · intro dots
    rcases List.mem_append.mp dots with in_root | in_name
    · exact (rooted.names _ in_root).down rfl
    · exact confined.level in_name
  · rw [List.filter_append, Path.names_lead rooted.names]
    rfl

/-- What the path of a source leads to is where its name says, below the root. -/
theorem source_found (there : engine.sourcePath name = .ok path) {location : Location}
    {entry : Entry} (found : disk.entry path = .ok (location, entry)) :
    location = root ++ Path.components name := by
  obtain ⟨below, down, straight⟩ := rooted.source_below there
  obtain ⟨parts, checked, followed⟩ := Disk.locate_eq_ok.mp (Disk.entry_eq_ok.mp found).1
  cases below.symm.trans (Disk.checked_eq_ok.mp checked).2.2
  rw [Disk.follow_straight down followed, List.nil_append, straight]

/-- What lies outside of the root makes no difference to any source. -/
theorem source_same (also : engine.Rooted other root) (mount : other.mount = disk.mount)
    (same : ∀ location, root <+: location → other.lookup location = disk.lookup location)
    (there : engine.sourcePath name = .ok path) : other.entry path = disk.entry path := by
  obtain ⟨below, down, straight⟩ := rooted.source_below there
  have kinds : ∀ location, [] <+: location →
      location <+: [] ++ (root ++ Path.parts name).filter (fun part => !Path.isIdle part) →
        (other.lookup location).map Entry.isFile = (disk.lookup location).map Entry.isFile := by
    intro location _ before
    rw [List.nil_append, straight] at before
    rcases List.prefix_or_prefix_of_prefix before (List.prefix_append root _) with above | inside
    · obtain ⟨modified, held⟩ := rooted.folders location above
      obtain ⟨since, other_held⟩ := also.folders location above
      rw [held, other_held]
      rfl
    · rw [same location inside]
  obtain ⟨followed, leads⟩ := Disk.follow_along down kinds
  have located : other.locate path = disk.locate path := by
    unfold Disk.locate
    rw [Disk.checked_same mount]
    cases checked : disk.checkedParts path with
    | error failure => rfl
    | ok parts =>
        cases below.symm.trans (Disk.checked_eq_ok.mp checked).2.2
        exact followed
  rw [Disk.entry, Disk.entry, located]
  cases here : disk.locate path with
  | error failure => rfl
  | ok location =>
      obtain ⟨parts, checked, parts_followed⟩ := Disk.locate_eq_ok.mp here
      cases below.symm.trans (Disk.checked_eq_ok.mp checked).2.2
      have inside : root <+: location := by
        rw [leads location parts_followed, List.nil_append, straight]
        exact List.prefix_append root _
      simp only [bind, Except.bind, same location inside]

theorem agree (also : engine.Rooted other root) (mount : other.mount = disk.mount)
    (same : ∀ location, root <+: location → other.lookup location = disk.lookup location) :
    engine.Agree (fun _ => True) disk other :=
  fun _ _ _ there => rooted.source_same also mount same there

end Rooted

theorem stale_same {program : Program} (agree : engine.Agree (fun _ => True) disk other) :
    engine.isStale other program = engine.isStale disk program := by
  unfold isStale
  congr 1
  funext source
  cases there : engine.sourcePath source with
  | error error => rfl
  | ok path =>
      dsimp only
      rw [agree source path trivial there]

theorem Rooted.kept {folder : Location} (rooted : engine.Rooted disk root)
    (kept : Disk.ChangedIn folder disk other) : engine.Rooted other root where
  formed := rooted.formed.kept kept
  directory := by rw [rooted.directory, Disk.pathOf, Disk.pathOf, kept.mount]
  folders := kept.folders rooted.folders

/-- An engine is rooted on the disk that it is opened on, before and after. -/
theorem rooted_of_open {directory : String} {options : Options} {now : Instant} {opened : Disk}
    (formed : disk.WellFormed) (opens : openAt disk directory options now = (.ok engine, opened)) :
    ∃ root, engine.Rooted disk root ∧ engine.Rooted opened root := by
  have spared := (open_at_houses formed opens).1
  obtain ⟨location, modified, found, rfl, -⟩ := open_eq_ok opens
  have folders := (Disk.entry_kept found rfl id).1
  exact ⟨location, ⟨formed, rfl, folders⟩, Rooted.kept ⟨formed, rfl, folders⟩ spared.kept⟩

theorem template_name_of_components {names : List String}
    (absolute : Path.isAbsolute path = Path.isAbsolute engine.directory)
    (along : Path.components path = Path.components engine.directory ++ names) :
    engine.templateName? path = some ("/".intercalate names) := by
  have starts : (Path.components engine.directory).isPrefixOf (Path.components path) = true := by
    rw [along, List.isPrefixOf_iff_prefix]
    exact List.prefix_append _ names
  simp only [templateName?, absolute, BEq.rfl, starts, Bool.and_self, if_true]
  rw [along, List.drop_left]

structure ConfinedTo (engine : Engine) (disk : Disk) (root : Location) : Prop where
  /-- Whatever is found is below the root, where its name says. -/
  found : ∀ name path location entry, engine.sourcePath name = .ok path →
    disk.entry path = .ok (location, entry) → location = root ++ Path.components name
  /-- The rest of the disk makes no difference, as long as the root is there. -/
  apart : ∀ other, engine.Rooted other root → other.mount = disk.mount →
    (∀ location, root <+: location → other.lookup location = disk.lookup location) →
      (∀ name, engine.load other name = engine.load disk name ∧
        engine.compile other name = engine.compile disk name) ∧
      ∀ program, engine.isStale other program = engine.isStale disk program
  /-- The name of a file below the root leads to the file, however its path is spelled. -/
  named : ∀ names content modified, disk.lookup (root ++ names) = some (.file content modified) →
    engine.sourcePath ("/".intercalate names) = .ok (disk.pathOf (root ++ names)) ∧
      ∀ path, Path.isAbsolute path = true →
        Path.components path = Path.components (disk.pathOf (root ++ names)) →
          engine.templateName? path = some ("/".intercalate names)

theorem Rooted.path_of_below (rooted : engine.Rooted disk root) (names : List String) :
    disk.pathOf (root ++ names) = names.foldl Path.join engine.directory := by
  rw [rooted.directory, Disk.pathOf, Disk.pathOf, List.foldl_append]

theorem Rooted.file_named (rooted : engine.Rooted disk root) {names : List String}
    {content : ByteArray} {modified : Instant}
    (held : disk.lookup (root ++ names) = some (.file content modified)) :
    engine.sourcePath ("/".intercalate names) = .ok (disk.pathOf (root ++ names)) ∧
      ∀ path, Path.isAbsolute path = true →
        Path.components path = Path.components (disk.pathOf (root ++ names)) →
          engine.templateName? path = some ("/".intercalate names) := by
  have mounted := rooted.formed.toMounted
  have all_names : ∀ name ∈ names, Path.IsName name := fun name member =>
    rooted.formed.names _ (Disk.mem_of_find? held) name (List.mem_append_right root member)
  -- The root is a folder, so the file has a name of its own.
  have some_name : names ≠ [] := by
    rintro rfl
    obtain ⟨since, folder⟩ := rooted.folders root List.prefix_rfl
    rw [List.append_nil, folder] at held
    cases held
  obtain ⟨found, closed⟩ := Disk.parts_of_path_of mounted rooted.names
  have some_text := Disk.below_not_empty mounted found
  rw [← rooted.directory] at closed some_text
  rw [rooted.path_of_below]
  refine ⟨?_, ?_⟩
  · rw [source_path_of_confined (Path.confined_of_names some_name all_names),
      Path.join_intercalate some_text closed some_name all_names]
  · intro path absolute same
    rw [Path.components_of_names _ all_names] at same
    have top : Path.isAbsolute engine.directory = true := by
      rw [rooted.directory, Disk.pathOf, Path.absolute_of_names _ rooted.names]
      exact mounted.absolute
    exact template_name_of_components (absolute.trans top.symm) same

theorem Rooted.confined (rooted : engine.Rooted disk root) : engine.ConfinedTo disk root where
  found _ _ _ _ there held := rooted.source_found there held
  apart other also mount same := by
    have agree := rooted.agree also mount same
    refine ⟨fun name => ⟨agree.load_same trivial, ?_⟩, fun program => stale_same agree⟩
    exact agree.compile_same (fun _ _ _ => trivial) trivial
  named _ _ _ held := rooted.file_named held

/-- Only names that say how to go down, and nothing else, are taken for those of templates.
Their paths go on from the template directory by names. All other names are refused wherever
they come up, and a search for what texts extend ends at the first of them. So whatever is read
as a template lies in the template directory, and all files there have names to be read by. -/
theorem templates_confined (engine : Engine) :
    (∀ name path, engine.sourcePath name = .ok path ↔
      (name ≠ "" ∧ Path.isAbsolute name = false ∧ ".." ∉ Path.parts name) ∧
        path = Path.join engine.directory name) ∧
      (∀ name path, engine.sourcePath name = .ok path →
        Path.isAbsolute path = Path.isAbsolute engine.directory ∧
          Path.components path = Path.components engine.directory ++ Path.components name ∧
            ∀ part ∈ Path.components name, Path.IsName part) ∧
      (∀ name, (∀ path, engine.sourcePath name ≠ .ok path) → engine.Refuses name) ∧
      (∀ disk name, ∃ asked,
        (engine.library disk).loader.search [name] name =
            some ⟨asked, engine.compile disk name⟩ ∧
          ∀ wanted ∈ asked, engine.Refuses wanted →
            asked.getLast? = some wanted ∧
              engine.compile disk name = .error (.notFound wanted)) ∧
      (∀ disk root, engine.Rooted disk root → engine.ConfinedTo disk root) ∧
      ∀ disk directory options now opened, disk.WellFormed →
        openAt disk directory options now = (.ok engine, opened) →
          ∃ root, engine.Rooted disk root ∧ engine.Rooted opened root := by
  refine ⟨?_, ?_, ?_, ?_, fun disk root rooted => rooted.confined, ?_⟩
  · intro name path
    rw [source_path_eq_ok]
    exact and_congr_left fun _ =>
      ⟨fun ⟨some_text, relative, level⟩ => ⟨some_text, relative, level⟩,
        fun ⟨some_text, relative, level⟩ => ⟨some_text, relative, level⟩⟩
  · intro name path there
    obtain ⟨confined, rfl⟩ := source_path_eq_ok.mp there
    refine ⟨Path.join_absolute _ confined.relative, Path.components_join _ confined.relative, ?_⟩
    exact fun part member => Path.component_is_name confined.level member
  · intro name nowhere
    exact refuses fun confined => nowhere _ (source_path_of_confined confined)
  · intro disk name
    obtain ⟨asked, searched, -⟩ := Template.compile_searched (engine.library disk) name
    refine ⟨asked, searched, ?_⟩
    intro wanted member refused
    exact Template.search_ends_refused searched member (congrArg some (refused.load disk))
  · intro disk directory options now opened formed opens
    exact rooted_of_open formed opens

def archive (beside : String) : Disk where
  mount := "/srv"
  entries := [([], .folder (.ofSeconds 0)), (["site"], .folder (.ofSeconds 0)),
    (["site", "mail"], .folder (.ofSeconds 0)),
    (["site", "mail", "a.html"], .file "\x7b% extends '../notes' %\x7d".toUTF8 (.ofSeconds 0)),
    (["notes"], .file beside.toUTF8 (.ofSeconds 0))]

def archiveEngine : Engine := ⟨"/srv/site", ⟨"/srv/site/.tmp"⟩, {}⟩

theorem archive_paths : (Path.isAbsolute "/srv" = true ∧ Path.endsWithSlash "/srv" = false) ∧
    (∀ name ∈ ["site", "mail", "a.html", "notes"], Path.IsName name) ∧
    Path.join "/srv" "site" = "/srv/site" ∧ ".." ∈ Path.parts "../notes" ∧
    "/".intercalate ["mail", "a.html"] = "mail/a.html" ∧
    Path.isAbsolute "/srv/./site//mail/a.html" = true ∧
    Path.components "/srv/./site//mail/a.html" =
      Path.components (["site", "mail", "a.html"].foldl Path.join "/srv") := by
  decide

theorem archive_rooted (beside : String) : archiveEngine.Rooted (archive beside) ["site"] where
  formed := by
    obtain ⟨⟨absolute, named⟩, names, -⟩ := archive_paths
    refine ⟨⟨absolute, named⟩, ?_⟩
    intro entry member name part
    simp only [archive, List.mem_cons, List.not_mem_nil, or_false] at member
    apply names
    simp only [List.mem_cons, List.not_mem_nil, or_false]
    rcases member with rfl | rfl | rfl | rfl | rfl <;>
      simp only [List.mem_cons, List.not_mem_nil, or_false] at part <;> tauto
  directory := by
    rw [Disk.pathOf, List.foldl_cons, List.foldl_nil]
    exact archive_paths.2.2.1.symm
  folders := by
    intro front before
    rcases List.prefix_concat_iff.mp (show front <+: [] ++ ["site"] from before) with rfl | top
    · exact ⟨_, rfl⟩
    · rw [List.prefix_nil.mp top]
      exact ⟨_, rfl⟩

theorem archive_confined :
    archiveEngine.Refuses "../notes" ∧ archiveEngine.Rooted (archive "one") ["site"] ∧
      archiveEngine.ConfinedTo (archive "one") ["site"] ∧
      archiveEngine.compile (archive "two") "mail/a.html" =
        archiveEngine.compile (archive "one") "mail/a.html" ∧
      archiveEngine.sourcePath "mail/a.html" =
        .ok ((archive "one").pathOf ["site", "mail", "a.html"]) ∧
      archiveEngine.templateName? "/srv/./site//mail/a.html" = some "mail/a.html" := by
  obtain ⟨inside, -, refused, -, confined, -⟩ := templates_confined archiveEngine
  obtain ⟨-, -, -, up, spelled, absolute, along⟩ := archive_paths
  have refuses := refused "../notes" fun path there => ((inside _ path).mp there).1.2.2 up
  have rooted := archive_rooted "one"
  have below := confined (archive "one") ["site"] rooted
  have same : ∀ location, ["site"] <+: location →
      (archive "two").lookup location = (archive "one").lookup location := by
    rintro location ⟨rest, rfl⟩
    simp [archive, Disk.lookup, Disk.find?]
  have unread := below.apart (archive "two") (archive_rooted "two") rfl same
  have named := below.named ["mail", "a.html"] _ _ rfl
  rw [spelled] at named
  exact ⟨refuses, rooted, below, (unread.1 "mail/a.html").2, named.1, named.2 _ absolute along⟩

end Engine

end Letterpress
