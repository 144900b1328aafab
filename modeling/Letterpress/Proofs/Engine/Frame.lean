import Letterpress.Proofs.Engine.Errand
import Letterpress.Proofs.Files.Sparing
import Letterpress.Proofs.Store

/-!
Which files an engine takes. Saving and dropping the program of a template concern one file
each, named by a digest, directly in the folder of the store. Clearing goes by the ending of
a name alone: it takes every file there that ends like a program, whatever the file is. All
other files come through any errands as they were, the templates among them.
-/

namespace Letterpress

open Files

namespace Store

/-- The names that programs have: sixty-four hexadecimal digits in lower case, and an ending. -/
def IsProgramName (name : String) : Prop :=
  ∃ digits : List Char, digits.length = 64 ∧ (∀ digit ∈ digits, digit ∈ "0123456789abcdef".toList) ∧
    name = String.ofList digits ++ ".json"

theorem file_name_is_program (template : String) : IsProgramName (fileName template) := by
  refine ⟨(Digest.ofText template).toList, Digest.text_length template, ?_, ?_⟩
  · intro char member
    obtain ⟨digit, small, rfl⟩ := Digest.digit_of_text member
    have all : ∀ digit < 16, Nat.digitChar digit ∈ "0123456789abcdef".toList := by decide
    exact all digit small
  · rw [String.ofList_toList]
    rfl

theorem program_name_length {name : String} (program : IsProgramName name) :
    name.toList.length = 69 := by
  obtain ⟨digits, length, -, rfl⟩ := program
  rw [String.toList_append, String.toList_ofList, List.length_append, length]
  rfl

structure Housed (store : Store) (disk : Disk) (folder : Location) : Prop where
  formed : disk.WellFormed
  there : ∃ modified, disk.entry store.directory = .ok (folder, .folder modified)

section Operations

variable {store : Store} {disk after : Disk} {folder location : Location} {template : String}
  {program : Program} {now : Instant} {taken : Location → Prop}

theorem Housed.kept (housed : store.Housed disk folder) (spared : Disk.Spared taken disk after) :
    store.Housed after folder where
  formed := housed.formed.kept spared.kept
  there := by
    obtain ⟨modified, found⟩ := housed.there
    exact (Disk.entry_kept found spared.kept.mount spared.kept.folders).2

/-- If the path of a name in the store leads anywhere, it leads into the folder. -/
theorem Housed.located {name : String} (housed : store.Housed disk folder)
    (is_name : Path.IsName name)
    (located : disk.locate (Path.join store.directory name) = .ok location) :
    location = folder ++ [name] := by
  obtain ⟨modified, found⟩ := housed.there
  exact Disk.located_in_folder housed.formed.toMounted found is_name located

/-- Whether it goes well or not, saving takes no file but the one that it is to put in place. -/
theorem save_spares (housed : store.Housed disk folder) (program : Program) (now : Instant) :
    Disk.Spared (· = folder ++ [fileName program.name]) disk (store.save disk program now).2 := by
  have opened : ∀ {place modified}, disk.entry store.directory = .ok (place, .folder modified) →
      Disk.Spared (· = folder ++ [fileName program.name]) disk (disk.set place (.folder now)) := by
    intro place modified found
    obtain ⟨located, there⟩ := Disk.entry_eq_ok.mp found
    apply Disk.Spared.set (Disk.located_place located) fun _ => ⟨now, rfl⟩
    intro content since file
    rw [there] at file
    cases file
  have ends := save_ends store disk program now
  generalize store.save disk program now = saved at ends
  cases ends with
  | unopened fails => exact .refl
  | refused found blocked => exact opened found
  | @stored _ location _ written found located wrote =>
      have first := opened found
      have place := Disk.located_place located
      have held := place.held.kept first.kept.folders
      have put : Disk.Spared (· = folder ++ [fileName program.name]) _ written :=
        .write_at ⟨place.named, held⟩ wrote
          (housed.located (file_name_is_name program.name) located)
      exact first.trans (put.trans (.touch ⟨place.named, held.kept put.kept.folders⟩))

theorem remove_spares {removed : Bool} (housed : store.Housed disk folder)
    (done : store.remove disk template now = .ok (removed, after)) :
    Disk.Spared (· = folder ++ [fileName template]) disk after := by
  unfold remove at done
  split at done
  · next gone =>
      cases done
      exact .remove_file gone fun location located =>
        housed.located (file_name_is_name template) located
  · cases done
    exact .refl
  · cases done

/-- Places directly in a folder under names that end like a program. -/
def EndsLikeProgram (folder place : Location) : Prop :=
  ∃ name, isArtifactName name = true ∧ place = folder ++ [name]

theorem remove_all_spares (housed : store.Housed disk folder) (names : List String)
    (all_names : ∀ name ∈ names, Path.IsName name)
    (all_programs : ∀ name ∈ names, isArtifactName name = true) :
    Disk.Spared (EndsLikeProgram folder) disk (store.removeAll now disk names).2 := by
  induction names generalizing disk with
  | nil => exact .refl
  | cons name rest later =>
      unfold removeAll
      dsimp only
      split
      · exact .refl
      · next removed gone =>
          have first : Disk.Spared (EndsLikeProgram folder) disk removed := by
            apply Disk.Spared.remove_file gone
            intro location located
            exact ⟨name, all_programs name (by simp),
              housed.located (all_names name (by simp)) located⟩
          exact first.trans (later (housed.kept first)
            (fun other member => all_names other (by simp [member]))
            fun other member => all_programs other (by simp [member]))

theorem clear_spares (housed : store.Housed disk folder) (now : Instant) :
    Disk.Spared (EndsLikeProgram folder) disk (store.clear disk now).2 := by
  unfold clear
  split
  · exact .refl
  · next entries listed =>
      apply remove_all_spares housed
      · intro name member
        obtain ⟨child, here, rfl⟩ := List.mem_map.mp (List.mem_filter.mp member).1
        obtain ⟨location, _, rfl⟩ := Disk.list_eq_ok listed
        exact housed.formed.names _ (Disk.mem_of_children here) child.1 (by simp)
      · exact fun name member => (List.mem_filter.mp member).2

end Operations

end Store

namespace Engine

def Takes (cleared : Prop) (folder place : Location) : Prop :=
  ∃ name, place = folder ++ [name] ∧
    (Store.IsProgramName name ∨ cleared ∧ Store.isArtifactName name = true)

section Frame

variable {engine : Engine} {disk opened : Disk} {folder : Location} {cleared : Prop}

theorem takes_program (template : String) :
    Takes cleared folder (folder ++ [Store.fileName template]) :=
  ⟨Store.fileName template, rfl, .inl (Store.file_name_is_program template)⟩

theorem saves_spare (housed : engine.store.Housed opened folder) :
    engine.Saves (Disk.Spared (Takes cleared folder) opened) := by
  intro disk name template program now spared _ _
  have took := Store.save_spares (housed.kept spared) program now
  exact spared.trans (took.mono fun _ here => here ▸ takes_program program.name)

theorem removes_spare (housed : engine.store.Housed opened folder) :
    engine.Removes (Disk.Spared (Takes cleared folder) opened) := by
  intro disk after name removed now spared dropped
  have took := Store.remove_spares (housed.kept spared) dropped
  exact spared.trans (took.mono fun _ here => here ▸ takes_program name)

/-- Opening an engine takes no file, and then the folder of the store is there. -/
theorem open_at_houses {directory : String} {options : Options} {now : Instant}
    (formed : disk.WellFormed)
    (opens : openAt disk directory options now = (.ok engine, opened)) :
    Disk.Spared (fun _ => False) disk opened ∧ ∃ folder, engine.store.Housed opened folder := by
  obtain ⟨location, -, -, rfl, made⟩ := open_eq_ok opens
  have spared := Disk.create_folders_spares disk
    (Path.join (disk.pathOf location) options.artifactDirectory) now
  rw [made] at spared
  obtain ⟨folder, there⟩ := Disk.create_folders_leads made
  exact ⟨spared, folder, formed.kept spared.kept, there⟩

/-- Whatever an engine is opened with and asked for, a file keeps its paths, its content and
its time, unless it stands directly in the folder of the store under a name that a program
can have, or under one that ends like a program's if the store is cleared. -/
theorem errands_spare_files {directory : String} {options : Options} {began : Instant}
    (formed : disk.WellFormed)
    (opens : openAt disk directory options began = (.ok engine, opened))
    (errands : List (Instant × Errand)) :
    ∃ folder modified,
      opened.entry engine.store.directory = .ok (folder, .folder modified) ∧
      ∀ path location content since,
        disk.entry path = .ok (location, .file content since) →
        (∀ name, location = folder ++ [name] → ¬Store.IsProgramName name ∧
          (.clear ∈ errands.map Prod.snd → Store.isArtifactName name = false)) →
        (engine.attendAll ⟨opened, 0, began⟩ errands).disk.entry path =
          .ok (location, .file content since) := by
  obtain ⟨created, folder, housed⟩ := open_at_houses formed opens
  obtain ⟨modified, there⟩ := housed.there
  refine ⟨folder, modified, there, ?_⟩
  intro path location content since found apart
  have spared : Disk.Spared (Takes (.clear ∈ errands.map Prod.snd) folder) opened
      (engine.attendAll ⟨opened, 0, began⟩ errands).disk := by
    apply attend_all_keeps (saves_spare housed) (removes_spare housed) errands
    · intro cleared disk now spared
      have took := Store.clear_spares (housed.kept spared) now
      apply spared.trans (took.mono _)
      rintro _ ⟨name, ending, rfl⟩
      exact ⟨name, rfl, .inr ⟨cleared, ending⟩⟩
    · exact .refl
  apply spared.entry_same (created.entry_same found id)
  rintro ⟨name, here, program | ⟨cleared, ending⟩⟩
  · exact (apart name here).1 program
  · rw [(apart name here).2 cleared] at ending
    cases ending

end Frame

def pantry : Disk :=
  ⟨"/srv", [([], .folder (.ofSeconds 0)),
    (["page.html"], .file "{{ title }}".toUTF8 (.ofSeconds 0)),
    (["data.json"], .file "[1]".toUTF8 (.ofSeconds 0))]⟩

def pantryEngine : Engine := ⟨"/srv", ⟨"/srv/."⟩, { artifactDirectory := "." }⟩

theorem pantry_paths : (pantry.locate "/srv").toOption = some [] ∧
    (pantry.locate "/srv/.").toOption = some [] ∧
    (pantry.locate "/srv/data.json").toOption = some ["data.json"] ∧
    (pantry.locate "/srv/page.html").toOption = some ["page.html"] ∧
    Path.join (pantry.pathOf []) "." = "/srv/." ∧ pantry.pathOf [] = "/srv" := by
  decide

theorem pantry_opens :
    openAt pantry "/srv" { artifactDirectory := "." } (.ofSeconds 1) = (.ok pantryEngine, pantry) := by
  obtain ⟨top, folder, -, -, joined, canonical⟩ := pantry_paths
  have found : pantry.entry "/srv" = .ok ([], .folder (.ofSeconds 0)) :=
    Disk.entry_eq_ok.mpr ⟨toOption_eq_some.mp top, rfl⟩
  have stands : pantry.entry "/srv/." = .ok ([], .folder (.ofSeconds 0)) :=
    Disk.entry_eq_ok.mpr ⟨toOption_eq_some.mp folder, rfl⟩
  unfold openAt
  rw [found]
  dsimp only [Store.create]
  rw [joined, canonical, Disk.create_existing stands]
  rfl

theorem pantry_names : (Path.isAbsolute "/srv" = true ∧ Path.endsWithSlash "/srv" = false) ∧
    (∀ name ∈ ["page.html", "data.json"], Path.IsName name) ∧
    Store.isArtifactName "page.html" = false ∧
    "page.html".toList.length = 9 ∧ "data.json".toList.length = 9 := by
  decide

theorem pantry_formed : pantry.WellFormed where
  absolute := pantry_names.1.1
  named := pantry_names.1.2
  names := by
    have names := pantry_names.2.1
    intro entry member name part
    simp only [pantry, List.mem_cons, List.not_mem_nil, or_false] at member
    rcases member with rfl | rfl | rfl
    · cases part
    · exact names name (by simp_all)
    · exact names name (by simp_all)

def pantryErrands : List (Instant × Errand) :=
  [(.ofSeconds 2, .precompileAll), (.ofSeconds 3, .render "page.html" .absent),
    (.ofSeconds 4, .invalidate "data.json"), (.ofSeconds 5, .clear)]

/-- The page is still there after all this. -/
theorem page_spared :
    openAt pantry "/srv" { artifactDirectory := "." } (.ofSeconds 1) = (.ok pantryEngine, pantry) ∧
      (pantryEngine.attendAll ⟨pantry, 0, .ofSeconds 1⟩ pantryErrands).disk.entry
        "/srv/page.html" =
          .ok (["page.html"], .file "{{ title }}".toUTF8 (.ofSeconds 0)) := by
  obtain ⟨-, folder, -, page, -⟩ := pantry_paths
  obtain ⟨location, modified, there, spares⟩ :=
    errands_spare_files pantry_formed pantry_opens pantryErrands
  have at_top : location = [] := by
    have located := (Disk.entry_eq_ok.mp there).1
    exact Except.ok.inj (located.symm.trans (toOption_eq_some.mp folder))
  subst at_top
  refine ⟨pantry_opens, spares "/srv/page.html" ["page.html"] _ _ ?_ ?_⟩
  · exact Disk.entry_eq_ok.mpr ⟨toOption_eq_some.mp page, rfl⟩
  · rintro name ⟨⟩
    obtain ⟨-, -, no_ending, length, -⟩ := pantry_names
    refine ⟨?_, fun _ => no_ending⟩
    intro program
    have long := Store.program_name_length program
    omega

theorem data_cleared :
    ((pantryEngine.attendAll ⟨pantry, 0, .ofSeconds 1⟩ [(.ofSeconds 2, .clear)]).disk.entry
      "/srv/data.json").toOption.isNone = true := by
  decide

/-- Clearing takes a file that is no program and has no program's name. -/
theorem cleared_data_lost :
    openAt pantry "/srv" { artifactDirectory := "." } (.ofSeconds 1) = (.ok pantryEngine, pantry) ∧
      pantry.entry "/srv/data.json" = .ok (["data.json"], .file "[1]".toUTF8 (.ofSeconds 0)) ∧
      ¬Store.IsProgramName "data.json" ∧
      ((pantryEngine.attendAll ⟨pantry, 0, .ofSeconds 1⟩ [(.ofSeconds 2, .clear)]).disk.entry
        "/srv/data.json").toOption = none := by
  obtain ⟨-, -, data, -⟩ := pantry_paths
  obtain ⟨-, -, -, -, length⟩ := pantry_names
  refine ⟨pantry_opens, Disk.entry_eq_ok.mpr ⟨toOption_eq_some.mp data, rfl⟩, ?_,
    Option.isNone_iff_eq_none.mp data_cleared⟩
  intro program
  have long := Store.program_name_length program
  omega

end Engine

end Letterpress
