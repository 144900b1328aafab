import Letterpress.Proofs.Engine.Removals
import Letterpress.Proofs.Files.Sparing
import Letterpress.Proofs.Instant
import Letterpress.Proofs.Program.Stored

/-!
The store as a map from the names of templates to programs. A store that was opened on an
empty folder answers every call from the calls before it alone: what it holds under a name is
the program that was saved last, unless it was removed since. Files are named by digests of
names, so this is said of names whose digests differ. A file that was put in another's place
is no program of its new name.
-/

namespace Letterpress

open Files

inductive StoreCall where
  | save (program : Program)
  | load (name : String)
  | remove (name : String)
  | clear

inductive StoreAnswer where
  | saved (outcome : Except TemplateError Unit)
  | loaded (found : Option Program)
  | removed (outcome : Except TemplateError Bool)
  | cleared (outcome : Except TemplateError Nat)

namespace Store

def perform (store : Store) (disk : Disk) (now : Instant) : StoreCall → StoreAnswer × Disk
  | .save program =>
      let (outcome, after) := store.save disk program now
      (.saved outcome, after)
  | .load name => (.loaded (store.load? disk name), disk)
  | .remove name =>
      match store.remove disk name now with
      | .ok (removed, after) => (.removed (.ok removed), after)
      | .error error => (.removed (.error error), disk)
  | .clear =>
      let (outcome, after) := store.clear disk now
      (.cleared outcome, after)

def performAll (store : Store) : Disk → List (StoreCall × Instant) → List StoreAnswer × Disk
  | disk, [] => ([], disk)
  | disk, (call, now) :: rest =>
      let (answer, next) := store.perform disk now call
      let (answers, last) := store.performAll next rest
      (answer :: answers, last)

end Store

namespace StoreCall

def name? : StoreCall → Option String
  | .save program => some program.name
  | .load name => some name
  | .remove name => some name
  | .clear => none

/-- Whether a call says anew what there is under a name. -/
def Settles (name : String) : StoreCall → Prop
  | .save program => program.name = name
  | .load _ => False
  | .remove other => other = name
  | .clear => True

def leave (name : String) (held : Option Program) : StoreCall → Option Program
  | .save program => if program.name = name then some program else held
  | .load _ => held
  | .remove other => if other = name then none else held
  | .clear => none

def kept (calls : List StoreCall) (name : String) : Option Program :=
  calls.foldl (leave name) none

def keepNames (names : List String) : StoreCall → List String
  | .save program => names.insert program.name
  | .load _ => names
  | .remove name => names.erase name
  | .clear => []

def keptNames (calls : List StoreCall) : List String := calls.foldl keepNames []

def answer (before : List StoreCall) : StoreCall → StoreAnswer
  | .save _ => .saved (.ok ())
  | .load name => .loaded (kept before name)
  | .remove name => .removed (.ok (kept before name).isSome)
  | .clear => .cleared (.ok (keptNames before).length)

def answers (before : List StoreCall) : List StoreCall → List StoreAnswer
  | [] => []
  | call :: rest => call.answer before :: answers (before ++ [call]) rest

section History

variable {calls : List StoreCall} {call : StoreCall} {name : String} {program : Program}

@[simp] theorem kept_append : kept (calls ++ [call]) name = call.leave name (kept calls name) := by
  simp [kept]

@[simp] theorem kept_names_append :
    keptNames (calls ++ [call]) = keepNames (keptNames calls) call := by
  simp [keptNames]

theorem leave_unsettled {held : Option Program} (aside : ¬call.Settles name) :
    call.leave name held = held := by
  cases call with
  | save program => exact if_neg aside
  | load other => rfl
  | remove other => exact if_neg aside
  | clear => exact absurd trivial aside

/-- What is under a name is the program that was saved last, and nothing has been said about the
name since. -/
theorem kept_iff : kept calls name = some program ↔ ∃ before after,
    calls = before ++ .save program :: after ∧ program.name = name ∧
      ∀ call ∈ after, ¬call.Settles name := by
  induction calls using List.reverseRecOn with
  | nil => simp [kept]
  | append_singleton calls call earlier =>
      rw [kept_append]
      constructor
      · intro held
        by_cases settles : call.Settles name
        · cases call with
          | save last =>
              have same : last.name = name := settles
              rw [leave, if_pos same, Option.some.injEq] at held
              exact ⟨calls, [], by rw [held], held ▸ same, by simp⟩
          | load other => cases settles
          | remove other =>
              have same : other = name := settles
              rw [leave, if_pos same] at held
              cases held
          | clear => cases held
        · rw [leave_unsettled settles] at held
          obtain ⟨before, after, rfl, same, aside⟩ := earlier.mp held
          refine ⟨before, after ++ [call], by simp, same, ?_⟩
          intro other member
          rcases List.mem_append.mp member with inside | last
          · exact aside other inside
          · exact List.mem_singleton.mp last ▸ settles
      · rintro ⟨before, after, split, same, aside⟩
        rcases List.eq_nil_or_concat after with rfl | ⟨front, last, rfl⟩
        · obtain ⟨-, last⟩ := List.append_inj' split rfl
          cases last
          exact if_pos same
        · rw [List.concat_eq_append] at split aside
          rw [← List.cons_append, ← List.append_assoc] at split
          obtain ⟨rfl, rest⟩ := List.append_inj' split rfl
          cases rest
          rw [leave_unsettled (aside _ (by simp))]
          exact earlier.mpr ⟨before, front, rfl, same, fun other member =>
            aside other (by simp [member])⟩

/-- The names are those under which something is, each one once. -/
theorem kept_names_iff (calls : List StoreCall) :
    (keptNames calls).Nodup ∧ ∀ name, name ∈ keptNames calls ↔ (kept calls name).isSome := by
  induction calls using List.reverseRecOn with
  | nil => simp [keptNames, kept]
  | append_singleton calls call earlier =>
      obtain ⟨distinct, known⟩ := earlier
      rw [kept_names_append]
      simp only [kept_append]
      cases call with
      | save program =>
          refine ⟨distinct.insert, fun name => ?_⟩
          rw [keepNames, List.mem_insert_iff, known, leave]
          by_cases same : program.name = name
          · simp [same]
          · simp [same, Ne.symm same]
      | load other => exact ⟨distinct, known⟩
      | remove other =>
          refine ⟨distinct.erase other, fun name => ?_⟩
          rw [keepNames, distinct.mem_erase_iff, known, leave]
          by_cases same : other = name
          · simp [same]
          · simp [same, Ne.symm same]
      | clear => simp [keepNames, leave]

end History

end StoreCall

namespace Store

/-- The folder of a store holds what is under names, each program in the file of its name, and
nothing else. -/
structure Shelves (store : Store) (folder : Location) (used : String → Prop)
    (held : String → Option Program) (disk : Disk) : Prop extends store.Ready disk folder where
  programs : ∀ name program, held name = some program → used name ∧ program.name = name ∧
    Program.decodeBytes? program.encode.toUTF8 = some program ∧
      ∃ modified,
        disk.lookup (folder ++ [fileName name]) = some (.file program.encode.toUTF8 modified)
  only : ∀ file entry, disk.lookup (folder ++ [file]) = some entry →
    ∃ name, (held name).isSome ∧ file = fileName name

/-- Names of templates that have files of their own. -/
def Apart (used : String → Prop) : Prop :=
  ∀ name other, used name → used other → Digest.ofText name = Digest.ofText other → name = other

theorem Apart.files {used : String → Prop} (apart : Apart used) {name other : String}
    (here : used name) (there : used other) (same : fileName name = fileName other) :
    name = other := by
  apply apart name other here there
  have letters := congrArg String.toList same
  rw [fileName, fileName, String.toList_append, String.toList_append] at letters
  exact String.toList_inj.mp (List.append_cancel_right letters)

section Files

variable {store : Store} {disk after : Disk} {folder : Location} {name : String} {now : Instant}
  {content : ByteArray} {modified : Instant}

theorem remove_file (ready : store.Ready disk folder) (fits : store.Fits name)
    (file : disk.lookup (folder ++ [name]) = some (.file content modified)) (now : Instant) :
    ∃ after, disk.removeFile (Path.join store.directory name) now = .ok after ∧
      store.Ready after folder ∧
      ∀ beside, after.lookup (folder ++ [beside]) =
        if beside = name then none else disk.lookup (folder ++ [beside]) := by
  have shrunk : Disk.ShrunkIn folder disk (disk.eraseTree (folder ++ [name]) now) :=
    Disk.erase_shrinks ready.names file
  refine ⟨disk.eraseTree (folder ++ [name]) now, ?_, ready.kept shrunk.changed, ?_⟩
  · rw [Disk.remove_located (fits.located ready), file]
  · exact fun beside => Disk.erase_lookup_beside disk

theorem remove_files (names : List String) (ready : store.Ready disk folder)
    (distinct : names.Nodup)
    (files : ∀ name ∈ names, store.Fits name ∧ ∃ content modified,
      disk.lookup (folder ++ [name]) = some (.file content modified)) (now : Instant) :
    ∃ after, store.removeAll now disk names = (.ok names.length, after) ∧
      store.Ready after folder ∧
      ∀ beside, after.lookup (folder ++ [beside]) =
        if beside ∈ names then none else disk.lookup (folder ++ [beside]) := by
  induction names generalizing disk with
  | nil => exact ⟨disk, rfl, ready, fun beside => rfl⟩
  | cons name rest later =>
      obtain ⟨fresh, rest_distinct⟩ := List.nodup_cons.mp distinct
      obtain ⟨fits, content, modified, file⟩ := files name (List.mem_cons_self ..)
      obtain ⟨next, removed, next_ready, beside⟩ := remove_file ready fits file now
      obtain ⟨after, gone, after_ready, behind⟩ := later next_ready rest_distinct (by
        intro other member
        obtain ⟨other_fits, content, modified, other_file⟩ :=
          files other (List.mem_cons_of_mem name member)
        have different : other ≠ name := fun same => fresh (same ▸ member)
        exact ⟨other_fits, content, modified, by rw [beside, if_neg different, other_file]⟩)
      refine ⟨after, ?_, after_ready, fun other => ?_⟩
      · unfold removeAll
        dsimp only
        rw [removed]
        dsimp only
        rw [gone]
        rfl
      · rw [behind, beside]
        by_cases first : other = name
        · simp [first]
        · simp [first]

end Files

section Calls

variable {store : Store} {folder : Location} {used : String → Prop}
  {held : String → Option Program} {disk : Disk} {name : String} {program : Program}

theorem Shelves.absent (shelves : store.Shelves folder used held disk) (apart : Apart used)
    (here : used name) (nothing : held name = none) :
    disk.lookup (folder ++ [fileName name]) = none := by
  rw [← Option.not_isSome_iff_eq_none]
  intro there
  obtain ⟨entry, found⟩ := Option.isSome_iff_exists.mp there
  obtain ⟨other, some_program, same⟩ := shelves.only _ entry found
  obtain ⟨program, holds⟩ := Option.isSome_iff_exists.mp some_program
  have also : used other := (shelves.programs other program holds).1
  rw [apart.files here also same, holds] at nothing
  cases nothing

theorem Shelves.load (shelves : store.Shelves folder used held disk) (apart : Apart used)
    (here : used name) : store.load? disk name = held name := by
  rw [load_eq shelves.toReady]
  cases holds : held name with
  | none => rw [shelves.absent apart here holds]
  | some program =>
      obtain ⟨-, named, exact_program, modified, file⟩ := shelves.programs name program holds
      rw [file]
      exact decode_eq_some.mpr ⟨exact_program, named⟩

theorem Shelves.save (shelves : store.Shelves folder used held disk) (apart : Apart used)
    (here : used program.name)
    (exact_program : Program.decodeBytes? program.encode.toUTF8 = some program) (now : Instant) :
    ∃ after, store.save disk program now = (.ok (), after) ∧
      store.Shelves folder used
        (fun name => if program.name = name then some program else held name) after := by
  have free (since : Instant) :
      disk.lookup (folder ++ [fileName program.name]) ≠ some (.folder since) := by
    intro stands
    cases holds : held program.name with
    | none => cases (shelves.absent apart here holds).symm.trans stands
    | some other =>
        obtain ⟨-, -, -, modified, file⟩ := shelves.programs _ other holds
        cases file.symm.trans stands
  obtain ⟨after, saved⟩ := save_works shelves.toReady now free
  obtain ⟨changed, lookups⟩ := save_changes shelves.toReady saved
  have in_folder (file : String) : folder ++ [file] ≠ folder := by simp
  refine ⟨after, saved, shelves.toReady.kept changed, ?_, ?_⟩
  · intro name other holds
    by_cases same : program.name = name
    · rw [if_pos same, Option.some.injEq] at holds
      subst holds same
      refine ⟨here, rfl, exact_program, now, ?_⟩
      rw [lookups _ (in_folder _), Disk.lookup_set_self]
    · rw [if_neg same] at holds
      obtain ⟨there, named, exact_other, modified, file⟩ := shelves.programs name other holds
      refine ⟨there, named, exact_other, modified, ?_⟩
      have different : folder ++ [fileName name] ≠ folder ++ [fileName program.name] := by
        intro alike
        have files := List.singleton_inj.mp (List.append_cancel_left alike)
        exact same (apart.files there here files).symm
      rw [lookups _ (in_folder _), Disk.lookup_set_of_ne different, file]
  · intro file entry found
    rw [lookups _ (in_folder _)] at found
    by_cases same : file = fileName program.name
    · exact ⟨program.name, by simp, same⟩
    · have different : folder ++ [file] ≠ folder ++ [fileName program.name] := fun alike =>
        same (List.singleton_inj.mp (List.append_cancel_left alike))
      rw [Disk.lookup_set_of_ne different] at found
      obtain ⟨name, some_program, named⟩ := shelves.only file entry found
      refine ⟨name, ?_, named⟩
      split
      · rfl
      · exact some_program

theorem Shelves.remove (shelves : store.Shelves folder used held disk) (apart : Apart used)
    (here : used name) (now : Instant) :
    ∃ after, store.remove disk name now = .ok ((held name).isSome, after) ∧
      store.Shelves folder used (fun other => if name = other then none else held other) after := by
  have located := locate_program shelves.toReady name
  have taken := @Disk.remove_located disk _ _ now located
  cases holds : held name with
  | none =>
      rw [shelves.absent apart here holds] at taken
      refine ⟨disk, ?_, shelves.toReady, ?_, ?_⟩
      · unfold Store.remove
        rw [taken]
        rfl
      · intro other program found
        split at found
        · cases found
        · exact shelves.programs other program found
      · intro file entry found
        obtain ⟨other, some_program, same⟩ := shelves.only file entry found
        refine ⟨other, ?_, same⟩
        split
        · next alike =>
            subst alike
            rw [holds] at some_program
            cases some_program
        · exact some_program
  | some program =>
      obtain ⟨-, -, -, modified, file⟩ := shelves.programs name program holds
      obtain ⟨after, removed, ready, beside⟩ :=
        remove_file shelves.toReady (file_name_fits shelves.toReady name) file now
      refine ⟨after, ?_, ready, ?_, ?_⟩
      · unfold Store.remove Store.path
        rw [removed]
        rfl
      · intro other program found
        split at found
        · cases found
        · next different =>
            obtain ⟨there, named, exact_program, since, other_file⟩ :=
              shelves.programs other program found
            refine ⟨there, named, exact_program, since, ?_⟩
            have elsewhere : fileName other ≠ fileName name := fun same =>
              different (apart.files there here same).symm
            rw [beside, if_neg elsewhere, other_file]
      · intro file entry found
        rw [beside] at found
        split at found
        · cases found
        · next elsewhere =>
            obtain ⟨other, some_program, same⟩ := shelves.only file entry found
            refine ⟨other, ?_, same⟩
            split
            · next alike =>
                subst alike
                exact absurd same elsewhere
            · exact some_program

/-- Names with something under them are as many as files in the folder. -/
theorem Shelves.counted (shelves : store.Shelves folder used held disk) (apart : Apart used)
    {names : List String} (distinct : names.Nodup)
    (known : ∀ name, name ∈ names ↔ (held name).isSome) :
    (artifacts disk folder).length = names.length := by
  have inside {name : String} (member : name ∈ names) : used name := by
    obtain ⟨program, holds⟩ := Option.isSome_iff_exists.mp ((known name).mp member)
    exact (shelves.programs name program holds).1
  have files : (names.map fileName).Nodup := by
    apply distinct.map_on
    exact fun name member other also same => apart.files (inside member) (inside also) same
  have same : (artifacts disk folder).Perm (names.map fileName) := by
    apply (List.perm_ext_iff_of_nodup (artifacts_nodup disk folder) files).mpr
    intro file
    rw [mem_artifacts, List.mem_map]
    constructor
    · rintro ⟨-, there⟩
      obtain ⟨entry, found⟩ := Option.isSome_iff_exists.mp there
      obtain ⟨name, some_program, rfl⟩ := shelves.only file entry found
      exact ⟨name, (known name).mpr some_program, rfl⟩
    · rintro ⟨name, member, rfl⟩
      obtain ⟨program, holds⟩ := Option.isSome_iff_exists.mp ((known name).mp member)
      obtain ⟨-, -, -, modified, file⟩ := shelves.programs name program holds
      exact ⟨file_name_is_artifact name, by rw [file]; rfl⟩
  rw [same.length_eq, List.length_map]

theorem Shelves.clear (shelves : store.Shelves folder used held disk) (apart : Apart used)
    {names : List String} (distinct : names.Nodup)
    (known : ∀ name, name ∈ names ↔ (held name).isSome) (now : Instant) :
    ∃ after, store.clear disk now = (.ok names.length, after) ∧
      store.Shelves folder used (fun _ => none) after := by
  obtain ⟨entries, listed, all⟩ := shelves.toReady.lists
  have files : ∀ file ∈ artifacts disk folder, store.Fits file ∧ ∃ content modified,
      disk.lookup (folder ++ [file]) = some (.file content modified) := by
    intro file member
    obtain ⟨-, there⟩ := mem_artifacts.mp member
    obtain ⟨entry, found⟩ := Option.isSome_iff_exists.mp there
    obtain ⟨name, some_program, rfl⟩ := shelves.only file entry found
    obtain ⟨program, holds⟩ := Option.isSome_iff_exists.mp some_program
    obtain ⟨-, -, -, modified, held_file⟩ := shelves.programs name program holds
    exact ⟨file_name_fits shelves.toReady name, _, modified, held_file⟩
  obtain ⟨after, removed, ready, beside⟩ :=
    remove_files (artifacts disk folder) shelves.toReady (artifacts_nodup disk folder) files now
  refine ⟨after, ?_, ready, nofun, ?_⟩
  · unfold Store.clear
    rw [listed]
    dsimp only
    rw [all, removed, shelves.counted apart distinct known]
  · intro file entry found
    rw [beside] at found
    split at found
    · cases found
    · next gone =>
        obtain ⟨name, some_program, rfl⟩ := shelves.only file entry found
        exact absurd (mem_artifacts.mpr ⟨file_name_is_artifact name, by rw [found]; rfl⟩) gone

/-- A step answers as a map does, and leaves what a map holds. -/
theorem Shelves.performs {before : List StoreCall} {call : StoreCall}
    (shelves : store.Shelves folder used (StoreCall.kept before) disk) (apart : Apart used)
    (named : ∀ name ∈ call.name?, used name)
    (exact_program : ∀ program, call = .save program →
      Program.decodeBytes? program.encode.toUTF8 = some program) (now : Instant) :
    ∃ after, store.perform disk now call = (call.answer before, after) ∧
      store.Shelves folder used (StoreCall.kept (before ++ [call])) after := by
  have next : StoreCall.kept (before ++ [call]) =
      fun name => call.leave name (StoreCall.kept before name) :=
    funext fun name => StoreCall.kept_append
  rw [next]
  cases call with
  | save program =>
      obtain ⟨after, saved, holds⟩ :=
        shelves.save apart (named program.name rfl) (exact_program program rfl) now
      refine ⟨after, ?_, holds⟩
      unfold perform
      dsimp only
      rw [saved]
      rfl
  | load name =>
      refine ⟨disk, ?_, shelves⟩
      unfold perform
      dsimp only
      rw [shelves.load apart (named name rfl)]
      rfl
  | remove name =>
      obtain ⟨after, removed, holds⟩ := shelves.remove apart (named name rfl) now
      refine ⟨after, ?_, holds⟩
      unfold perform
      dsimp only
      rw [removed]
      rfl
  | clear =>
      obtain ⟨distinct, known⟩ := StoreCall.kept_names_iff before
      obtain ⟨after, cleared, holds⟩ := shelves.clear apart distinct known now
      refine ⟨after, ?_, holds⟩
      unfold perform
      dsimp only
      rw [cleared]
      rfl

/-- By induction on the calls, so does a run. -/
theorem Shelves.performs_all {before : List StoreCall} {calls : List (StoreCall × Instant)}
    (shelves : store.Shelves folder used (StoreCall.kept before) disk) (apart : Apart used)
    (named : ∀ call ∈ calls, ∀ name ∈ call.1.name?, used name)
    (exact_programs : ∀ call ∈ calls, ∀ program, call.1 = .save program →
      Program.decodeBytes? program.encode.toUTF8 = some program) :
    ∃ after,
      store.performAll disk calls = (StoreCall.answers before (calls.map Prod.fst), after) ∧
        store.Shelves folder used (StoreCall.kept (before ++ calls.map Prod.fst)) after := by
  induction calls generalizing before disk with
  | nil =>
      rw [List.map_nil, List.append_nil]
      exact ⟨disk, rfl, shelves⟩
  | cons entry rest later =>
      obtain ⟨call, now⟩ := entry
      obtain ⟨next, performed, holds⟩ := shelves.performs apart
        (named (call, now) (List.mem_cons_self ..))
        (exact_programs (call, now) (List.mem_cons_self ..)) now
      obtain ⟨after, all, last⟩ := later holds
        (fun other member => named other (List.mem_cons_of_mem _ member))
        (fun other member => exact_programs other (List.mem_cons_of_mem _ member))
      rw [List.append_assoc, List.singleton_append] at last
      refine ⟨after, ?_, last⟩
      unfold performAll
      dsimp only
      rw [performed]
      dsimp only
      rw [all]
      rfl

end Calls

section Opening

variable {store : Store} {disk start : Disk} {opened : Instant}

/-- A store that was opened on an empty folder holds nothing. -/
theorem opened_shelves (formed : disk.WellFormed)
    (short : store.directory.utf8ByteSize + 70 < Disk.pathLimit)
    (opens : store.create disk opened = (.ok (), start))
    (empty : start.list store.directory = .ok []) (used : String → Prop) :
    ∃ folder, store.Shelves folder used (fun _ => none) start := by
  have created : disk.createFolders store.directory opened = (.ok (), start) := by
    unfold create at opens
    rcases made : disk.createFolders store.directory opened with ⟨outcome, after⟩
    rw [made] at opens
    obtain ⟨fine, same⟩ := Prod.mk.inj opens
    rw [mapError_eq_ok.mp fine, same]
  have spared := Disk.create_folders_spares disk store.directory opened
  rw [created] at spared
  obtain ⟨folder, modified, there⟩ := Disk.create_folders_leads created
  obtain ⟨location, located, nothing⟩ := Disk.list_eq_ok empty
  cases (Disk.entry_eq_ok.mp there).1.symm.trans located
  refine ⟨folder, ⟨formed.kept spared.kept, ⟨modified, there⟩, short⟩, nofun, ?_⟩
  intro file entry found
  have listed := ((Disk.children_names start folder).2 file).mpr (by rw [found]; rfl)
  rw [← nothing] at listed
  cases listed

end Opening

end Store

namespace Files.Disk

variable {disk : Disk} {path : String} {parts : List String} {location : Location}

def copyFile (disk : Disk) (source target : String) (now : Instant) : Except Failure Disk := do
  let content ← disk.read source
  disk.write target content now now

theorem copy_file_eq_ok {source target : String} {content : ByteArray} {now : Instant}
    {after : Disk} (read : disk.read source = .ok content)
    (written : disk.write target content now now = .ok after) :
    disk.copyFile source target now = .ok after := by
  rw [copyFile, read]
  exact written

theorem write_located (checked : disk.checkedParts path = .ok parts)
    (followed : disk.follow [] parts = .ok location) (last : parts.getLast? ≠ some "")
    (content : ByteArray) (modified now : Instant) :
    disk.write path content modified now = disk.writeAt location content modified now := by
  rw [write, checked]
  have closed : (parts.getLast? == some "") = false := beq_false_of_ne last
  simp only [bind, Except.bind, follow_without_trailing followed, closed, Bool.false_eq_true,
    if_false]

end Files.Disk

namespace Store

section Copies

variable {store : Store} {folder : Location} {used : String → Prop}
  {held : String → Option Program} {disk : Disk} {source target name : String} {program : Program}

theorem parts_of_program (ready : store.Ready disk folder) (template : String) :
    ∃ parts, disk.checkedParts (store.path template) = .ok parts ∧
      disk.follow [] parts = .ok (folder ++ [fileName template]) ∧ parts.getLast? ≠ some "" := by
  obtain ⟨parts, checked, followed⟩ := Disk.locate_eq_ok.mp (locate_program ready template)
  refine ⟨parts, checked, followed, ?_⟩
  obtain ⟨modified, found⟩ := ready.there
  obtain ⟨_, folder_checked, -⟩ := Disk.locate_eq_ok.mp (Disk.entry_eq_ok.mp found).1
  obtain ⟨-, -, below⟩ := Disk.checked_eq_ok.mp folder_checked
  have is_name := file_name_is_name template
  obtain ⟨front, joined, -⟩ :=
    Disk.parts_below_join ready.formed.toMounted below (Path.name_relative is_name)
  have path_below := (Disk.checked_eq_ok.mp checked).2.2
  rw [Store.path, joined, Option.some.injEq, Path.parts_name is_name.single] at path_below
  rw [← path_below, List.getLast?_concat]
  intro empty
  have leads := is_name.leads
  rw [Option.some.inj empty] at leads
  cases leads

theorem Shelves.copied (shelves : store.Shelves folder used held disk) (apart : Apart used)
    (there : used target) (different : source ≠ target) (holds : held source = some program)
    (now : Instant) :
    ∃ after, disk.copyFile (store.path source) (store.path target) now = .ok after ∧
      store.load? after target = none ∧
      ∀ other, used other → other ≠ target → store.load? after other = held other := by
  obtain ⟨-, named, exact_program, modified, file⟩ := shelves.programs source program holds
  have free (since : Instant) :
      disk.lookup (folder ++ [fileName target]) ≠ some (.folder since) := by
    intro stands
    cases present : held target with
    | none => cases (shelves.absent apart there present).symm.trans stands
    | some other =>
        obtain ⟨-, -, -, _, other_file⟩ := shelves.programs target other present
        cases other_file.symm.trans stands
  obtain ⟨parts, checked, followed, last⟩ := parts_of_program shelves.toReady target
  obtain ⟨after, written, changed, lookups⟩ := Disk.write_in_folder program.encode.toUTF8 now now
    shelves.toReady.names (file_name_is_name target) free
  have in_folder (file : String) : folder ++ [file] ≠ folder := by simp
  have ready := shelves.toReady.kept changed
  refine ⟨after, ?_, ?_, ?_⟩
  · have content := Disk.read_located (locate_program shelves.toReady source)
    rw [file] at content
    apply Disk.copy_file_eq_ok content
    rw [Disk.write_located checked followed last]
    exact written
  · rw [load_eq ready, lookups _ (in_folder _), Disk.lookup_set_self]
    dsimp only
    rw [← Option.not_isSome_iff_eq_none]
    intro some_program
    obtain ⟨other, decoded⟩ := Option.isSome_iff_exists.mp some_program
    obtain ⟨read, carries⟩ := decode_eq_some.mp decoded
    rw [exact_program] at read
    cases read
    exact different (named.symm.trans carries)
  · intro other also elsewhere
    have apart_files : folder ++ [fileName other] ≠ folder ++ [fileName target] := by
      intro alike
      have files := List.singleton_inj.mp (List.append_cancel_left alike)
      exact elsewhere (apart.files also there files)
    rw [load_eq ready, lookups _ (in_folder _), Disk.lookup_set_of_ne apart_files,
      ← load_eq shelves.toReady]
    exact shelves.load apart also

/-- Whatever stands in its files, a store takes no program for that of another name. -/
theorem name_of_loaded (loaded : store.load? disk name = some program) : program.name = name := by
  unfold load? at loaded
  split at loaded
  · exact (decode_eq_some.mp loaded).2
  · cases loaded

end Copies

end Store

open StoreCall

/-- A store that was opened on an empty folder is a map from names to programs, as far as the
digests of names differ and programs can be read from what is written: through all calls it
answers as one, and what it holds under a name at last is the program that was saved last, if
nothing was said about the name since. A file that is copied over that of another name is lost
for this name, and for no other one. -/
theorem store_is_map {store : Store} {disk start : Disk} {opened : Instant}
    {used : String → Prop} {calls : List (StoreCall × Instant)} (formed : disk.WellFormed)
    (short : store.directory.utf8ByteSize + 70 < Disk.pathLimit)
    (opens : store.create disk opened = (.ok (), start))
    (empty : start.list store.directory = .ok []) (apart : Store.Apart used)
    (named : ∀ call ∈ calls, ∀ name ∈ call.1.name?, used name)
    (exact_programs : ∀ call ∈ calls, ∀ program, call.1 = .save program →
      Program.decodeBytes? program.encode.toUTF8 = some program) :
    (∃ after, store.performAll start calls = (answers [] (calls.map Prod.fst), after) ∧
      (∀ name, used name → store.load? after name = kept (calls.map Prod.fst) name) ∧
      ∀ source target now, used target → source ≠ target →
        (kept (calls.map Prod.fst) source).isSome →
          ∃ copied,
            after.copyFile (store.path source) (store.path target) now = .ok copied ∧
              store.load? copied target = none ∧
              ∀ other, used other → other ≠ target →
                store.load? copied other = kept (calls.map Prod.fst) other) ∧
      (∀ history name program, kept history name = some program ↔ ∃ before after,
        history = before ++ .save program :: after ∧ program.name = name ∧
          ∀ call ∈ after, ¬call.Settles name) ∧
      (∀ history, (keptNames history).Nodup ∧
        ∀ name, name ∈ keptNames history ↔ (kept history name).isSome) ∧
      ∀ disk name program, store.load? disk name = some program → program.name = name := by
  refine ⟨?_, fun history name program => kept_iff, kept_names_iff,
    fun disk name program => Store.name_of_loaded⟩
  obtain ⟨folder, nothing⟩ := Store.opened_shelves formed short opens empty used
  have begins : store.Shelves folder used (kept []) start := nothing
  obtain ⟨after, performed, shelves⟩ := begins.performs_all apart named exact_programs
  rw [List.nil_append] at shelves
  refine ⟨after, performed, fun name here => shelves.load apart here, ?_⟩
  intro source target now there different some_program
  obtain ⟨program, holds⟩ := Option.isSome_iff_exists.mp some_program
  exact shelves.copied apart there different holds now

def smallSite : Disk := .empty "/srv" (.ofSeconds 0)

def smallStore : Store := ⟨"/srv/.tmp"⟩

def smallPage (name text : String) : Program := ⟨name, [name], .ofSeconds 0, [.text text]⟩

def smallCalls : List (StoreCall × Instant) :=
  [(.save (smallPage "a.html" "hi"), .ofSeconds 1), (.save (smallPage "b.html" "hi"), .ofSeconds 2),
    (.save (smallPage "a.html" "again"), .ofSeconds 3), (.remove "b.html", .ofSeconds 4),
    (.load "a.html", .ofSeconds 5)]

theorem small_page_reads_back (name text : String) :
    Program.decodeBytes? (smallPage name text).encode.toUTF8 = some (smallPage name text) := by
  have formed : (smallPage name text).Formed := by
    intro instruction member
    obtain rfl := List.mem_singleton.mp member
    constructor
    · intro target jumps
      cases jumps
    · intro code here
      cases here
  have time : (Instant.ofSeconds 0).Proper := by decide
  have shallow : (smallPage name text).toJson.nesting ≤ 127 := Nat.le_of_ble_eq_true rfl
  have denoted : (smallPage name text).Denoted := by
    intro instruction member code here
    obtain rfl := List.mem_singleton.mp member
    cases here
  exact (Program.stored_program_reads_back formed denoted (Instant.read_text time) shallow).2

theorem small_site_formed : smallSite.WellFormed where
  absolute := by decide
  named := by decide
  names := by
    intro entry member name part
    cases List.mem_singleton.mp member
    cases part

theorem small_store_opens : ∃ start,
    smallStore.create smallSite (.ofSeconds 0) = (.ok (), start) ∧
      start.list smallStore.directory = .ok [] := by
  obtain ⟨done, created⟩ := exists_ok_of_isOk
    (show (smallStore.create smallSite (.ofSeconds 0)).1.isOk = true by decide)
  have listed : ((smallStore.create smallSite (.ofSeconds 0)).2.list
      smallStore.directory).toOption.map List.isEmpty = some true := by
    decide
  obtain ⟨entries, found, nothing⟩ := Option.map_eq_some_iff.mp listed
  refine ⟨(smallStore.create smallSite (.ofSeconds 0)).2, Prod.ext created rfl, ?_⟩
  rw [toOption_eq_some.mp found, List.isEmpty_iff.mp nothing]

theorem small_names_apart : Store.Apart fun name => name = "a.html" ∨ name = "b.html" := by
  have different : Digest.ofText "a.html" ≠ Digest.ofText "b.html" := by decide +kernel
  rintro name other (rfl | rfl) (rfl | rfl) same
  · rfl
  · exact absurd same different
  · exact absurd same.symm different
  · rfl

theorem small_store_keeps_second_page : ∃ start after,
    smallStore.create smallSite (.ofSeconds 0) = (.ok (), start) ∧
      smallStore.performAll start smallCalls = (answers [] (smallCalls.map Prod.fst), after) ∧
      smallStore.load? after "a.html" = some (smallPage "a.html" "again") ∧
      smallStore.load? after "b.html" = none := by
  obtain ⟨start, opens, empty⟩ := small_store_opens
  have named : ∀ call ∈ smallCalls, ∀ name ∈ call.1.name?, name = "a.html" ∨ name = "b.html" := by
    decide
  have exact_programs : ∀ call ∈ smallCalls, ∀ program, call.1 = .save program →
      Program.decodeBytes? program.encode.toUTF8 = some program := by
    intro call member program saves
    simp only [smallCalls, List.mem_cons, List.not_mem_nil, or_false] at member
    rcases member with rfl | rfl | rfl | rfl | rfl <;> cases saves <;>
      exact small_page_reads_back _ _
  obtain ⟨after, performed, holds, -⟩ := (store_is_map small_site_formed (by decide) opens
    empty small_names_apart named exact_programs).1
  refine ⟨start, after, opens, performed, ?_, ?_⟩
  · rw [holds "a.html" (.inl rfl)]
    rfl
  · rw [holds "b.html" (.inr rfl)]
    rfl

end Letterpress
