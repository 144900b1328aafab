import Letterpress.Proofs.Files.Disk
import Mathlib.Data.List.Induction

/-!
Changes that somebody else makes to files, one operation or many. Whatever is new on the
disk afterwards, or not as it was, bears a late date. So what bears no late date was there
before, and since it stands where it stood, the folders on the way to it did, too.
-/

namespace Letterpress.Files.Disk

section Places

variable {disk after : Disk} {folder here location place : Location} {parts : List String}
  {entry : Entry} {name path : String} {modified now : Instant}

/-- All that is above a location is a folder. -/
def Held (disk : Disk) (location : Location) : Prop :=
  ∀ front, front <+: location → front ≠ location →
    ∃ modified, disk.lookup front = some (.folder modified)

structure Place (disk : Disk) (location : Location) : Prop where
  named : ∀ name ∈ location, Path.IsName name
  held : disk.Held location

/-- Whatever lies outside of a folder is held. The folder may hold anything. -/
def Grounded (folder : Location) (disk : Disk) : Prop :=
  ∀ location name entry, ¬folder <+: location ++ [name] →
    disk.lookup (location ++ [name]) = some entry →
      ∃ modified, disk.lookup location = some (.folder modified)

theorem Held.above (held : disk.Held location) (above : here <+: location) : disk.Held here := by
  intro front before different
  apply held front (before.trans above)
  intro same
  subst same
  exact different (before.eq_of_length (Nat.le_antisymm before.length_le above.length_le))

theorem Held.below (held : disk.Held location)
    (found : disk.lookup location = some (.folder modified)) : disk.Held (location ++ [name]) := by
  intro front before different
  rcases List.prefix_concat_iff.mp before with same | above
  · exact absurd same different
  · by_cases here : front = location
    · exact ⟨modified, here ▸ found⟩
    · exact held front above here

theorem place_top : disk.Place [] where
  named := by simp
  held := fun _ before different => absurd (List.prefix_nil.mp before) different

theorem Place.above (at_location : disk.Place location) (above : here <+: location) :
    disk.Place here where
  named := fun name member => at_location.named name (above.subset member)
  held := at_location.held.above above

theorem Place.kept (at_location : disk.Place location)
    (folders : ∀ {place modified}, disk.lookup place = some (.folder modified) →
      ∃ since, after.lookup place = some (.folder since)) : after.Place location where
  named := at_location.named
  held := by
    intro front before different
    obtain ⟨modified, found⟩ := at_location.held front before different
    exact folders found

theorem Grounded.held (grounded : Grounded folder disk) (apart : ¬folder <+: location)
    (found : disk.lookup location = some entry) : disk.Held location := by
  induction location using List.reverseRecOn generalizing entry with
  | nil => exact place_top.held
  | append_singleton location name later =>
      obtain ⟨modified, above⟩ := grounded location name entry apart found
      have above_apart : ¬folder <+: location := fun inside =>
        apart (inside.trans (List.prefix_append location [name]))
      exact (later above_apart above).below above

theorem Grounded.changed (grounded : Grounded folder disk) (changed : ChangedIn folder disk after) :
    Grounded folder after := by
  intro location name entry apart found
  rw [changed.lookup apart] at found
  obtain ⟨modified, above⟩ := grounded location name entry apart found
  refine ⟨modified, ?_⟩
  rw [changed.lookup fun inside => apart (inside.trans (List.prefix_append location [name]))]
  exact above

/-- Wherever a path leads, something can be put. -/
theorem follow_place (at_here : disk.Place here) (single : ∀ part ∈ parts, '/' ∉ part.toList)
    (followed : disk.follow here parts = .ok location) : disk.Place location := by
  induction parts generalizing here with
  | nil =>
      cases followed
      exact at_here
  | cons part rest later =>
      obtain ⟨_, next, found, leads, followed⟩ := follow_cons_eq_ok.mp followed
      have at_next : disk.Place next := by
        cases leads with
        | stay => exact at_here
        | up => exact at_here.above (List.dropLast_prefix here)
        | down leads other _ =>
            have is_name : Path.IsName part := ⟨leads, other, single part (by simp)⟩
            refine ⟨?_, at_here.held.below found⟩
            intro name member
            rcases List.mem_append.mp member with above | last
            · exact at_here.named name above
            · exact List.mem_singleton.mp last ▸ is_name
      exact later at_next (fun other member => single other (by simp [member])) followed

/-- The folders above what a path spells decide whether it leads there. -/
theorem follow_back {other : Disk} (down : ".." ∉ parts)
    (followed : other.follow here parts = .ok location)
    (folders : ∀ front, front <+: location → ∀ since, other.lookup front = some (.folder since) →
      ∃ modified, disk.lookup front = some (.folder modified)) :
    disk.follow here parts = .ok location := by
  induction parts generalizing here with
  | nil => exact followed
  | cons part rest later =>
      have above : here <+: location := by
        rw [follow_straight down followed]
        exact List.prefix_append here _
      obtain ⟨since, next, found, leads, followed⟩ := follow_cons_eq_ok.mp followed
      obtain ⟨modified, folder⟩ := folders here above since found
      have rest_down : ".." ∉ rest := fun up => down (List.mem_cons_of_mem part up)
      exact follow_cons_eq_ok.mpr ⟨modified, next, folder, leads, later rest_down followed⟩

theorem checked_single (checked : disk.checkedParts path = .ok parts) :
    ∀ part ∈ parts, '/' ∉ part.toList := by
  obtain ⟨-, -, below⟩ := checked_eq_ok.mp checked
  rcases parts_below_cases below with ⟨-, rfl⟩ | ⟨rest, -, rfl⟩ | ⟨-, -, rfl⟩
  · simp
  · exact fun part => Path.part_single
  · exact fun part => Path.part_single

theorem located_place (located : disk.locate path = .ok location) : disk.Place location := by
  obtain ⟨parts, checked, followed⟩ := locate_eq_ok.mp located
  exact follow_place place_top (checked_single checked) followed

theorem follow_same {other : Disk} {elsewhere : Location}
    (followed : disk.follow here parts = .ok location)
    (again : other.follow here parts = .ok elsewhere) : elsewhere = location := by
  induction parts generalizing here with
  | nil =>
      cases followed
      cases again
      rfl
  | cons part rest later =>
      obtain ⟨_, next, _, leads, followed⟩ := follow_cons_eq_ok.mp followed
      obtain ⟨_, other_next, _, leads_again, again⟩ := follow_cons_eq_ok.mp again
      have same := leads.same leads_again
      subst same
      exact later followed again

theorem located_same {other : Disk} {elsewhere : Location} (mount : other.mount = disk.mount)
    (located : disk.locate path = .ok location) (again : other.locate path = .ok elsewhere) :
    elsewhere = location := by
  obtain ⟨parts, checked, followed⟩ := locate_eq_ok.mp located
  obtain ⟨others, other_checked, other_followed⟩ := locate_eq_ok.mp again
  rw [checked_same mount, checked] at other_checked
  cases other_checked
  exact follow_same followed other_followed

end Places

/-- What is new on a disk, or not as it was, is dated late. Nothing comes to stand outside
of folders, but for what lies in a folder that is looked after elsewhere. -/
structure Edited (folder : Location) (late : Instant → Prop) (before after : Disk) : Prop where
  mount : after.mount = before.mount
  fresh : ∀ {location entry}, after.lookup location = some entry →
    before.lookup location = some entry ∨ late entry.modified
  names : before.AllNames → after.AllNames
  grounded : Grounded folder before → Grounded folder after

namespace Edited

variable {disk middle after : Disk} {folder location : Location} {late : Instant → Prop}
  {parts : List String} {entry : Entry} {path : String} {now modified : Instant}

theorem refl : Edited folder late disk disk := ⟨rfl, .inl, id, id⟩

theorem trans (first : Edited folder late disk middle) (second : Edited folder late middle after) :
    Edited folder late disk after where
  mount := second.mount.trans first.mount
  fresh := by
    intro location entry found
    rcases second.fresh found with same | dated
    · exact first.fresh same
    · exact .inr dated
  names := fun names => second.names (first.names names)
  grounded := fun grounded => second.grounded (first.grounded grounded)

/-- What is found by a path straight down and bears no late date was found by it before. -/
theorem entry_before (edited : Edited folder late disk after) (grounded : Grounded folder disk)
    (below : after.partsBelow? path = some parts) (down : ".." ∉ parts)
    (found : after.entry path = .ok (location, entry)) (apart : ¬folder <+: location)
    (old : ¬late entry.modified) : disk.entry path = .ok (location, entry) := by
  obtain ⟨located, held⟩ := entry_eq_ok.mp found
  obtain ⟨others, checked, followed⟩ := locate_eq_ok.mp located
  cases below.symm.trans (checked_eq_ok.mp checked).2.2
  have held_before := (edited.fresh held).resolve_right old
  have followed_before : disk.follow [] parts = .ok location := by
    apply follow_back down followed
    intro front before since folder
    by_cases here : front = location
    · subst here
      rw [held] at folder
      cases folder
      exact ⟨since, held_before⟩
    · exact grounded.held apart held_before front before here
  rw [checked_same edited.mount] at checked
  exact entry_eq_ok.mpr ⟨locate_eq_ok.mpr ⟨parts, checked, followed_before⟩, held_before⟩

/-- Something is put where no folder is, or a folder is put in place of one. -/
theorem set (at_location : disk.Place location) (dated : late entry.modified)
    (keeps : (∃ modified, disk.lookup location = some (.folder modified)) →
      ∃ modified, entry = .folder modified) :
    Edited folder late disk (disk.set location entry) where
  mount := rfl
  fresh := by
    intro place held found
    by_cases here : place = location
    · subst here
      rw [lookup_set_self] at found
      cases found
      exact .inr dated
    · rw [lookup_set_of_ne here] at found
      exact .inl found
  names := by
    intro all found member
    rcases mem_set_entry member with same | held
    · subst same
      exact at_location.named
    · exact all found held
  grounded := by
    intro grounded place name held apart found
    have folder_before : ∃ modified, disk.lookup place = some (.folder modified) := by
      by_cases new : place ++ [name] = location
      · subst new
        exact at_location.held place (List.prefix_append place [name]) (by simp)
      · rw [lookup_set_of_ne new] at found
        exact grounded place name held apart found
    by_cases here : place = location
    · subst here
      obtain ⟨modified, same⟩ := keeps folder_before
      exact ⟨modified, by rw [lookup_set_self, same]⟩
    · rw [lookup_set_of_ne here]
      exact folder_before

theorem touch (at_location : disk.Place location) (dated : late now) :
    Edited folder late disk (disk.touchAround location now) := by
  unfold touchAround
  split
  · exact refl
  · split
    · exact set (at_location.above (List.dropLast_prefix location)) dated fun _ => ⟨now, rfl⟩
    · exact refl

theorem erase :
    Edited folder late disk { disk with entries := Disk.outside location disk.entries } where
  mount := rfl
  fresh := by
    intro place held found
    by_cases inside : location <+: place
    · have gone := find_inside_outside disk.entries inside
      rw [Disk.lookup, gone] at found
      cases found
    · rw [Disk.lookup, find_outside disk.entries inside] at found
      exact .inl found
  names := fun all found member => all found (List.mem_filter.mp member).1
  grounded := by
    intro grounded place name held apart found
    by_cases inside : location <+: place ++ [name]
    · have gone := find_inside_outside disk.entries inside
      rw [Disk.lookup, gone] at found
      cases found
    · rw [Disk.lookup, find_outside disk.entries inside] at found
      have above_kept : ¬location <+: place := fun below =>
        inside (below.trans (List.prefix_append place [name]))
      rw [Disk.lookup, find_outside disk.entries above_kept]
      exact grounded place name held apart found

end Edited

/-- A change to files. What is written bears a date of its own. -/
inductive Change where
  | write (path : String) (content : ByteArray) (modified : Instant)
  | createFolders (path : String)
  | removeFile (path : String)
  | removeFolder (path : String)

/-- Makes a change at a time. A change that fails leaves what it has done so far. -/
def make (disk : Disk) (now : Instant) : Change → Disk
  | .write path content modified => (disk.write path content modified now).toOption.getD disk
  | .createFolders path => (disk.createFolders path now).2
  | .removeFile path => (disk.removeFile path now).toOption.getD disk
  | .removeFolder path => (disk.removeFolder path now).2

def Change.date? : Change → Option Instant
  | .write _ _ modified => some modified
  | _ => none

section Changes

variable {disk after : Disk} {folder here location : Location} {late : Instant → Prop}
  {parts : List String} {content : ByteArray} {path : String} {now modified : Instant}

theorem keeps_of_free {entry : Entry}
    (free : ∀ modified, disk.lookup location ≠ some (.folder modified)) :
    (∃ modified, disk.lookup location = some (.folder modified)) →
      ∃ modified, entry = .folder modified := by
  rintro ⟨modified, found⟩
  exact absurd found (free modified)

theorem set_folders {entry : Entry}
    (keeps : (∃ modified, disk.lookup location = some (.folder modified)) →
      ∃ modified, entry = .folder modified) {place : Location}
    (found : disk.lookup place = some (.folder modified)) :
    ∃ since, (disk.set location entry).lookup place = some (.folder since) := by
  by_cases there : place = location
  · subst there
    obtain ⟨since, same⟩ := keeps ⟨modified, found⟩
    exact ⟨since, by rw [lookup_set_self, same]⟩
  · exact ⟨modified, by rw [lookup_set_of_ne there]; exact found⟩

theorem touch_folders {place : Location} (found : disk.lookup place = some (.folder modified)) :
    ∃ since, (disk.touchAround location now).lookup place = some (.folder since) := by
  unfold touchAround
  split
  · exact ⟨modified, found⟩
  · split
    · exact set_folders (fun _ => ⟨now, rfl⟩) found
    · exact ⟨modified, found⟩

theorem write_at_edited (at_location : disk.Place location) (dated : late modified)
    (dated_now : late now) (written : disk.writeAt location content modified now = .ok after) :
    Edited folder late disk after := by
  unfold writeAt at written
  split at written
  · cases written
  · next before since found =>
      cases written
      have free : ∀ modified, disk.lookup location ≠ some (.folder modified) := by simp [found]
      exact .set at_location dated (keeps_of_free free)
  · next missing =>
      cases written
      have free : ∀ modified, disk.lookup location ≠ some (.folder modified) := by simp [missing]
      have keeps : (∃ modified, disk.lookup location = some (.folder modified)) →
          ∃ since, Entry.file content modified = .folder since := keeps_of_free free
      exact (Edited.set at_location dated keeps).trans
        (.touch (at_location.kept (set_folders keeps)) dated_now)

theorem mem_of_trailing {drop : String → Bool} {part : String}
    (member : part ∈ (parts.reverse.dropWhile drop).reverse) : part ∈ parts :=
  List.mem_reverse.mp ((List.dropWhile_suffix drop).subset (List.mem_reverse.mp member))

theorem write_edited (dated : late modified) (dated_now : late now)
    (written : disk.write path content modified now = .ok after) :
    Edited folder late disk after := by
  rw [write, bind_eq_ok] at written
  obtain ⟨parts, checked, written⟩ := written
  rw [bind_eq_ok] at written
  obtain ⟨location, followed, written⟩ := written
  split at written
  · cases written
  · have at_location := follow_place place_top
      (fun part member => checked_single checked part (mem_of_trailing member)) followed
    exact write_at_edited at_location dated dated_now written

/-- Creating one folder. There is a place for something in it, too. -/
theorem create_folder_edited (at_here : disk.Place here)
    (single : ∀ part ∈ parts, '/' ∉ part.toList) (dated : late now)
    (created : disk.createFolderFrom here parts now = .ok (location, after)) :
    Edited folder late disk after ∧ after.Place location := by
  rw [createFolderFrom, bind_eq_ok] at created
  obtain ⟨place, followed, created⟩ := created
  have at_place := follow_place at_here
    (fun part member => single part (mem_of_trailing member)) followed
  split at created
  · cases created
  · next missing =>
      cases created
      have keeps : (∃ modified, disk.lookup location = some (.folder modified)) →
          ∃ modified, Entry.folder now = .folder modified := fun _ => ⟨now, rfl⟩
      have placed := at_place.kept (set_folders keeps)
      exact ⟨(Edited.set at_place dated keeps).trans (.touch placed dated),
        placed.kept touch_folders⟩

theorem folder_from_place {failure : Failure} (at_here : disk.Place here)
    (single : ∀ part ∈ parts, '/' ∉ part.toList)
    (found : disk.folderFrom here parts failure = .ok location) : disk.Place location := by
  unfold folderFrom at found
  split at found
  · cases found
  · next place followed =>
      split at found
      · cases found
        exact follow_place at_here single followed
      · cases found

/-- Folders are created from the top down, by induction on how many are left to try. -/
theorem create_folders_edited (dated : late now) (fuel : Nat) (parts : List String)
    (single : ∀ part ∈ parts, '/' ∉ part.toList) :
    Edited folder late disk (createFoldersAt now fuel disk parts).2 ∧
      ∀ location, (createFoldersAt now fuel disk parts).1 = .ok location →
        (createFoldersAt now fuel disk parts).2.Place location := by
  induction fuel generalizing parts with
  | zero => exact ⟨.refl, fun _ impossible => by cases impossible⟩
  | succ fuel above =>
      unfold createFoldersAt
      split
      · next location created made =>
          obtain ⟨edited, placed⟩ := create_folder_edited place_top single dated made
          refine ⟨edited, ?_⟩
          rintro _ ⟨⟩
          exact placed
      · split
        · exact ⟨.refl, fun _ impossible => by cases impossible⟩
        · have above_single : ∀ part ∈ partsAbove parts, '/' ∉ part.toList := by
            intro part member
            have inner := List.dropLast_subset _ (mem_of_trailing member)
            exact single part (mem_of_trailing inner)
          have rest_single : ∀ part ∈ parts.drop (partsAbove parts).length, '/' ∉ part.toList :=
            fun part member => single part (List.mem_of_mem_drop member)
          obtain ⟨edited, placed⟩ := above (partsAbove parts) above_single
          split
          · next failure made same =>
              rw [same] at edited
              exact ⟨edited, fun _ impossible => by cases impossible⟩
          · next here made same =>
              rw [same] at edited placed
              have at_here := placed here rfl
              dsimp only
              split
              · next location created last =>
                  obtain ⟨last_edited, last_placed⟩ :=
                    create_folder_edited at_here rest_single dated last
                  refine ⟨edited.trans last_edited, ?_⟩
                  rintro _ ⟨⟩
                  exact last_placed
              · exact ⟨edited, fun _ found => folder_from_place at_here rest_single found⟩
      · exact ⟨.refl, fun _ found => folder_from_place place_top single found⟩

theorem erased_place (at_location : disk.Place location) :
    ({ disk with entries := Disk.outside location disk.entries } : Disk).Place location where
  named := at_location.named
  held := by
    intro front before different
    have kept : ¬location <+: front := fun below =>
      different (before.eq_of_length (Nat.le_antisymm before.length_le below.length_le))
    rw [Disk.lookup, find_outside disk.entries kept]
    exact at_location.held front before different

theorem erase_tree_edited (at_location : disk.Place location) (dated : late now) :
    Edited folder late disk (disk.eraseTree location now) :=
  Edited.erase.trans (.touch (erased_place at_location) dated)

theorem erase_below_edited (at_location : disk.Place location) (dated : late now) :
    Edited folder late disk (disk.eraseBelow location now) :=
  Edited.erase.trans (.set (erased_place at_location) dated fun _ => ⟨now, rfl⟩)

theorem remove_file_edited (dated : late now) (removed : disk.removeFile path now = .ok after) :
    Edited folder late disk after := by
  rw [removeFile, bind_eq_ok] at removed
  obtain ⟨⟨location, entry⟩, found, removed⟩ := removed
  cases entry with
  | folder since => cases removed
  | file content since =>
      cases removed
      exact erase_tree_edited (located_place (entry_eq_ok.mp found).1) dated

theorem remove_folder_edited (dated : late now) :
    Edited folder late disk (disk.removeFolder path now).2 := by
  unfold removeFolder
  split
  · exact .refl
  · exact .refl
  · next location since found =>
      have at_location := located_place (entry_eq_ok.mp found).1
      dsimp only
      split
      · exact erase_below_edited at_location dated
      · split
        · exact erase_below_edited at_location dated
        · exact erase_tree_edited at_location dated

theorem Edited.of_outcome {outcome : Except Failure Disk}
    (works : ∀ after, outcome = .ok after → Edited folder late disk after) :
    Edited folder late disk (outcome.toOption.getD disk) := by
  cases outcome with
  | error failure => exact .refl
  | ok after => exact works after rfl

/-- A change dates late all that it changes, if it is made late itself. -/
theorem make_edited (change : Change) (dated_now : late now)
    (dated : ∀ date ∈ change.date?, late date) :
    Edited folder late disk (disk.make now change) := by
  cases change with
  | write path content modified =>
      exact .of_outcome fun after written => write_edited (dated modified rfl) dated_now written
  | createFolders path =>
      have made : disk.make now (.createFolders path) = (disk.createFolders path now).2 := rfl
      rw [made, createFolders]
      split
      · exact .refl
      · next parts checked =>
          exact (create_folders_edited dated_now _ parts (checked_single checked)).1
  | removeFile path => exact .of_outcome fun after removed => remove_file_edited dated_now removed
  | removeFolder path => exact remove_folder_edited dated_now

end Changes

end Letterpress.Files.Disk
