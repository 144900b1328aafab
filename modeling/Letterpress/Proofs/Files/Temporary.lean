import Letterpress.Proofs.Files.Replacement
import Letterpress.Proofs.Json.Numeral
import Mathlib.Data.List.Perm.Subperm
import Mathlib.Data.List.Nodup

/-!
Files that have a name of their own until they get their path. Some such name is always free,
and nothing stands below it; so dropping the file, or giving it its path, takes all of it away
again, and what remains of it is that its folder was modified.
-/

namespace Letterpress.Files.Disk

section Names

theorem temporary_value (number : Nat) :
    Decimal.ofDigits ((temporaryName number).toList.drop 4) = number := by
  have digits : (temporaryName number).toList.drop 4 =
      List.replicate (6 - (Nat.toDigits 10 number).length) '0' ++ Decimal.digitsOf number := by
    simp only [temporaryName, String.toList_append, String.toList_ofList]
    rfl
  rw [digits, Decimal.of_digits_zeros, Decimal.of_digits_digits_of]

theorem temporary_injective {number other : Nat}
    (same : temporaryName number = temporaryName other) : number = other := by
  rw [← temporary_value number, same, temporary_value]

theorem temporary_is_name (number : Nat) : Path.IsName (temporaryName number) := by
  have chars : (temporaryName number).toList = ".tmp".toList ++
      (List.replicate (6 - (Nat.toDigits 10 number).length) '0' ++ Decimal.digitsOf number) := by
    simp only [temporaryName, String.toList_append, String.toList_ofList]
    rfl
  have starts : (temporaryName number).toList.take 4 = ['.', 't', 'm', 'p'] := by
    rw [chars]
    rfl
  refine ⟨?_, ?_, ?_⟩
  · rw [Path.isIdle, Bool.or_eq_false_iff]
    constructor
    · apply beq_false_of_ne
      intro empty
      rw [empty] at starts
      exact absurd starts (by decide)
    · apply beq_false_of_ne
      intro dot
      rw [dot] at starts
      exact absurd starts (by decide)
  · intro dots
    rw [dots] at starts
    exact absurd starts (by decide)
  · intro slash
    rw [chars] at slash
    rcases List.mem_append.mp slash with front | digit
    · exact absurd front (by decide)
    · rcases List.mem_append.mp digit with zero | digit
      · exact absurd (List.eq_of_mem_replicate zero) (by decide)
      · exact absurd (Decimal.digits_are_digits digit) (by decide)

end Names

def Fresh (disk : Disk) (location : Location) : Prop :=
  ∀ entry ∈ disk.entries, ¬location <+: entry.1

section Choice

variable {disk : Disk} {folder : Location} {name : String}

theorem free_name_eq_some (found : disk.freeName? folder = some name) :
    Path.IsName name ∧ disk.Fresh (folder ++ [name]) := by
  obtain ⟨number, -, rfl⟩ := List.mem_map.mp (List.mem_of_find?_eq_some found)
  refine ⟨temporary_is_name number, fun entry member inside => ?_⟩
  have free := List.find?_some found
  rw [Bool.not_eq_true', List.any_eq_false] at free
  exact free entry member (List.isPrefixOf_iff_prefix.mpr inside)

/-- There are more names to try than there is on the disk. -/
theorem free_name_exists (disk : Disk) (folder : Location) :
    ∃ name, disk.freeName? folder = some name := by
  rw [← Option.isSome_iff_exists, Option.isSome_iff_ne_none]
  intro none_free
  have taken : (List.range (disk.entries.length + 1)).map temporaryName ⊆
      disk.entries.filterMap fun entry => entry.1[folder.length]? := by
    intro name tried
    have held := List.find?_eq_none.mp none_free name tried
    rw [Bool.not_eq_true', Bool.not_eq_false, List.any_eq_true] at held
    obtain ⟨entry, member, inside⟩ := held
    refine List.mem_filterMap.mpr ⟨entry, member, ?_⟩
    obtain ⟨rest, same⟩ := List.isPrefixOf_iff_prefix.mp inside
    rw [← same, List.append_assoc, List.getElem?_append_right (Nat.le_refl _), Nat.sub_self]
    rfl
  have apart : ((List.range (disk.entries.length + 1)).map temporaryName).Nodup :=
    List.Nodup.map_on (fun _ _ _ _ same => temporary_injective same) List.nodup_range
  have counted := (List.subperm_of_subset apart taken).length_le
  have most := List.length_filterMap_le (fun entry : Location × Entry => entry.1[folder.length]?)
    disk.entries
  rw [List.length_map, List.length_range] at counted
  omega

end Choice

section Erasing

variable {disk : Disk} {folder location place : Location} {entry other : Entry} {name : String}
  {now modified : Instant}

theorem set_entry_twice (entries : List (Location × Entry)) :
    setEntry location other (setEntry location entry entries) =
      setEntry location other entries := by
  induction entries with
  | nil => simp [setEntry]
  | cons first rest later =>
      obtain ⟨held_at, held⟩ := first
      by_cases here : location = held_at
      · simp [setEntry, here]
      · simp [setEntry, here, later]

theorem outside_set_entry_apart (entries : List (Location × Entry)) (apart : ¬location <+: place) :
    outside location (setEntry place entry entries) =
      setEntry place entry (outside location entries) := by
  induction entries with
  | nil => exact outside_cons_apart apart
  | cons first rest later =>
      obtain ⟨held_at, held⟩ := first
      by_cases here : place = held_at
      · subst here
        rw [setEntry, if_pos rfl, outside_cons_apart apart, outside_cons_apart apart, setEntry,
          if_pos rfl]
      · rw [setEntry, if_neg here]
        by_cases inside : location <+: held_at
        · rw [outside_cons_inside inside, outside_cons_inside inside, later]
        · rw [outside_cons_apart inside, outside_cons_apart inside, setEntry, if_neg here, later]

theorem Fresh.outside (fresh : disk.Fresh location) :
    Disk.outside location disk.entries = disk.entries := by
  refine List.filter_eq_self.mpr fun found member => ?_
  rw [Bool.not_eq_true', ← Bool.not_eq_true, List.isPrefixOf_iff_prefix]
  exact fresh found member

theorem Fresh.lookup (fresh : disk.Fresh location) : disk.lookup location = none := by
  cases found : disk.lookup location with
  | none => rfl
  | some held => exact absurd List.prefix_rfl (fresh _ (mem_of_find? found))

theorem child_not_above (folder : Location) (name : String) : ¬folder ++ [name] <+: folder := by
  intro above
  have sizes := above.length_le
  rw [List.length_append, List.length_singleton] at sizes
  omega

theorem touch_around_child (there : disk.lookup folder = some (.folder modified)) :
    disk.touchAround (folder ++ [name]) now = disk.set folder (.folder now) := by
  unfold touchAround
  rw [if_neg (by simp), List.dropLast_concat, there]

/-- A folder in which a file stands under a name of its own. -/
def drafted (disk : Disk) (folder : Location) (name : String) (content : ByteArray)
    (now : Instant) : Disk :=
  ((disk.set (folder ++ [name]) (.file .empty now)).set folder (.folder now)).set
    (folder ++ [name]) (.file content now)

/-- Dropping a file of its own leaves its folder modified, and all else as it was. -/
theorem erase_drafted (fresh : disk.Fresh (folder ++ [name])) (content : ByteArray) :
    (disk.drafted folder name content now).eraseTree (folder ++ [name]) now =
      disk.set folder (.folder now) := by
  have rest : Disk.outside (folder ++ [name]) (disk.drafted folder name content now).entries =
      setEntry folder (.folder now) disk.entries := by
    simp only [drafted, set]
    rw [outside_set_entry _ List.prefix_rfl,
      outside_set_entry_apart _ (child_not_above folder name), outside_set_entry _ List.prefix_rfl, fresh.outside]
  have emptied : { disk.drafted folder name content now with
      entries := Disk.outside (folder ++ [name]) (disk.drafted folder name content now).entries } =
        disk.set folder (.folder now) := by
    rw [rest]
    rfl
  change touchAround { disk.drafted folder name content now with
    entries := Disk.outside (folder ++ [name]) (disk.drafted folder name content now).entries }
      (folder ++ [name]) now = _
  rw [emptied, touch_around_child lookup_set_self]
  simp only [set, set_entry_twice]

theorem touched_folder (there : disk.lookup folder = some (.folder modified)) :
    Touched disk (disk.set folder (.folder now)) := by
  have touched := touch_around_touched disk (folder ++ [""]) now
  rwa [touch_around_child there] at touched

/-- A file more leaves the folders where they are. -/
theorem drafted_folders (there : disk.lookup folder = some (.folder modified))
    (fresh : disk.Fresh (folder ++ [name])) (content : ByteArray) :
    SameFolders disk (disk.drafted folder name content now) := by
  have free : ∀ since, disk.lookup (folder ++ [name]) ≠ some (.folder since) := by
    intro since held
    rw [fresh.lookup] at held
    cases held
  have kept : (disk.set (folder ++ [name]) (.file .empty now)).lookup folder =
      some (.folder modified) := by
    rw [lookup_set_of_ne (child_apart folder name).symm, there]
  have first : Replaced (folder ++ [name]) .empty disk
      ((disk.set (folder ++ [name]) (.file .empty now)).set folder (.folder now)) :=
    replaced_of_touched free (touched_folder kept)
  obtain ⟨dated, written⟩ := first.written
  exact first.same_folders.trans (replaced_by_set written).same_folders

end Erasing

section Steps

variable {disk created after : Disk} {folder location : Location} {name path directory : String}
  {content : ByteArray} {now modified : Instant}

theorem create_temporary_eq_ok
    (made : disk.createTemporary directory now = .ok (path, location, created)) :
    ∃ folder modified name, disk.entry directory = .ok (folder, .folder modified) ∧
      Path.IsName name ∧ disk.Fresh (folder ++ [name]) ∧ location = folder ++ [name] ∧
      created = (disk.set location (.file .empty now)).set folder (.folder now) := by
  simp only [createTemporary, bind_eq_ok] at made
  obtain ⟨_, -, ⟨folder, entry⟩, found, made⟩ := made
  cases entry with
  | file content modified => cases made
  | folder modified =>
      dsimp only at made
      split at made
      · cases made
      · next name free =>
          cases made
          obtain ⟨is_name, fresh⟩ := free_name_eq_some free
          refine ⟨folder, modified, name, found, is_name, fresh, rfl, ?_⟩
          apply touch_around_child
          rw [lookup_set_of_ne (child_apart folder name).symm]
          exact (entry_eq_ok.mp found).2

theorem create_temporary_works (found : disk.entry directory = .ok (folder, .folder modified))
    (checked : ∃ parts, disk.checkedParts (Path.join directory (temporaryName 0)) = .ok parts) :
    ∃ made, disk.createTemporary directory now = .ok made := by
  obtain ⟨parts, accepted⟩ := checked
  obtain ⟨name, free⟩ := free_name_exists disk folder
  simp only [createTemporary, accepted, found, free, bind, Except.bind]
  exact ⟨_, rfl⟩

theorem write_created :
    ((disk.set (folder ++ [name]) (.file .empty now)).set folder (.folder now)).writeAt
      (folder ++ [name]) content now now = .ok (disk.drafted folder name content now) := by
  have held : ((disk.set (folder ++ [name]) (.file .empty now)).set folder
      (.folder now)).lookup (folder ++ [name]) = some (.file .empty now) := by
    rw [lookup_set_of_ne (child_apart folder name), lookup_set_self]
  rw [writeAt, held]
  rfl

/-- A file gets its path where a file could be put there in the first place, and then that is
all that happened. -/
theorem move_drafted (there : disk.lookup folder = some (.folder modified))
    (fresh : disk.Fresh (folder ++ [name])) :
    (disk.drafted folder name content now).moveFile (folder ++ [name]) path now = .ok after ↔
      ∃ target placed, disk.locate path = .ok target ∧
        (disk.set folder (.folder now)).writeAt target content now now = .ok placed ∧
        after = placed.touchAround target now := by
  have folders : SameFolders disk (disk.drafted folder name content now) :=
    drafted_folders there fresh content
  have held : (disk.drafted folder name content now).lookup (folder ++ [name]) =
      some (.file content now) := lookup_set_self
  rw [moveFile, bind_eq_ok]
  constructor
  · rintro ⟨target, located, moved⟩
    rw [held, bind_eq_ok, erase_drafted fresh] at moved
    obtain ⟨placed, put, same⟩ := moved
    cases same
    exact ⟨target, placed, folders.symm.located located, put, rfl⟩
  · rintro ⟨target, placed, located, put, rfl⟩
    refine ⟨target, folders.located located, ?_⟩
    rw [held, bind_eq_ok, erase_drafted fresh]
    exact ⟨placed, put, rfl⟩

end Steps

end Letterpress.Files.Disk
