import Letterpress.Proofs.Files.Path
import Letterpress.Proofs.Outcome
import Letterpress.Proofs.Value.Entries

/-!
What operations leave as it is. Everything the store does to a disk happens inside one
folder: the entries outside of it stay, and folders stay folders. Then a path that leads
to a folder goes on leading there, and a path that never enters that folder leads to the
same place with the same content.
-/

namespace Letterpress.Files.Disk

section Lookup

variable {disk : Disk} {location other folder : Location} {entry : Entry}

theorem lookup_set_self : (disk.set location entry).lookup location = some entry :=
  find?_setEntry_self location entry disk.entries

theorem lookup_set_of_ne (different : other ≠ location) :
    (disk.set location entry).lookup other = disk.lookup other :=
  find?_setEntry_of_ne entry disk.entries different

/-- The entries that do not lie in a folder. The folder itself counts as in it. -/
def outside (folder : Location) (entries : List (Location × Entry)) : List (Location × Entry) :=
  entries.filter fun entry => !folder.isPrefixOf entry.1

theorem outside_cons_inside {first : Location × Entry} {rest : List (Location × Entry)}
    (inside : folder <+: first.1) : outside folder (first :: rest) = outside folder rest := by
  simp [outside, inside]

theorem outside_cons_apart {first : Location × Entry} {rest : List (Location × Entry)}
    (apart : ¬folder <+: first.1) :
    outside folder (first :: rest) = first :: outside folder rest := by
  have no_prefix : folder.isPrefixOf first.1 = false := by
    rw [← Bool.not_eq_true, List.isPrefixOf_iff_prefix]
    exact apart
  simp only [outside, List.filter_cons, no_prefix]
  rfl

theorem find_outside (entries : List (Location × Entry)) (apart : ¬folder <+: location) :
    find? location (outside folder entries) = find? location entries := by
  induction entries with
  | nil => rfl
  | cons first rest same =>
      obtain ⟨other, held⟩ := first
      by_cases inside : folder <+: other
      · have different : location ≠ other := fun same => apart (same ▸ inside)
        rw [outside_cons_inside inside, same, find?, if_neg different]
      · rw [outside_cons_apart inside, find?, find?, same]

theorem find_inside_outside (entries : List (Location × Entry)) (inside : folder <+: location) :
    find? location (outside folder entries) = none := by
  induction entries with
  | nil => rfl
  | cons first rest none_later =>
      obtain ⟨other, held⟩ := first
      by_cases other_inside : folder <+: other
      · rw [outside_cons_inside other_inside, none_later]
      · have different : location ≠ other := fun same => other_inside (same ▸ inside)
        rw [outside_cons_apart other_inside, find?, if_neg different, none_later]

theorem outside_set_entry (entries : List (Location × Entry)) (inside : folder <+: location) :
    outside folder (setEntry location entry entries) = outside folder entries := by
  induction entries with
  | nil => exact outside_cons_inside inside
  | cons first rest same =>
      obtain ⟨other, held⟩ := first
      by_cases here : location = other
      · subst here
        rw [setEntry, if_pos rfl, outside_cons_inside inside, outside_cons_inside inside]
      · rw [setEntry, if_neg here]
        by_cases other_inside : folder <+: other
        · rw [outside_cons_inside other_inside, outside_cons_inside other_inside, same]
        · rw [outside_cons_apart other_inside, outside_cons_apart other_inside, same]

theorem outside_outside (entries : List (Location × Entry)) (inside : folder <+: location) :
    outside folder (outside location entries) = outside folder entries := by
  induction entries with
  | nil => rfl
  | cons first rest same =>
      by_cases below : location <+: first.1
      · rw [outside_cons_inside below, same, outside_cons_inside (inside.trans below)]
      · rw [outside_cons_apart below]
        by_cases first_inside : folder <+: first.1
        · rw [outside_cons_inside first_inside, outside_cons_inside first_inside, same]
        · rw [outside_cons_apart first_inside, outside_cons_apart first_inside, same]

theorem mem_set_entry {entries : List (Location × Entry)} {found : Location × Entry}
    (member : found ∈ setEntry location entry entries) :
    found = (location, entry) ∨ found ∈ entries := by
  induction entries with
  | nil => simpa [setEntry] using member
  | cons first rest later =>
      obtain ⟨other, held⟩ := first
      by_cases here : location = other
      · rw [setEntry, if_pos here] at member
        rcases List.mem_cons.mp member with same | inside
        · exact .inl same
        · exact .inr (List.mem_cons_of_mem _ inside)
      · rw [setEntry, if_neg here] at member
        rcases List.mem_cons.mp member with same | inside
        · exact .inr (same ▸ List.mem_cons_self)
        · rcases later inside with same | found_later
          · exact .inl same
          · exact .inr (List.mem_cons_of_mem _ found_later)

end Lookup

section Folders

/-- A location that folders lead to, and that is a folder itself. -/
def FolderPath (disk : Disk) (location : Location) : Prop :=
  ∀ front, front <+: location → ∃ modified, disk.lookup front = some (.folder modified)

variable {disk : Disk} {here location : Location}

theorem FolderPath.above {front : Location} (path : disk.FolderPath location)
    (above : front <+: location) : disk.FolderPath front :=
  fun shorter before => path shorter (before.trans above)

theorem FolderPath.below {name : String} {modified : Instant} (path : disk.FolderPath location)
    (held : disk.lookup (location ++ [name]) = some (.folder modified)) :
    disk.FolderPath (location ++ [name]) := by
  intro front before
  rcases List.prefix_concat_iff.mp before with same | above
  · exact ⟨modified, same ▸ held⟩
  · exact path front above

theorem follow_append (front back : List String) :
    disk.follow here (front ++ back) =
      (disk.follow here front).bind fun location => disk.follow location back := by
  induction front generalizing here with
  | nil => rfl
  | cons part rest later =>
      simp only [List.cons_append, follow]
      split
      · rfl
      · rfl
      · split
        · exact later
        · split
          · split
            · rfl
            · exact later
          · split
            · rfl
            · exact later

inductive Leads (here : Location) (part : String) : Location → Prop
  | stay (idle : Path.isIdle part = true) : Leads here part here
  | up (leads : Path.isIdle part = false) (dots : part = "..") (inside : here.isEmpty = false) :
      Leads here part here.dropLast
  | down (leads : Path.isIdle part = false) (other : part ≠ "..")
      (short : part.utf8ByteSize ≤ nameLimit) : Leads here part (here ++ [part])

theorem follow_cons_eq_ok {part : String} {rest : List String} :
    disk.follow here (part :: rest) = .ok location ↔
      ∃ modified next, disk.lookup here = some (.folder modified) ∧ Leads here part next ∧
        disk.follow next rest = .ok location := by
  simp only [follow]
  constructor
  · intro followed
    split at followed
    · cases followed
    · cases followed
    · next modified found =>
        refine ⟨modified, ?_⟩
        split at followed
        · next idle => exact ⟨here, found, .stay idle, followed⟩
        · next leads =>
            rw [Bool.not_eq_true] at leads
            split at followed
            · next dots =>
                split at followed
                · cases followed
                · next inside =>
                    rw [Bool.not_eq_true] at inside
                    exact ⟨here.dropLast, found, .up leads dots inside, followed⟩
            · next other =>
                split at followed
                · cases followed
                · next short =>
                    exact ⟨here ++ [part], found, .down leads other (by omega), followed⟩
  · rintro ⟨modified, next, found, leads, followed⟩
    simp only [found]
    cases leads with
    | stay idle =>
        rw [if_pos idle]
        exact followed
    | up leads dots inside =>
        rw [if_neg (by simp [leads]), if_pos dots, if_neg (by simp [inside])]
        exact followed
    | down leads other short =>
        rw [if_neg (by simp [leads]), if_neg other, if_neg (by omega)]
        exact followed

theorem Leads.same {part : String} {next elsewhere : Location} (leads : Leads here part next)
    (again : Leads here part elsewhere) : elsewhere = next := by
  cases leads <;> cases again <;> simp_all

theorem follow_idle {parts : List String} (idle : ∀ part ∈ parts, Path.isIdle part = true)
    (followed : disk.follow here parts = .ok location) : here = location := by
  induction parts with
  | nil =>
      cases followed
      rfl
  | cons part rest later =>
      obtain ⟨_, next, _, leads, followed⟩ := follow_cons_eq_ok.mp followed
      have stays : here = next := leads.same (.stay (idle part (by simp)))
      subst stays
      exact later (fun other member => idle other (by simp [member])) followed

theorem follow_from_folder {parts : List String} {modified : Instant}
    (followed : disk.follow here parts = .ok location)
    (held : disk.lookup location = some (.folder modified)) :
    ∃ modified, disk.lookup here = some (.folder modified) := by
  cases parts with
  | nil =>
      cases followed
      exact ⟨modified, held⟩
  | cons part rest =>
      obtain ⟨since, _, folder, _⟩ := follow_cons_eq_ok.mp followed
      exact ⟨since, folder⟩

/-- The way to a folder goes through folders, and leads there wherever they are all kept. -/
theorem follow_kept {other : Disk} {parts : List String} {modified : Instant}
    (kept : ∀ {location}, disk.FolderPath location → other.FolderPath location)
    (path : disk.FolderPath here) (followed : disk.follow here parts = .ok location)
    (held : disk.lookup location = some (.folder modified)) :
    other.follow here parts = .ok location ∧ disk.FolderPath location := by
  induction parts generalizing here with
  | nil =>
      cases followed
      exact ⟨rfl, path⟩
  | cons part rest later =>
      obtain ⟨_, next, _, leads, followed⟩ := follow_cons_eq_ok.mp followed
      have next_path : disk.FolderPath next := by
        cases leads with
        | stay => exact path
        | up => exact path.above (List.dropLast_prefix here)
        | down =>
            obtain ⟨since, below⟩ := follow_from_folder followed held
            exact path.below below
      obtain ⟨since, folder⟩ := kept path here List.prefix_rfl
      obtain ⟨followed_other, path_there⟩ := later next_path followed
      exact ⟨follow_cons_eq_ok.mpr ⟨since, next, folder, leads, followed_other⟩, path_there⟩

/-- A path goes on leading where it leads, as long as all folders stay. -/
theorem follow_folders {other : Disk} {parts : List String}
    (folders : ∀ {place modified}, disk.lookup place = some (.folder modified) →
      ∃ since, other.lookup place = some (.folder since))
    (followed : disk.follow here parts = .ok location) :
    other.follow here parts = .ok location := by
  induction parts generalizing here with
  | nil => exact followed
  | cons part rest later =>
      obtain ⟨modified, next, found, leads, followed⟩ := follow_cons_eq_ok.mp followed
      obtain ⟨since, folder⟩ := folders found
      exact follow_cons_eq_ok.mpr ⟨since, next, folder, leads, later followed⟩

/-- Where a path straight down leads depends on what kinds of things are along it, and it leads
to the location that it spells. -/
theorem follow_along {other : Disk} {parts : List String} (down : ".." ∉ parts)
    (same : ∀ location, here <+: location →
      location <+: here ++ parts.filter (fun part => !Path.isIdle part) →
        (other.lookup location).map Entry.isFile = (disk.lookup location).map Entry.isFile) :
    other.follow here parts = disk.follow here parts ∧
      ∀ location, disk.follow here parts = .ok location →
        location = here ++ parts.filter fun part => !Path.isIdle part := by
  induction parts generalizing here with
  | nil =>
      refine ⟨rfl, ?_⟩
      intro location followed
      cases followed
      simp
  | cons part rest later =>
      have rest_down : ".." ∉ rest := fun up => down (List.mem_cons_of_mem part up)
      have part_down : part ≠ ".." := fun up => down (by simp [up])
      have here_same := same here List.prefix_rfl (List.prefix_append here _)
      -- what comes after the folder here agrees, and ends where it should
      have further : ∀ since, disk.lookup here = some (.folder since) →
          other.follow here (part :: rest) = disk.follow here (part :: rest) ∧
            ∀ location, disk.follow here (part :: rest) = .ok location →
              location = here ++ (part :: rest).filter fun part => !Path.isIdle part := by
        intro since found
        obtain ⟨modified, other_found⟩ :
            ∃ modified, other.lookup here = some (.folder modified) := by
          rw [found] at here_same
          obtain ⟨entry, held, folder⟩ := Option.map_eq_some_iff.mp here_same
          cases entry with
          | file content modified => cases folder
          | folder modified => exact ⟨modified, held⟩
        simp only [follow, found, other_found]
        by_cases idle : Path.isIdle part = true
        · have skipped : (part :: rest).filter (fun part => !Path.isIdle part) =
              rest.filter fun part => !Path.isIdle part := by simp [idle]
          rw [skipped] at same ⊢
          rw [if_pos idle, if_pos idle]
          exact later rest_down same
        · have along : here ++ (part :: rest).filter (fun part => !Path.isIdle part) =
              (here ++ [part]) ++ rest.filter fun part => !Path.isIdle part := by simp [idle]
          rw [along] at same ⊢
          rw [if_neg idle, if_neg idle, if_neg part_down, if_neg part_down]
          split
          · exact ⟨rfl, nofun⟩
          · exact later rest_down fun location inside =>
              same location ((List.prefix_append here [part]).trans inside)
      cases found : disk.lookup here with
      | none =>
          rw [found] at here_same
          have other_none := Option.map_eq_none_iff.mp here_same
          simp only [follow, found, other_none]
          exact ⟨trivial, nofun⟩
      | some entry =>
          cases entry with
          | folder since => exact further since found
          | file content since =>
              rw [found] at here_same
              obtain ⟨held, other_found, file⟩ := Option.map_eq_some_iff.mp here_same
              cases held with
              | folder modified => cases file
              | file text modified =>
                  simp only [follow, found, other_found]
                  exact ⟨trivial, nofun⟩

/-- A path that leads straight down never enters a folder that it does not lead into. -/
theorem follow_apart {other : Disk} {folder : Location} {parts : List String}
    (same : ∀ location, ¬folder <+: location → other.lookup location = disk.lookup location)
    (down : ".." ∉ parts)
    (apart : ¬folder <+: here ++ parts.filter fun part => !Path.isIdle part) :
    other.follow here parts = disk.follow here parts ∧
      ∀ location, disk.follow here parts = .ok location →
        location = here ++ parts.filter fun part => !Path.isIdle part := by
  apply follow_along down
  intro location _ before
  rw [same location fun inside => apart (inside.trans before)]

/-- A path without steps up leads to the location that it spells. -/
theorem follow_straight (down : ".." ∉ parts) (followed : disk.follow here parts = .ok location) :
    location = here ++ parts.filter fun part => !Path.isIdle part :=
  (follow_along down fun _ _ _ => rfl).2 location followed

end Folders

def AllNames (disk : Disk) : Prop :=
  ∀ entry ∈ disk.entries, ∀ name ∈ entry.1, Path.IsName name

/-- A disk that was changed inside one folder only, and has all folders that it had. -/
structure ChangedIn (folder : Location) (before after : Disk) : Prop where
  mount : after.mount = before.mount
  outside : outside folder after.entries = outside folder before.entries
  folders : ∀ {location}, before.FolderPath location → after.FolderPath location
  names : before.AllNames → after.AllNames

namespace ChangedIn

variable {disk middle after : Disk} {folder location : Location}

theorem refl : ChangedIn folder disk disk := ⟨rfl, rfl, id, id⟩

theorem trans (first : ChangedIn folder disk middle) (second : ChangedIn folder middle after) :
    ChangedIn folder disk after where
  mount := second.mount.trans first.mount
  outside := second.outside.trans first.outside
  folders := fun path => second.folders (first.folders path)
  names := fun names => second.names (first.names names)

theorem lookup (changed : ChangedIn folder disk after) (apart : ¬folder <+: location) :
    after.lookup location = disk.lookup location := by
  rw [Disk.lookup, Disk.lookup, ← find_outside after.entries apart, changed.outside,
    find_outside disk.entries apart]

theorem mem (changed : ChangedIn folder disk after) {entry : Location × Entry}
    (apart : ¬folder <+: entry.1) (member : entry ∈ after.entries) : entry ∈ disk.entries := by
  have no_prefix : (!folder.isPrefixOf entry.1) = true := by
    rw [Bool.not_eq_true', ← Bool.not_eq_true, List.isPrefixOf_iff_prefix]
    exact apart
  have kept : entry ∈ Disk.outside folder after.entries := List.mem_filter.mpr ⟨member, no_prefix⟩
  rw [changed.outside] at kept
  exact (List.mem_filter.mp kept).1

/-- Something is put where no folder is, or a folder is put in place of one. -/
theorem set {entry : Entry} (inside : folder <+: location)
    (names : ∀ name ∈ location, Path.IsName name)
    (keeps : (∃ modified, disk.lookup location = some (.folder modified)) →
      ∃ modified, entry = .folder modified) :
    ChangedIn folder disk (disk.set location entry) where
  mount := rfl
  outside := outside_set_entry disk.entries inside
  folders := by
    intro other path front before
    by_cases here : front = location
    · subst here
      obtain ⟨modified, same⟩ := keeps (path front before)
      exact ⟨modified, by rw [lookup_set_self, same]⟩
    · rw [lookup_set_of_ne here]
      exact path front before
  names := by
    intro all found member
    rcases mem_set_entry member with same | held
    · subst same
      exact names
    · exact all found held

theorem erase {content : ByteArray} {modified : Instant} (inside : folder <+: location)
    (file : disk.lookup location = some (.file content modified)) :
    ChangedIn folder disk { disk with entries := Disk.outside location disk.entries } where
  mount := rfl
  outside := outside_outside disk.entries inside
  folders := by
    intro other path front before
    have apart : ¬location <+: front := by
      intro below
      obtain ⟨since, held⟩ := path location (below.trans before)
      rw [file] at held
      cases held
    rw [Disk.lookup, find_outside disk.entries apart]
    exact path front before
  names := fun all found member => all found (List.mem_filter.mp member).1

end ChangedIn

structure WellFormed (disk : Disk) : Prop extends disk.Mounted where
  names : disk.AllNames

theorem WellFormed.kept {disk after : Disk} {folder : Location} (formed : disk.WellFormed)
    (changed : ChangedIn folder disk after) : after.WellFormed where
  absolute := by rw [changed.mount]; exact formed.absolute
  named := by rw [changed.mount]; exact formed.named
  names := changed.names formed.names

section Entries

variable {disk after : Disk} {path name : String} {parts : List String} {location : Location}
  {entry : Entry} {modified : Instant}

theorem checked_eq_ok :
    disk.checkedParts path = .ok parts ↔
      (path.toList.any fun char => char.toNat == 0) = false ∧ path.utf8ByteSize < pathLimit ∧
        disk.partsBelow? path = some parts := by
  unfold checkedParts
  split
  · next null => simp [null]
  · next no_null =>
      split
      · next long => simp; omega
      · next short =>
          have size : path.utf8ByteSize < pathLimit := by omega
          split
          · next elsewhere => simp [elsewhere]
          · next found below => simp [no_null, size, below]

theorem checked_same {other : Disk} (mount : other.mount = disk.mount) :
    other.checkedParts path = disk.checkedParts path := by
  rw [checkedParts, checkedParts, parts_below_same mount]

theorem locate_eq_ok :
    disk.locate path = .ok location ↔
      ∃ parts, disk.checkedParts path = .ok parts ∧ disk.follow [] parts = .ok location :=
  bind_eq_ok

theorem entry_eq_ok :
    disk.entry path = .ok (location, entry) ↔
      disk.locate path = .ok location ∧ disk.lookup location = some entry := by
  rw [Disk.entry, bind_eq_ok]
  constructor
  · rintro ⟨there, located, held⟩
    split at held
    · next found =>
        cases held
        exact ⟨located, found⟩
    · cases held
  · rintro ⟨located, held⟩
    refine ⟨location, located, ?_⟩
    rw [held]
    rfl

theorem read_located (located : disk.locate path = .ok location) :
    disk.read path =
      match disk.lookup location with
      | some (.file content _) => .ok content
      | some (.folder _) => .error .isADirectory
      | none => .error .notFound := by
  rw [read, Disk.entry, located]
  simp only [bind, Except.bind]
  cases disk.lookup location with
  | none => rfl
  | some entry => cases entry <;> rfl

theorem remove_located {now : Instant} (located : disk.locate path = .ok location) :
    disk.removeFile path now =
      match disk.lookup location with
      | some (.file _ _) => .ok (disk.eraseTree location now)
      | some (.folder _) => .error .isADirectory
      | none => .error .notFound := by
  rw [removeFile, Disk.entry, located]
  simp only [bind, Except.bind]
  cases disk.lookup location with
  | none => rfl
  | some entry => cases entry <;> rfl

/-- A folder that a path leads to stays there. -/
theorem entry_kept (found : disk.entry path = .ok (location, .folder modified))
    (mount : after.mount = disk.mount)
    (kept : ∀ {location}, disk.FolderPath location → after.FolderPath location) :
    disk.FolderPath location ∧ ∃ since, after.entry path = .ok (location, .folder since) := by
  obtain ⟨located, held⟩ := entry_eq_ok.mp found
  obtain ⟨parts, checked, followed⟩ := locate_eq_ok.mp located
  obtain ⟨since, top⟩ := follow_from_folder followed held
  have top_path : disk.FolderPath [] := by
    intro front before
    rw [List.prefix_nil.mp before]
    exact ⟨since, top⟩
  obtain ⟨followed_after, path_here⟩ := follow_kept kept top_path followed held
  obtain ⟨later, held_after⟩ := kept path_here location List.prefix_rfl
  refine ⟨path_here, later, ?_⟩
  refine entry_eq_ok.mpr ⟨locate_eq_ok.mpr ⟨parts, ?_, followed_after⟩, held_after⟩
  rw [checked_same mount]
  exact checked

theorem follow_in_folder (mounted : disk.Mounted)
    (found : disk.entry path = .ok (location, .folder modified)) (is_name : Path.IsName name)
    (checked : disk.checkedParts (Path.join path name) = .ok parts) :
    disk.follow [] parts =
      if nameLimit < name.utf8ByteSize then .error .invalidFilename
      else .ok (location ++ [name]) := by
  obtain ⟨located, held⟩ := entry_eq_ok.mp found
  obtain ⟨folder_parts, folder_checked, followed⟩ := locate_eq_ok.mp located
  obtain ⟨-, -, folder_below⟩ := checked_eq_ok.mp folder_checked
  obtain ⟨-, -, below⟩ := checked_eq_ok.mp checked
  obtain ⟨front, joined, same⟩ := parts_below_join mounted folder_below (Path.name_relative is_name)
  rw [Path.parts_name is_name.single, below] at joined
  cases joined
  have front_followed : disk.follow [] front = .ok location := by
    rcases same with same | same
    · rw [← same]
      exact followed
    · rw [same, follow_append] at followed
      cases before : disk.follow [] front with
      | error failure =>
          rw [before] at followed
          cases followed
      | ok here =>
          rw [before] at followed
          rw [follow_idle (by decide) followed]
  rw [follow_append, front_followed]
  simp only [Except.bind, follow, held, is_name.leads, is_name.down]
  rfl

theorem locate_in_folder (mounted : disk.Mounted)
    (found : disk.entry path = .ok (location, .folder modified)) (is_name : Path.IsName name)
    (no_null : (name.toList.any fun char => char.toNat == 0) = false)
    (short : name.utf8ByteSize ≤ nameLimit)
    (path_short : path.utf8ByteSize + 1 + name.utf8ByteSize < pathLimit) :
    disk.locate (Path.join path name) = .ok (location ++ [name]) := by
  obtain ⟨folder_parts, folder_checked, _⟩ := locate_eq_ok.mp (entry_eq_ok.mp found).1
  obtain ⟨folder_no_null, -, below⟩ := checked_eq_ok.mp folder_checked
  obtain ⟨front, joined, _⟩ := parts_below_join mounted below (Path.name_relative is_name)
  have checked : disk.checkedParts (Path.join path name) = .ok (front ++ Path.parts name) := by
    rw [checked_eq_ok]
    rcases Path.join_relative path (Path.name_relative is_name) with direct | slash
    · rw [direct] at joined ⊢
      refine ⟨by simp [folder_no_null, no_null], ?_, joined⟩
      rw [String.utf8ByteSize_append]
      omega
    · rw [slash] at joined ⊢
      refine ⟨by simp [folder_no_null, no_null], ?_, joined⟩
      have mark : "/".utf8ByteSize = 1 := by decide
      rw [String.utf8ByteSize_append, String.utf8ByteSize_append]
      omega
  have followed := follow_in_folder mounted found is_name checked
  rw [if_neg (by omega)] at followed
  exact locate_eq_ok.mpr ⟨_, checked, followed⟩

/-- Whatever a name in a folder leads to is in that folder. -/
theorem located_in_folder {other : Location} (mounted : disk.Mounted)
    (found : disk.entry path = .ok (location, .folder modified)) (is_name : Path.IsName name)
    (located : disk.locate (Path.join path name) = .ok other) : other = location ++ [name] := by
  obtain ⟨parts, checked, followed⟩ := locate_eq_ok.mp located
  rw [follow_in_folder mounted found is_name checked] at followed
  split at followed
  · cases followed
  · cases followed
    rfl

theorem entry_apart {folder : Location} (mount : after.mount = disk.mount)
    (same : ∀ location, ¬folder <+: location → after.lookup location = disk.lookup location)
    (below : disk.partsBelow? path = some parts) (down : ".." ∉ parts)
    (apart : ¬folder <+: parts.filter fun part => !Path.isIdle part) :
    after.entry path = disk.entry path := by
  have straight : ¬folder <+: [] ++ parts.filter fun part => !Path.isIdle part := by
    rw [List.nil_append]
    exact apart
  obtain ⟨followed, leads⟩ := follow_apart same down straight
  have located : after.locate path = disk.locate path := by
    rw [locate, locate, checked_same mount]
    cases here : disk.checkedParts path with
    | error failure => rfl
    | ok found =>
        have same_parts := (checked_eq_ok.mp here).2.2
        rw [below] at same_parts
        cases same_parts
        exact followed
  rw [Disk.entry, Disk.entry, located]
  cases here : disk.locate path with
  | error failure => rfl
  | ok location =>
      obtain ⟨found, found_checked, found_followed⟩ := locate_eq_ok.mp here
      have same_parts := (checked_eq_ok.mp found_checked).2.2
      rw [below] at same_parts
      cases same_parts
      have location_apart : ¬folder <+: location := by
        rw [leads location found_followed]
        exact straight
      simp only [bind, Except.bind, same location location_apart]

theorem located_path_of {other : Location} (mounted : disk.Mounted)
    (all_names : ∀ part ∈ location, Path.IsName part)
    (located : disk.locate (disk.pathOf location) = .ok other) : other = location := by
  obtain ⟨found, checked, followed⟩ := locate_eq_ok.mp located
  have same_parts := (checked_eq_ok.mp checked).2.2
  rw [(parts_of_path_of mounted all_names).1] at same_parts
  cases same_parts
  have no_dots : ".." ∉ location := fun member => (all_names _ member).down rfl
  rw [follow_straight no_dots followed, Path.names_lead all_names, List.nil_append]

end Entries

section Listing

theorem mem_of_children {disk : Disk} {location : Location} {child : String × Entry}
    (member : child ∈ disk.children location) :
    (location ++ [child.1], child.2) ∈ disk.entries := by
  obtain ⟨⟨place, entry⟩, held, found⟩ := List.mem_filterMap.mp (Entries.mem_of_mem_of_list member)
  dsimp only at found
  split at found
  · cases found
  · next name above reversed =>
      split at found
      · next same =>
          cases found
          have place_split : place = above.reverse ++ [name] := by
            rw [← List.reverse_cons, ← reversed, List.reverse_reverse]
          rw [← same, ← place_split]
          exact held
      · cases found

theorem find_eq_none {location : Location} {entries : List (Location × Entry)} :
    find? location entries = none ↔ location ∉ entries.map Prod.fst := by
  induction entries with
  | nil => simp [find?]
  | cons first rest absent =>
      obtain ⟨other, held⟩ := first
      by_cases same : location = other
      · simp [find?, same]
      · simp [find?, same, absent]

/-- A folder lists what stands in it, each name once. -/
theorem children_names (disk : Disk) (location : Location) :
    ((disk.children location).map Prod.fst).Nodup ∧
      ∀ name, name ∈ (disk.children location).map Prod.fst ↔
        (disk.lookup (location ++ [name])).isSome = true := by
  unfold children
  generalize listed : disk.entries.filterMap _ = pairs
  obtain ⟨sorted, keys⟩ := Entries.of_list_keys pairs
  refine ⟨?_, fun name => ?_⟩
  · refine List.pairwise_map.mpr (sorted.imp ?_)
    intro earlier later before same
    exact String.lt_irrefl _ (same ▸ before)
  · rw [keys, ← listed, Option.isSome_iff_ne_none, ne_eq, lookup, find_eq_none, Classical.not_not]
    simp only [List.mem_map, List.mem_filterMap]
    constructor
    · rintro ⟨⟨found, entry⟩, ⟨⟨place, held⟩, member, said⟩, rfl⟩
      dsimp only at said
      split at said
      · cases said
      · next last above reversed =>
          split at said
          · next same =>
              cases said
              refine ⟨_, member, ?_⟩
              rw [← same, ← List.reverse_cons, ← reversed, List.reverse_reverse]
          · cases said
    · rintro ⟨⟨place, held⟩, member, rfl⟩
      exact ⟨(name, held), ⟨(location ++ [name], held), member, by simp⟩, rfl⟩

theorem list_eq_ok {disk : Disk} {path : String} {children : List (String × Entry)}
    (listed : disk.list path = .ok children) :
    ∃ location, disk.locate path = .ok location ∧ children = disk.children location := by
  rw [list, bind_eq_ok] at listed
  obtain ⟨⟨location, entry⟩, found, listed⟩ := listed
  cases entry with
  | file content modified => cases listed
  | folder modified =>
      cases listed
      exact ⟨location, (entry_eq_ok.mp found).1, rfl⟩

end Listing

section Changes

variable {disk after : Disk} {folder other : Location} {name beside : String} {now : Instant}

theorem touch_changed (disk : Disk) (names : ∀ part ∈ folder, Path.IsName part) :
    ChangedIn folder disk (disk.touchAround (folder ++ [name]) now) := by
  unfold touchAround
  rw [if_neg (by simp), List.dropLast_concat]
  split
  · exact ChangedIn.set List.prefix_rfl names fun _ => ⟨now, rfl⟩
  · exact ChangedIn.refl

theorem touch_lookup (disk : Disk) (different : other ≠ folder) :
    (disk.touchAround (folder ++ [name]) now).lookup other = disk.lookup other := by
  unfold touchAround
  rw [if_neg (by simp), List.dropLast_concat]
  split
  · exact lookup_set_of_ne different
  · rfl

/-- A file can be put under a name in a folder, unless there is a folder of that name. -/
theorem write_in_folder (content : ByteArray) (modified now : Instant)
    (names : ∀ part ∈ folder, Path.IsName part) (is_name : Path.IsName name)
    (free : ∀ since, disk.lookup (folder ++ [name]) ≠ some (.folder since)) :
    ∃ written, disk.writeAt (folder ++ [name]) content modified now = .ok written ∧
      ChangedIn folder disk written ∧
      ∀ other, other ≠ folder → written.lookup other =
        (disk.set (folder ++ [name]) (.file content modified)).lookup other := by
  have all_names : ∀ part ∈ folder ++ [name], Path.IsName part := by
    intro part member
    rcases List.mem_append.mp member with above | last
    · exact names part above
    · rw [List.mem_singleton.mp last]
      exact is_name
  have put : ChangedIn folder disk (disk.set (folder ++ [name]) (.file content modified)) := by
    apply ChangedIn.set (List.prefix_append folder [name]) all_names
    rintro ⟨since, held⟩
    exact absurd held (free since)
  cases held : disk.lookup (folder ++ [name]) with
  | none =>
      refine ⟨_, by rw [writeAt, held], put.trans (touch_changed _ names), ?_⟩
      intro other different
      exact touch_lookup _ different
  | some entry =>
      cases entry with
      | folder since => exact absurd held (free since)
      | file before since =>
          exact ⟨_, by rw [writeAt, held], put, fun other _ => rfl⟩

/-- Files in a folder went, and nothing else happened. -/
structure ShrunkIn (folder : Location) (before after : Disk) : Prop where
  changed : ChangedIn folder before after
  fewer : ∀ other, other ≠ folder →
    after.lookup other = before.lookup other ∨ after.lookup other = none

theorem ShrunkIn.refl (disk : Disk) : ShrunkIn folder disk disk := ⟨.refl, fun _ _ => .inl rfl⟩

theorem ShrunkIn.trans {middle : Disk} (first : ShrunkIn folder disk middle)
    (second : ShrunkIn folder middle after) : ShrunkIn folder disk after where
  changed := first.changed.trans second.changed
  fewer := by
    intro other different
    rcases second.fewer other different with same | gone
    · rw [same]
      exact first.fewer other different
    · exact .inr gone

theorem erase_shrinks {content : ByteArray} {modified : Instant}
    (names : ∀ part ∈ folder, Path.IsName part)
    (file : disk.lookup (folder ++ [name]) = some (.file content modified)) :
    ShrunkIn folder disk (disk.eraseTree (folder ++ [name]) now) where
  changed := (ChangedIn.erase (List.prefix_append folder [name]) file).trans (touch_changed _ names)
  fewer := by
    intro other different
    rw [eraseTree, touch_lookup _ different]
    by_cases below : folder ++ [name] <+: other
    · exact .inr (find_inside_outside disk.entries below)
    · exact .inl (find_outside disk.entries below)

theorem child_apart (folder : Location) (name : String) : folder ++ [name] ≠ folder := by
  intro same
  have sizes := congrArg List.length same
  rw [List.length_append, List.length_singleton] at sizes
  omega

theorem erase_lookup_beside (disk : Disk) :
    (disk.eraseTree (folder ++ [name]) now).lookup (folder ++ [beside]) =
      if beside = name then none else disk.lookup (folder ++ [beside]) := by
  rw [eraseTree, touch_lookup _ (child_apart folder beside)]
  split
  · next same =>
      subst same
      exact find_inside_outside disk.entries List.prefix_rfl
  · next apart =>
      apply find_outside disk.entries
      intro below
      have same := below.eq_of_length (by simp)
      exact apart (List.singleton_inj.mp (List.append_cancel_left same)).symm

theorem remove_in_folder {path : String} {modified : Instant} (well_formed : disk.WellFormed)
    (found : disk.entry path = .ok (folder, .folder modified)) (is_name : Path.IsName name)
    (removed : disk.removeFile (Path.join path name) now = .ok after) :
    ShrunkIn folder disk after := by
  have folder_names : ∀ part ∈ folder, Path.IsName part :=
    well_formed.names _ (mem_of_find? (entry_eq_ok.mp found).2)
  rw [removeFile, bind_eq_ok] at removed
  obtain ⟨⟨location, entry⟩, opened, removed⟩ := removed
  obtain ⟨located, held⟩ := entry_eq_ok.mp opened
  cases located_in_folder well_formed.toMounted found is_name located
  cases entry with
  | folder since => cases removed
  | file content since =>
      cases removed
      exact erase_shrinks folder_names held

end Changes

section Creation

variable {disk : Disk} {path : String} {location : Location} {modified : Instant}

/-- Nothing but parts that lead nowhere is dropped at the end. -/
theorem trailing_idle (parts : List String) :
    ∃ idle, parts = dropTrailingEmpty parts ++ idle ∧
      ∀ part ∈ idle, Path.isIdle part = true := by
  refine ⟨(parts.reverse.takeWhile fun part => part == "").reverse, ?_, ?_⟩
  · rw [dropTrailingEmpty, ← List.reverse_append, List.takeWhile_append_dropWhile,
      List.reverse_reverse]
  · intro part member
    have empty := List.all_eq_true.mp List.all_takeWhile part (List.mem_reverse.mp member)
    simp [Path.isIdle, eq_of_beq empty]

theorem follow_without_trailing {here : Location} {parts : List String}
    (followed : disk.follow here parts = .ok location) :
    disk.follow here (dropTrailingEmpty parts) = .ok location := by
  obtain ⟨idle, split, all_idle⟩ := trailing_idle parts
  rw [split, follow_append] at followed
  cases before : disk.follow here (dropTrailingEmpty parts) with
  | error failure =>
      rw [before] at followed
      cases followed
  | ok middle =>
      rw [before] at followed
      rw [follow_idle all_idle followed]

theorem create_existing (found : disk.entry path = .ok (location, .folder modified))
    (now : Instant) : disk.createFolders path now = (.ok (), disk) := by
  obtain ⟨located, held⟩ := entry_eq_ok.mp found
  obtain ⟨parts, checked, followed⟩ := locate_eq_ok.mp located
  have exists_already : disk.createFolderFrom [] parts now = .error .alreadyExists := by
    rw [createFolderFrom, follow_without_trailing followed]
    simp only [bind, Except.bind, held]
  have there : disk.folderFrom [] parts .alreadyExists = .ok location := by
    rw [folderFrom, followed]
    simp only [held]
  rw [createFolders, checked]
  simp only [createFoldersAt, exists_already, there]
  rfl

end Creation

end Letterpress.Files.Disk
