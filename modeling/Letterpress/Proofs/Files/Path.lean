import Letterpress.Files.Disk

/-!
Paths put together out of parts. A slash always separates, so the parts of two paths with
a slash between them are the parts of the one and then those of the other. The parts of a
path are no longer paths: those that lead down from a folder are names.
-/

namespace Letterpress.Files

namespace Path

/-- A part that leads from a folder to something in it. -/
structure IsName (name : String) : Prop where
  leads : isIdle name = false
  down : name ≠ ".."
  single : '/' ∉ name.toList

instance : DecidablePred IsName := fun name =>
  decidable_of_iff (isIdle name = false ∧ name ≠ ".." ∧ '/' ∉ name.toList)
    ⟨fun ⟨leads, down, single⟩ => ⟨leads, down, single⟩,
      fun is_name => ⟨is_name.leads, is_name.down, is_name.single⟩⟩

theorem names_lead {parts : List String} (all_names : ∀ part ∈ parts, IsName part) :
    (parts.filter fun part => !isIdle part) = parts := by
  rw [List.filter_eq_self]
  intro part member
  rw [(all_names part member).leads]
  rfl

theorem split_not_empty (chars : List Char) : splitChars chars ≠ [] := by
  cases chars with
  | nil => simp [splitChars]
  | cons char rest =>
      unfold splitChars
      split
      · simp
      · split <;> simp

theorem split_append (front back : List Char) :
    splitChars (front ++ '/' :: back) = splitChars front ++ splitChars back := by
  induction front with
  | nil => rfl
  | cons char front split =>
      by_cases slash : char = '/'
      · simp [splitChars, slash, split]
      · simp only [List.cons_append, splitChars, slash, if_false, split]
        cases parts : splitChars front with
        | nil => exact absurd parts (split_not_empty front)
        | cons part more => rfl

theorem split_single {chars : List Char} (single : '/' ∉ chars) : splitChars chars = [chars] := by
  induction chars with
  | nil => rfl
  | cons char rest split =>
      have no_slash : char ≠ '/' := fun same => single (by simp [same])
      have rest_single := split fun member => single (List.mem_cons_of_mem char member)
      simp [splitChars, no_slash, rest_single]

theorem parts_append (front back : String) :
    parts (front ++ "/" ++ back) = parts front ++ parts back := by
  have split := split_append front.toList back.toList
  simp only [parts, String.toList_append, List.append_assoc]
  change (splitChars (front.toList ++ '/' :: back.toList)).map String.ofList = _
  rw [split, List.map_append]

theorem split_apart {chars part : List Char} (member : part ∈ splitChars chars) : '/' ∉ part := by
  induction chars generalizing part with
  | nil =>
      rw [List.mem_singleton.mp member]
      exact List.not_mem_nil
  | cons char rest apart =>
      unfold splitChars at member
      split at member
      · rcases List.mem_cons.mp member with same | later
        · rw [same]
          exact List.not_mem_nil
        · exact apart later
      · next no_slash =>
          split at member
          · rw [List.mem_singleton.mp member]
            simpa [eq_comm] using no_slash
          · next first more split_rest =>
              rw [split_rest] at apart
              rcases List.mem_cons.mp member with same | later
              · rw [same]
                have first_apart := apart List.mem_cons_self
                simpa [eq_comm, first_apart] using no_slash
              · exact apart (List.mem_cons_of_mem first later)

theorem part_single {path part : String} (member : part ∈ parts path) : '/' ∉ part.toList := by
  obtain ⟨chars, split, rfl⟩ := List.mem_map.mp member
  rw [String.toList_ofList]
  exact split_apart split

theorem parts_name {name : String} (single : '/' ∉ name.toList) : parts name = [name] := by
  simp [parts, split_single single]

theorem join_relative (folder : String) {path : String} (relative : isAbsolute path = false) :
    join folder path = folder ++ path ∨ join folder path = folder ++ "/" ++ path := by
  unfold join
  rw [if_neg (by simp [relative])]
  split
  · exact .inl rfl
  · exact .inr rfl

theorem name_relative {name : String} (is_name : IsName name) : isAbsolute name = false := by
  apply Bool.eq_false_iff.mpr
  intro absolute
  cases chars : name.toList with
  | nil => simp [isAbsolute, chars] at absolute
  | cons first others =>
      have slash : first = '/' := by simpa [isAbsolute, chars] using absolute
      exact is_name.single (by simp [chars, slash])

theorem name_keeps_open (folder : String) {name : String} (is_name : IsName name) :
    endsWithSlash (folder ++ "/" ++ name) = false := by
  apply Bool.eq_false_iff.mpr
  intro slash
  cases last : name.toList.getLast? with
  | none =>
      have empty : name = "" := by simpa using last
      have leads := is_name.leads
      rw [empty] at leads
      cases leads
  | some char =>
      have joined : (folder ++ "/" ++ name).toList.getLast? = some char := by
        rw [String.toList_append, List.getLast?_append, last]
        rfl
      rw [endsWithSlash, joined] at slash
      have same : char = '/' := by simpa using slash
      exact is_name.single (same ▸ List.mem_of_getLast? last)

/-- A path that says nothing but how to go down from where it starts. -/
structure Confined (path : String) : Prop where
  some_text : path ≠ ""
  relative : isAbsolute path = false
  level : ".." ∉ parts path

theorem stays_inside_iff {path : String} : staysInside path = true ↔ Confined path := by
  constructor
  · intro inside
    obtain ⟨⟨some_text, relative⟩, level⟩ :
        (path ≠ "" ∧ isAbsolute path = false) ∧ ".." ∉ parts path := by
      simpa [staysInside] using inside
    exact ⟨some_text, relative, level⟩
  · rintro ⟨some_text, relative, level⟩
    simp [staysInside, some_text, relative, level]

theorem component_is_name {path part : String} (level : ".." ∉ parts path)
    (member : part ∈ components path) : IsName part := by
  obtain ⟨part_of, leads⟩ := List.mem_filter.mp member
  refine ⟨by simpa using leads, ?_, part_single part_of⟩
  rintro rfl
  exact level part_of

theorem components_name {name : String} (is_name : IsName name) : components name = [name] := by
  rw [components, parts_name is_name.single]
  exact names_lead fun part member => List.mem_singleton.mp member ▸ is_name

theorem components_append (front back : String) :
    components (front ++ "/" ++ back) = components front ++ components back := by
  rw [components, parts_append, List.filter_append]
  rfl

/-- Detours apart, going on from a folder by a path lists the one after the other. -/
theorem components_join (folder : String) {path : String} (relative : isAbsolute path = false) :
    components (join folder path) = components folder ++ components path := by
  unfold join
  rw [if_neg (by simp [relative])]
  split
  · next closed =>
      rcases Bool.or_eq_true_iff.mp closed with empty | slash
      · obtain rfl : folder = "" := by simpa using empty
        rw [String.empty_append]
        rfl
      · obtain ⟨chars, same⟩ :=
          List.getLast?_eq_some_iff.mp (by simpa [endsWithSlash] using slash)
        obtain rfl : folder = String.ofList chars ++ "/" := by
          rw [← String.toList_inj, same]
          simp
        rw [components_append]
        have nothing_more := components_append (String.ofList chars) ""
        rw [String.append_empty] at nothing_more
        rw [nothing_more]
        simp [components, parts, splitChars, isIdle]
  · exact components_append folder path

theorem join_absolute (folder : String) {path : String} (relative : isAbsolute path = false) :
    isAbsolute (join folder path) = isAbsolute folder := by
  cases chars : folder.toList with
  | nil =>
      obtain rfl := String.toList_eq_nil_iff.mp chars
      have same : join "" path = path := by simp [join, relative]
      rw [same, relative]
      rfl
  | cons first rest =>
      rcases join_relative folder relative with joined | joined
      all_goals simp [joined, isAbsolute, chars]

theorem join_open {folder path : String} (some_text : folder.isEmpty = false)
    (closed : endsWithSlash folder = false) (relative : isAbsolute path = false) :
    join folder path = folder ++ "/" ++ path := by
  rw [join, if_neg (by simp [relative]), if_neg (by simp [some_text, closed])]

section Names

variable {names : List String}

theorem components_of_names (folder : String) (all_names : ∀ name ∈ names, IsName name) :
    components (names.foldl join folder) = components folder ++ names := by
  induction names generalizing folder with
  | nil => exact (List.append_nil _).symm
  | cons name rest further =>
      have is_name := all_names name List.mem_cons_self
      have rest_names : ∀ other ∈ rest, IsName other := fun other member =>
        all_names other (List.mem_cons_of_mem name member)
      rw [List.foldl_cons, further _ rest_names, components_join _ (name_relative is_name),
        components_name is_name, List.append_assoc, List.singleton_append]

theorem absolute_of_names (folder : String) (all_names : ∀ name ∈ names, IsName name) :
    isAbsolute (names.foldl join folder) = isAbsolute folder := by
  induction names generalizing folder with
  | nil => rfl
  | cons name rest further =>
      have is_name := all_names name List.mem_cons_self
      have rest_names : ∀ other ∈ rest, IsName other := fun other member =>
        all_names other (List.mem_cons_of_mem name member)
      rw [List.foldl_cons, further _ rest_names, join_absolute _ (name_relative is_name)]

theorem parts_intercalate (some_name : names ≠ []) (all_names : ∀ name ∈ names, IsName name) :
    parts ("/".intercalate names) = names := by
  induction names with
  | nil => exact absurd rfl some_name
  | cons name rest further =>
      have single := (all_names name List.mem_cons_self).single
      cases rest with
      | nil => rw [String.intercalate_singleton, parts_name single]
      | cons next more =>
          have rest_parts := further (List.cons_ne_nil next more) fun other member =>
            all_names other (List.mem_cons_of_mem name member)
          rw [String.intercalate_cons_cons, parts_append, parts_name single, rest_parts,
            List.singleton_append]

theorem relative_of_parts {path name : String} {rest : List String}
    (same : parts path = name :: rest) (is_name : IsName name) : isAbsolute path = false := by
  apply Bool.eq_false_iff.mpr
  intro absolute
  cases chars : path.toList with
  | nil => simp [isAbsolute, chars] at absolute
  | cons first others =>
      have slash : first = '/' := by simpa [isAbsolute, chars] using absolute
      simp only [parts, chars, slash, splitChars, if_true, List.map_cons, List.cons.injEq] at same
      have leads := is_name.leads
      rw [← same.1] at leads
      cases leads

theorem confined_of_names (some_name : names ≠ []) (all_names : ∀ name ∈ names, IsName name) :
    Confined ("/".intercalate names) := by
  have same := parts_intercalate some_name all_names
  have level : ".." ∉ names := fun member => (all_names _ member).down rfl
  refine ⟨?_, ?_, by rwa [same]⟩
  · intro empty
    rw [empty] at same
    have idle : "" ∈ names := same ▸ List.mem_singleton_self ""
    cases (all_names _ idle).leads
  · obtain ⟨name, rest, rfl⟩ := List.exists_cons_of_ne_nil some_name
    exact relative_of_parts same (all_names name List.mem_cons_self)

/-- Going on by names one at a time, or by all of them with slashes between, is the same. -/
theorem join_intercalate {folder : String} (some_text : folder.isEmpty = false)
    (closed : endsWithSlash folder = false) (some_name : names ≠ [])
    (all_names : ∀ name ∈ names, IsName name) :
    join folder ("/".intercalate names) = names.foldl join folder := by
  induction names generalizing folder with
  | nil => exact absurd rfl some_name
  | cons name rest further =>
      have is_name := all_names name List.mem_cons_self
      have rest_names : ∀ other ∈ rest, IsName other := fun other member =>
        all_names other (List.mem_cons_of_mem name member)
      cases rest with
      | nil =>
          rw [String.intercalate_singleton]
          rfl
      | cons next more =>
          have some_rest := List.cons_ne_nil next more
          have on : (folder ++ "/" ++ name).isEmpty = false := by simp
          have rest_relative := (confined_of_names some_rest rest_names).relative
          have later := further on (name_keeps_open folder is_name) some_rest rest_names
          rw [join_open on (name_keeps_open folder is_name) rest_relative] at later
          rw [join_open some_text closed (confined_of_names some_name all_names).relative,
            List.foldl_cons, join_open some_text closed (name_relative is_name), ← later,
            String.intercalate_cons_cons]
          simp only [String.append_assoc]

end Names

end Path

namespace Disk

/-- The top stands at an absolute path that ends in a name. -/
structure Mounted (disk : Disk) : Prop where
  absolute : Path.isAbsolute disk.mount = true
  named : Path.endsWithSlash disk.mount = false

variable {disk : Disk} {path : String} {parts : List String}

theorem parts_below_same {other : Disk} (mount : other.mount = disk.mount) :
    other.partsBelow? path = disk.partsBelow? path := by
  rw [partsBelow?, partsBelow?, mount]

theorem parts_at_mount (at_mount : path.toList = disk.mount.toList) :
    disk.partsBelow? path = some [] := by
  have dropped : path.toList.drop disk.mount.length = [] := by
    rw [at_mount, ← String.length_toList, List.drop_length]
  have starts : disk.mount.toList.isPrefixOf path.toList = true := by
    rw [at_mount]
    exact List.isPrefixOf_iff_prefix.mpr List.prefix_rfl
  simp [partsBelow?, starts, dropped]

theorem parts_below_mount {rest : List Char}
    (below : path.toList = disk.mount.toList ++ '/' :: rest) :
    disk.partsBelow? path = some (Path.parts (String.ofList rest)) := by
  have starts : disk.mount.toList.isPrefixOf path.toList = true := by
    rw [below, List.isPrefixOf_iff_prefix]
    exact List.prefix_append _ _
  have dropped : path.toList.drop disk.mount.length = '/' :: rest := by
    rw [below, ← String.length_toList, List.drop_left]
  simp [partsBelow?, starts, dropped]

theorem parts_of_relative (mounted : disk.Mounted) (relative : Path.isAbsolute path = false)
    (some_part : path.isEmpty = false) : disk.partsBelow? path = some (Path.parts path) := by
  have elsewhere : disk.mount.toList.isPrefixOf path.toList = false := by
    apply Bool.eq_false_iff.mpr
    intro starts
    obtain ⟨rest, same⟩ := List.isPrefixOf_iff_prefix.mp starts
    have absolute := mounted.absolute
    cases mount : disk.mount.toList with
    | nil => simp [Path.isAbsolute, mount] at absolute
    | cons first others =>
        rw [mount] at same
        simp only [Path.isAbsolute, mount, ← same, List.cons_append, List.head?_cons]
          at absolute relative
        rw [absolute] at relative
        cases relative
  simp [partsBelow?, elsewhere, relative, some_part]

/-- A path leads below the top if it is that of the top, goes on from it, or is relative. -/
theorem parts_below_cases (found : disk.partsBelow? path = some parts) :
    (path.toList = disk.mount.toList ∧ parts = []) ∨
      (∃ rest, path.toList = disk.mount.toList ++ '/' :: rest ∧
        parts = Path.parts (String.ofList rest)) ∨
      (Path.isAbsolute path = false ∧ path.isEmpty = false ∧ parts = Path.parts path) := by
  simp only [partsBelow?] at found
  split at found
  · next starts =>
      cases found
      obtain ⟨starts, boundary⟩ := Bool.and_eq_true_iff.mp starts
      obtain ⟨rest, same⟩ := List.isPrefixOf_iff_prefix.mp starts
      have dropped : path.toList.drop disk.mount.length = rest := by
        rw [← same, ← String.length_toList, List.drop_left]
      rw [dropped] at boundary ⊢
      cases rest with
      | nil => exact .inl ⟨by rw [← same, List.append_nil], rfl⟩
      | cons first others =>
          have slash : first = '/' := by simpa using boundary
          subst slash
          exact .inr (.inl ⟨others, same.symm, rfl⟩)
  · split at found
    · cases found
    · next relative =>
        cases found
        obtain ⟨no_slash, some_part⟩ := Bool.or_eq_false_iff.mp (Bool.eq_false_iff.mpr relative)
        exact .inr (.inr ⟨no_slash, some_part, rfl⟩)

theorem parts_below_append (mounted : disk.Mounted) (found : disk.partsBelow? path = some parts)
    (tail : String) :
    disk.partsBelow? (path ++ "/" ++ tail) = some (parts ++ Path.parts tail) := by
  have joined : (path ++ "/" ++ tail).toList = path.toList ++ '/' :: tail.toList := by simp
  rcases parts_below_cases found with
    ⟨at_mount, rfl⟩ | ⟨rest, below, rfl⟩ | ⟨relative, some_part, rfl⟩
  · rw [at_mount] at joined
    rw [parts_below_mount joined, String.ofList_toList, List.nil_append]
  · rw [below, List.append_assoc, List.cons_append] at joined
    have split := Path.split_append rest tail.toList
    rw [parts_below_mount joined]
    simp only [Path.parts, String.toList_ofList, split, List.map_append]
  · rw [← Path.parts_append]
    apply parts_of_relative mounted
    · cases chars : path.toList with
      | nil =>
          rw [String.toList_eq_nil_iff.mp chars] at some_part
          cases some_part
      | cons first others =>
          simp only [Path.isAbsolute, chars, joined, List.cons_append, List.head?_cons]
            at relative ⊢
          exact relative
    · simp

theorem below_not_empty (mounted : disk.Mounted) (found : disk.partsBelow? path = some parts) :
    path.isEmpty = false := by
  apply Bool.eq_false_iff.mpr
  intro empty
  have chars : path.toList = [] := by simpa using empty
  have absolute := mounted.absolute
  rcases parts_below_cases found with
    ⟨at_mount, _⟩ | ⟨rest, below, _⟩ | ⟨_, some_part, _⟩
  · simp [Path.isAbsolute, ← at_mount, chars] at absolute
  · simp [chars] at below
  · rw [some_part] at empty
    cases empty

theorem parts_below_slash (mounted : disk.Mounted)
    (found : disk.partsBelow? (path ++ "/") = some parts) :
    ∃ front, disk.partsBelow? path = some front ∧ parts = front ++ [""] := by
  have front : ∃ front, disk.partsBelow? path = some front := by
    have joined : (path ++ "/").toList = path.toList ++ ['/'] := by simp
    rcases parts_below_cases found with
      ⟨at_mount, _⟩ | ⟨rest, below, _⟩ | ⟨relative, _, _⟩
    · have named := mounted.named
      simp [Path.endsWithSlash, ← at_mount, joined] at named
    · rw [joined] at below
      rcases List.eq_nil_or_concat rest with empty | ⟨others, last, same⟩
      · subst empty
        exact ⟨_, parts_at_mount (List.append_inj_left' below rfl)⟩
      · subst same
        rw [List.concat_eq_append, ← List.cons_append, ← List.append_assoc] at below
        exact ⟨_, parts_below_mount (List.append_inj_left' below rfl)⟩
    · cases chars : path.toList with
      | nil => simp [Path.isAbsolute, joined, chars] at relative
      | cons first others =>
          refine ⟨_, parts_of_relative mounted ?_ ?_⟩
          · simpa [Path.isAbsolute, joined, chars] using relative
          · apply Bool.eq_false_iff.mpr
            intro empty
            have no_chars : path.toList = [] := by simpa using empty
            rw [chars] at no_chars
            cases no_chars
  obtain ⟨front, front_found⟩ := front
  have again := parts_below_append mounted front_found ""
  rw [String.append_empty, found] at again
  cases again
  exact ⟨front, front_found, rfl⟩

/-- The parts of a path into a folder, whether or not the folder's path ends in a slash. -/
theorem parts_below_join (mounted : disk.Mounted) (found : disk.partsBelow? path = some parts)
    {tail : String} (relative : Path.isAbsolute tail = false) :
    ∃ front, disk.partsBelow? (Path.join path tail) = some (front ++ Path.parts tail) ∧
      (parts = front ∨ parts = front ++ [""]) := by
  have some_part := below_not_empty mounted found
  by_cases slash : Path.endsWithSlash path = true
  · obtain ⟨shorter, rfl⟩ : ∃ shorter, path = shorter ++ "/" := by
      obtain ⟨chars, same⟩ :=
        List.getLast?_eq_some_iff.mp (by simpa [Path.endsWithSlash] using slash)
      refine ⟨String.ofList chars, ?_⟩
      rw [← String.toList_inj, same]
      simp
    obtain ⟨front, front_found, same⟩ := parts_below_slash mounted found
    refine ⟨front, ?_, .inr same⟩
    rw [Path.join, if_neg (by simp [relative]), if_pos (by simp [slash])]
    exact parts_below_append mounted front_found tail
  · refine ⟨parts, ?_, .inl rfl⟩
    rw [Path.join, if_neg (by simp [relative]), if_neg (by simp [slash, some_part])]
    exact parts_below_append mounted found tail

theorem parts_of_joined (mounted : disk.Mounted) (names : List String)
    (all_names : ∀ name ∈ names, Path.IsName name) (found : disk.partsBelow? path = some parts)
    (closed : Path.endsWithSlash path = false) :
    disk.partsBelow? (names.foldl Path.join path) = some (parts ++ names) ∧
      Path.endsWithSlash (names.foldl Path.join path) = false := by
  induction names generalizing path parts with
  | nil =>
      rw [List.append_nil]
      exact ⟨found, closed⟩
  | cons name rest later =>
      have is_name := all_names name (by simp)
      have some_part := below_not_empty mounted found
      have joined : Path.join path name = path ++ "/" ++ name :=
        Path.join_open some_part closed (Path.name_relative is_name)
      have first := parts_below_append mounted found name
      rw [Path.parts_name is_name.single] at first
      have rest_names : ∀ other ∈ rest, Path.IsName other :=
        fun other member => all_names other (by simp [member])
      have all := later rest_names first (Path.name_keeps_open path is_name)
      rw [List.append_assoc] at all
      rw [List.foldl_cons, joined]
      exact all

theorem parts_of_path_of (mounted : disk.Mounted) {location : Location}
    (all_names : ∀ name ∈ location, Path.IsName name) :
    disk.partsBelow? (disk.pathOf location) = some location ∧
      Path.endsWithSlash (disk.pathOf location) = false := by
  have top : disk.partsBelow? disk.mount = some [] := parts_at_mount rfl
  exact parts_of_joined mounted location all_names top mounted.named

theorem join_path_of (mounted : disk.Mounted) {location : Location}
    (all_names : ∀ name ∈ location, Path.IsName name)
    (relative : Path.isAbsolute path = false) :
    Path.join (disk.pathOf location) path = disk.pathOf location ++ "/" ++ path := by
  obtain ⟨found, closed⟩ := parts_of_path_of mounted all_names
  exact Path.join_open (below_not_empty mounted found) closed relative

theorem parts_below_location (mounted : disk.Mounted) {location : Location}
    (all_names : ∀ name ∈ location, Path.IsName name)
    (relative : Path.isAbsolute path = false) :
    disk.partsBelow? (Path.join (disk.pathOf location) path) =
      some (location ++ Path.parts path) := by
  rw [join_path_of mounted all_names relative]
  exact parts_below_append mounted (parts_of_path_of mounted all_names).1 path

end Disk

end Letterpress.Files
