import Letterpress.Proofs.Engine.Stocking

/-!
The walk over a directory that precompiling takes. It is in progress while the folder of the
store fills, and it may come to that folder. It passes by where the folder stands under the
path that the store has for it, and paths are compared as they are spelled. So as long as that
spelling takes no detour to a folder that the walk comes to, the walk builds the templates of
the directory, each once, and nothing else.
-/

namespace Letterpress

open Files

namespace Engine

/-- The folder of the store is not spelled by a detour, unless the walk never comes to it. -/
def Straight (engine : Engine) (root folder : Location) : Prop :=
  ".." ∈ Path.parts engine.options.artifactDirectory →
    ∀ names, Shown names → folder ≠ root ++ names

/-- Wherever nothing but programs was stored before, an action builds the templates in a part
of the directory, each once, and counts them. -/
def Walks (engine : Engine) (start : Disk) (root folder : Location) (action : Action Nat)
    (part : List String → Prop) : Prop :=
  ∀ world : World, Stocked root folder start world.disk → world.now.Proper →
    ∃ (places : List (List String)) (after : World),
      action.run.run world = (.ok places.length, after) ∧
      engine.Builds world (places.map fun names => "/".intercalate names) after ∧
      Stocked root folder start after.disk ∧ after.now = world.now ∧ places.Nodup ∧
      ∀ names, names ∈ places ↔ IsTemplate start root folder names ∧ part names

section Spelling

variable {engine : Engine} {disk : Disk} {root folder : Location} {names : List String}

theorem shown_level (shown : Shown names) : ".." ∉ names := by
  intro dots
  have hidden : isHidden ".." = true := by decide
  rw [shown ".." dots] at hidden
  cases hidden

namespace Placed

variable (placed : engine.Placed disk root folder)
include placed

theorem absolute : Path.isAbsolute engine.store.directory = true := by
  rw [placed.seen]
  cases start : Path.isAbsolute engine.options.artifactDirectory with
  | true => rw [Path.join, if_pos start, start]
  | false =>
      rw [Path.join_absolute _ start, placed.directory, Disk.pathOf,
        Path.absolute_of_names _ placed.names]
      exact placed.formed.absolute

theorem store_parts : ∃ parts, disk.partsBelow? engine.store.directory = some parts ∧
    disk.follow [] parts = .ok folder ∧
    Path.components engine.store.directory =
      Path.components disk.mount ++ parts.filter fun part => !Path.isIdle part := by
  obtain ⟨modified, found⟩ := placed.ready.there
  obtain ⟨parts, checked, followed⟩ := Disk.locate_eq_ok.mp (Disk.entry_eq_ok.mp found).1
  have below := (Disk.checked_eq_ok.mp checked).2.2
  refine ⟨parts, below, followed, ?_⟩
  rcases Disk.parts_below_cases below with ⟨at_mount, rfl⟩ | ⟨rest, along, rfl⟩ | ⟨relative, -⟩
  · rw [String.toList_inj.mp at_mount]
    exact (List.append_nil _).symm
  · have same : engine.store.directory = disk.mount ++ "/" ++ String.ofList rest := by
      rw [← String.toList_inj, along]
      simp
    rw [same, Path.components_append]
    rfl
  · rw [placed.absolute] at relative
    cases relative

theorem root_components :
    Path.components engine.directory = Path.components disk.mount ++ root := by
  rw [placed.directory, Disk.pathOf, Path.components_of_names _ placed.names]

/-- Without a step up in the options there is none in the path of the store. -/
theorem store_level {parts : List String}
    (below : disk.partsBelow? engine.store.directory = some parts)
    (level : ".." ∉ Path.parts engine.options.artifactDirectory) : ".." ∉ parts := by
  cases start : Path.isAbsolute engine.options.artifactDirectory with
  | true =>
      have same : engine.store.directory = engine.options.artifactDirectory := by
        rw [placed.seen, Path.join, if_pos start]
      rcases Disk.parts_below_cases below with ⟨-, rfl⟩ | ⟨rest, along, rfl⟩ | ⟨relative, -⟩
      · exact List.not_mem_nil
      · have split :
            engine.options.artifactDirectory = disk.mount ++ "/" ++ String.ofList rest := by
          rw [← String.toList_inj, ← same, along]
          simp
        rw [split, Path.parts_append] at level
        exact fun dots => level (List.mem_append_right _ dots)
      · rw [placed.absolute] at relative
        cases relative
  | false =>
      have relative_parts := Disk.parts_below_location placed.formed.toMounted placed.names start
      rw [← placed.directory, ← placed.seen, below] at relative_parts
      cases relative_parts
      intro dots
      rcases List.mem_append.mp dots with in_root | in_options
      · exact (placed.names _ in_root).down rfl
      · exact level in_options

/-- The walk passes the folder of the store by, and no other. -/
theorem store_folder_iff (straight : engine.Straight root folder) (shown : Shown names) :
    engine.isStoreFolder names = true ↔ folder = root ++ names := by
  obtain ⟨parts, below, followed, spelled⟩ := placed.store_parts
  rw [isStoreFolder, beq_iff_eq, placed.root_components, spelled, List.append_assoc,
    List.append_cancel_left_eq]
  constructor
  · intro same
    have level : ".." ∉ parts := by
      intro dots
      have kept : ".." ∈ parts.filter fun part => !Path.isIdle part :=
        List.mem_filter.mpr ⟨dots, by decide⟩
      rw [← same] at kept
      rcases List.mem_append.mp kept with in_root | in_names
      · exact (placed.names _ in_root).down rfl
      · exact shown_level shown in_names
    rw [Disk.follow_straight level followed, List.nil_append, same]
  · intro same
    have level : ".." ∉ parts :=
      placed.store_level below fun dots => straight dots names shown same
    rw [← same, Disk.follow_straight level followed, List.nil_append]

end Placed

end Spelling

section Running

variable {engine : Engine} {world middle after : World} {fuel : Nat} {names : List String}
  {name : String} {entry : Entry} {program : Program} {modified : Instant}

theorem file_run (built : (engine.build ("/".intercalate names)).run.run world =
    (.ok program, after)) (fuel : Nat) (content : ByteArray) (modified : Instant) :
    (engine.buildEntry fuel names (.file content modified)).run.run world = (.ok 1, after) := by
  have counted : (do
      let _ ← engine.build ("/".intercalate names)
      return 1 : Action Nat).run.run world = (.ok 1, after) := by
    rw [run_bind, built]
    rfl
  cases fuel with
  | zero =>
      unfold buildEntry
      exact counted
  | succ fuel =>
      unfold buildEntry
      exact counted

theorem folder_run {children : List (String × Entry)}
    (listed : world.disk.list (names.foldl Path.join engine.directory) = .ok children) :
    (engine.buildEntry (fuel + 1) names (.folder modified)).run.run world =
      (engine.buildEntries fuel names (children.filter fun child =>
        !isHidden child.1 && !engine.isStoreFolder (names ++ [child.1]))).run.run world := by
  unfold buildEntry
  rw [run_bind, run_get]
  dsimp only
  rw [listed]

theorem no_entries_run : (engine.buildEntries fuel names []).run.run world = (.ok 0, world) := by
  unfold buildEntries
  rfl

theorem entries_run {rest : List (String × Entry)} {count others : Nat}
    (first : (engine.buildEntry fuel (names ++ [name]) entry).run.run world = (.ok count, middle))
    (behind : (engine.buildEntries fuel names rest).run.run middle = (.ok others, after)) :
    (engine.buildEntries fuel names ((name, entry) :: rest)).run.run world =
      (.ok (count + others), after) := by
  unfold buildEntries
  rw [run_bind, first]
  dsimp only
  rw [run_bind, behind]
  rfl

end Running

section Walking

variable {engine : Engine} {start : Disk} {root folder : Location} {names : List String}
  {action : Action Nat} {part other : List String → Prop}

theorem Walks.congr (walks : engine.Walks start root folder action part)
    (same : ∀ names, IsTemplate start root folder names → (part names ↔ other names)) :
    engine.Walks start root folder action other := by
  intro world stocked proper
  obtain ⟨places, after, ran, built, now_stocked, now, distinct, covered⟩ :=
    walks world stocked proper
  refine ⟨places, after, ran, built, now_stocked, now, distinct, fun names => ?_⟩
  rw [covered]
  exact and_congr_right (same names)

theorem Stocked.listed (buildable : engine.Buildable start root folder) {disk : Disk}
    (stocked : Stocked root folder start disk) {modified : Instant}
    (held : start.lookup (root ++ names) = some (.folder modified)) :
    disk.list (names.foldl Path.join engine.directory) =
      .ok (disk.children (root ++ names)) := by
  have located := stocked.folders.located (buildable.tree.reached _ _ held)
  obtain ⟨since, still⟩ := (stocked.folders.folders _).mpr ⟨modified, held⟩
  rw [buildable.path_of_below] at located
  rw [Disk.list, Disk.entry_eq_ok.mpr ⟨located, still⟩]
  rfl

theorem file_walks (buildable : engine.Buildable start root folder) (fuel : Nat)
    {content : ByteArray} {modified : Instant}
    (held : Entry.Alike (start.lookup (root ++ names)) (some (.file content modified)))
    (shown : Shown names) (outside : root <+: folder → ¬folder <+: root ++ names) :
    engine.Walks start root folder (engine.buildEntry fuel names (.file content modified))
      fun place => names <+: place := by
  have stands : start.lookup (root ++ names) = some (.file content modified) :=
    held.file_iff.mp rfl
  intro world stocked proper
  have template : IsTemplate start root folder names := ⟨⟨_, _, stands⟩, shown, outside⟩
  have here : HasTemplate start root folder ("/".intercalate names) := ⟨names, template, rfl⟩
  obtain ⟨program, disk, -, -, stores⟩ := buildable.build_works here stocked
  have ran := stores.run
  obtain ⟨after_stocked, after_now, -, -⟩ := buildable.build_stocks here stocked proper ran
  refine ⟨[names], _, file_run ran fuel content modified, .one ran .nothing, after_stocked,
    after_now, List.nodup_singleton names, fun place => ?_⟩
  rw [List.mem_singleton]
  constructor
  · rintro rfl
    exact ⟨template, List.prefix_rfl⟩
  · rintro ⟨⟨⟨_, _, found⟩, -, -⟩, rest, rfl⟩
    cases rest with
    | nil => exact List.append_nil names
    | cons name below =>
        -- nothing stands below a file
        rw [← List.append_assoc] at found
        obtain ⟨since, folder_here⟩ := buildable.tree.above buildable.formed found
        cases stands.symm.trans folder_here

theorem entries_walk {fuel : Nat} {children : List (String × Entry)}
    (distinct : (children.map Prod.fst).Nodup)
    (each : ∀ child ∈ children, engine.Walks start root folder
      (engine.buildEntry fuel (names ++ [child.1]) child.2) fun place =>
        names ++ [child.1] <+: place) :
    engine.Walks start root folder (engine.buildEntries fuel names children) fun place =>
      ∃ child ∈ children, names ++ [child.1] <+: place := by
  induction children with
  | nil =>
      intro world stocked _
      exact ⟨[], world, no_entries_run, .nothing, stocked, rfl, List.nodup_nil, by simp⟩
  | cons child rest later =>
      obtain ⟨fresh, rest_distinct⟩ := List.nodup_cons.mp distinct
      obtain ⟨first, others⟩ := List.forall_mem_cons.mp each
      intro world stocked proper
      obtain ⟨places, middle, ran, built, middle_stocked, middle_now, places_distinct, covered⟩ :=
        first world stocked proper
      obtain ⟨behind, after, behind_ran, behind_built, after_stocked, after_now, behind_distinct,
        behind_covered⟩ := later rest_distinct others middle middle_stocked (middle_now ▸ proper)
      refine ⟨places ++ behind, after, ?_, ?_, after_stocked, after_now.trans middle_now, ?_, ?_⟩
      · rw [List.length_append]
        exact entries_run ran behind_ran
      · rw [List.map_append]
        exact built.append behind_built
      · refine places_distinct.append behind_distinct fun place here there => ?_
        obtain ⟨beside, member, below⟩ := ((behind_covered place).mp there).2
        have same := List.prefix_of_prefix_length_le ((covered place).mp here).2 below (by simp)
        have names_same := List.append_cancel_left (same.eq_of_length (by simp))
        exact fresh (List.mem_map.mpr ⟨beside, member, (List.singleton_inj.mp names_same).symm⟩)
      · intro place
        rw [List.mem_append, covered, behind_covered, ← and_or_left]
        simp

theorem child_elsewhere (outside : root <+: folder → ¬folder <+: root ++ names)
    (child name : String) : root ++ (names ++ [child]) ≠ folder ++ [Store.fileName name] := by
  intro same
  rw [← List.append_assoc] at same
  have above := (List.append_inj' same rfl).1
  exact outside ⟨names, above⟩ (above ▸ List.prefix_rfl)

theorem child_outside (outside : root <+: folder → ¬folder <+: root ++ names) {child : String}
    (different : folder ≠ root ++ (names ++ [child])) :
    root <+: folder → ¬folder <+: root ++ (names ++ [child]) := by
  intro below inside
  rw [← List.append_assoc] at different inside
  rcases List.prefix_concat_iff.mp inside with same | above
  · exact different same
  · exact outside below above

/-- A template below a folder that the walk looks into stands at one of the children that it
goes on with, or below. -/
theorem visible_child_iff (buildable : engine.Buildable start root folder)
    (straight : engine.Straight root folder) {disk : Disk}
    (stocked : Stocked root folder start disk) {since : Instant}
    (stands : start.lookup (root ++ names) = some (.folder since))
    (outside : root <+: folder → ¬folder <+: root ++ names) {place : List String}
    (template : IsTemplate start root folder place) :
    (∃ child ∈ (disk.children (root ++ names)).filter fun child =>
        !isHidden child.1 && !engine.isStoreFolder (names ++ [child.1]),
      names ++ [child.1] <+: place) ↔ names <+: place := by
  constructor
  · rintro ⟨child, -, below⟩
    exact (List.prefix_append names [child.1]).trans below
  · rintro ⟨rest, rfl⟩
    obtain ⟨⟨content, modified, file⟩, shown, apart⟩ := template
    cases rest with
    | nil =>
        rw [List.append_nil, stands] at file
        cases file
    | cons child below =>
        have front : names ++ [child] <+: names ++ child :: below := ⟨below, by simp⟩
        have held : ∃ entry, start.lookup (root ++ (names ++ [child])) = some entry := by
          cases below with
          | nil => exact ⟨_, file⟩
          | cons name rest =>
              have longer : root ++ (names ++ child :: name :: rest) =
                  root ++ (names ++ [child]) ++ name :: rest := by simp
              rw [longer] at file
              obtain ⟨modified, above⟩ := buildable.tree.above buildable.formed file
              exact ⟨_, above⟩
        obtain ⟨entry, held⟩ := held
        have kept := stocked.others _ fun name _ => child_elsewhere outside child name
        obtain ⟨now_held, still⟩ :
            ∃ entry, disk.lookup (root ++ (names ++ [child])) = some entry := by
          rcases kept with same | ⟨_, later, _, folder_now⟩
          · exact ⟨entry, same.trans held⟩
          · exact ⟨_, folder_now⟩
        rw [← List.append_assoc] at still
        refine ⟨(child, now_held), List.mem_filter.mpr ⟨?_, ?_⟩, front⟩
        · exact (Disk.mem_children_iff stocked.distinct).mpr still
        · have child_shown : Shown (names ++ [child]) := fun name member =>
            shown name (front.subset member)
          have not_store : engine.isStoreFolder (names ++ [child]) = false := by
            rw [← Bool.not_eq_true, buildable.store_folder_iff straight child_shown]
            intro same
            apply apart (same ▸ List.prefix_append root _)
            rw [same]
            exact (List.prefix_append_right_inj root).mpr front
          rw [child_shown child (by simp), not_store]
          rfl

/-- The walk builds the templates at a place or below, by induction on how deep they are. -/
theorem entry_walks (buildable : engine.Buildable start root folder)
    (straight : engine.Straight root folder) (fuel : Nat) {entry : Entry}
    (held : Entry.Alike (start.lookup (root ++ names)) (some entry)) (shown : Shown names)
    (outside : root <+: folder → ¬folder <+: root ++ names)
    (deep : ∀ place, IsTemplate start root folder place → names <+: place →
      place.length ≤ names.length + fuel) :
    engine.Walks start root folder (engine.buildEntry fuel names entry) fun place =>
      names <+: place := by
  induction fuel generalizing names entry with
  | zero =>
      cases entry with
      | file content modified => exact file_walks buildable 0 held shown outside
      | folder modified =>
          intro world stocked _
          unfold buildEntry
          refine ⟨[], world, rfl, .nothing, stocked, rfl, List.nodup_nil, fun place => ?_⟩
          refine ⟨fun member => absurd member List.not_mem_nil, fun ⟨template, below⟩ => ?_⟩
          have short : place.length ≤ names.length := deep place template below
          have same := below.eq_of_length (Nat.le_antisymm below.length_le short)
          obtain ⟨_, _, file⟩ := template.file
          rw [← same] at file
          cases held.file_iff.mpr file
  | succ fuel further =>
      cases entry with
      | file content modified => exact file_walks buildable (fuel + 1) held shown outside
      | folder modified =>
          obtain ⟨since, stands⟩ :
              ∃ since, start.lookup (root ++ names) = some (.folder since) :=
            held.folder_iff.mp ⟨modified, rfl⟩
          intro world stocked proper
          have listed := stocked.listed buildable stands
          have walks : engine.Walks start root folder (engine.buildEntries fuel names
              ((world.disk.children (root ++ names)).filter fun child =>
                !isHidden child.1 && !engine.isStoreFolder (names ++ [child.1])))
              fun place => names <+: place := by
            refine (entries_walk ?_ ?_).congr fun place template =>
              visible_child_iff buildable straight stocked stands outside template
            · have distinct := (Disk.children_names world.disk (root ++ names)).1
              exact distinct.sublist (List.filter_sublist.map Prod.fst)
            · intro child member
              obtain ⟨inside, visible⟩ := List.mem_filter.mp member
              obtain ⟨child_shown, no_store⟩ := Bool.and_eq_true_iff.mp visible
              have all_shown : Shown (names ++ [child.1]) := by
                intro name part
                rcases List.mem_append.mp part with above | last
                · exact shown name above
                · rw [List.mem_singleton.mp last]
                  exact (Bool.not_eq_true' _).mp child_shown
              have different : folder ≠ root ++ (names ++ [child.1]) := by
                rw [ne_eq, ← buildable.store_folder_iff straight all_shown, Bool.not_eq_true]
                exact (Bool.not_eq_true' _).mp no_store
              have now_held := (Disk.mem_children_iff stocked.distinct).mp inside
              have kept := stocked.others _ fun name _ => child_elsewhere outside child.1 name
              rw [← List.append_assoc, now_held, List.append_assoc] at kept
              apply further kept all_shown (child_outside outside different)
              intro place template below
              have bound := deep place template ((List.prefix_append names _).trans below)
              rw [List.length_append, List.length_singleton]
              omega
          rw [folder_run listed]
          exact walks world stocked proper

end Walking

end Engine

end Letterpress
