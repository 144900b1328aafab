import Letterpress.Proofs.Files.Replacement
import Mathlib.Data.List.Perm.Subperm
import Mathlib.Data.List.Nodup

/-!
Disks that are trees. Every place is held once and is reached by its path, so there are
folders on the way to whatever is there, a folder lists what stands in it as it stands there,
and no way down is longer than the list of all places.
-/

namespace Letterpress.Files.Disk

def Distinct (disk : Disk) : Prop := (disk.entries.map Prod.fst).Nodup

/-- A disk on which the path of whatever is there leads to it. -/
structure IsTree (disk : Disk) : Prop where
  distinct : disk.Distinct
  reached : ∀ location entry, disk.lookup location = some entry →
    disk.locate (disk.pathOf location) = .ok location

section Distinct

variable {disk after : Disk} {location : Location} {entry : Entry} {content : ByteArray}
  {modified now : Instant} {name : String} {child : String × Entry}

theorem lookup_of_mem (distinct : disk.Distinct) (held : (location, entry) ∈ disk.entries) :
    disk.lookup location = some entry := by
  unfold Distinct at distinct
  unfold lookup
  generalize disk.entries = entries at distinct held
  induction entries with
  | nil => cases held
  | cons first rest later =>
      obtain ⟨other, standing⟩ := first
      rw [List.map_cons, List.nodup_cons] at distinct
      rcases List.mem_cons.mp held with same | behind
      · cases same
        exact if_pos rfl
      · have different : location ≠ other := by
          rintro rfl
          exact distinct.1 (List.mem_map.mpr ⟨_, behind, rfl⟩)
        rw [find?, if_neg different]
        exact later distinct.2 behind

theorem set_distinct (distinct : disk.Distinct) (location : Location) (entry : Entry) :
    (disk.set location entry).Distinct := by
  unfold Distinct at distinct ⊢
  unfold set
  dsimp only
  generalize disk.entries = entries at distinct
  induction entries with
  | nil => exact List.nodup_singleton location
  | cons first rest later =>
      obtain ⟨other, standing⟩ := first
      rw [List.map_cons, List.nodup_cons] at distinct
      unfold setEntry
      split
      · next same =>
          rw [List.map_cons, List.nodup_cons, same]
          exact distinct
      · next different =>
          rw [List.map_cons, List.nodup_cons]
          refine ⟨?_, later distinct.2⟩
          intro again
          obtain ⟨found, member, here⟩ := List.mem_map.mp again
          rcases mem_set_entry member with rfl | behind
          · exact different here
          · exact distinct.1 (here ▸ List.mem_map_of_mem behind)

theorem touch_distinct (distinct : disk.Distinct) (location : Location) (now : Instant) :
    (disk.touchAround location now).Distinct := by
  unfold touchAround
  split
  · exact distinct
  · split
    · exact set_distinct distinct _ _
    · exact distinct

theorem write_distinct (distinct : disk.Distinct)
    (written : disk.writeAt location content modified now = .ok after) : after.Distinct := by
  unfold writeAt at written
  split at written
  · cases written
  · cases written
    exact set_distinct distinct _ _
  · cases written
    exact touch_distinct (set_distinct distinct _ _) _ _

theorem mem_children_iff (distinct : disk.Distinct) :
    child ∈ disk.children location ↔ disk.lookup (location ++ [child.1]) = some child.2 := by
  constructor
  · exact fun member => lookup_of_mem distinct (mem_of_children member)
  · intro held
    have named := ((children_names disk location).2 child.1).mpr (by rw [held]; rfl)
    obtain ⟨other, member, same⟩ := List.mem_map.mp named
    have also := lookup_of_mem distinct (mem_of_children member)
    rw [same, held, Option.some.injEq] at also
    have equal : child = other := Prod.ext same.symm also
    rw [equal]
    exact member

end Distinct

namespace IsTree

variable {disk : Disk} {location : Location} {entry : Entry} (tree : disk.IsTree)
  (formed : disk.WellFormed)
include tree formed

theorem above {name : String} {rest : List String}
    (found : disk.lookup (location ++ name :: rest) = some entry) :
    ∃ modified, disk.lookup location = some (.folder modified) := by
  have names : ∀ part ∈ location ++ name :: rest, Path.IsName part :=
    formed.names _ (mem_of_find? found)
  obtain ⟨parts, checked, followed⟩ := locate_eq_ok.mp (tree.reached _ entry found)
  have spelled := (parts_of_path_of formed.toMounted names).1
  cases spelled.symm.trans (checked_eq_ok.mp checked).2.2
  rw [follow_append] at followed
  cases front : disk.follow [] location with
  | error failure =>
      rw [front] at followed
      cases followed
  | ok here =>
      have front_names : ∀ part ∈ location, Path.IsName part := fun part member =>
        names part (List.mem_append_left _ member)
      have level : ".." ∉ location := fun dots => (front_names _ dots).down rfl
      have same := follow_straight level front
      rw [Path.names_lead front_names, List.nil_append] at same
      subst same
      rw [front] at followed
      obtain ⟨modified, _, folder, _⟩ := follow_cons_eq_ok.mp followed
      exact ⟨modified, folder⟩

/-- A way down takes a place of its own for each of its steps. -/
theorem depth (found : disk.lookup location = some entry) :
    location.length < disk.entries.length := by
  have held : ∀ front, front <+: location → front ∈ disk.entries.map Prod.fst := by
    rintro front ⟨rest, rfl⟩
    cases rest with
    | nil =>
        rw [List.append_nil] at found
        exact List.mem_map_of_mem (mem_of_find? found)
    | cons name below =>
        obtain ⟨modified, folder⟩ := tree.above formed found
        exact List.mem_map_of_mem (mem_of_find? folder)
  have fronts : (List.range (location.length + 1)).map location.take ⊆
      disk.entries.map Prod.fst := by
    intro front member
    obtain ⟨size, _, rfl⟩ := List.mem_map.mp member
    exact held _ (List.take_prefix size location)
  have apart : ((List.range (location.length + 1)).map location.take).Nodup := by
    refine List.Nodup.map_on ?_ List.nodup_range
    intro size small other other_small same
    have sizes := congrArg List.length same
    rw [List.mem_range] at small other_small
    rw [List.length_take, List.length_take] at sizes
    omega
  have counted := (List.subperm_of_subset apart fronts).length_le
  simp only [List.length_map, List.length_range] at counted
  omega

end IsTree

end Letterpress.Files.Disk
