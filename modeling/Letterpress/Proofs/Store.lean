import Letterpress.Proofs.Files.Temporary
import Letterpress.Store

/-!
What the store does to a disk. Its files are named by digests, which are names wherever
the folder is; so saving, removing and clearing change the folder of the store and
nothing else, and saving always works in a folder that is there.
-/

namespace Letterpress

open Files

namespace Digest

theorem digit_of_mem {base number : Nat} (large : 1 < base) {char : Char}
    (member : char ∈ Nat.toDigits base number) :
    ∃ digit, digit < base ∧ char = Nat.digitChar digit := by
  induction number using Nat.strongRecOn with
  | ind number smaller =>
      by_cases small : number < base
      · rw [Nat.toDigits_of_lt_base small] at member
        exact ⟨number, small, List.mem_singleton.mp member⟩
      · rw [Nat.toDigits_of_base_le large (by omega)] at member
        rcases List.mem_append.mp member with front | last
        · exact smaller (number / base) (Nat.div_lt_self (by omega) large) front
        · exact ⟨number % base, Nat.mod_lt _ (by omega), List.mem_singleton.mp last⟩

/-- A digit takes one byte and may stand in the name of a file. -/
def IsPlain (char : Char) : Prop := char.utf8Size = 1 ∧ char ≠ '/' ∧ char.toNat ≠ 0

theorem hex_digit_plain (digit : Nat) (small : digit < 16) : IsPlain (Nat.digitChar digit) := by
  have all : ∀ digit < 16, (Nat.digitChar digit).utf8Size = 1 ∧ Nat.digitChar digit ≠ '/' ∧
      (Nat.digitChar digit).toNat ≠ 0 := by decide
  exact all digit small

theorem hex_digits_length (word : UInt32) : (hexDigits word).length = 8 := by
  have bounded : (Nat.toDigits 16 word.toNat).length ≤ 8 :=
    (Nat.length_toDigits_le_iff (by decide) (by decide)).mpr word.toNat_lt
  simp only [hexDigits, List.length_append, List.length_replicate]
  omega

/-- The text of a digest is made of the sixteen digits. -/
theorem digit_of_text {text : String} {char : Char} (member : char ∈ (ofText text).toList) :
    ∃ digit < 16, char = Nat.digitChar digit := by
  rw [ofText, String.toList_ofList] at member
  obtain ⟨word, _, written⟩ := List.mem_flatMap.mp member
  rcases List.mem_append.mp written with zero | written
  · exact ⟨0, by decide, List.eq_of_mem_replicate zero⟩
  · exact digit_of_mem (by decide) written

theorem text_plain {text : String} {char : Char} (member : char ∈ (ofText text).toList) :
    IsPlain char := by
  obtain ⟨digit, small, rfl⟩ := digit_of_text member
  exact hex_digit_plain digit small

theorem text_length (text : String) : (ofText text).toList.length = 64 := by
  rw [ofText, String.toList_ofList]
  simp [digest, State.words, hex_digits_length]

theorem plain_size {chars : List Char} (plain : ∀ char ∈ chars, IsPlain char) :
    (String.ofList chars).utf8ByteSize = chars.length := by
  induction chars with
  | nil => rfl
  | cons char rest size =>
      rw [String.ofList_cons, String.utf8ByteSize_append, String.utf8ByteSize_singleton,
        (plain char (by simp)).1, size fun other member => plain other (by simp [member]),
        List.length_cons]
      omega

end Digest

namespace Store

theorem file_name_chars (template : String) :
    (fileName template).toList.length = 69 ∧
      ∀ char ∈ (fileName template).toList, Digest.IsPlain char := by
  have suffix : ∀ char ∈ ".json".toList, Digest.IsPlain char := by
    have all : (".json".toList.all fun char =>
        char.utf8Size == 1 && char != '/' && char.toNat != 0) = true := by decide
    intro char member
    simpa [Digest.IsPlain, and_assoc] using List.all_eq_true.mp all char member
  rw [fileName, String.toList_append]
  constructor
  · have size : ".json".toList.length = 5 := by decide
    rw [List.length_append, Digest.text_length]
    omega
  · intro char member
    rcases List.mem_append.mp member with digit | last
    · exact Digest.text_plain digit
    · exact suffix char last

theorem file_name_size (template : String) : (fileName template).utf8ByteSize = 69 := by
  obtain ⟨length, plain⟩ := file_name_chars template
  rw [← length, ← Digest.plain_size plain, String.ofList_toList]

theorem file_name_is_name (template : String) : Path.IsName (fileName template) where
  leads := by
    have length := (file_name_chars template).1
    rw [Path.isIdle, Bool.or_eq_false_iff]
    constructor
    · apply beq_false_of_ne
      intro empty
      simp [empty] at length
    · apply beq_false_of_ne
      intro dot
      simp [dot] at length
  down := by
    have length := (file_name_chars template).1
    intro dots
    simp [dots] at length
  single := fun slash => ((file_name_chars template).2 '/' slash).2.1 rfl

theorem file_name_no_null (template : String) :
    ((fileName template).toList.any fun char => char.toNat == 0) = false := by
  rw [List.any_eq_false]
  intro char member null
  exact ((file_name_chars template).2 char member).2.2 (by simpa using null)

theorem decode_eq_some {template : String} {content : ByteArray} {program : Program} :
    decode? template content = some program ↔
      Program.decodeBytes? content = some program ∧ program.name = template := by
  unfold decode?
  cases Program.decodeBytes? content with
  | none => simp
  | some read =>
      simp only [Option.ite_none_right_eq_some, Option.some.injEq]
      constructor
      · rintro ⟨carries, rfl⟩
        exact ⟨rfl, carries⟩
      · rintro ⟨rfl, carries⟩
        exact ⟨carries, rfl⟩

/-- The folder of a store is there, and paths to programs in it are not too long. -/
structure Ready (store : Store) (disk : Disk) (folder : Location) : Prop where
  formed : disk.WellFormed
  there : ∃ modified, disk.entry store.directory = .ok (folder, .folder modified)
  short : store.directory.utf8ByteSize + 70 < Disk.pathLimit

/-- Only the file of a template's program changed, and this is in it now. -/
def Saved (store : Store) (name : String) (content : ByteArray) (before after : Disk) : Prop :=
  ∃ location, before.locate (store.path name) = .ok location ∧
    after.locate (store.path name) = .ok location ∧
    Disk.Replaced location content before after

section Operations

variable {store : Store} {disk after : Disk} {folder : Location} {template : String}
  {program : Program} {now : Instant}

theorem Ready.names (ready : store.Ready disk folder) : ∀ part ∈ folder, Path.IsName part := by
  obtain ⟨modified, found⟩ := ready.there
  exact ready.formed.names _ (Disk.mem_of_find? (Disk.entry_eq_ok.mp found).2)

theorem Ready.kept {place : Location} (ready : store.Ready disk folder)
    (changed : Disk.ChangedIn place disk after) : store.Ready after folder where
  formed := ready.formed.kept changed
  there := by
    obtain ⟨modified, found⟩ := ready.there
    exact (Disk.entry_kept found changed.mount changed.folders).2
  short := ready.short

theorem locate_program (ready : store.Ready disk folder) (template : String) :
    disk.locate (store.path template) = .ok (folder ++ [fileName template]) := by
  obtain ⟨modified, found⟩ := ready.there
  have size := file_name_size template
  have short := ready.short
  apply Disk.locate_in_folder ready.formed.toMounted found (file_name_is_name template)
    (file_name_no_null template)
  · rw [size]
    decide
  · omega

theorem load_eq (ready : store.Ready disk folder) (template : String) :
    store.load? disk template =
      match disk.lookup (folder ++ [fileName template]) with
      | some (.file content _) => decode? template content
      | _ => none := by
  have read := Disk.read_located (locate_program ready template)
  unfold load?
  -- the name must stay closed, it would be computed as a digest
  generalize disk.lookup (folder ++ [fileName template]) = held at read ⊢
  rw [read]
  cases held with
  | none => rfl
  | some entry => cases entry <;> rfl

/-- What saving comes to, with the disk that it leaves. A program is in its place, or the disk
is as it was, but for the folder, which may have been modified. -/
inductive SaveEnds (store : Store) (disk : Disk) (program : Program) (now : Instant) :
    Except TemplateError Unit × Disk → Prop
  | unopened {failure : Failure}
      (fails : disk.createTemporary store.directory now = .error failure) :
      SaveEnds store disk program now (.error (.artifact store.directory failure), disk)
  | refused {folder : Location} {modified : Instant} {failure : Failure}
      (found : disk.entry store.directory = .ok (folder, .folder modified))
      (blocked : ∀ location written, disk.locate (store.path program.name) = .ok location →
        (disk.set folder (.folder now)).writeAt location program.encode.toUTF8 now now ≠
          .ok written) :
      SaveEnds store disk program now
        (.error (.artifact (store.path program.name) failure), disk.set folder (.folder now))
  | stored {folder location : Location} {modified : Instant} {written : Disk}
      (found : disk.entry store.directory = .ok (folder, .folder modified))
      (located : disk.locate (store.path program.name) = .ok location)
      (wrote : (disk.set folder (.folder now)).writeAt location program.encode.toUTF8 now now =
        .ok written) :
      SaveEnds store disk program now (.ok (), written.touchAround location now)

theorem save_ends (store : Store) (disk : Disk) (program : Program) (now : Instant) :
    SaveEnds store disk program now (store.save disk program now) := by
  unfold save
  -- the path must stay closed, it would be computed as a digest
  generalize at_path : store.path program.name = path
  split
  · next failure fails => exact .unopened fails
  · next temporary place created made =>
      obtain ⟨folder, modified, name, found, -, fresh, rfl, rfl⟩ :=
        Disk.create_temporary_eq_ok made
      have there := (Disk.entry_eq_ok.mp found).2
      rw [Disk.write_created]
      dsimp only
      split
      · next failure fails =>
          rw [Disk.erase_drafted fresh, ← at_path]
          refine .refused found fun location written located wrote => ?_
          rw [at_path] at located
          cases fails.symm.trans
            ((Disk.move_drafted there fresh).mpr ⟨location, written, located, wrote, rfl⟩)
      · next after moved =>
          obtain ⟨location, written, located, wrote, rfl⟩ :=
            (Disk.move_drafted there fresh).mp moved
          exact .stored found (at_path.symm ▸ located) wrote

theorem checked_temporary (ready : store.Ready disk folder) :
    ∃ parts, disk.checkedParts (Path.join store.directory (Disk.temporaryName 0)) = .ok parts := by
  obtain ⟨modified, found⟩ := ready.there
  have short := ready.short
  have size : (Disk.temporaryName 0).utf8ByteSize = 10 := by decide
  have located := Disk.locate_in_folder ready.formed.toMounted found
    (Disk.temporary_is_name 0) (by decide) (by decide) (by omega)
  obtain ⟨parts, checked, -⟩ := Disk.locate_eq_ok.mp located
  exact ⟨parts, checked⟩

theorem save_works (ready : store.Ready disk folder) (now : Instant)
    (free : ∀ since,
      disk.lookup (folder ++ [fileName program.name]) ≠ some (.folder since)) :
    ∃ after, store.save disk program now = (.ok (), after) := by
  have located := locate_program ready program.name
  rcases ended : store.save disk program now with ⟨outcome, after⟩
  have ends := save_ends store disk program now
  rw [ended] at ends
  cases ends with
  | unopened fails =>
      obtain ⟨modified, found⟩ := ready.there
      obtain ⟨made, works⟩ := Disk.create_temporary_works found (checked_temporary ready)
      cases fails.symm.trans works
  | refused found blocked =>
      obtain ⟨modified, found_here⟩ := ready.there
      cases found_here.symm.trans found
      have free_after : ∀ since, (disk.set folder (.folder now)).lookup
          (folder ++ [fileName program.name]) ≠ some (.folder since) := by
        rw [Disk.lookup_set_of_ne (Disk.child_apart folder _)]
        exact free
      obtain ⟨written, wrote, -⟩ := Disk.write_in_folder program.encode.toUTF8 now now ready.names
        (file_name_is_name program.name) free_after
      exact absurd wrote (blocked _ written located)
  | stored found located_here wrote => exact ⟨_, rfl⟩

theorem save_changes (ready : store.Ready disk folder)
    (saved : store.save disk program now = (.ok (), after)) :
    Disk.ChangedIn folder disk after ∧
      ∀ other, other ≠ folder → after.lookup other =
        (disk.set (folder ++ [fileName program.name])
          (.file program.encode.toUTF8 now)).lookup other := by
  have ends := save_ends store disk program now
  rw [saved] at ends
  cases ends with
  | stored found located wrote =>
      obtain ⟨modified, found_here⟩ := ready.there
      cases found_here.symm.trans found
      cases (locate_program ready program.name).symm.trans located
      have opened : Disk.ChangedIn folder disk (disk.set folder (.folder now)) :=
        .set List.prefix_rfl ready.names fun _ => ⟨now, rfl⟩
      obtain ⟨free, -⟩ := Disk.write_at_eq_ok wrote
      obtain ⟨written, wrote_so, changed, held⟩ := Disk.write_in_folder program.encode.toUTF8 now
        now ready.names (file_name_is_name program.name) free
      cases wrote.symm.trans wrote_so
      refine ⟨opened.trans (changed.trans (Disk.touch_changed _ ready.names)),
        fun other different => ?_⟩
      rw [Disk.touch_lookup _ different, held other different]
      by_cases here : other = folder ++ [fileName program.name]
      · rw [here, Disk.lookup_set_self, Disk.lookup_set_self]
      · rw [Disk.lookup_set_of_ne here, Disk.lookup_set_of_ne here,
          Disk.lookup_set_of_ne different]

/-- Saving that failed took nothing away and left nothing behind. -/
theorem save_fails {error : TemplateError}
    (failed : store.save disk program now = (.error error, after)) :
    Disk.Touched disk after := by
  have ends := save_ends store disk program now
  rw [failed] at ends
  cases ends with
  | unopened fails => exact .refl disk
  | refused found blocked => exact Disk.touched_folder (Disk.entry_eq_ok.mp found).2

theorem save_fails_shrinks {error : TemplateError} (ready : store.Ready disk folder)
    (failed : store.save disk program now = (.error error, after)) :
    Disk.ShrunkIn folder disk after := by
  have ends := save_ends store disk program now
  rw [failed] at ends
  cases ends with
  | unopened fails => exact .refl disk
  | refused found blocked =>
      obtain ⟨modified, found_here⟩ := ready.there
      cases found_here.symm.trans found
      exact ⟨.set List.prefix_rfl ready.names fun _ => ⟨now, rfl⟩,
        fun other different => .inl (Disk.lookup_set_of_ne different)⟩

theorem remove_shrinks {removed : Bool} (ready : store.Ready disk folder)
    (done : store.remove disk template now = .ok (removed, after)) :
    Disk.ShrunkIn folder disk after := by
  obtain ⟨modified, found⟩ := ready.there
  unfold remove at done
  split at done
  · next gone =>
      cases done
      exact Disk.remove_in_folder ready.formed found (file_name_is_name template) gone
  · cases done
    exact .refl disk
  · cases done

theorem remove_all_shrinks (ready : store.Ready disk folder) (names : List String)
    (all_names : ∀ name ∈ names, Path.IsName name) :
    Disk.ShrunkIn folder disk (store.removeAll now disk names).2 := by
  induction names generalizing disk with
  | nil => exact .refl disk
  | cons name rest later =>
      obtain ⟨modified, found⟩ := ready.there
      unfold removeAll
      dsimp only
      split
      · exact .refl disk
      · next removed gone =>
          have first := Disk.remove_in_folder ready.formed found (all_names name (by simp)) gone
          exact first.trans (later (ready.kept first.changed)
            fun other member => all_names other (by simp [member]))

theorem clear_shrinks (ready : store.Ready disk folder) (now : Instant) :
    Disk.ShrunkIn folder disk (store.clear disk now).2 := by
  unfold clear
  split
  · exact .refl disk
  · next entries listed =>
      apply remove_all_shrinks ready
      intro name member
      obtain ⟨child, here, rfl⟩ := List.mem_map.mp (List.mem_filter.mp member).1
      obtain ⟨location, _, rfl⟩ := Disk.list_eq_ok listed
      exact ready.formed.names _ (Disk.mem_of_children here) child.1 (by simp)

theorem load_shrunk (ready : store.Ready disk folder) (shrunk : Disk.ShrunkIn folder disk after)
    (loaded : store.load? after template = some program) :
    store.load? disk template = some program := by
  rw [load_eq (ready.kept shrunk.changed)] at loaded
  rcases shrunk.fewer _ (Disk.child_apart folder _) with same | gone
  · rw [same, ← load_eq ready] at loaded
    exact loaded
  · rw [gone] at loaded
    cases loaded

theorem free_shrunk (shrunk : Disk.ShrunkIn folder disk after)
    (free : ∀ modified, disk.lookup (folder ++ [fileName template]) ≠ some (.folder modified)) :
    ∀ modified, after.lookup (folder ++ [fileName template]) ≠ some (.folder modified) := by
  intro modified held
  rcases shrunk.fewer _ (Disk.child_apart folder _) with same | gone
  · exact free modified (same ▸ held)
  · rw [gone] at held
    cases held

theorem load_saved {written : Program} (ready : store.Ready disk folder)
    (saved : store.save disk written now = (.ok (), after))
    (loaded : store.load? after template = some program) :
    store.load? disk template = some program ∨
      decode? template written.encode.toUTF8 = some program := by
  obtain ⟨changed, held⟩ := save_changes ready saved
  rw [load_eq (ready.kept changed), held _ (Disk.child_apart folder _)] at loaded
  by_cases here : folder ++ [fileName template] = folder ++ [fileName written.name]
  · rw [here, Disk.lookup_set_self] at loaded
    exact .inr loaded
  · rw [Disk.lookup_set_of_ne here, ← load_eq ready] at loaded
    exact .inl loaded

theorem free_saved {written : Program} (ready : store.Ready disk folder)
    (saved : store.save disk written now = (.ok (), after))
    (free : ∀ modified, disk.lookup (folder ++ [fileName template]) ≠ some (.folder modified)) :
    ∀ modified, after.lookup (folder ++ [fileName template]) ≠ some (.folder modified) := by
  intro modified found
  rw [(save_changes ready saved).2 _ (Disk.child_apart folder _)] at found
  by_cases here : folder ++ [fileName template] = folder ++ [fileName written.name]
  · rw [here, Disk.lookup_set_self] at found
    cases found
  · rw [Disk.lookup_set_of_ne here] at found
    exact free modified found

/-- Saving that went well changed the one file, wherever the store and its folder are. -/
theorem save_saved (saved : store.save disk program now = (.ok (), after)) :
    store.Saved program.name program.encode.toUTF8 disk after := by
  have ends := save_ends store disk program now
  rw [saved] at ends
  cases ends with
  | @stored _ location _ _ found located wrote =>
      obtain ⟨free, around⟩ := Disk.write_at_eq_ok wrote
      have put := Disk.replaced_of_touched free
        (around.trans (Disk.touch_around_touched _ location now))
      have replaced := put.of_touched (Disk.touched_folder (Disk.entry_eq_ok.mp found).2)
      exact ⟨location, located, replaced.located located, replaced⟩

theorem Saved.load {content : ByteArray} (saved : store.Saved template content disk after) :
    store.load? after template = decode? template content := by
  obtain ⟨location, -, located, replaced⟩ := saved
  obtain ⟨modified, written⟩ := replaced.written
  have read := Disk.read_located located
  rw [written] at read
  -- the path must stay closed, it would be computed as a digest
  unfold load?
  generalize after.read (store.path template) = found at read ⊢
  rw [read]

end Operations

end Store

end Letterpress
