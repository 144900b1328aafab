import Mathlib.Data.List.Forall2
import Letterpress.Engine.Basic
import Letterpress.Proofs.Outcome
import Letterpress.Proofs.Program.RoundTrip
import Letterpress.Proofs.Value.Iteration

/-!
Data as values. A map takes entries whose keys become texts, flags or numbers, and keeps under
the text of each key the last entry that has it, which is where looking the key up finds it.
The maps of all values that data become are in order, and a value of that kind is data for
itself: rendering a template with it is rendering the template with that data.
-/

namespace Letterpress

/-- Texts, flags and numbers: what can be a key of a map. -/
def Value.IsScalar : Value → Prop
  | .bool _ | .int _ | .float _ | .str _ => True
  | _ => False

theorem Value.key_name_of_scalar {value : Value} (scalar : value.IsScalar) :
    value.keyName = .ok value.display := by
  cases value with
  | bool | int | float | str => rfl
  | null | list | map => cases scalar

theorem Value.key_name_refused {value : Value} (other : ¬value.IsScalar) :
    value.keyName = .error (.keyType value.typeName) := by
  cases value with
  | null | list | map => rfl
  | bool | int | float | str => exact absurd trivial other

theorem Value.key_name_eq_ok {value : Value} {name : String} :
    value.keyName = .ok name ↔ value.IsScalar ∧ value.display = name := by
  by_cases scalar : value.IsScalar
  · simp [key_name_of_scalar scalar, scalar]
  · simp [key_name_refused scalar, scalar]

namespace Value

def Ordered (value : Value) : Prop :=
  ∀ entries, .map entries ∈ value.parts → Entries.Sorted entries

theorem ordered_list {items : List Value} :
    (Value.list items).Ordered ↔ ∀ item ∈ items, item.Ordered := by
  simp only [Ordered, parts, List.mem_cons, mem_parts_of_items, reduceCtorEq, false_or]
  constructor
  · exact fun all item member entries inside => all entries ⟨item, member, inside⟩
  · exact fun each entries ⟨item, member, inside⟩ => each item member entries inside

theorem ordered_map {entries : List (String × Value)} :
    (Value.map entries).Ordered ↔
      Entries.Sorted entries ∧ ∀ entry ∈ entries, entry.2.Ordered := by
  simp only [Ordered, parts, List.mem_cons, mem_parts_of_entries, Value.map.injEq]
  constructor
  · intro all
    exact ⟨all entries (.inl rfl),
      fun entry member inner inside => all inner (.inr ⟨entry, member, inside⟩)⟩
  · rintro ⟨sorted, each⟩ inner (rfl | ⟨entry, member, inside⟩)
    · exact sorted
    · exact each entry member inner inside

theorem ordered_single {value : Value} (single : value.parts = [value])
    (bare : ∀ entries, value ≠ .map entries) : value.Ordered := by
  intro entries inside
  rw [single, List.mem_singleton] at inside
  exact absurd inside.symm (bare entries)

theorem of_int_word (number : Int64) : ofInt number.toInt = .int number := by
  rw [ofInt, if_pos (fits_word number), Int64.ofInt_toInt]

end Value

namespace Datum

section Mappings

variable {entries rest before after : List (Datum × Datum)} {pairs : List (String × Value)}
  {key item : Datum} {name other : String} {value : Value}

/-- A key gives its entry a name: it becomes a text, a flag or a number, and shows as that. -/
def Names (key : Datum) (name : String) : Prop :=
  ∃ value, key.toValue = .ok value ∧ value.IsScalar ∧ value.display = name

theorem names_unique (named : key.Names name) (also : key.Names other) : name = other := by
  obtain ⟨value, read, -, shown⟩ := named
  obtain ⟨again, read_again, -, shown_again⟩ := also
  rw [read] at read_again
  cases read_again
  exact shown.symm.trans shown_again

/-- An entry that a map takes: its key gives a name, and its item becomes a value. -/
def Taken (entry : Datum × Datum) : Prop :=
  (∃ name, entry.1.Names name) ∧ ∃ value, entry.2.toValue = .ok value

/-- Of the entries whose keys give a name, the last one holds an item. -/
def LastUnder (entries : List (Datum × Datum)) (name : String) (item : Datum) : Prop :=
  ∃ key, Entries.LastOf (fun entry => entry.1.Names name) entries (key, item)

def Entered (entry : Datum × Datum) (pair : String × Value) : Prop :=
  entry.1.Names pair.1 ∧ entry.2.toValue = .ok pair.2

theorem pairs_of_entries :
    entriesToPairs entries = .ok pairs ↔ List.Forall₂ Entered entries pairs := by
  induction entries generalizing pairs with
  | nil => cases pairs <;> simp [entriesToPairs]
  | cons entry rest later =>
      obtain ⟨key, item⟩ := entry
      simp only [entriesToPairs, bind_eq_ok, Value.key_name_eq_ok, List.forall₂_cons_left_iff,
        Entered, Names, later]
      constructor
      · rintro ⟨value, read, name, ⟨scalar, shown⟩, held, item_read, others, entered, same⟩
        cases same
        exact ⟨(name, held), others, ⟨⟨value, read, scalar, shown⟩, item_read⟩, entered, rfl⟩
      · rintro ⟨pair, others, ⟨⟨value, read, scalar, shown⟩, item_read⟩, entered, rfl⟩
        exact ⟨value, read, pair.1, ⟨scalar, shown⟩, pair.2, item_read, others, entered, rfl⟩

theorem named_iff (entered : List.Forall₂ Entered entries pairs) (name : String) :
    name ∈ pairs.map Prod.fst ↔ ∃ entry ∈ entries, entry.1.Names name := by
  induction entered with
  | nil => simp
  | cons here _ later =>
      rw [List.map_cons, List.mem_cons, later, List.exists_mem_cons_iff]
      apply or_congr_left
      constructor
      · rintro rfl
        exact here.1
      · exact fun named => names_unique named here.1

theorem none_named_iff (entered : List.Forall₂ Entered entries pairs) (name : String) :
    (∀ pair ∈ pairs, ¬pair.1 = name) ↔ ∀ entry ∈ entries, ¬entry.1.Names name := by
  constructor
  · intro unnamed entry member named
    obtain ⟨pair, inside, same⟩ :=
      List.mem_map.mp ((named_iff entered name).mpr ⟨entry, member, named⟩)
    exact unnamed pair inside same
  · rintro unnamed pair inside rfl
    obtain ⟨entry, member, named⟩ := (named_iff entered _).mp (List.mem_map_of_mem inside)
    exact unnamed entry member named

/-- What becomes of entries has its last pairs where the entries have their last keys. -/
theorem last_entered (entered : List.Forall₂ Entered entries pairs) :
    Entries.LastOf (fun pair => pair.1 = name) pairs (name, value) ↔
      ∃ item, LastUnder entries name item ∧ item.toValue = .ok value := by
  induction entered with
  | nil => simp [Entries.LastOf, LastUnder]
  | @cons entry pair rest pairs here others later =>
      rw [Entries.last_of_cons, later, none_named_iff others]
      simp only [LastUnder, Entries.last_of_cons, exists_or, or_and_right]
      apply or_congr_right
      constructor
      · rintro ⟨rfl, -, last⟩
        exact ⟨entry.2, ⟨entry.1, rfl, here.1, last⟩, here.2⟩
      · rintro ⟨item, ⟨key, rfl, named, last⟩, read⟩
        have name_same := names_unique here.1 named
        have value_same := Except.ok.inj (here.2.symm.trans read)
        exact ⟨Prod.ext name_same value_same, name_same, last⟩

theorem mapping_eq_ok {whole : Value} :
    (mapping entries).toValue = .ok whole ↔
      ∃ pairs, List.Forall₂ Entered entries pairs ∧ .ofPairs pairs = whole := by
  simp only [toValue, map_eq_ok, pairs_of_entries]

theorem taken_iff : (∃ pairs, List.Forall₂ Entered entries pairs) ↔
    ∀ entry ∈ entries, Taken entry := by
  induction entries with
  | nil => simp
  | cons entry rest later =>
      rw [List.forall_mem_cons, ← later]
      constructor
      · rintro ⟨pairs, entered⟩
        cases entered with
        | cons here others => exact ⟨⟨⟨_, here.1⟩, ⟨_, here.2⟩⟩, ⟨_, others⟩⟩
      · rintro ⟨⟨⟨name, named⟩, ⟨value, read⟩⟩, ⟨pairs, others⟩⟩
        exact ⟨(name, value) :: pairs, .cons ⟨named, read⟩ others⟩

/-- Entries that a map takes do not keep it from a failure behind them. -/
theorem entries_refused {error : DatumError} (taken : ∀ entry ∈ before, Taken entry)
    (refused : entriesToPairs after = .error error) :
    entriesToPairs (before ++ after) = .error error := by
  induction before with
  | nil => exact refused
  | cons entry rest later =>
      obtain ⟨⟨⟨name, value, read, scalar, shown⟩, held, item_read⟩, others⟩ :=
        List.forall_mem_cons.mp taken
      rw [List.cons_append, entriesToPairs, read, item_read, later others]
      simp only [bind, Except.bind, Value.key_name_of_scalar scalar]

theorem key_refused {rest : List (Datum × Datum)} (read : key.toValue = .ok value)
    (other : ¬value.IsScalar) :
    entriesToPairs ((key, item) :: rest) = .error (.keyType value.typeName) := by
  simp only [entriesToPairs, read, bind, Except.bind, Value.key_name_refused other]

/-- In the map that entries become, each key finds what the last entry with its name became. -/
theorem member_of_entered (entered : List.Forall₂ Entered entries pairs)
    {entry : Datum × Datum} (member : entry ∈ entries) (read : entry.1.toValue = .ok value) :
    ∃ item, LastUnder entries value.display item ∧
      item.toValue = .ok ((Value.ofPairs pairs).member value) := by
  obtain ⟨⟨name, _, read_again, scalar, shown⟩, -⟩ := taken_iff.mp ⟨pairs, entered⟩ entry member
  cases read.symm.trans read_again
  have named : value.display ∈ pairs.map Prod.fst :=
    (named_iff entered _).mpr ⟨entry, member, value, read, scalar, rfl⟩
  obtain ⟨sorted, keys⟩ := Entries.of_list_keys pairs
  obtain ⟨⟨_, held⟩, inside, rfl⟩ := List.mem_map.mp ((keys _).mpr named)
  have found := (Entries.find_iff_mem sorted).mpr inside
  rw [Value.ofPairs, Value.member_of_found found]
  exact (last_entered entered).mp (Entries.find_of_list.mp found)

/-- A map takes exactly entries whose keys become texts, flags or numbers and whose items become
values. Looked up with any of the keys it gives what the last item under the same text became,
and it holds nothing else. A key that becomes anything else is refused, and it is what the data
is refused for if all entries before it are taken. -/
theorem mapping_keeps_last_items (entries : List (Datum × Datum)) :
    ((∃ whole, (mapping entries).toValue = .ok whole) ↔ ∀ entry ∈ entries, Taken entry) ∧
    (∀ whole, (mapping entries).toValue = .ok whole →
      (∀ entry ∈ entries, ∀ key, entry.1.toValue = .ok key →
        ∃ item, LastUnder entries key.display item ∧ item.toValue = .ok (whole.member key)) ∧
      ∃ fields, whole = .map fields ∧ Entries.Sorted fields ∧
        ∀ name value, (name, value) ∈ fields ↔
          ∃ item, LastUnder entries name item ∧ item.toValue = .ok value) ∧
    (∀ before key item after value, entries = before ++ (key, item) :: after →
      key.toValue = .ok value → ¬value.IsScalar →
      (∃ error, (mapping entries).toValue = .error error) ∧
        ((∀ entry ∈ before, Taken entry) →
          (mapping entries).toValue = .error (.keyType value.typeName))) := by
  have succeeds : (∃ whole, (mapping entries).toValue = .ok whole) ↔
      ∀ entry ∈ entries, Taken entry := by
    simp only [mapping_eq_ok, ← taken_iff]
    constructor
    · rintro ⟨_, pairs, entered, -⟩
      exact ⟨pairs, entered⟩
    · rintro ⟨pairs, entered⟩
      exact ⟨_, pairs, entered, rfl⟩
  refine ⟨succeeds, ?_, ?_⟩
  · intro whole become
    obtain ⟨pairs, entered, rfl⟩ := mapping_eq_ok.mp become
    have sorted := (Entries.of_list_keys pairs).1
    refine ⟨fun entry member key read => member_of_entered entered member read,
      Entries.ofList pairs, rfl, sorted, fun name value => ?_⟩
    rw [← Entries.find_iff_mem sorted, Entries.find_of_list, last_entered entered]
  · rintro before key item after value rfl read other
    constructor
    · cases outcome : (mapping (before ++ (key, item) :: after)).toValue with
      | error error => exact ⟨error, rfl⟩
      | ok whole =>
          have taken := succeeds.mp ⟨whole, outcome⟩ (key, item) (by simp)
          obtain ⟨_, _, read_again, scalar, -⟩ := taken.1
          cases read.symm.trans read_again
          exact absurd scalar other
    · intro taken
      rw [toValue, entries_refused taken (key_refused read other)]
      rfl

example : (mapping [(.integer 1, .text "one"), (.wrapped (.variant "true"), .bytes [7]),
    (.text "1", .absent)]).toValue = .ok (.map [("1", .null), ("true", .list [.int 7])]) := rfl

end Mappings

section Identity

mutual

theorem value_as_data (value : Value) (ordered : value.Ordered) :
    (ofValue value).toValue = .ok value := by
  cases value with
  | null | bool | float | str => rfl
  | int number => rw [ofValue, toValue, Value.of_int_word]
  | list items => rw [ofValue, toValue, items_as_data items (Value.ordered_list.mp ordered)]; rfl
  | map entries =>
      obtain ⟨sorted, each⟩ := Value.ordered_map.mp ordered
      rw [ofValue, toValue, entries_as_data entries each]
      simp only [Except.map, Value.ofPairs, Entries.ofList_sorted sorted]

theorem items_as_data (items : List Value) (ordered : ∀ item ∈ items, item.Ordered) :
    itemsToValues (ofValues items) = .ok items := by
  cases items with
  | nil => rfl
  | cons item rest =>
      obtain ⟨first, others⟩ := List.forall_mem_cons.mp ordered
      rw [ofValues, itemsToValues, value_as_data item first, items_as_data rest others]
      rfl

theorem entries_as_data (entries : List (String × Value))
    (ordered : ∀ entry ∈ entries, entry.2.Ordered) :
    entriesToPairs (ofEntries entries) = .ok entries := by
  cases entries with
  | nil => rfl
  | cons entry rest =>
      obtain ⟨first, others⟩ := List.forall_mem_cons.mp ordered
      rw [ofEntries, entriesToPairs, value_as_data entry.2 first, entries_as_data rest others]
      rfl

end

mutual

theorem become_ordered (data : Datum) {value : Value} (become : data.toValue = .ok value) :
    value.Ordered := by
  cases data with
  | absent | bool | float | char | text | variant =>
      cases become
      exact Value.ordered_single rfl nofun
  | integer number =>
      cases become
      rw [Value.ofInt]
      split <;> exact Value.ordered_single rfl nofun
  | bytes octets =>
      cases become
      apply Value.ordered_list.mpr
      intro value member
      obtain ⟨octet, -, rfl⟩ := List.mem_map.mp member
      exact Value.ordered_single rfl nofun
  | sequence items =>
      obtain ⟨values, each, rfl⟩ := map_eq_ok.mp become
      exact Value.ordered_list.mpr (items_ordered items each)
  | mapping entries =>
      obtain ⟨pairs, each, rfl⟩ := map_eq_ok.mp become
      have ordered := entries_ordered entries each
      exact Value.ordered_map.mpr ⟨(Entries.of_list_keys pairs).1,
        fun pair member => ordered pair (Entries.mem_of_mem_of_list member)⟩
  | record fields =>
      obtain ⟨pairs, each, rfl⟩ := map_eq_ok.mp become
      have ordered := fields_ordered fields each
      exact Value.ordered_map.mpr ⟨(Entries.of_list_keys pairs).1,
        fun pair member => ordered pair (Entries.mem_of_mem_of_list member)⟩
  | wrapped inner => exact become_ordered inner become
  | keyless value =>
      obtain ⟨_, -, impossible⟩ := bind_eq_ok.mp become
      cases impossible
  | wideInteger | failing => cases become

theorem items_ordered (items : List Datum) {values : List Value}
    (become : itemsToValues items = .ok values) : ∀ value ∈ values, value.Ordered := by
  cases items with
  | nil =>
      cases become
      exact nofun
  | cons item rest =>
      simp only [itemsToValues, bind_eq_ok] at become
      obtain ⟨value, first, others, further, same⟩ := become
      cases same
      exact List.forall_mem_cons.mpr ⟨become_ordered item first, items_ordered rest further⟩

theorem entries_ordered (entries : List (Datum × Datum)) {pairs : List (String × Value)}
    (become : entriesToPairs entries = .ok pairs) : ∀ pair ∈ pairs, pair.2.Ordered := by
  cases entries with
  | nil =>
      cases become
      exact nofun
  | cons entry rest =>
      simp only [entriesToPairs, bind_eq_ok] at become
      obtain ⟨key, -, name, -, value, first, others, further, same⟩ := become
      cases same
      exact List.forall_mem_cons.mpr ⟨become_ordered entry.2 first, entries_ordered rest further⟩

theorem fields_ordered (fields : List (String × Datum)) {pairs : List (String × Value)}
    (become : fieldsToPairs fields = .ok pairs) : ∀ pair ∈ pairs, pair.2.Ordered := by
  cases fields with
  | nil =>
      cases become
      exact nofun
  | cons field rest =>
      simp only [fieldsToPairs, bind_eq_ok] at become
      obtain ⟨value, first, others, further, same⟩ := become
      cases same
      exact List.forall_mem_cons.mpr ⟨become_ordered field.2 first, fields_ordered rest further⟩

end

/-- The values with their maps in order are those that data become. -/
theorem ordered_iff_data {value : Value} :
    value.Ordered ↔ ∃ data : Datum, data.toValue = .ok value :=
  ⟨fun ordered => ⟨ofValue value, value_as_data value ordered⟩,
    fun ⟨data, become⟩ => become_ordered data become⟩

end Identity

end Datum

namespace Engine

/-- A value whose maps are in order, at any depth and with any doubles, becomes itself when it
is handed over as data. So a template renders with it as data as it renders with the value: the
page, the error and the world that is left are the same. Both refuse a value that is no map and
not nothing, before they look at the template. -/
theorem renders_value_as_data (value : Value) (ordered : value.Ordered) (engine : Engine)
    (name : String) :
    (Datum.ofValue value).toValue = .ok value ∧
      engine.render name (.ofValue value) = engine.renderValue name value ∧
      ((∀ entries, value ≠ .map entries) → value ≠ .null → ∀ world,
        (engine.render name (.ofValue value)).run.run world =
          (.error (.context (.notAMap value.typeName)), world)) := by
  have become := Datum.value_as_data value ordered
  have same : engine.render name (.ofValue value) = engine.renderValue name value := by
    rw [render, become]
    rfl
  refine ⟨become, same, fun no_map something world => ?_⟩
  rw [same]
  cases value with
  | null => exact absurd rfl something
  | map entries => exact absurd rfl (no_map entries)
  | _ => rfl

def album : Value :=
  .map [("", .null), ("length", .list [.float (-0.0), .map [], .map [("a", .int 1), ("é", .str "")]])]

theorem album_ordered : album.Ordered := by
  have formed : ∀ part ∈ album.parts, part.Formed := by decide
  exact fun entries inside => formed (.map entries) inside

theorem albums_ordered : (Value.list [album]).Ordered :=
  Value.ordered_list.mpr (List.forall_mem_singleton.mpr album_ordered)

def reader : Engine := ⟨"/shelf", ⟨"/shelf/.tmp"⟩, {}⟩

def shelf : World := ⟨.empty "/" ⟨0, 0⟩, 0, ⟨0, 0⟩⟩

/-- An album renders as data as it does as a value, and a list of albums is refused. -/
theorem album_rendered_as_data :
    reader.render "album.html" (.ofValue album) = reader.renderValue "album.html" album ∧
      (reader.render "album.html" (.ofValue (.list [album]))).run.run shelf =
        (.error (.context (.notAMap "list")), shelf) := by
  obtain ⟨-, same, -⟩ := renders_value_as_data album album_ordered reader "album.html"
  obtain ⟨-, -, refused⟩ :=
    renders_value_as_data (.list [album]) albums_ordered reader "album.html"
  exact ⟨same, refused nofun nofun shelf⟩

end Engine

end Letterpress
