import Letterpress.Proofs.Value.Comparison
import Letterpress.Proofs.Value.Entries

/-!
Equality of values, by their structure. Two numbers that are compared themselves are compared as
doubles, whatever types they have. Inside lists and maps the types count: there an integer is
equal to the same integer only, and a double to doubles only. So an integer that is compared
itself may be replaced by its double, and so may all integers on both sides at once; a single
integer inside a list or map may not, however deep it stands.
-/

namespace Letterpress.Value

/-- Neither is an integer beside a double, and of two integers each is the other. -/
def Kin : Value → Value → Prop
  | .int a, .int b => a = b
  | .int _, .float _ => False
  | .float _, .int _ => False
  | _, _ => True

/-- What has to hold of two values at one place inside lists or maps. -/
def Matches (left right : Value) : Prop :=
  equals left right = true ∧ Kin left right

section Structure

theorem double_of_int_self (number : Int64) :
    (Float.ofInt number.toInt == Float.ofInt number.toInt) = true := by
  rw [Decimal.double_beq (word_bounded number) (word_bounded number)]
  simp

theorem equals_eq_same {left : Value} (right : Value) (bare : left.toFloat? = none) :
    equals left right = same left right := by
  simp [equals, bare]

/-- Equality of structure is equality that looks at the types of numbers as well. -/
theorem same_iff_matches (left right : Value) : same left right = true ↔ Matches left right := by
  cases left with
  | int a =>
      cases right with
      | int b =>
          constructor
          · intro alike
            have equal : a = b := eq_of_beq alike
            subst equal
            exact ⟨double_of_int_self a, rfl⟩
          · intro related
            exact beq_iff_eq.mpr related.2
      | _ => simp [same, Matches, Kin, equals, toFloat?]
  | float a => cases right <;> simp [same, Matches, Kin, equals, toFloat?]
  | _ => simp [Matches, Kin, equals, toFloat?]

theorem same_items_iff (left right : List Value) :
    sameItems left right = true ↔ List.Forall₂ Matches left right := by
  induction left generalizing right with
  | nil => cases right <;> simp [sameItems]
  | cons item rest later =>
      cases right with
      | nil => simp [sameItems]
      | cons other others => simp [sameItems, same_iff_matches, later]

theorem same_entries_iff (left right : List (String × Value)) :
    sameEntries left right = true ↔
      List.Forall₂ (fun one other => one.1 = other.1 ∧ Matches one.2 other.2) left right := by
  induction left generalizing right with
  | nil => cases right <;> simp [sameEntries]
  | cons entry rest later =>
      cases right with
      | nil => simp [sameEntries]
      | cons other others => simp [sameEntries, same_iff_matches, later]

end Structure

section Entries

variable {Item : Type} {left right : List (String × Item)}

/-- Two maps have related values under all names exactly if they have the same names and related
values side by side, since both are in order. -/
theorem related_by_name_iff (related : Item → Item → Prop) (leftSorted : Entries.Sorted left)
    (rightSorted : Entries.Sorted right) :
    List.Forall₂ (fun one other => one.1 = other.1 ∧ related one.2 other.2) left right ↔
      ∀ name, Option.Rel related (Entries.find? name left) (Entries.find? name right) := by
  induction left generalizing right with
  | nil =>
      cases right with
      | nil => simp [Entries.find?]
      | cons other others =>
          constructor
          · intro impossible
            cases impossible
          · intro named
            have absent := named other.1
            rw [Entries.find_head] at absent
            cases absent
  | cons entry rest later =>
      obtain ⟨least, restSorted⟩ := List.pairwise_cons.mp leftSorted
      cases right with
      | nil =>
          constructor
          · intro impossible
            cases impossible
          · intro named
            have absent := named entry.1
            rw [Entries.find_head] at absent
            cases absent
      | cons other others =>
          obtain ⟨otherLeast, othersSorted⟩ := List.pairwise_cons.mp rightSorted
          rw [List.forall₂_cons, later restSorted othersSorted]
          constructor
          · rintro ⟨⟨names, values⟩, named⟩ name
            by_cases here : name = entry.1
            · subst here
              rw [Entries.find_head, names, Entries.find_head]
              exact .some values
            · rw [Entries.find_tail here, Entries.find_tail (names ▸ here)]
              exact named name
          · intro named
            -- the smaller of two different first names would be missing on the other side
            have names : entry.1 = other.1 := by
              rcases lt_trichotomy entry.1 other.1 with before | same | behind
              · have absent := named entry.1
                rw [Entries.find_head, Entries.find_below] at absent
                · cases absent
                · intro later member
                  rcases List.mem_cons.mp member with rfl | inside
                  · exact before
                  · exact String.lt_trans before (otherLeast later inside)
              · exact same
              · have absent := named other.1
                rw [Entries.find_head, Entries.find_below] at absent
                · cases absent
                · intro later member
                  rcases List.mem_cons.mp member with rfl | inside
                  · exact behind
                  · exact String.lt_trans behind (least later inside)
            refine ⟨⟨names, ?_⟩, ?_⟩
            · have first := named entry.1
              rw [Entries.find_head, names, Entries.find_head] at first
              cases first with
              | some values => exact values
            · intro name
              by_cases here : name = entry.1
              · subst here
                rw [Entries.find_below least, names, Entries.find_below otherLeast]
                exact .none
              · have further := named name
                rwa [Entries.find_tail here, Entries.find_tail (names ▸ here)] at further

end Entries

section Surroundings

/-- A list or map with a gap for one item or one entry. -/
inductive Surrounding where
  | item (before after : List Value)
  | entry (before : List (String × Value)) (name : String) (after : List (String × Value))

def Surrounding.fill : Surrounding → Value → Value
  | .item before after, value => .list (before ++ value :: after)
  | .entry before name after, value => .map (before ++ (name, value) :: after)

/-- A value put deep inside others, the outermost list or map first. -/
def place (surroundings : List Surrounding) (value : Value) : Value :=
  surroundings.foldr Surrounding.fill value

theorem item_counterpart {before after items : List Value} {value : Value}
    (alike : sameItems (before ++ value :: after) items = true) :
    ∃ counterpart, ∀ other,
      sameItems (before ++ other :: after) items = same other counterpart := by
  induction before generalizing items with
  | nil =>
      cases items with
      | nil => cases alike
      | cons item rest =>
          simp only [List.nil_append, sameItems, Bool.and_eq_true] at alike
          exact ⟨item, fun other => by simp [sameItems, alike.2]⟩
  | cons first before later =>
      cases items with
      | nil => cases alike
      | cons item rest =>
          simp only [List.cons_append, sameItems, Bool.and_eq_true] at alike
          obtain ⟨counterpart, others⟩ := later alike.2
          exact ⟨counterpart, fun other => by simp [sameItems, alike.1, others]⟩

theorem entry_counterpart {before after entries : List (String × Value)} {name : String}
    {value : Value} (alike : sameEntries (before ++ (name, value) :: after) entries = true) :
    ∃ counterpart, ∀ other,
      sameEntries (before ++ (name, other) :: after) entries = same other counterpart := by
  induction before generalizing entries with
  | nil =>
      cases entries with
      | nil => cases alike
      | cons entry rest =>
          simp only [List.nil_append, sameEntries, Bool.and_eq_true] at alike
          exact ⟨entry.2, fun other => by simp [sameEntries, alike.1.1, alike.2]⟩
  | cons first before later =>
      cases entries with
      | nil => cases alike
      | cons entry rest =>
          simp only [List.cons_append, sameEntries, Bool.and_eq_true] at alike
          obtain ⟨counterpart, others⟩ := later alike.2
          exact ⟨counterpart, fun other => by
            simp [sameEntries, alike.1.1, alike.1.2, others]⟩

theorem fill_counterpart (surrounding : Surrounding) {value whole : Value}
    (alike : same (surrounding.fill value) whole = true) :
    ∃ counterpart, ∀ other, same (surrounding.fill other) whole = same other counterpart := by
  cases surrounding with
  | item before after =>
      cases whole with
      | list items => exact item_counterpart alike
      | _ => cases alike
  | entry before name after =>
      cases whole with
      | map entries => exact entry_counterpart alike
      | _ => cases alike

/-- What equals a value has something that decides about the place of each value inside it. -/
theorem placed_counterpart (surroundings : List Surrounding) {value whole : Value}
    (alike : same (place surroundings value) whole = true) :
    ∃ counterpart, ∀ other, same (place surroundings other) whole = same other counterpart := by
  induction surroundings generalizing whole with
  | nil => exact ⟨whole, fun _ => rfl⟩
  | cons outer inner deeper =>
      obtain ⟨middle, outside⟩ := fill_counterpart outer alike
      have inside : same (place inner value) middle = true := (outside _).symm.trans alike
      obtain ⟨counterpart, others⟩ := deeper inside
      exact ⟨counterpart, fun other => (outside _).trans (others other)⟩

theorem placed_bare {surroundings : List Surrounding} (inside : surroundings ≠ [])
    (value : Value) : (place surroundings value).toFloat? = none := by
  cases surroundings with
  | nil => exact absurd rfl inside
  | cons outer inner => cases outer <;> rfl

/-- A value that equals an integer inside lists or maps does not equal its double there. -/
theorem double_in_place {surroundings : List Surrounding} (inside : surroundings ≠ [])
    {number : Int64} {whole : Value}
    (equal : equals (place surroundings (.int number)) whole = true) :
    equals (place surroundings (.float (Float.ofInt number.toInt))) whole = false := by
  rw [equals_eq_same whole (placed_bare inside _)] at equal ⊢
  obtain ⟨counterpart, others⟩ := placed_counterpart surroundings equal
  rw [others] at equal ⊢
  cases counterpart with
  | float double => cases equal
  | _ => rfl

end Surroundings

section Floated

mutual

/-- A value with the nearest double in the place of each integer. -/
def floated : Value → Value
  | .int number => .float (Float.ofInt number.toInt)
  | .list items => .list (floatedItems items)
  | .map entries => .map (floatedEntries entries)
  | other => other

def floatedItems : List Value → List Value
  | [] => []
  | item :: rest => item.floated :: floatedItems rest

def floatedEntries : List (String × Value) → List (String × Value)
  | [] => []
  | (name, value) :: rest => (name, value.floated) :: floatedEntries rest

end

mutual

theorem same_floated : (left right : Value) → same left right = true →
    same left.floated right.floated = true
  | .int a, .int b, alike => by
    have equal : a = b := eq_of_beq alike
    subst equal
    exact double_of_int_self a
  | .list left, .list right, alike => same_floated_items left right alike
  | .map left, .map right, alike => same_floated_entries left right alike
  | .null, right, alike => by cases right <;> exact alike
  | .bool _, right, alike => by cases right <;> exact alike
  | .float _, right, alike => by
    cases right with
    | int _ => cases alike
    | _ => exact alike
  | .str _, right, alike => by cases right <;> exact alike

theorem same_floated_items : (left right : List Value) → sameItems left right = true →
    sameItems (floatedItems left) (floatedItems right) = true
  | [], [], _ => rfl
  | item :: rest, other :: others, alike => by
    simp only [sameItems, Bool.and_eq_true] at alike
    simp [floatedItems, sameItems, same_floated item other alike.1,
      same_floated_items rest others alike.2]

theorem same_floated_entries : (left right : List (String × Value)) →
    sameEntries left right = true →
    sameEntries (floatedEntries left) (floatedEntries right) = true
  | [], [], _ => rfl
  | (name, value) :: rest, (otherName, other) :: others, alike => by
    simp only [sameEntries, Bool.and_eq_true] at alike
    simp [floatedEntries, sameEntries, alike.1.1, same_floated value other alike.1.2,
      same_floated_entries rest others alike.2]

end

theorem to_float_floated (value : Value) : value.floated.toFloat? = value.toFloat? := by
  cases value <;> rfl

theorem equals_floated {left right : Value} (equal : equals left right = true) :
    equals left.floated right.floated = true := by
  unfold equals at equal ⊢
  rw [to_float_floated, to_float_floated]
  split
  · next leftDouble rightDouble =>
      rw [leftDouble, rightDouble] at equal
      exact equal
  · next apart =>
      split at equal
      · next leftDouble rightDouble => exact absurd rightDouble (apart _ _ leftDouble)
      · exact same_floated left right equal

end Floated

/-- Lists are equal if they match item by item, and maps if they have the same names with
matching values. Replacing an integer by its double changes no comparison of the integer itself;
inside lists and maps it makes what was equal different, unless both sides get doubles. -/
theorem equality_by_structure (items others : List Value) {entries fields : List (String × Value)}
    (sorted : Entries.Sorted entries) (also_sorted : Entries.Sorted fields) (number : Int64)
    (left right : Value) (surroundings : List Surrounding) :
    (equals (.list items) (.list others) = true ↔ List.Forall₂ Matches items others) ∧
    (equals (.map entries) (.map fields) = true ↔
      ∀ name, Option.Rel Matches (Entries.find? name entries) (Entries.find? name fields)) ∧
    equals (.int number) right = equals (.float (Float.ofInt number.toInt)) right ∧
    equals left (.int number) = equals left (.float (Float.ofInt number.toInt)) ∧
    (surroundings ≠ [] → equals (place surroundings (.int number)) right = true →
      equals (place surroundings (.float (Float.ofInt number.toInt))) right = false) ∧
    (equals left right = true → equals left.floated right.floated = true) := by
  refine ⟨same_items_iff items others, ?_, ?_, ?_, fun inside => double_in_place inside,
    equals_floated⟩
  · rw [← related_by_name_iff Matches sorted also_sorted]
    exact same_entries_iff entries fields
  · cases right <;> rfl
  · cases left <;> rfl

/-- Prices of two that are found equal, and are not once one of them is a double. -/
theorem prices_compared :
    equals (.map [("price", .int 2)]) (.map [("price", .int 2)]) = true ∧
      equals (.list [.map [("price", .float 2)]]) (.list [.map [("price", .int 2)]]) = false ∧
      equals (.list [.map [("price", .float 2)]]) (.list [.map [("price", .float 2)]]) = true := by
  have sorted : Entries.Sorted [("price", Value.int 2)] := List.pairwise_singleton _ _
  have matching : Matches (.int 2) (.int 2) := ⟨double_of_int_self 2, rfl⟩
  have priced : equals (.list [.map [("price", .int 2)]]) (.list [.map [("price", .int 2)]]) =
      true := by
    decide
  obtain ⟨-, maps, -, -, replaced, doubles⟩ := equality_by_structure [] [] sorted sorted 2
    (.list [.map [("price", .int 2)]]) (.list [.map [("price", .int 2)]])
    [.item [] [], .entry [] "price" []]
  refine ⟨maps.mpr fun name => ?_, replaced (by decide) priced, doubles priced⟩
  by_cases asked : name = "price"
  · simpa [Entries.find?, asked] using matching
  · simp [Entries.find?, asked]

/-- Two is equal to the double of two, but a list of it is not equal to a list of that. -/
theorem listed_number_types_count :
    equals (.int 2) (.float 2) = true ∧ equals (.list [.int 2]) (.list [.float 2]) = false := by
  decide

end Letterpress.Value
