import Letterpress.Value.Operators
import Letterpress.Proofs.Value.Entries

/-!
Loops over a value, access to it by key, and its length. A loop has as many rounds as the
length says. Over a list or a text it binds what access by position finds, from the first
position on, and there is nothing at other positions. Over a map it binds the names in order,
with what access by name finds, whatever the names are. An integer can name the first 2^63
positions, and memory holds no list or text with more.
-/

namespace Letterpress.Value

def round? (value : Value) (paired : Bool) (position : Nat) : Option (List Value) :=
  (value.rounds? paired).bind fun rounds => rounds[position]?

/-- Lists and texts: what they hold stands at positions. -/
def Numbered : Value → Prop
  | .list _ | .str _ => True
  | _ => False

def elements : Value → List Value
  | .list items => items
  | .str text => text.toList.map fun letter => .str (String.singleton letter)
  | _ => []

section Positions

variable {container : Value}

theorem size_of_numbered (numbered : container.Numbered) :
    container.size? = some container.elements.length := by
  cases container with
  | list items => rfl
  | str text => rw [elements, List.length_map, String.length_toList, size?]
  | _ => cases numbered

theorem rounds_of_numbered (numbered : container.Numbered) (paired : Bool) :
    container.rounds? paired = some (container.elements.zipIdx.map fun (element, position) =>
      if paired then [.ofNat position, element] else [element]) := by
  cases container with
  | list items => rfl
  | str text =>
      rw [elements, List.zipIdx_map, List.map_map]
      rfl
  | _ => cases numbered

/-- A single variable takes what stands there, without its position. -/
theorem rounds_alone (numbered : container.Numbered) :
    container.rounds? false = some (container.elements.map fun element => [element]) := by
  rw [rounds_of_numbered numbered, Option.some.injEq]
  calc
    _ = (container.elements.zipIdx.map Prod.fst).map fun element => [element] := by
      rw [List.map_map]
      rfl
    _ = container.elements.map fun element => [element] := by rw [List.zipIdx_map_fst]

theorem round_of_numbered (numbered : container.Numbered) (paired : Bool) (position : Nat) :
    container.round? paired position = container.elements[position]?.map fun element =>
      if paired then [.ofNat position, element] else [element] := by
  rw [round?, rounds_of_numbered numbered, Option.bind_some, List.getElem?_map,
    List.getElem?_zipIdx, Option.map_map, Nat.zero_add]
  rfl

theorem member_of_position (numbered : container.Numbered) {number : Int64}
    (position : 0 ≤ number.toInt) :
    container.member (.int number) = container.elements[number.toInt.toNat]?.getD .null := by
  cases container with
  | list items => simp [member, index?, position, elements]
  | str text =>
      simp only [member, index?, position, if_true, elements, List.getElem?_map]
      cases text.toList[number.toInt.toNat]? <;> rfl
  | _ => cases numbered

theorem member_of_negative (numbered : container.Numbered) {number : Int64}
    (negative : number.toInt < 0) : container.member (.int number) = .null := by
  have nowhere : index? (.int number) = none := if_neg (Int.not_le.mpr negative)
  cases container with
  | list items => simp [member, nowhere, isLengthKey]
  | str text => simp [member, nowhere, isLengthKey]
  | _ => cases numbered

theorem position_of_int {number : Int64} (position : 0 ≤ number.toInt) :
    ofNat number.toInt.toNat = .int number := by
  rw [ofNat, ← Int64.ofInt_eq_ofNat, Int.toNat_of_nonneg position, Int64.ofInt_toInt]

theorem round_is_member (numbered : container.Numbered) {number : Int64}
    (position : 0 ≤ number.toInt) (inside : number.toInt.toNat < container.elements.length)
    (paired : Bool) :
    container.round? paired number.toInt.toNat =
      some (if paired then [.int number, container.member (.int number)]
        else [container.member (.int number)]) := by
  rw [round_of_numbered numbered, member_of_position numbered position,
    List.getElem?_eq_getElem inside, position_of_int position]
  rfl

theorem member_behind (numbered : container.Numbered) {number : Int64}
    (behind : container.elements.length ≤ number.toInt) :
    container.member (.int number) = .null := by
  have position : 0 ≤ number.toInt := by omega
  rw [member_of_position numbered position, List.getElem?_eq_none (by omega)]
  rfl

end Positions

section Names

theorem rounds_of_map (entries : List (String × Value)) (paired : Bool) :
    (Value.map entries).rounds? paired = some (entries.map fun entry =>
      if paired then [.str entry.1, entry.2] else [.str entry.1]) := rfl

theorem member_of_found {entries : List (String × Value)} {key value : Value}
    (found : Entries.find? key.display entries = some value) :
    (Value.map entries).member key = value := by
  simp only [member, found]

theorem member_of_entry {entries : List (String × Value)} (sorted : Entries.Sorted entries)
    {entry : String × Value} (member : entry ∈ entries) :
    (Value.map entries).member (.str entry.1) = entry.2 :=
  member_of_found ((Entries.find_iff_mem sorted).mpr member)

end Names

theorem rounds_counted {container : Value} {size : Nat} (sized : container.size? = some size)
    (paired : Bool) : ∃ rounds, container.rounds? paired = some rounds ∧ rounds.length = size := by
  cases container with
  | list items =>
      cases sized
      exact ⟨_, rfl, by rw [List.length_map, List.length_zipIdx]⟩
  | str text =>
      cases sized
      exact ⟨_, rfl, by rw [List.length_map, List.length_zipIdx, String.length_toList]⟩
  | map entries =>
      cases sized
      exact ⟨_, rfl, List.length_map _⟩
  | _ => cases sized

theorem join_letters (letters : List Char) :
    String.join (letters.map String.singleton) = String.ofList letters := by
  induction letters with
  | nil => rfl
  | cons letter rest later => rw [List.map_cons, String.join_cons, later, String.ofList_cons]

/-- Loops, access by key and length agree. Each integer is taken as a key of a list or text: it
finds what the round at its position binds, or nothing where there is no such position. The
rounds of a map have its names in strictly increasing order, whatever pairs it was made of;
entries in order are made of themselves. -/
theorem loops_agree_with_access {container : Value} {size : Nat}
    (sized : container.size? = some size) :
    (∀ paired, ∃ rounds, container.rounds? paired = some rounds ∧ rounds.length = size) ∧
    (container.Numbered → ∀ number : Int64,
      (0 ≤ number.toInt ∧ number.toInt < size →
        container.round? true number.toInt.toNat =
            some [.int number, container.member (.int number)] ∧
          container.round? false number.toInt.toNat = some [container.member (.int number)]) ∧
      (number.toInt < 0 ∨ size ≤ number.toInt → container.member (.int number) = .null)) ∧
    (∀ items, container = .list items →
      container.rounds? false = some (items.map fun item => [item])) ∧
    (∀ text, container = .str text → ∃ letters : List Char,
      container.rounds? false = some (letters.map fun letter => [.str (String.singleton letter)]) ∧
        String.join (letters.map String.singleton) = text) ∧
    (∀ pairs, container = .ofPairs pairs → ∃ names : List String,
      names.Pairwise (· < ·) ∧ (∀ name, name ∈ names ↔ name ∈ pairs.map Prod.fst) ∧
        container.rounds? false = some (names.map fun name => [.str name]) ∧
        container.rounds? true =
          some (names.map fun name => [.str name, container.member (.str name)])) := by
  refine ⟨rounds_counted sized, ?_, ?_, ?_, ?_⟩
  · intro numbered number
    have counted : size = container.elements.length :=
      Option.some.inj (sized.symm.trans (size_of_numbered numbered))
    constructor
    · intro ⟨position, inside⟩
      have round := round_is_member numbered position (by omega)
      exact ⟨round true, round false⟩
    · rintro (negative | behind)
      · exact member_of_negative numbered negative
      · exact member_behind numbered (counted ▸ behind)
  · rintro items rfl
    have numbered : Numbered (.list items) := trivial
    exact rounds_alone numbered
  · rintro text rfl
    have numbered : Numbered (.str text) := trivial
    refine ⟨text.toList, ?_, ?_⟩
    · rw [rounds_alone numbered, elements, List.map_map]
      rfl
    · rw [join_letters, String.ofList_toList]
  · rintro pairs rfl
    obtain ⟨sorted, names⟩ := Entries.of_list_keys pairs
    refine ⟨(Entries.ofList pairs).map Prod.fst, List.pairwise_map.mpr sorted, names, ?_, ?_⟩
    · rw [ofPairs, rounds_of_map, List.map_map]
      rfl
    · rw [ofPairs, rounds_of_map, List.map_map]
      apply congrArg some
      apply List.map_congr_left
      intro entry member
      simp [member_of_entry sorted member]

/-- Letters of several bytes count once each, and the last of two pairs with one name is the
one that is kept, under the name `length` too. -/
theorem awkward_containers_looped :
    (Value.str "é𝄞").size? = some 2 ∧
      (Value.str "é𝄞").round? true 1 = some [.int 1, (Value.str "é𝄞").member (.int 1)] ∧
      (Value.str "é𝄞").member (.int 2) = .null ∧
      (ofPairs [("length", .int 7), ("", .null), ("length", .bool true)]).size? = some 2 ∧
      ∃ names : List String, names.Pairwise (· < ·) ∧
        (ofPairs [("length", .int 7), ("", .null), ("length", .bool true)]).rounds? false =
          some (names.map fun name => [.str name]) := by
  have letters : (Value.str "é𝄞").size? = some 2 := by decide
  have entries : (ofPairs [("length", .int 7), ("", .null), ("length", .bool true)]).size? =
      some 2 := by decide
  obtain ⟨-, positions, -⟩ := loops_agree_with_access letters
  obtain ⟨-, -, -, -, named⟩ := loops_agree_with_access entries
  obtain ⟨names, increasing, -, alone, -⟩ := named _ rfl
  have inside := (positions trivial 1).1 (by decide)
  have behind := (positions trivial 2).2 (by decide)
  exact ⟨letters, inside.1, behind, entries, names, increasing, alone⟩

end Letterpress.Value
