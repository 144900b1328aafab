import Letterpress.Value.Entries

/-!
Entries looked up by name. Entries in order hold each name once, so the item that is found
under a name is the one that stands there. Entries made of pairs are in order, have the names
of the pairs, and hold under each of them the item of the last pair that has it.
-/

namespace Letterpress.Entries

variable {Item : Type} {name wanted : String} {item : Item} {entries pairs : List (String × Item)}

section Insertion

theorem mem_of_mem_insert {found : String × Item} (member : found ∈ insert name item entries) :
    found = (name, item) ∨ found ∈ entries := by
  induction entries with
  | nil => simpa [insert] using member
  | cons first rest later =>
      obtain ⟨other, held⟩ := first
      simp only [insert] at member
      split at member
      · rcases List.mem_cons.mp member with same | inside
        · exact .inl same
        · exact .inr (List.mem_cons_of_mem _ inside)
      · split at member
        · rcases List.mem_cons.mp member with same | inside
          · exact .inl same
          · exact .inr inside
        · rcases List.mem_cons.mp member with same | inside
          · exact .inr (same ▸ List.mem_cons_self)
          · rcases later inside with same | found_later
            · exact .inl same
            · exact .inr (List.mem_cons_of_mem _ found_later)

theorem key_of_insert :
    wanted ∈ (insert name item entries).map Prod.fst ↔
      wanted = name ∨ wanted ∈ entries.map Prod.fst := by
  induction entries with
  | nil => simp [insert]
  | cons first rest later =>
      obtain ⟨other, held⟩ := first
      by_cases same : name = other
      · simp [insert, same]
      · by_cases earlier : name < other
        · simp [insert, same, earlier]
        · simp only [insert, same, earlier, if_false, List.map_cons, List.mem_cons, later]
          exact or_left_comm

theorem insert_sorted (sorted : Sorted entries) : Sorted (insert name item entries) := by
  induction entries with
  | nil => exact List.pairwise_singleton _ _
  | cons first rest later =>
      obtain ⟨other, held⟩ := first
      obtain ⟨above, rest_sorted⟩ := List.pairwise_cons.mp sorted
      by_cases same : name = other
      · subst same
        simp only [insert, if_true]
        exact List.pairwise_cons.mpr ⟨above, rest_sorted⟩
      · by_cases earlier : name < other
        · simp only [insert, same, earlier, if_false, if_true]
          refine List.pairwise_cons.mpr ⟨?_, sorted⟩
          intro entry member
          rcases List.mem_cons.mp member with rfl | inside
          · exact earlier
          · exact String.lt_trans earlier (above entry inside)
        · simp only [insert, same, earlier, if_false]
          refine List.pairwise_cons.mpr ⟨?_, later rest_sorted⟩
          intro entry member
          rcases key_of_insert.mp (List.mem_map_of_mem member) with here | inside
          · rw [here]
            apply Decidable.byContradiction
            intro not_above
            exact same (String.le_antisymm (String.not_lt.mp not_above) (String.not_lt.mp earlier))
          · obtain ⟨found, found_inside, key⟩ := List.mem_map.mp inside
            exact key ▸ above found found_inside

end Insertion

section Lookup

theorem find_head (entry : String × Item) (rest : List (String × Item)) :
    find? entry.1 (entry :: rest) = some entry.2 := if_pos rfl

theorem find_tail {entry : String × Item} (different : name ≠ entry.1)
    (rest : List (String × Item)) : find? name (entry :: rest) = find? name rest :=
  if_neg different

theorem find_below (least : ∀ entry ∈ entries, name < entry.1) : find? name entries = none := by
  induction entries with
  | nil => rfl
  | cons entry rest later =>
      have different : name ≠ entry.1 := by
        rintro same
        exact String.lt_irrefl entry.1 (same ▸ least entry (by simp))
      rw [find?, if_neg different]
      exact later fun other member => least other (by simp [member])

theorem find_iff_mem (sorted : Sorted entries) :
    find? name entries = some item ↔ (name, item) ∈ entries := by
  induction entries with
  | nil => simp [find?]
  | cons entry rest later =>
      obtain ⟨least, rest_sorted⟩ := List.pairwise_cons.mp sorted
      by_cases here : name = entry.1
      · subst here
        rw [find_head, List.mem_cons]
        constructor
        · intro same
          exact .inl (by rw [← Option.some.inj same])
        · rintro (same | further)
          · rw [← same]
          · exact absurd (least _ further) (String.lt_irrefl entry.1)
      · rw [find_tail here, later rest_sorted, List.mem_cons]
        constructor
        · exact .inr
        · rintro (same | further)
          · exact absurd (congrArg Prod.fst same) here
          · exact further

end Lookup

section Last

variable {Element : Type} {holds : Element → Prop} {first last : Element} {rest : List Element}

def LastOf (holds : Element → Prop) (all : List Element) (last : Element) : Prop :=
  ∃ before after, all = before ++ last :: after ∧ holds last ∧ ∀ later ∈ after, ¬holds later

theorem last_of_cons :
    LastOf holds (first :: rest) last ↔
      LastOf holds rest last ∨ first = last ∧ holds first ∧ ∀ later ∈ rest, ¬holds later := by
  constructor
  · intro ⟨before, after, layout, here, none_later⟩
    cases before with
    | nil =>
        cases layout
        exact .inr ⟨rfl, here, none_later⟩
    | cons _ before =>
        cases layout
        exact .inl ⟨before, after, rfl, here, none_later⟩
  · rintro (⟨before, after, rfl, here, none_later⟩ | ⟨rfl, here, none_later⟩)
    · exact ⟨first :: before, after, rfl, here, none_later⟩
    · exact ⟨[], rest, rfl, here, none_later⟩

end Last

section Pairs

theorem mem_of_mem_of_list {found : String × Item} (member : found ∈ ofList pairs) :
    found ∈ pairs := by
  have all : ∀ (pairs entries : List (String × Item)),
      found ∈ pairs.foldl (fun entries pair => insert pair.1 pair.2 entries) entries →
        found ∈ entries ∨ found ∈ pairs := by
    intro pairs
    induction pairs with
    | nil => exact fun entries inside => .inl inside
    | cons pair rest later =>
        intro entries inside
        rcases later _ inside with before | after
        · rcases mem_of_mem_insert before with same | held
          · exact .inr (same ▸ List.mem_cons_self)
          · exact .inl held
        · exact .inr (List.mem_cons_of_mem _ after)
  rcases all pairs [] member with impossible | found
  · cases impossible
  · exact found

theorem of_list_keys (pairs : List (String × Item)) :
    Sorted (ofList pairs) ∧
      ∀ wanted, wanted ∈ (ofList pairs).map Prod.fst ↔ wanted ∈ pairs.map Prod.fst := by
  have all : ∀ (pairs entries : List (String × Item)), Sorted entries →
      Sorted (pairs.foldl (fun entries pair => insert pair.1 pair.2 entries) entries) ∧
        ∀ wanted, wanted ∈ (pairs.foldl
            (fun entries pair => insert pair.1 pair.2 entries) entries).map Prod.fst ↔
          wanted ∈ entries.map Prod.fst ∨ wanted ∈ pairs.map Prod.fst := by
    intro pairs
    induction pairs with
    | nil => exact fun entries sorted => ⟨sorted, fun wanted => by simp⟩
    | cons pair rest later =>
        intro entries sorted
        obtain ⟨rest_sorted, keys⟩ := later _ (insert_sorted sorted)
        refine ⟨rest_sorted, fun wanted => ?_⟩
        rw [List.foldl_cons, keys, key_of_insert, List.map_cons, List.mem_cons, or_assoc,
          or_left_comm]
  obtain ⟨sorted, keys⟩ := all pairs [] List.Pairwise.nil
  exact ⟨sorted, fun wanted => (keys wanted).trans (by simp)⟩

/-- Entries made of pairs hold the last pair of each name, and no other. -/
theorem find_of_list :
    find? name (ofList pairs) = some item ↔
      LastOf (fun pair => pair.1 = name) pairs (name, item) := by
  -- what stands in the entries already counts under the names that no pair has
  have all : ∀ (pairs entries : List (String × Item)),
      find? name (pairs.foldl (fun entries pair => insert pair.1 pair.2 entries) entries) =
          some item ↔
        LastOf (fun pair => pair.1 = name) pairs (name, item) ∨
          (∀ pair ∈ pairs, pair.1 ≠ name) ∧ find? name entries = some item := by
    intro pairs
    induction pairs with
    | nil => simp [LastOf]
    | cons pair rest later =>
        intro entries
        obtain ⟨other, held⟩ := pair
        rw [List.foldl_cons, later, last_of_cons, List.forall_mem_cons]
        by_cases here : name = other
        · subst here
          rw [find?_insert_self]
          simp [and_comm]
        · rw [find?_insert_of_ne held entries here]
          simp [Ne.symm here]
  refine (all pairs []).trans ?_
  simp [find?]

end Pairs

end Letterpress.Entries
