/-!
Entries of a map: a list of named values in increasing order of names, by code
points, each name once. `insert` keeps the order and replaces a value already there.
-/

namespace Letterpress.Entries

variable {Item : Type}

def insert (name : String) (item : Item) : List (String × Item) → List (String × Item)
  | [] => [(name, item)]
  | (other, held) :: rest =>
      if name = other then (name, item) :: rest
      else if name < other then (name, item) :: (other, held) :: rest
      else (other, held) :: insert name item rest

def find? (name : String) : List (String × Item) → Option Item
  | [] => none
  | (other, held) :: rest => if name = other then some held else find? name rest

/-- Of several pairs with one name the last counts. -/
def ofList (pairs : List (String × Item)) : List (String × Item) :=
  pairs.foldl (fun entries pair => insert pair.1 pair.2 entries) []

def Sorted (entries : List (String × Item)) : Prop :=
  entries.Pairwise fun earlier later => earlier.1 < later.1

theorem find?_insert_self (name : String) (item : Item) (entries : List (String × Item)) :
    find? name (insert name item entries) = some item := by
  induction entries with
  | nil => simp [insert, find?]
  | cons entry rest ih =>
      obtain ⟨other, held⟩ := entry
      by_cases same : name = other
      · simp [insert, find?, same]
      · by_cases earlier : name < other
        · simp [insert, find?, same, earlier]
        · simp [insert, find?, same, earlier, ih]

theorem find?_insert_of_ne {name wanted : String} (item : Item)
    (entries : List (String × Item)) (different : wanted ≠ name) :
    find? wanted (insert name item entries) = find? wanted entries := by
  induction entries with
  | nil => simp [insert, find?, different]
  | cons entry rest ih =>
      obtain ⟨other, held⟩ := entry
      by_cases same : name = other
      · subst same
        simp [insert, find?, different]
      · by_cases earlier : name < other
        · simp [insert, find?, same, earlier, different]
        · simp [insert, find?, same, earlier, ih]

theorem insert_greatest {name : String} {item : Item} {entries : List (String × Item)}
    (greatest : ∀ entry ∈ entries, entry.1 < name) :
    insert name item entries = entries ++ [(name, item)] := by
  induction entries with
  | nil => rfl
  | cons entry rest later =>
      obtain ⟨other, held⟩ := entry
      have above : other < name := greatest (other, held) (by simp)
      have different : name ≠ other := by
        rintro rfl
        exact String.lt_irrefl name above
      have not_below : ¬name < other := String.lt_asymm above
      rw [insert, if_neg different, if_neg not_below,
        later fun entry member => greatest entry (by simp [member])]
      rfl

theorem ofList_sorted {entries : List (String × Item)} (sorted : Sorted entries) :
    ofList entries = entries := by
  have all : ∀ front back : List (String × Item), Sorted (front ++ back) →
      back.foldl (fun entries pair => insert pair.1 pair.2 entries) front = front ++ back := by
    intro front back
    induction back generalizing front with
    | nil => simp
    | cons pair rest later =>
        intro ordered
        have greatest : ∀ entry ∈ front, entry.1 < pair.1 := by
          intro entry member
          exact (List.pairwise_append.mp ordered).2.2 entry member pair (by simp)
        rw [List.foldl_cons, insert_greatest greatest]
        have joined : front ++ pair :: rest = (front ++ [pair]) ++ rest := by simp
        rw [joined] at ordered ⊢
        exact later _ ordered
  exact all [] entries sorted

end Letterpress.Entries
