import Letterpress.Proofs.Json.Double
import Letterpress.Proofs.Program.Artifact

/-!
Programs read back as they were stored, whatever they push, but for their doubles. What
stands in memory as a program has targets that fit a word, maps in order and finite doubles;
its document must not nest deeper than reading goes. A double never comes back as an integer,
since its text has a point or an exponent, but it may come back as another double. That it
does not is said of each program apart, as is that the text of a time denotes it.
-/

namespace Letterpress

namespace Json

mutual

def nesting : Json → Nat
  | .array items => nestingOfItems items + 1
  | .object members => nestingOfMembers members + 1
  | _ => 0

def nestingOfItems : List Json → Nat
  | [] => 0
  | item :: rest => max item.nesting (nestingOfItems rest)

def nestingOfMembers : List (List Char × Json) → Nat
  | [] => 0
  | (_, value) :: rest => max value.nesting (nestingOfMembers rest)

end

theorem nesting_of_item {item : Json} {items : List Json} (member : item ∈ items) :
    item.nesting ≤ nestingOfItems items := by
  induction items with
  | nil => cases member
  | cons first rest later =>
      rw [nestingOfItems]
      rcases List.mem_cons.mp member with rfl | inside
      · exact Nat.le_max_left _ _
      · exact Nat.le_trans (later inside) (Nat.le_max_right _ _)

theorem nesting_of_case (name : String) (payload : Json) :
    (ofCase name payload).nesting = payload.nesting + 1 := by
  simp [ofCase, ofMembers, nesting, nestingOfMembers]

theorem word_of_word {number : Nat} (word : number < UInt64.size) :
    (ofNat number).word? = some number := by
  have magnitude : (Numeral.ofNat number).magnitude = number := Decimal.of_digits_digits_of number
  have whole : (Numeral.ofNat number).isWhole = true := rfl
  have positive : (Numeral.ofNat number).negative = false := rfl
  simp [ofNat, word?, magnitude, whole, positive, word]

theorem texts_read (texts : List String) : (ofTexts texts).texts? = some texts := by
  have each : (texts.map ofText).mapM text? = some (texts.map id) :=
    map_m_each fun text _ => text_of_text text
  simpa [ofTexts, texts?, items?] using each

end Json

theorem Numeral.decimal_not_whole (decimal : Decimal) :
    (Numeral.ofDecimal decimal).isWhole = false := by
  unfold ofDecimal isWhole
  dsimp only
  split
  · rfl
  · split
    · simp
    · split
      · have someDigit := Decimal.digits_not_empty decimal.digits
        simp [someDigit]
      · split <;> simp_all

namespace Value

mutual

def parts : Value → List Value
  | .list items => .list items :: partsOfItems items
  | .map entries => .map entries :: partsOfEntries entries
  | single => [single]

def partsOfItems : List Value → List Value
  | [] => []
  | item :: rest => item.parts ++ partsOfItems rest

def partsOfEntries : List (String × Value) → List Value
  | [] => []
  | (_, value) :: rest => value.parts ++ partsOfEntries rest

end

theorem mem_parts_of_items {items : List Value} {part : Value} :
    part ∈ partsOfItems items ↔ ∃ item ∈ items, part ∈ item.parts := by
  induction items with
  | nil => simp [partsOfItems]
  | cons item rest later => simp [partsOfItems, later]

theorem mem_parts_of_entries {entries : List (String × Value)} {part : Value} :
    part ∈ partsOfEntries entries ↔ ∃ entry ∈ entries, part ∈ entry.2.parts := by
  induction entries with
  | nil => simp [partsOfEntries]
  | cons entry rest later => simp [partsOfEntries, later]

/-- Maps are in order, and doubles are finite. -/
def Formed : Value → Prop
  | .float number => (Decimal.Dyadic.ofFloat? number).isSome = true
  | .map entries => Entries.Sorted entries
  | _ => True

instance : DecidablePred Formed
  | .float number => inferInstanceAs (Decidable ((Decimal.Dyadic.ofFloat? number).isSome = true))
  | .map entries =>
      inferInstanceAs (Decidable (entries.Pairwise fun earlier later => earlier.1 < later.1))
  | .null | .bool _ | .int _ | .str _ | .list _ => .isTrue trivial

/-- The text of a double is read as that double. -/
def Denoted : Value → Prop
  | .float number => ∀ decimal ∈ Decimal.ofFloat? .even number,
      (Numeral.ofDecimal decimal).toDouble? = some number
  | _ => True

instance : DecidablePred Denoted
  | .float number =>
      inferInstanceAs (Decidable (∀ decimal ∈ Decimal.ofFloat? .even number,
        (Numeral.ofDecimal decimal).toDouble? = some number))
  | .null | .bool _ | .int _ | .str _ | .list _ | .map _ => .isTrue trivial

/-- The double that the text of a finite double is read as. -/
def rereadFloat (number : Float) : Float :=
  ((Decimal.ofFloat? .even number).bind fun decimal =>
    (Numeral.ofDecimal decimal).toDouble?).getD number

mutual

/-- The value that the document of a value is read as. -/
def reread : Value → Value
  | .float number => .float (rereadFloat number)
  | .list items => .list (rereadItems items)
  | .map entries => .map (rereadEntries entries)
  | single => single

def rereadItems : List Value → List Value
  | [] => []
  | item :: rest => item.reread :: rereadItems rest

def rereadEntries : List (String × Value) → List (String × Value)
  | [] => []
  | (name, value) :: rest => (name, value.reread) :: rereadEntries rest

end

theorem float_reads {number : Float} (finite : Formed (.float number)) (room : Nat) :
    ofJson? room (Json.ofFloat number) = some (.float (rereadFloat number)) := by
  obtain ⟨decimal, again, written, read⟩ := Decimal.numeral_of_float_reads finite
  have not_whole := Numeral.decimal_not_whole decimal
  simp [Json.ofFloat, written, ofJson?, ofNumeral?, not_whole, rereadFloat, read]

theorem reread_of_denoted_float {number : Float} (denoted : Denoted (.float number)) :
    rereadFloat number = number := by
  unfold rereadFloat
  cases written : Decimal.ofFloat? .even number with
  | none => rfl
  | some decimal => rw [Option.bind_some, denoted decimal written, Option.getD_some]

theorem float_exact_of_denoted {number : Float} (finite : Formed (.float number))
    (denoted : Denoted (.float number)) : Json.FloatExact number := by
  have read := float_reads finite 0
  rwa [reread_of_denoted_float denoted] at read

/-- Keys stay in place, so that a map stays in order. -/
theorem keys_of_reread (entries : List (String × Value)) :
    (rereadEntries entries).map Prod.fst = entries.map Prod.fst := by
  induction entries with
  | nil => rfl
  | cons entry rest later =>
      obtain ⟨name, value⟩ := entry
      rw [rereadEntries, List.map_cons, List.map_cons, later]

theorem sorted_of_reread {entries : List (String × Value)} (sorted : Entries.Sorted entries) :
    Entries.Sorted (rereadEntries entries) := by
  have keys : (entries.map Prod.fst).Pairwise (· < ·) := List.pairwise_map.mpr sorted
  rw [← keys_of_reread] at keys
  exact List.pairwise_map.mp keys

mutual

/-- Documents of values are read, as far as they nest no deeper than there is room for. -/
theorem value_reads {value : Value} {room : Nat} (formed : ∀ part ∈ value.parts, part.Formed)
    (shallow : value.toJson.nesting ≤ room) : ofJson? room value.toJson = some value.reread := by
  cases value with
  | null => simp [toJson, ofJson?, reread]
  | bool flag => simp [toJson, ofJson?, reread]
  | int number => simp [toJson, ofJson?, of_int_numeral, reread]
  | float number =>
      rw [toJson, reread]
      exact float_reads (formed (.float number) (by simp [parts])) room
  | str text => simp [toJson, Json.ofText, ofJson?, Json.unescape_escape, reread]
  | list items =>
      rw [toJson, Json.nesting] at shallow
      obtain ⟨inner, rfl⟩ : ∃ inner, room = inner + 1 := ⟨room - 1, by omega⟩
      have read : (itemsToJson items).mapM (ofJson? inner) = some (rereadItems items) :=
        items_read (fun part member => formed part (by simp [parts, member])) (by omega)
      rw [toJson, ofJson?, read, reread]
      rfl
  | map entries =>
      rw [toJson, Json.nesting] at shallow
      obtain ⟨inner, rfl⟩ : ∃ inner, room = inner + 1 := ⟨room - 1, by omega⟩
      have sorted : Entries.Sorted entries := formed (.map entries) (by simp [parts])
      have fits : Json.nestingOfMembers (entriesToJson entries) ≤ inner := by omega
      have read := entries_read
        (fun part member => formed part (by simp [parts, member])) fits
      rw [toJson, ofJson?, read, Option.map_some, ofPairs,
        Entries.ofList_sorted (sorted_of_reread sorted), reread]

theorem items_read {items : List Value} {room : Nat}
    (formed : ∀ part ∈ partsOfItems items, part.Formed)
    (shallow : Json.nestingOfItems (itemsToJson items) ≤ room) :
    (itemsToJson items).mapM (ofJson? room) = some (rereadItems items) := by
  cases items with
  | nil => rfl
  | cons item rest =>
      rw [itemsToJson, Json.nestingOfItems] at shallow
      have first : ofJson? room item.toJson = some item.reread := value_reads
        (fun part member => formed part (by simp [partsOfItems, member])) (by omega)
      have others : (itemsToJson rest).mapM (ofJson? room) = some (rereadItems rest) :=
        items_read (fun part member => formed part (by simp [partsOfItems, member])) (by omega)
      rw [itemsToJson, List.mapM_cons, first, others]
      rfl

theorem entries_read {entries : List (String × Value)} {room : Nat}
    (formed : ∀ part ∈ partsOfEntries entries, part.Formed)
    (shallow : Json.nestingOfMembers (entriesToJson entries) ≤ room) :
    (entriesToJson entries).mapM (fun (member : List Char × Json) => do
      let name ← Json.unescape? member.1
      let value ← ofJson? room member.2
      return (String.ofList name, value)) = some (rereadEntries entries) := by
  cases entries with
  | nil => rfl
  | cons entry rest =>
      obtain ⟨name, value⟩ := entry
      rw [entriesToJson, Json.nestingOfMembers] at shallow
      have first : ofJson? room value.toJson = some value.reread := value_reads
        (fun part member => formed part (by simp [partsOfEntries, member])) (by omega)
      have fits : Json.nestingOfMembers (entriesToJson rest) ≤ room := by omega
      have others := entries_read
        (fun part member => formed part (by simp [partsOfEntries, member])) fits
      simp only [entriesToJson, List.mapM_cons, others, first, Json.unescape_escape]
      simp [rereadEntries]

end

mutual

theorem reread_of_denoted {value : Value} (denoted : ∀ part ∈ value.parts, part.Denoted) :
    value.reread = value := by
  cases value with
  | float number =>
      rw [reread, reread_of_denoted_float (denoted (.float number) (by simp [parts]))]
  | list items =>
      rw [reread, reread_items fun part member => denoted part (by simp [parts, member])]
  | map entries =>
      rw [reread, reread_entries fun part member => denoted part (by simp [parts, member])]
  | null => rfl
  | bool flag => rfl
  | int number => rfl
  | str text => rfl

theorem reread_items {items : List Value} (denoted : ∀ part ∈ partsOfItems items, part.Denoted) :
    rereadItems items = items := by
  cases items with
  | nil => rfl
  | cons item rest =>
      rw [rereadItems,
        reread_of_denoted fun part member => denoted part (by simp [partsOfItems, member]),
        reread_items fun part member => denoted part (by simp [partsOfItems, member])]

theorem reread_entries {entries : List (String × Value)}
    (denoted : ∀ part ∈ partsOfEntries entries, part.Denoted) :
    rereadEntries entries = entries := by
  cases entries with
  | nil => rfl
  | cons entry rest =>
      obtain ⟨name, value⟩ := entry
      rw [rereadEntries,
        reread_of_denoted fun part member => denoted part (by simp [partsOfEntries, member]),
        reread_entries fun part member => denoted part (by simp [partsOfEntries, member])]

end

end Value

namespace Op

def target? : Op → Option Nat
  | .jumpIfFalsy target | .jumpIfTruthy target => some target
  | _ => none

def pushedParts : Op → List Value
  | .push value => value.parts
  | _ => []

structure Formed (op : Op) : Prop where
  target : ∀ target ∈ op.target?, target < UInt64.size
  pushed : ∀ part ∈ op.pushedParts, part.Formed

instance : DecidablePred Formed := fun op =>
  decidable_of_iff
    ((∀ target ∈ op.target?, target < UInt64.size) ∧ ∀ part ∈ op.pushedParts, part.Formed)
    ⟨fun ⟨target, pushed⟩ => ⟨target, pushed⟩, fun ⟨target, pushed⟩ => ⟨target, pushed⟩⟩

def Denoted (op : Op) : Prop := ∀ part ∈ op.pushedParts, part.Denoted

instance : DecidablePred Denoted := fun op =>
  inferInstanceAs (Decidable (∀ part ∈ op.pushedParts, part.Denoted))

def reread : Op → Op
  | .push value => .push value.reread
  | op => op

theorem op_reads {op : Op} {room : Nat} (formed : op.Formed)
    (shallow : op.toJson.nesting ≤ room + 1) : Op.ofJson? room op.toJson = some op.reread := by
  cases op with
  | push value =>
      rw [Op.toJson, Json.nesting_of_case] at shallow
      have read := Value.value_reads formed.pushed (Nat.le_of_succ_le_succ shallow)
      simp [Op.toJson, Op.ofJson?, Json.case_of_case, read, reread]
  | load name => simp [Op.toJson, Op.ofJson?, Json.case_of_case, Json.text_of_text, reread]
  | member => simp [Op.toJson, Op.ofJson?, Json.case_of_text, Json.carriesNothing, reread]
  | neg => simp [Op.toJson, Op.ofJson?, Json.case_of_text, Json.carriesNothing, reread]
  | not => simp [Op.toJson, Op.ofJson?, Json.case_of_text, Json.carriesNothing, reread]
  | binary operator => simp [Op.toJson, Op.ofJson?, Json.case_of_case, operator_of_name, reread]
  | jumpIfFalsy target =>
      have read := Json.word_of_word (formed.target target rfl)
      simp [Op.toJson, Op.ofJson?, Json.case_of_case, read, reread]
  | jumpIfTruthy target =>
      have read := Json.word_of_word (formed.target target rfl)
      simp [Op.toJson, Op.ofJson?, Json.case_of_case, read, reread]

theorem reread_eq {op : Op} (exact_values : ∀ value, op = .push value → value.reread = value) :
    op.reread = op := by
  cases op with
  | push value => rw [reread, exact_values value rfl]
  | _ => rfl

end Op

def Code.reread (code : Code) : Code := code.map Op.reread

/-- The array of the operations stands at a depth that counts from the whole document. -/
theorem code_reads {code : Code} {depth : Nat} (formed : ∀ op ∈ code, op.Formed)
    (shallow : depth + code.toJson.nesting ≤ Value.nestingLimit + 1) :
    Code.ofJson? depth code.toJson = some code.reread := by
  have each : (code.map Op.toJson).mapM (Op.ofJson? (Value.nestingLimit - (depth + 1))) =
      some (code.map Op.reread) := by
    apply map_m_each
    intro op member
    have inside : op.toJson.nesting ≤ Json.nestingOfItems (code.map Op.toJson) :=
      Json.nesting_of_item (List.mem_map_of_mem member)
    rw [Code.toJson, Json.nesting] at shallow
    exact Op.op_reads (formed op member) (by omega)
  simp [Code.ofJson?, Code.toJson, Json.items?, each, Code.reread]

theorem Code.reread_eq {code : Code}
    (exact_values : ∀ value, Op.push value ∈ code → value.reread = value) :
    code.reread = code :=
  (List.map_congr_left fun op member =>
    op.reread_eq fun value push => exact_values value (push ▸ member)).trans (List.map_id code)

namespace Instruction

def target? : Instruction → Option Nat
  | .jumpIfFalse _ target | .jump target | .iterate target => some target
  | _ => none

structure Formed (instruction : Instruction) : Prop where
  target : ∀ target ∈ instruction.target?, target < UInt64.size
  code : ∀ code ∈ instruction.code?, ∀ op ∈ code, op.Formed

instance : DecidablePred Formed := fun instruction =>
  decidable_of_iff
    ((∀ target ∈ instruction.target?, target < UInt64.size) ∧
      ∀ code ∈ instruction.code?, ∀ op ∈ code, op.Formed)
    ⟨fun ⟨target, code⟩ => ⟨target, code⟩, fun ⟨target, code⟩ => ⟨target, code⟩⟩

def Denoted (instruction : Instruction) : Prop :=
  ∀ code ∈ instruction.code?, ∀ op ∈ code, op.Denoted

instance : DecidablePred Denoted := fun instruction =>
  inferInstanceAs (Decidable (∀ code ∈ instruction.code?, ∀ op ∈ code, op.Denoted))

def reread : Instruction → Instruction
  | .emit code => .emit code.reread
  | .jumpIfFalse test target => .jumpIfFalse test.reread target
  | .loopStart names iterable => .loopStart names iterable.reread
  | instruction => instruction

/-- Instructions are objects at the third level of a program's document. -/
theorem instruction_reads {instruction : Instruction} (formed : instruction.Formed)
    (shallow : 3 + instruction.toJson.nesting ≤ Value.nestingLimit + 1) :
    Instruction.ofJson? instruction.toJson = some instruction.reread := by
  cases instruction with
  | text content =>
      simp [Instruction.toJson, Instruction.ofJson?, Json.case_of_case, Json.text_of_text, reread]
  | emit code =>
      rw [Instruction.toJson, Json.nesting_of_case] at shallow
      have read : Code.ofJson? 4 code.toJson = some code.reread :=
        code_reads (formed.code code rfl) (by omega)
      simp [Instruction.toJson, Instruction.ofJson?, Json.case_of_case, read, reread]
  | jumpIfFalse test target =>
      rw [Instruction.toJson, Json.nesting_of_case, Json.nesting, Json.nestingOfItems] at shallow
      have read : Code.ofJson? 5 test.toJson = some test.reread :=
        code_reads (formed.code test rfl) (by omega)
      have word := Json.word_of_word (formed.target target rfl)
      simp [Instruction.toJson, Instruction.ofJson?, Json.case_of_case, read, word, reread]
  | jump target =>
      have word := Json.word_of_word (formed.target target rfl)
      simp [Instruction.toJson, Instruction.ofJson?, Json.case_of_case, word, reread]
  | loopStart names iterable =>
      simp only [Instruction.toJson, Json.nesting_of_case, Json.ofMembers, List.map_cons,
        List.map_nil, Json.nesting, Json.nestingOfMembers] at shallow
      have read : Code.ofJson? 5 iterable.toJson = some iterable.reread :=
        code_reads (formed.code iterable rfl) (by omega)
      have record := Json.record_of_members
        (show ([("vars", .ofTexts names), ("iterable", iterable.toJson)].map
          (Prod.fst : String × Json → String)).Nodup by simp)
      simp only [List.map_cons, List.map_nil] at record
      simp [Instruction.toJson, Instruction.ofJson?, Json.case_of_case, record, read,
        Json.texts_read, reread]
  | iterate target =>
      have word := Json.word_of_word (formed.target target rfl)
      simp [Instruction.toJson, Instruction.ofJson?, Json.case_of_case, word, reread]

theorem reread_eq {instruction : Instruction}
    (exact_values : ∀ value, instruction.Pushes value → value.reread = value) :
    instruction.reread = instruction := by
  cases instruction with
  | emit code =>
      rw [reread, Code.reread_eq fun value push => exact_values value ⟨code, rfl, push⟩]
  | jumpIfFalse test target =>
      rw [reread, Code.reread_eq fun value push => exact_values value ⟨test, rfl, push⟩]
  | loopStart names iterable =>
      rw [reread, Code.reread_eq fun value push => exact_values value ⟨iterable, rfl, push⟩]
  | _ => rfl

end Instruction

namespace Program

def Formed (program : Program) : Prop :=
  ∀ instruction ∈ program.instructions, instruction.Formed

instance : DecidablePred Formed := fun program =>
  inferInstanceAs (Decidable (∀ instruction ∈ program.instructions, instruction.Formed))

def Denoted (program : Program) : Prop :=
  ∀ instruction ∈ program.instructions, instruction.Denoted

instance : DecidablePred Denoted := fun program =>
  inferInstanceAs (Decidable (∀ instruction ∈ program.instructions, instruction.Denoted))

/-- The program that the document of a program is read as: only its doubles may be others. -/
def reread (program : Program) : Program :=
  { program with instructions := program.instructions.map Instruction.reread }

theorem program_reads {program : Program} (formed : program.Formed)
    (time : Instant.read? program.compiledAt.toText = some program.compiledAt)
    (shallow : program.toJson.nesting ≤ Value.nestingLimit) :
    ofJson? program.toJson = some program.reread := by
  have each : (program.instructions.map Instruction.toJson).mapM Instruction.ofJson? =
      some (program.instructions.map Instruction.reread) := by
    apply map_m_each
    intro instruction member
    have inside : instruction.toJson.nesting ≤
        Json.nestingOfItems (program.instructions.map Instruction.toJson) :=
      Json.nesting_of_item (List.mem_map_of_mem member)
    simp only [toJson, Json.ofMembers, List.map_cons, List.map_nil, Json.nesting,
      Json.nestingOfMembers] at shallow
    exact Instruction.instruction_reads (formed instruction member) (by omega)
  have record := Json.record_of_members
    (show ([("name", .ofText program.name), ("sources", .ofTexts program.sources),
      ("compiled_at", .ofText program.compiledAt.toText),
      ("instrs", .array (program.instructions.map Instruction.toJson))].map
        (Prod.fst : String × Json → String)).Nodup by simp)
  simp only [List.map_cons, List.map_nil] at record
  simp [toJson, ofJson?, record, Json.text_of_text, Json.texts_read, Json.items?, time, each,
    reread]

/-- Decoding what was encoded gives the program back, but for its doubles. -/
theorem stored_program_reads {program : Program} (formed : program.Formed)
    (time : Instant.read? program.compiledAt.toText = some program.compiledAt)
    (shallow : program.toJson.nesting ≤ Value.nestingLimit) :
    decode? program.encode = some program.reread ∧
      decodeBytes? program.encode.toUTF8 = some program.reread := by
  have read := program_reads formed time shallow
  have compact : Json.read? program.encode = some program.toJson :=
    Json.read_compact (plain_to_json program)
  rw [decode?, decodeBytes?, Json.readBytes?_toUTF8, compact]
  exact ⟨read, read⟩

theorem reread_eq {program : Program}
    (exact_values : ∀ value, program.Pushes value → value.reread = value) :
    program.reread = program := by
  have same : program.instructions.map Instruction.reread = program.instructions :=
    (List.map_congr_left fun instruction member =>
      instruction.reread_eq fun value push => exact_values value ⟨instruction, member, push⟩).trans
        (List.map_id _)
  rw [reread, same]

theorem reread_of_denoted {program : Program} (denoted : program.Denoted) :
    program.reread = program := by
  apply reread_eq
  rintro value ⟨instruction, member, code, coded, push⟩
  exact Value.reread_of_denoted (denoted instruction member code coded (.push value) push)

/-- Decoding undoes encoding, on texts and on bytes. -/
theorem stored_program_reads_back {program : Program} (formed : program.Formed)
    (denoted : program.Denoted)
    (time : Instant.read? program.compiledAt.toText = some program.compiledAt)
    (shallow : program.toJson.nesting ≤ 127) :
    decode? program.encode = some program ∧
      decodeBytes? program.encode.toUTF8 = some program := by
  have read := stored_program_reads formed time shallow
  rwa [reread_of_denoted denoted] at read

def scrapbook : Program where
  name := "scrap\"book\\.html"
  sources := ["scrap\"book\\.html", "", "\n\x00 é \u2028 𝄞"]
  compiledAt := ⟨-1, 120000000⟩
  instructions := [
    .text "",
    .emit [.load "", .push .null, .member, .neg, .not, .push (.int 2), .push (.float 2.0),
      .binary .eq, .push (.bool false), .jumpIfFalsy 18446744073709551615],
    .jumpIfFalse [.push (.int Int64.minValue), .push (.int Int64.maxValue), .jumpIfTruthy 0]
      18446744073709551615,
    .jump 3,
    .loopStart ["key", "\t\x1f/"]
      [.push (.list [.list [], .map [], .str "", .float (-0.0), .float 0.1, .float 1e300,
        .map [("", .null), ("\"", .list [.int 0, .bool true]), ("é", .str "\\u0041\r")]])],
    .iterate 0]

theorem scrapbook_reads_back :
    decode? scrapbook.encode = some scrapbook ∧
      decodeBytes? scrapbook.encode.toUTF8 = some scrapbook :=
  stored_program_reads_back (by decide +kernel) (by decide +kernel) (by decide +kernel)
    (by decide +kernel)

end Program

end Letterpress
