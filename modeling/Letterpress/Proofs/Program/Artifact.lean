import Letterpress.Program.Artifact
import Letterpress.Proofs.Json.RoundTrip
import Letterpress.Proofs.Program.Generation

/-!
What a stored program can be read as. Reading may refuse what was written, where a
target does not fit a word or the document nests too deep; but what it reads is the
program that was written, as long as this holds of the values that the program pushes.
-/

namespace Letterpress

/-- Reading the document of a value gives no other value. -/
def Value.ReadsBack (value : Value) : Prop :=
  ∀ {room : Nat} {other : Value}, Value.ofJson? room value.toJson = some other → other = value

/-- The text of a double denotes it. -/
def Json.FloatExact (number : Float) : Prop :=
  Value.ofJson? 0 (Json.ofFloat number) = some (.float number)

namespace Value

theorem of_float_any_room (number : Float) (room : Nat) :
    ofJson? room (Json.ofFloat number) = ofJson? 0 (Json.ofFloat number) := by
  unfold Json.ofFloat
  split <;> simp [ofJson?]

theorem fits_word (number : Int64) : fitsInt number.toInt = true := by
  simp only [fitsInt, Bool.and_eq_true, decide_eq_true_eq]
  exact ⟨number.le_toInt, number.toInt_lt⟩

theorem of_int_numeral (number : Int64) :
    ofNumeral? (.ofInt number.toInt) = some (.int number) := by
  have magnitude : (Numeral.ofInt number.toInt).magnitude = number.toInt.natAbs :=
    Decimal.of_digits_digits_of _
  have signed : (if (Numeral.ofInt number.toInt).negative = true then
      -((Numeral.ofInt number.toInt).magnitude : Int)
        else (Numeral.ofInt number.toInt).magnitude) = number.toInt := by
    rw [magnitude]
    simp only [Numeral.ofInt, decide_eq_true_eq]
    split <;> omega
  have whole : (Numeral.ofInt number.toInt).isWhole = true := rfl
  have no_negative_zero :
      ((Numeral.ofInt number.toInt).negative && number.toInt == 0) = false := by
    by_cases negative : number.toInt < 0 <;> simp [Numeral.ofInt, negative]
    omega
  unfold ofNumeral?
  simp only [signed, whole, fits_word, no_negative_zero]
  simp

theorem literal_reads_back {value : Value} (literal : value.IsLiteral)
    (exact_floats : ∀ number, value = .float number →
      (Decimal.Dyadic.ofFloat? number).isSome = true → Json.FloatExact number) :
    value.ReadsBack := by
  intro room other read
  cases value with
  | null =>
      simp [toJson, ofJson?] at read
      exact read.symm
  | bool flag =>
      simp [toJson, ofJson?] at read
      exact read.symm
  | int number =>
      simp [toJson, ofJson?, of_int_numeral] at read
      exact read.symm
  | float number =>
      have exact_number : ofJson? 0 (Json.ofFloat number) = some (.float number) :=
        exact_floats number rfl literal
      rw [toJson, of_float_any_room, exact_number] at read
      cases read
      rfl
  | str text =>
      simp [toJson, Json.ofText, ofJson?, Json.unescape_escape] at read
      exact read.symm
  | list items => cases literal
  | map entries => cases literal

mutual

theorem plain_to_json (value : Value) : value.toJson.Plain := by
  cases value with
  | null => trivial
  | bool flag => trivial
  | int number => exact Numeral.plain_of_int _
  | float number =>
      simp only [toJson, Json.ofFloat]
      split
      · exact Numeral.plain_of_decimal _
      · trivial
  | str text => exact ⟨text.toList, rfl⟩
  | list items => exact plain_items items
  | map entries => exact plain_entries entries

theorem plain_items (items : List Value) : Json.PlainItems (itemsToJson items) := by
  cases items with
  | nil => trivial
  | cons item rest => exact ⟨plain_to_json item, plain_items rest⟩

theorem plain_entries (entries : List (String × Value)) :
    Json.PlainMembers (entriesToJson entries) := by
  cases entries with
  | nil => trivial
  | cons entry rest =>
      obtain ⟨name, value⟩ := entry
      exact ⟨⟨name.toList, rfl⟩, plain_to_json value, plain_entries rest⟩

end

end Value

theorem map_m_map {Item Other : Type} {write : Item → Other} {read : Other → Option Item}
    {items others : List Item} (written : (items.map write).mapM read = some others)
    (sound : ∀ item ∈ items, ∀ other, read (write item) = some other → other = item) :
    others = items := by
  induction items generalizing others with
  | nil =>
      cases written
      rfl
  | cons item rest same =>
      simp only [List.map_cons, List.mapM_cons, Option.bind_eq_bind, Option.bind_eq_some_iff,
        Option.pure_def, Option.some.injEq] at written
      obtain ⟨first, first_read, later, later_read, joined⟩ := written
      subst joined
      rw [sound item (by simp) first first_read]
      rw [same later_read fun item member => sound item (by simp [member])]

theorem map_m_each {Item Other Result : Type} {write : Item → Other}
    {read : Other → Option Result} {expected : Item → Result} {items : List Item}
    (reads : ∀ item ∈ items, read (write item) = some (expected item)) :
    (items.map write).mapM read = some (items.map expected) := by
  induction items with
  | nil => rfl
  | cons item rest later =>
      have first := reads item (by simp)
      have others := later fun other member => reads other (by simp [member])
      simp [List.mapM_cons, first, others]

namespace Json

theorem text_of_text (text : String) : (ofText text).text? = some text := by
  simp [ofText, text?, unescape_escape]

theorem case_of_text (name : String) : (ofText name).case? = some (name, none) := by
  simp [ofText, case?, unescape_escape]

theorem case_of_case (name : String) (payload : Json) :
    (ofCase name payload).case? = some (name, some payload) := by
  simp [ofCase, ofMembers, case?, unescape_escape]

theorem texts_of_texts {texts others : List String} (read : (ofTexts texts).texts? = some others) :
    others = texts := by
  simp only [ofTexts, texts?, items?, Option.bind_eq_bind, Option.bind_some] at read
  apply map_m_map read
  intro text _ other same
  rw [text_of_text] at same
  cases same
  rfl

theorem members_of_members (members : List (String × Json)) :
    (ofMembers members).members? = some members := by
  simp only [ofMembers, members?]
  induction members with
  | nil => rfl
  | cons member rest named =>
      simp only [List.map_cons, List.mapM_cons, named, unescape_escape]
      simp

theorem named_once {members : List (String × Json)} (distinct : (members.map Prod.fst).Nodup)
    {member : String × Json} (present : member ∈ members) :
    members.filter (fun other => other.1 == member.1) = [member] := by
  induction members with
  | nil => cases present
  | cons first rest once =>
      obtain ⟨fresh, distinct_rest⟩ := List.nodup_cons.mp distinct
      rcases List.mem_cons.mp present with same | later
      · subst same
        have no_other : rest.filter (fun other => other.1 == member.1) = [] := by
          apply List.filter_eq_nil_iff.mpr
          intro other found same
          exact fresh (List.mem_map.mpr ⟨other, found, by simpa using same⟩)
        simp [no_other]
      · have different : (first.1 == member.1) = false := by
          apply beq_false_of_ne
          intro same
          exact fresh (List.mem_map.mpr ⟨member, later, same.symm⟩)
        rw [List.filter_cons, different]
        exact once distinct_rest later

theorem record_of_members {members : List (String × Json)}
    (distinct : (members.map Prod.fst).Nodup) :
    (ofMembers members).record? (members.map Prod.fst) = some (members.map Prod.snd) := by
  have named := members_of_members members
  rw [ofMembers] at named ⊢
  simp only [record?, named, Option.bind_eq_bind, Option.bind_some]
  apply map_m_each
  intro member present
  rw [named_once distinct present]

theorem word_of_nat {number word : Nat} (read : (ofNat number).word? = some word) :
    word = number := by
  have magnitude : (Numeral.ofNat number).magnitude = number := Decimal.of_digits_digits_of number
  simp only [ofNat, word?, magnitude] at read
  split at read
  · cases read
    rfl
  · cases read

end Json

namespace Json

theorem plain_map {Item : Type} {write : Item → Json} {items : List Item}
    (plain : ∀ item ∈ items, (write item).Plain) : PlainItems (items.map write) := by
  induction items with
  | nil => trivial
  | cons item rest later =>
      exact ⟨plain item (by simp), later fun other member => plain other (by simp [member])⟩

theorem plain_texts (texts : List String) : (ofTexts texts).Plain :=
  plain_map fun text _ => ⟨text.toList, rfl⟩

theorem plain_nat (number : Nat) : (ofNat number).Plain := Numeral.plain_of_nat number

theorem plain_case (name : String) {payload : Json} (plain : payload.Plain) :
    (ofCase name payload).Plain := ⟨⟨name.toList, rfl⟩, plain, trivial⟩

end Json

theorem plain_op (op : Op) : op.toJson.Plain := by
  cases op with
  | push value => exact Json.plain_case _ (Value.plain_to_json value)
  | load name => exact Json.plain_case _ ⟨_, rfl⟩
  | member => exact ⟨_, rfl⟩
  | neg => exact ⟨_, rfl⟩
  | not => exact ⟨_, rfl⟩
  | binary operator => exact Json.plain_case _ ⟨_, rfl⟩
  | jumpIfFalsy target => exact Json.plain_case _ (Json.plain_nat target)
  | jumpIfTruthy target => exact Json.plain_case _ (Json.plain_nat target)

theorem plain_code (code : Code) : code.toJson.Plain := Json.plain_map fun op _ => plain_op op

theorem plain_instruction (instruction : Instruction) : instruction.toJson.Plain := by
  cases instruction with
  | text content => exact Json.plain_case _ ⟨_, rfl⟩
  | emit code => exact Json.plain_case _ (plain_code code)
  | jumpIfFalse test target =>
      exact Json.plain_case _ ⟨plain_code test, Json.plain_nat target, trivial⟩
  | jump target => exact Json.plain_case _ (Json.plain_nat target)
  | loopStart names iterable =>
      exact Json.plain_case _
        ⟨⟨_, rfl⟩, Json.plain_texts names, ⟨_, rfl⟩, plain_code iterable, trivial⟩
  | iterate target => exact Json.plain_case _ (Json.plain_nat target)

theorem operator_of_name (operator : BinaryOperator) :
    BinaryOperator.ofJson? (.ofText operator.name) = some operator := by
  simp only [BinaryOperator.ofJson?, Json.case_of_text, Option.bind_eq_bind, Option.bind_some,
    Json.carriesNothing, if_true]
  cases operator <;> rfl

theorem op_of_json {op other : Op} {room : Nat}
    (pushed : ∀ value, op = .push value → value.ReadsBack)
    (read : Op.ofJson? room op.toJson = some other) : other = op := by
  cases op with
  | push value =>
      simp only [Op.toJson, Op.ofJson?, Json.case_of_case, Option.bind_eq_bind,
        Option.bind_some, Option.map_eq_some_iff] at read
      obtain ⟨value_read, value_reads, rfl⟩ := read
      rw [pushed value rfl value_reads]
  | load name =>
      simp [Op.toJson, Op.ofJson?, Json.case_of_case, Json.text_of_text] at read
      exact read.symm
  | member =>
      simp [Op.toJson, Op.ofJson?, Json.case_of_text, Json.carriesNothing] at read
      exact read.symm
  | neg =>
      simp [Op.toJson, Op.ofJson?, Json.case_of_text, Json.carriesNothing] at read
      exact read.symm
  | not =>
      simp [Op.toJson, Op.ofJson?, Json.case_of_text, Json.carriesNothing] at read
      exact read.symm
  | binary operator =>
      simp [Op.toJson, Op.ofJson?, Json.case_of_case, operator_of_name] at read
      exact read.symm
  | jumpIfFalsy target =>
      simp only [Op.toJson, Op.ofJson?, Json.case_of_case, Option.bind_eq_bind,
        Option.bind_some, Option.map_eq_some_iff] at read
      obtain ⟨word, word_read, rfl⟩ := read
      rw [Json.word_of_nat word_read]
  | jumpIfTruthy target =>
      simp only [Op.toJson, Op.ofJson?, Json.case_of_case, Option.bind_eq_bind,
        Option.bind_some, Option.map_eq_some_iff] at read
      obtain ⟨word, word_read, rfl⟩ := read
      rw [Json.word_of_nat word_read]

theorem code_of_json {code other : Code} {depth : Nat}
    (pushed : ∀ value, Op.push value ∈ code → value.ReadsBack)
    (read : Code.ofJson? depth code.toJson = some other) : other = code := by
  apply map_m_map read
  intro op member other_op op_read
  exact op_of_json (fun value same => pushed value (same ▸ member)) op_read

theorem instruction_of_json {instruction other : Instruction}
    (pushed : ∀ value, instruction.Pushes value → value.ReadsBack)
    (read : Instruction.ofJson? instruction.toJson = some other) : other = instruction := by
  cases instruction with
  | text content =>
      simp [Instruction.toJson, Instruction.ofJson?, Json.case_of_case, Json.text_of_text] at read
      exact read.symm
  | emit code =>
      simp only [Instruction.toJson, Instruction.ofJson?, Json.case_of_case, Option.bind_eq_bind,
        Option.bind_some, Option.map_eq_some_iff] at read
      obtain ⟨code_read, code_reads, rfl⟩ := read
      rw [code_of_json (fun value push => pushed value ⟨code, rfl, push⟩) code_reads]
  | jumpIfFalse test target =>
      simp only [Instruction.toJson, Instruction.ofJson?, Json.case_of_case, Option.bind_eq_bind,
        Option.bind_some, Option.bind_eq_some_iff, Option.pure_def, Option.some.injEq] at read
      obtain ⟨test_read, test_reads, word, word_read, rfl⟩ := read
      rw [code_of_json (fun value push => pushed value ⟨test, rfl, push⟩) test_reads,
        Json.word_of_nat word_read]
  | jump target =>
      simp only [Instruction.toJson, Instruction.ofJson?, Json.case_of_case, Option.bind_eq_bind,
        Option.bind_some, Option.map_eq_some_iff] at read
      obtain ⟨word, word_read, rfl⟩ := read
      rw [Json.word_of_nat word_read]
  | loopStart names iterable =>
      simp only [Instruction.toJson, Instruction.ofJson?, Json.case_of_case, Option.bind_eq_bind,
        Option.bind_some, Option.bind_eq_some_iff] at read
      obtain ⟨fields, fields_read, read⟩ := read
      have record := Json.record_of_members
        (show ([("vars", .ofTexts names), ("iterable", iterable.toJson)].map
          (Prod.fst : String × Json → String)).Nodup by simp)
      cases record.symm.trans fields_read
      simp only [List.map_cons, List.map_nil, Option.bind_eq_some_iff, Option.pure_def,
        Option.some.injEq] at read
      obtain ⟨names_read, names_reads, code_read, code_reads, rfl⟩ := read
      rw [Json.texts_of_texts names_reads,
        code_of_json (fun value push => pushed value ⟨iterable, rfl, push⟩) code_reads]
  | iterate target =>
      simp only [Instruction.toJson, Instruction.ofJson?, Json.case_of_case, Option.bind_eq_bind,
        Option.bind_some, Option.map_eq_some_iff] at read
      obtain ⟨word, word_read, rfl⟩ := read
      rw [Json.word_of_nat word_read]

namespace Program

variable {program other : Program}

theorem plain_to_json (program : Program) : program.toJson.Plain := by
  have instructions : Json.PlainItems (program.instructions.map Instruction.toJson) :=
    Json.plain_map fun instruction _ => plain_instruction instruction
  exact ⟨⟨_, rfl⟩, ⟨_, rfl⟩, ⟨_, rfl⟩, Json.plain_texts program.sources, ⟨_, rfl⟩, ⟨_, rfl⟩,
    ⟨_, rfl⟩, instructions, trivial⟩

theorem fields_of_json (read : ofJson? program.toJson = some other) :
    other.name = program.name ∧ other.sources = program.sources ∧
      Instant.read? program.compiledAt.toText = some other.compiledAt ∧
        (program.instructions.map Instruction.toJson).mapM Instruction.ofJson? =
          some other.instructions := by
  simp only [toJson, ofJson?, Option.bind_eq_bind, Option.bind_eq_some_iff] at read
  obtain ⟨fields, fields_read, read⟩ := read
  have record := Json.record_of_members
    (show ([("name", .ofText program.name), ("sources", .ofTexts program.sources),
      ("compiled_at", .ofText program.compiledAt.toText),
      ("instrs", .array (program.instructions.map Instruction.toJson))].map
        (Prod.fst : String × Json → String)).Nodup by simp)
  cases record.symm.trans fields_read
  simp only [List.map_cons, List.map_nil, Json.text_of_text, Json.items?, Option.bind_some,
    Option.bind_eq_some_iff, Option.pure_def, Option.some.injEq] at read
  obtain ⟨sources, sources_read, now, now_read, instructions, instructions_read, rfl⟩ := read
  exact ⟨rfl, Json.texts_of_texts sources_read, now_read, instructions_read⟩

theorem program_of_json (pushed : ∀ value, program.Pushes value → value.ReadsBack)
    (read : ofJson? program.toJson = some other) :
    other.name = program.name ∧ other.sources = program.sources ∧
      other.instructions = program.instructions := by
  obtain ⟨same_name, same_sources, _, instructions_read⟩ := fields_of_json read
  refine ⟨same_name, same_sources, ?_⟩
  apply map_m_map instructions_read
  intro instruction member other_instruction instruction_reads
  exact instruction_of_json (fun value push => pushed value ⟨instruction, member, push⟩)
    instruction_reads

theorem json_of_encode (read : decodeBytes? program.encode.toUTF8 = some other) :
    ofJson? program.toJson = some other := by
  rw [decodeBytes?, Json.readBytes?_toUTF8, encode, Json.read_compact (plain_to_json program),
    Option.bind_some] at read
  exact read

theorem heading_of_encode (read : decodeBytes? program.encode.toUTF8 = some other) :
    other.name = program.name ∧ other.sources = program.sources ∧
      Instant.read? program.compiledAt.toText = some other.compiledAt := by
  obtain ⟨same_name, same_sources, time, _⟩ := fields_of_json (json_of_encode read)
  exact ⟨same_name, same_sources, time⟩

/-- What a stored program reads as differs from it in its time at most. -/
theorem decode_of_encode (pushed : ∀ value, program.Pushes value → value.ReadsBack)
    (read : decodeBytes? program.encode.toUTF8 = some other) :
    other.name = program.name ∧ other.sources = program.sources ∧
      other.instructions = program.instructions :=
  program_of_json pushed (json_of_encode read)

/-- The doubles that a program pushes are denoted by their texts. -/
def FloatsExact (program : Program) : Prop :=
  ∀ number, program.Pushes (.float number) → (Decimal.Dyadic.ofFloat? number).isSome = true →
    Json.FloatExact number

theorem decode_of_generated {template : Template} {now : Instant}
    (generated : template.generate now = .ok program) (exact_floats : program.FloatsExact)
    (read : decodeBytes? program.encode.toUTF8 = some other) :
    other.name = program.name ∧ other.sources = program.sources ∧
      other.instructions = program.instructions := by
  apply decode_of_encode _ read
  intro value pushes
  apply Value.literal_reads_back (generated_pushes_literals generated pushes)
  rintro number rfl finite
  exact exact_floats number pushes finite

end Program

def Op.isPush : Op → Bool
  | .push _ => true
  | _ => false

def Instruction.isPushless (instruction : Instruction) : Bool :=
  instruction.code?.all fun code => code.all fun op => !op.isPush

def pushesNothing (compiled : Except TemplateError Template) : Bool :=
  (compiled >>= fun template => emitOwnedAt 0 template.resolve).toOption.all fun instructions =>
    instructions.all Instruction.isPushless

/-- Where nothing is pushed there are no doubles that could be read as others. -/
theorem Program.exact_of_pushless {compiled : Except TemplateError Template}
    {template : Template} {now : Instant} {program : Program}
    (pushless : pushesNothing compiled = true) (same : compiled = .ok template)
    (generated : template.generate now = .ok program) : program.FloatsExact := by
  obtain ⟨_, _, _, emitted⟩ := generate_eq_ok generated
  rintro number ⟨instruction, member, code, coded, push⟩
  rw [same] at pushless
  change (emitOwnedAt 0 template.resolve).toOption.all _ = true at pushless
  rw [emitted] at pushless
  have no_push := List.all_eq_true.mp pushless instruction member
  rw [Instruction.isPushless, Option.mem_def.mp coded] at no_push
  cases List.all_eq_true.mp no_push _ push

end Letterpress
