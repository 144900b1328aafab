import Letterpress.Proofs.Json.Numeral

/-!
Documents read back as they are written. Reading leaves literals as they stand, so it
takes the literals that escaping makes, and plain numerals; whatever follows a document
inside another one ends a numeral. The fuel that suffices is twice the size of the text.
-/

namespace Letterpress.Json

theorem escape_char_cases (char : Char) :
    (∃ mark, escapeChar char = ['\\', mark] ∧ mark ≠ 'u' ∧ simpleEscape? mark = some char) ∨
      (char.toNat < 0x20 ∧ escapeChar char =
        ['\\', 'u', '0', '0', hexDigit (char.toNat / 16), hexDigit (char.toNat % 16)]) ∨
      (char ≠ '"' ∧ char ≠ '\\' ∧ ¬char.toNat < 0x20 ∧ escapeChar char = [char]) := by
  unfold escapeChar
  iterate 7
    split
    · next same =>
        subst same
        exact .inl ⟨_, rfl, by decide, rfl⟩
  split
  · next low => exact .inr (.inl ⟨low, rfl⟩)
  · next no_quote no_backslash _ _ _ _ _ not_low =>
      exact .inr (.inr ⟨no_quote, no_backslash, not_low, rfl⟩)

theorem code_unit_of_low_char {char : Char} (low : char.toNat < 0x20) :
    codeUnit? '0' '0' (hexDigit (char.toNat / 16)) (hexDigit (char.toNat % 16)) =
      some char.toNat := by
  have hex : ∀ value < 16, hexValue? (hexDigit value) = some value := by decide
  have zero : hexValue? '0' = some 0 := by decide
  simp only [codeUnit?, zero, hex (char.toNat / 16) (by omega), hex (char.toNat % 16) (by omega),
    bind, Option.bind, pure]
  congr 1
  omega

theorem unescape_escape_char (char : Char) (rest : List Char) :
    unescape? (escapeChar char ++ rest) = (unescape? rest).map (char :: ·) := by
  rcases escape_char_cases char with
    ⟨mark, escaped, not_number, marks⟩ | ⟨low, escaped⟩ | ⟨_, no_backslash, _, escaped⟩
  · rw [escaped, List.cons_append, List.cons_append, List.nil_append, unescape?, marks]
    intro _ _ _ _ _ number
    exact absurd number not_number
  · have no_surrogate : ¬(55296 ≤ char.toNat ∧ char.toNat < 56320) := by omega
    have no_low_surrogate : ¬(56320 ≤ char.toNat ∧ char.toNat < 57344) := by omega
    simp [escaped, unescape?, code_unit_of_low_char low, no_surrogate, no_low_surrogate]
  · rw [escaped, List.cons_append, List.nil_append, unescape?.eq_4]
    · simp [no_backslash]
    · intro _ _ _ _ _ backslash
      exact absurd backslash no_backslash
    · intro _ _ backslash
      exact absurd backslash no_backslash

theorem unescape_escape (chars : List Char) : unescape? (escape chars) = some chars := by
  induction chars with
  | nil => rfl
  | cons char rest unescaped =>
      have first := unescape_escape_char char (escape rest)
      rw [unescaped] at first
      exact first

theorem read_escape_char (char : Char) (rest : List Char) :
    readLiteral? (escapeChar char ++ rest) =
      (readLiteral? rest).map fun (literal, after) => (escapeChar char ++ literal, after) := by
  rcases escape_char_cases char with
    ⟨mark, escaped, not_number, marks⟩ | ⟨low, escaped⟩ | ⟨no_quote, no_backslash, not_low, escaped⟩
  · rw [escaped, List.cons_append, List.cons_append, List.nil_append, readLiteral?, marks]
    · rfl
    intro _ _ _ _ _ number
    exact absurd number not_number
  · simp [escaped, readLiteral?, code_unit_of_low_char low]
  · rw [escaped, List.cons_append, List.nil_append, readLiteral?]
    · have taken : ¬(char = '\\' ∨ char.toNat < 0x20) := by
        rintro (backslash | low)
        · exact no_backslash backslash
        · exact not_low low
      rw [if_neg taken]
      rfl
    · exact no_quote
    · intro _ _ _ _ _ backslash
      exact absurd backslash no_backslash
    · intro _ _ backslash
      exact absurd backslash no_backslash

theorem read_escape (chars rest : List Char) :
    readLiteral? (escape chars ++ '"' :: rest) = some (escape chars, rest) := by
  induction chars with
  | nil => rfl
  | cons char others read =>
      have first := read_escape_char char (escape others ++ '"' :: rest)
      rw [read, ← List.append_assoc] at first
      exact first

mutual

def Plain : Json → Prop
  | .number numeral => numeral.Plain
  | .string literal => ∃ chars, literal = escape chars
  | .array items => PlainItems items
  | .object members => PlainMembers members
  | _ => True

def PlainItems : List Json → Prop
  | [] => True
  | item :: rest => item.Plain ∧ PlainItems rest

def PlainMembers : List (List Char × Json) → Prop
  | [] => True
  | (name, value) :: rest => (∃ chars, name = escape chars) ∧ value.Plain ∧ PlainMembers rest

end

theorem skip_nothing {first : Char} (others : List Char) (visible : isBlank first = false) :
    skipBlanks (first :: others) = first :: others := by
  simp [skipBlanks, visible]

theorem numeral_starts {numeral : Numeral} (plain : numeral.Plain) :
    ∃ first others, numeral.render = first :: others ∧
      (first = '-' ∨ Decimal.isDigit first = true) := by
  rw [Numeral.render_eq_signed]
  cases numeral.negative with
  | true => exact ⟨'-', _, rfl, .inl rfl⟩
  | false =>
      obtain ⟨first, others, starts, digit⟩ := Numeral.unsigned_starts_with_digit plain
      exact ⟨first, others, starts, .inr digit⟩

theorem starts_numeral {first : Char} (starts : first = '-' ∨ Decimal.isDigit first = true) :
    isBlank first = false ∧ first ∉ ['n', 't', 'f', '"', '[', '{', ']'] := by
  have different : ∀ other : Char, other ≠ '-' → Decimal.isDigit other = false →
      first ≠ other := by
    rintro other no_sign no_digit rfl
    rcases starts with sign | digit
    · exact no_sign sign
    · rw [no_digit] at digit
      cases digit
  constructor
  · simp [isBlank, different ' ' (by decide) (by decide), different '\n' (by decide) (by decide),
      different '\t' (by decide) (by decide), different '\r' (by decide) (by decide)]
  · simp only [List.mem_cons, List.not_mem_nil, or_false, not_or]
    refine ⟨?_, ?_, ?_, ?_, ?_, ?_, ?_⟩ <;> exact different _ (by decide) (by decide)

theorem read_value_numeral {first : Char} (others : List Char) (fuel : Nat)
    (starts : first = '-' ∨ Decimal.isDigit first = true) :
    readValue? (fuel + 1) (first :: others) =
      (Numeral.read? (first :: others)).map fun (numeral, rest) => (.number numeral, rest) := by
  obtain ⟨visible, other⟩ := starts_numeral starts
  simp only [readValue?, skip_nothing others visible]
  split <;> simp_all

theorem value_starts {document : Json} (plain : document.Plain) :
    ∃ first others, document.render = first :: others ∧ isBlank first = false ∧ first ≠ ']' := by
  cases document with
  | null => exact ⟨_, _, rfl, by decide, by decide⟩
  | bool value => cases value <;> exact ⟨_, _, rfl, by decide, by decide⟩
  | number numeral =>
      obtain ⟨first, others, rendered, starts⟩ := numeral_starts plain
      obtain ⟨visible, other⟩ := starts_numeral starts
      refine ⟨first, others, rendered, visible, ?_⟩
      rintro rfl
      exact other (by decide)
  | string literal => exact ⟨_, _, rfl, by decide, by decide⟩
  | array items => exact ⟨_, _, rfl, by decide, by decide⟩
  | object members => exact ⟨_, _, rfl, by decide, by decide⟩

theorem ends_before (mark : Char) (rest : List Char)
    (closes : Decimal.isDigit mark = false ∧ mark ∉ ['.', 'e', 'E']) :
    Numeral.Ends (mark :: rest) := by
  intro char member
  cases member
  exact closes

theorem items_start (item : Json) (more : List Json) :
    ∃ after, renderItems (item :: more) = item.render ++ after := by
  cases more with
  | nil => exact ⟨[], by simp [renderItems]⟩
  | cons next more => exact ⟨_, by rw [renderItems]; simp⟩

theorem members_start (name : List Char) (value : Json) (more : List (List Char × Json)) :
    ∃ after, renderMembers ((name, value) :: more) = '"' :: after := by
  cases more with
  | nil => exact ⟨_, rfl⟩
  | cons next more =>
      exact ⟨name ++ '"' :: ':' :: (value.render ++ ',' :: renderMembers (next :: more)), rfl⟩

section Fuel

def ReadsValues (fuel : Nat) : Prop :=
  ∀ {document : Json} {rest : List Char}, document.Plain → Numeral.Ends rest →
    2 * document.render.length ≤ fuel →
      readValue? fuel (document.render ++ rest) = some (document, rest)

def ReadsItems (fuel : Nat) : Prop :=
  ∀ {item : Json} {more : List Json} {rest : List Char}, PlainItems (item :: more) →
    2 * (renderItems (item :: more)).length + 1 ≤ fuel →
      readItems? fuel (renderItems (item :: more) ++ ']' :: rest) = some (item :: more, rest)

def ReadsMembers (fuel : Nat) : Prop :=
  ∀ {name : List Char} {value : Json} {more : List (List Char × Json)} {rest : List Char},
    PlainMembers ((name, value) :: more) →
    2 * (renderMembers ((name, value) :: more)).length + 1 ≤ fuel →
      readMembers? fuel (renderMembers ((name, value) :: more) ++ '}' :: rest) =
        some ((name, value) :: more, rest)

variable {fuel : Nat}

theorem reads_array (items_read : ReadsItems fuel) {items : List Json} {rest : List Char}
    (plain : PlainItems items) (enough : 2 * (Json.array items).render.length ≤ fuel + 1) :
    readValue? (fuel + 1) ((Json.array items).render ++ rest) = some (.array items, rest) := by
  cases items with
  | nil => rfl
  | cons item more =>
      have fits : 2 * (renderItems (item :: more)).length + 1 ≤ fuel := by
        simp only [render, List.length_cons, List.length_append] at enough
        omega
      have read : readItems? fuel (renderItems (item :: more) ++ ']' :: rest) =
          some (item :: more, rest) := items_read plain fits
      obtain ⟨first, others, starts, visible, no_close⟩ := value_starts plain.1
      obtain ⟨after, items_text⟩ := items_start item more
      rw [starts, List.cons_append] at items_text
      simp only [render, List.cons_append, List.append_assoc, List.nil_append, readValue?]
      rw [skip_nothing _ (by decide)]
      simp only [items_text, List.cons_append] at read ⊢
      rw [skip_nothing _ visible]
      split
      · next rest same =>
          injection same with close
          exact absurd close no_close
      · rw [read]
        rfl

theorem reads_object (members_read : ReadsMembers fuel) {members : List (List Char × Json)}
    {rest : List Char} (plain : PlainMembers members)
    (enough : 2 * (Json.object members).render.length ≤ fuel + 1) :
    readValue? (fuel + 1) ((Json.object members).render ++ rest) =
      some (.object members, rest) := by
  cases members with
  | nil => rfl
  | cons member more =>
      obtain ⟨name, value⟩ := member
      have fits : 2 * (renderMembers ((name, value) :: more)).length + 1 ≤ fuel := by
        simp only [render, List.length_cons, List.length_append] at enough
        omega
      have read : readMembers? fuel (renderMembers ((name, value) :: more) ++ '}' :: rest) =
          some ((name, value) :: more, rest) := members_read plain fits
      obtain ⟨after, members_text⟩ := members_start name value more
      simp only [render, List.cons_append, List.append_assoc, List.nil_append, readValue?]
      rw [skip_nothing _ (by decide)]
      simp only [members_text, List.cons_append] at read ⊢
      rw [skip_nothing _ (by decide)]
      simp [read]

theorem reads_value (items_read : ReadsItems fuel) (members_read : ReadsMembers fuel) :
    ReadsValues (fuel + 1) := by
  intro document rest plain ends enough
  cases document with
  | null => rfl
  | bool value => cases value <;> rfl
  | number numeral =>
      obtain ⟨first, others, rendered, starts⟩ := numeral_starts plain
      have read := Numeral.read_render plain ends
      rw [render]
      rw [rendered, List.cons_append] at read ⊢
      rw [read_value_numeral _ _ starts, read]
      rfl
  | string literal =>
      obtain ⟨chars, rfl⟩ := plain
      have read := read_escape chars rest
      simp only [render, List.cons_append, List.append_assoc, List.nil_append, readValue?]
      rw [skip_nothing _ (by decide)]
      simp [read]
  | array items => exact reads_array items_read plain enough
  | object members => exact reads_object members_read plain enough

theorem reads_items (values_read : ReadsValues fuel) (items_read : ReadsItems fuel) :
    ReadsItems (fuel + 1) := by
  intro item more rest plain enough
  cases more with
  | nil =>
      rw [renderItems] at enough ⊢
      have read := values_read plain.1 (ends_before ']' rest (by decide)) (by omega)
      simp only [readItems?, read]
      rfl
  | cons next more =>
      have text : renderItems (item :: next :: more) =
          item.render ++ ',' :: renderItems (next :: more) := rfl
      rw [text, List.length_append, List.length_cons] at enough
      have ends := ends_before ',' (renderItems (next :: more) ++ ']' :: rest) (by decide)
      have read := values_read plain.1 ends (by omega)
      have read_more : readItems? fuel (renderItems (next :: more) ++ ']' :: rest) =
          some (next :: more, rest) := items_read plain.2 (by omega)
      rw [text, List.append_assoc, List.cons_append, readItems?, read]
      simp only [skip_nothing _ (show isBlank ',' = false by decide), read_more]
      rfl

theorem reads_members (values_read : ReadsValues fuel) (members_read : ReadsMembers fuel) :
    ReadsMembers (fuel + 1) := by
  intro name value more rest plain enough
  obtain ⟨⟨chars, escaped⟩, plain_value, plain_more⟩ := plain
  subst escaped
  cases more with
  | nil =>
      have text : renderMembers [(escape chars, value)] =
          '"' :: (escape chars ++ '"' :: ':' :: value.render) := rfl
      simp only [text, List.length_append, List.length_cons] at enough
      have read := values_read plain_value (ends_before '}' rest (by decide)) (by omega)
      have read_name := read_escape chars (':' :: (value.render ++ '}' :: rest))
      simp only [text, List.append_assoc, List.cons_append, readMembers?]
      rw [skip_nothing _ (by decide)]
      simp only [read_name, skip_nothing _ (show isBlank ':' = false by decide), read]
      rfl
  | cons next more =>
      obtain ⟨next_name, next_value⟩ := next
      have text : renderMembers ((escape chars, value) :: (next_name, next_value) :: more) =
          '"' :: (escape chars ++ '"' :: ':' ::
            (value.render ++ ',' :: renderMembers ((next_name, next_value) :: more))) := rfl
      simp only [text, List.length_append, List.length_cons] at enough
      have ends := ends_before ','
        (renderMembers ((next_name, next_value) :: more) ++ '}' :: rest) (by decide)
      have read := values_read plain_value ends (by omega)
      have read_more : readMembers? fuel
          (renderMembers ((next_name, next_value) :: more) ++ '}' :: rest) =
            some ((next_name, next_value) :: more, rest) := members_read plain_more (by omega)
      have read_name := read_escape chars
        (':' :: (value.render ++ ',' ::
          (renderMembers ((next_name, next_value) :: more) ++ '}' :: rest)))
      simp only [text, List.append_assoc, List.cons_append, readMembers?]
      rw [skip_nothing _ (by decide)]
      simp only [read_name, skip_nothing _ (show isBlank ':' = false by decide), read,
        skip_nothing _ (show isBlank ',' = false by decide), read_more]
      rfl

theorem readers_read (fuel : Nat) :
    ReadsValues fuel ∧ ReadsItems fuel ∧ ReadsMembers fuel := by
  induction fuel with
  | zero =>
      refine ⟨?_, fun _ enough => by omega, fun _ enough => by omega⟩
      intro document rest plain _ enough
      obtain ⟨first, others, starts, _⟩ := value_starts plain
      rw [starts, List.length_cons] at enough
      omega
  | succ fuel smaller =>
      obtain ⟨values, items, members⟩ := smaller
      exact ⟨reads_value items members, reads_items values items, reads_members values members⟩

end Fuel

theorem read_compact {document : Json} (plain : document.Plain) :
    read? document.compact = some document := by
  have nothing_follows : Numeral.Ends [] := by
    intro char member
    cases member
  have read := (readers_read (2 * document.render.length + 2)).1 plain nothing_follows (by omega)
  rw [List.append_nil] at read
  simp only [read?, compact, String.toList_ofList, read]
  rfl

end Letterpress.Json
