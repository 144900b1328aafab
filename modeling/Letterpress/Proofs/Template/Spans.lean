import Letterpress.Template.Token
import Letterpress.Proofs.Text.Pieces

/-!
What a span is, said of the bytes of a text and of no reader: an opening, and the first
matching close after it on the same line. The reader of one span finds one exactly where
a span starts, and ends it where the span ends.
-/

namespace Letterpress.Template

open Text

def StandsAt (bytes : List UInt8) (first second : Char) (offset : Nat) : Prop :=
  bytes[offset]? = some first.toUInt8 ∧ bytes[offset + 1]? = some second.toUInt8

def BreaksAt (bytes : List UInt8) (offset : Nat) : Prop :=
  bytes[offset]? = some '\n'.toUInt8 ∨ bytes[offset]? = some '\r'.toUInt8

/-- The first close at an offset or later, before the line ends. -/
structure FirstClose (bytes : List UInt8) (mark : Char) (start close : Nat) : Prop where
  later : start ≤ close
  closes : StandsAt bytes mark '}' close
  first : ∀ offset, start ≤ offset → offset < close → ¬ StandsAt bytes mark '}' offset
  sameLine : ∀ offset, start ≤ offset → offset < close → ¬ BreaksAt bytes offset

structure SpanAt (bytes : List UInt8) (delimiter : Delimiter) (start close : Nat) : Prop where
  opens : StandsAt bytes '{' delimiter.mark start
  closed : FirstClose bytes delimiter.closingMark (start + 2) close

theorem mark_ascii (delimiter : Delimiter) : IsAscii delimiter.mark := by
  cases delimiter <;> decide

theorem closing_mark_ascii (delimiter : Delimiter) : IsAscii delimiter.closingMark := by
  cases delimiter <;> decide

section Shift

variable (front : List UInt8) {bytes back : List UInt8} {offset start close : Nat}

theorem get_shifted : (front ++ bytes)[front.length + offset]? = bytes[offset]? := by
  rw [List.getElem?_append_right (Nat.le_add_right _ _), Nat.add_sub_cancel_left]

theorem stands_shifted {first second : Char} :
    StandsAt (front ++ bytes) first second (front.length + offset) ↔
      StandsAt bytes first second offset := by
  rw [StandsAt, StandsAt, Nat.add_assoc, get_shifted, get_shifted]

theorem breaks_shifted :
    BreaksAt (front ++ bytes) (front.length + offset) ↔ BreaksAt bytes offset := by
  rw [BreaksAt, BreaksAt, get_shifted]

theorem close_shifted {mark : Char} :
    FirstClose (front ++ bytes) mark (front.length + start) (front.length + close) ↔
      FirstClose bytes mark start close := by
  constructor
  · rintro ⟨later, closes, first, sameLine⟩
    refine ⟨by omega, (stands_shifted front).mp closes, ?_, ?_⟩
    · intro offset after before stands
      exact first (front.length + offset) (by omega) (by omega) ((stands_shifted front).mpr stands)
    · intro offset after before breaks
      exact sameLine (front.length + offset) (by omega) (by omega)
        ((breaks_shifted front).mpr breaks)
  · rintro ⟨later, closes, first, sameLine⟩
    refine ⟨by omega, (stands_shifted front).mpr closes, ?_, ?_⟩
    · intro offset after before stands
      obtain ⟨inside, rfl⟩ := Nat.exists_eq_add_of_le (show front.length ≤ offset by omega)
      exact first inside (by omega) (by omega) ((stands_shifted front).mp stands)
    · intro offset after before breaks
      obtain ⟨inside, rfl⟩ := Nat.exists_eq_add_of_le (show front.length ≤ offset by omega)
      exact sameLine inside (by omega) (by omega) ((breaks_shifted front).mp breaks)

theorem span_shifted {delimiter : Delimiter} :
    SpanAt (front ++ bytes) delimiter (front.length + start) (front.length + close) ↔
      SpanAt bytes delimiter start close := by
  constructor
  · rintro ⟨opens, closed⟩
    exact ⟨(stands_shifted front).mp opens, (close_shifted front).mp closed⟩
  · rintro ⟨opens, closed⟩
    exact ⟨(stands_shifted front).mpr opens, (close_shifted front).mpr closed⟩

theorem get_before_more (inside : offset < bytes.length) :
    (bytes ++ back)[offset]? = bytes[offset]? := List.getElem?_append_left inside

theorem stands_inside {first second : Char} (stands : StandsAt bytes first second offset) :
    offset + 1 < bytes.length := (List.getElem?_eq_some_iff.mp stands.2).1

/-- What follows a span is of no matter to it. -/
theorem span_before_more {delimiter : Delimiter} (span : SpanAt bytes delimiter start close) :
    SpanAt (bytes ++ back) delimiter start close := by
  obtain ⟨opens, later, closes, first, sameLine⟩ := span
  have inside := stands_inside closes
  have stands_iff : ∀ {one two : Char} {offset : Nat}, offset ≤ close →
      (StandsAt (bytes ++ back) one two offset ↔ StandsAt bytes one two offset) := by
    intro one two offset before
    rw [StandsAt, StandsAt, get_before_more (by omega), get_before_more (by omega)]
  refine ⟨(stands_iff (by omega)).mpr opens, later, (stands_iff le_rfl).mpr closes, ?_, ?_⟩
  · intro offset after before stands
    exact first offset after before ((stands_iff (by omega)).mp stands)
  · intro offset after before breaks
    rw [BreaksAt, get_before_more (by omega)] at breaks
    exact sameLine offset after before breaks

end Shift

theorem span_unique {bytes : List UInt8} {left right : Delimiter} {start close close' : Nat}
    (one : SpanAt bytes left start close) (other : SpanAt bytes right start close') :
    left = right ∧ close = close' := by
  have marks : left.mark = right.mark := by
    have same := one.opens.2.symm.trans other.opens.2
    exact ascii_injective (mark_ascii left) (mark_ascii right) (Option.some.inj same)
  have delimiters : left = right := by
    cases left <;> cases right <;> first | rfl | exact absurd marks (by decide)
  subst delimiters
  refine ⟨rfl, Nat.le_antisymm ?_ ?_⟩
  · by_contra longer
    exact one.closed.first close' other.closed.later (by omega) other.closed.closes
  · by_contra shorter
    exact other.closed.first close one.closed.later (by omega) one.closed.closes

section Reading

variable {first second mark : Char}

/-- A place in a text is its start, or a place after its first character. -/
theorem stands_in_cons (firstAscii : IsAscii first) (secondAscii : IsAscii second) (char : Char)
    (rest : List Char) (offset : Nat) :
    StandsAt (encode (char :: rest)) first second offset ↔
      offset = 0 ∧ char = first ∧ rest.head? = some second ∨
        ∃ later, offset = char.utf8Size + later ∧ StandsAt (encode rest) first second later := by
  have next_byte : ∀ later, (encode (char :: rest))[char.utf8Size + later]? =
      (encode rest)[later]? := by
    intro later
    rw [encode_cons, ← String.length_utf8EncodeChar, get_shifted]
  have starts : (encode rest)[0]? = some second.toUInt8 ↔ rest.head? = some second := by
    cases rest with
    | nil => simp
    | cons other more =>
        rw [ascii_in_cons secondAscii, List.head?_cons, Option.some_inj]
        have positive := other.utf8Size_pos
        constructor
        · rintro (⟨-, same⟩ | ⟨later, size, -⟩)
          · exact same
          · omega
        · exact fun same => .inl ⟨rfl, same⟩
  rw [StandsAt, ascii_in_cons firstAscii]
  constructor
  · rintro ⟨⟨rfl, rfl⟩ | ⟨later, rfl, found⟩, next⟩
    · rw [← ascii_size firstAscii, Nat.zero_add, ← Nat.add_zero char.utf8Size, next_byte] at next
      exact .inl ⟨rfl, rfl, starts.mp next⟩
    · rw [Nat.add_assoc, next_byte] at next
      exact .inr ⟨later, rfl, found, next⟩
  · rintro (⟨rfl, rfl, next⟩ | ⟨later, rfl, found, next⟩)
    · refine ⟨.inl ⟨rfl, rfl⟩, ?_⟩
      rw [← ascii_size firstAscii, Nat.zero_add, ← Nat.add_zero char.utf8Size, next_byte]
      exact starts.mpr next
    · refine ⟨.inr ⟨later, rfl, found⟩, ?_⟩
      rwa [Nat.add_assoc, next_byte]

theorem breaks_in_cons (char : Char) (rest : List Char) (offset : Nat) :
    BreaksAt (encode (char :: rest)) offset ↔
      offset = 0 ∧ isLineBreak char = true ∨
        ∃ later, offset = char.utf8Size + later ∧ BreaksAt (encode rest) later := by
  rw [BreaksAt, ascii_in_cons (by decide), ascii_in_cons (by decide), isLineBreak, Bool.or_eq_true,
    beq_iff_eq, beq_iff_eq]
  constructor
  · rintro ((⟨rfl, feed⟩ | ⟨later, rfl, feed⟩) | (⟨rfl, carriage⟩ | ⟨later, rfl, carriage⟩))
    · exact .inl ⟨rfl, .inl feed⟩
    · exact .inr ⟨later, rfl, .inl feed⟩
    · exact .inl ⟨rfl, .inr carriage⟩
    · exact .inr ⟨later, rfl, .inr carriage⟩
  · rintro (⟨rfl, feed | carriage⟩ | ⟨later, rfl, feed | carriage⟩)
    · exact .inl (.inl ⟨rfl, feed⟩)
    · exact .inr (.inl ⟨rfl, carriage⟩)
    · exact .inl (.inr ⟨later, rfl, feed⟩)
    · exact .inr (.inr ⟨later, rfl, carriage⟩)

theorem close_in_nil (close : Nat) : ¬ FirstClose [] mark 0 close := by
  intro closed
  have stands := closed.closes.1
  simp at stands

/-- The first close is right at the start, or the first after a character that is no line
break and with which no close starts. -/
theorem close_in_cons (markAscii : IsAscii mark) (char : Char) (rest : List Char) (close : Nat) :
    FirstClose (encode (char :: rest)) mark 0 close ↔
      close = 0 ∧ char = mark ∧ rest.head? = some '}' ∨
        ¬ (char = mark ∧ rest.head? = some '}') ∧ isLineBreak char = false ∧
          ∃ later, close = char.utf8Size + later ∧ FirstClose (encode rest) mark 0 later := by
  have positive := char.utf8Size_pos
  have stands_iff := stands_in_cons markAscii (show IsAscii '}' by decide) char rest
  have breaks_iff := breaks_in_cons char rest
  constructor
  · rintro ⟨-, closes, first, sameLine⟩
    rcases (stands_iff close).mp closes with ⟨rfl, here⟩ | ⟨later, rfl, stands⟩
    · exact .inl ⟨rfl, here⟩
    · refine .inr ⟨?_, ?_, later, rfl, Nat.zero_le _, stands, ?_, ?_⟩
      · intro here
        exact first 0 le_rfl (by omega) ((stands_iff 0).mpr (.inl ⟨rfl, here⟩))
      · rw [← Bool.not_eq_true]
        intro breaks
        exact sameLine 0 le_rfl (by omega) ((breaks_iff 0).mpr (.inl ⟨rfl, breaks⟩))
      · intro offset _ before earlier
        exact first _ (Nat.zero_le _) (by omega) ((stands_iff _).mpr (.inr ⟨offset, rfl, earlier⟩))
      · intro offset _ before breaks
        exact sameLine _ (Nat.zero_le _) (by omega)
          ((breaks_iff _).mpr (.inr ⟨offset, rfl, breaks⟩))
  · rintro (⟨rfl, here⟩ | ⟨elsewhere, noBreak, later, rfl, -, closes, first, sameLine⟩)
    · exact ⟨le_rfl, (stands_iff 0).mpr (.inl ⟨rfl, here⟩), fun _ _ before => by omega,
        fun _ _ before => by omega⟩
    · refine ⟨Nat.zero_le _, (stands_iff _).mpr (.inr ⟨later, rfl, closes⟩), ?_, ?_⟩
      · intro offset _ before stands
        rcases (stands_iff offset).mp stands with ⟨-, here⟩ | ⟨inside, rfl, earlier⟩
        · exact elsewhere here
        · exact first inside (Nat.zero_le _) (by omega) earlier
      · intro offset _ before breaks
        rcases (breaks_iff offset).mp breaks with ⟨-, here⟩ | ⟨inside, rfl, earlier⟩
        · rw [noBreak] at here
          cases here
        · exact sameLine inside (Nat.zero_le _) (by omega) earlier

/-- The reader of the rest of a span cuts at the first close. -/
theorem split_at_close_iff (markAscii : IsAscii mark) (chars : List Char) (close : Nat) :
    FirstClose (encode chars) mark 0 close ↔
      ∃ inner after, splitAtClose? mark chars = some (inner, after) ∧ byteSize inner = close := by
  induction chars generalizing close with
  | nil => simp [splitAtClose?, close_in_nil]
  | cons first rest cut =>
      rw [close_in_cons markAscii]
      cases rest with
      | nil => simp [splitAtClose?, close_in_nil]
      | cons second rest =>
          rw [splitAtClose?, List.head?_cons, Option.some_inj]
          split_ifs with here breaks
          · simp only [here, and_self, and_true, not_true_eq_false, false_and, or_false]
            constructor
            · rintro rfl
              exact ⟨[], rest, rfl, rfl⟩
            · rintro ⟨inner, after, same, rfl⟩
              cases same
              rfl
          · simp [here, breaks]
          · simp only [here, breaks, and_false, not_false_eq_true, true_and, false_or, cut]
            constructor
            · rintro ⟨later, rfl, inner, after, found, rfl⟩
              exact ⟨first :: inner, after, by rw [found]; rfl, rfl⟩
            · rintro ⟨inner, after, found, rfl⟩
              obtain ⟨⟨more, tail⟩, later, same⟩ := Option.map_eq_some_iff.mp found
              cases same
              exact ⟨byteSize more, rfl, more, tail, later, rfl⟩

theorem split_at_close_parts {chars inner after : List Char}
    (cut : splitAtClose? mark chars = some (inner, after)) :
    chars = inner ++ mark :: '}' :: after := by
  induction chars generalizing inner with
  | nil => cases cut
  | cons first rest parts =>
      cases rest with
      | nil => cases cut
      | cons second rest =>
          rw [splitAtClose?] at cut
          split_ifs at cut with here breaks
          · cases cut
            rw [here.1, here.2, List.nil_append]
          · obtain ⟨⟨more, tail⟩, found, same⟩ := Option.map_eq_some_iff.mp cut
            cases same
            rw [parts found, List.cons_append]

end Reading

theorem span_at_head_parts {chars inner after : List Char} {delimiter : Delimiter}
    (found : spanAtHead? chars = some (delimiter, inner, after)) :
    ∃ rest, chars = '{' :: delimiter.mark :: rest ∧
      splitAtClose? delimiter.closingMark rest = some (inner, after) := by
  unfold spanAtHead? at found
  split at found
  · next rest =>
      obtain ⟨split, cut, same⟩ := Option.map_eq_some_iff.mp found
      cases same
      exact ⟨rest, rfl, cut⟩
  · next rest =>
      obtain ⟨split, cut, same⟩ := Option.map_eq_some_iff.mp found
      cases same
      exact ⟨rest, rfl, cut⟩
  · cases found

theorem span_after_opening (delimiter : Delimiter) (rest : List Char) :
    spanAtHead? ('{' :: delimiter.mark :: rest) =
      (splitAtClose? delimiter.closingMark rest).map fun split => (delimiter, split) := by
  cases delimiter <;> rfl

theorem opening_at_head {chars : List Char} {delimiter : Delimiter}
    (opens : StandsAt (encode chars) '{' delimiter.mark 0) :
    ∃ rest, chars = '{' :: delimiter.mark :: rest := by
  cases chars with
  | nil => cases opens.1
  | cons char rest =>
      rcases (stands_in_cons (by decide) (mark_ascii delimiter) char rest 0).mp opens with
        ⟨-, rfl, next⟩ | ⟨later, size, -⟩
      · obtain ⟨more, rfl⟩ := List.head?_eq_some_iff.mp next
        exact ⟨more, rfl⟩
      · have positive := char.utf8Size_pos
        omega

theorem close_after_opening (delimiter : Delimiter) (rest : List Char) (close : Nat) :
    FirstClose (encode ('{' :: delimiter.mark :: rest)) delimiter.closingMark (2 + 0)
        (2 + close) ↔
      FirstClose (encode rest) delimiter.closingMark 0 close := by
  have parts : encode ('{' :: delimiter.mark :: rest) =
      ['{'.toUInt8, delimiter.mark.toUInt8] ++ encode rest := by
    rw [encode_cons, encode_cons, encode_ascii (by decide), encode_ascii (mark_ascii delimiter)]
    rfl
  rw [parts]
  exact close_shifted ['{'.toUInt8, delimiter.mark.toUInt8]

/-- The reader of one span finds a span exactly where one starts, and that span. -/
theorem span_at_head_iff (chars : List Char) (delimiter : Delimiter) (close : Nat) :
    SpanAt (encode chars) delimiter 0 close ↔
      ∃ inner after, spanAtHead? chars = some (delimiter, inner, after) ∧
        2 + byteSize inner = close := by
  constructor
  · rintro ⟨opens, closed⟩
    obtain ⟨rest, rfl⟩ := opening_at_head opens
    obtain ⟨size, rfl⟩ := Nat.exists_eq_add_of_le closed.later
    obtain ⟨inner, after, cut, rfl⟩ := (split_at_close_iff (closing_mark_ascii delimiter) rest _).mp
      ((close_after_opening delimiter rest size).mp closed)
    exact ⟨inner, after, by rw [span_after_opening, cut]; rfl, rfl⟩
  · rintro ⟨inner, after, found, rfl⟩
    obtain ⟨rest, rfl, cut⟩ := span_at_head_parts found
    refine
      ⟨(stands_in_cons (by decide) (mark_ascii delimiter) _ _ 0).mpr (.inl ⟨rfl, rfl, rfl⟩), ?_⟩
    exact (close_after_opening delimiter rest _).mpr
      ((split_at_close_iff (closing_mark_ascii delimiter) rest _).mpr ⟨inner, after, cut, rfl⟩)

theorem span_at_head_source {chars inner after : List Char} {delimiter : Delimiter}
    (found : spanAtHead? chars = some (delimiter, inner, after)) :
    chars = (Segment.span delimiter inner).source ++ after := by
  obtain ⟨rest, rfl, cut⟩ := span_at_head_parts found
  rw [split_at_close_parts cut, Segment.source, List.cons_append, List.cons_append,
    List.append_assoc]
  rfl

end Letterpress.Template
