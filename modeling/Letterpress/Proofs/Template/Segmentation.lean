import Letterpress.Proofs.Template.Spans

/-!
Where the tokens of a template stand. The spans are those found from the left: the first
span that starts at or after the end of the one before. What is between two spans is one
token of text, or none if it is blank. These rules leave no choice, and the tokens of the
tokenizer are those they allow.
-/

namespace Letterpress.Template

open Text

/-- What a span shows, from the text inside its delimiters. -/
inductive Reads : Delimiter → List Char → TokenKind → Prop
  | output {inner : List Char} {expression : String} (trimmed : Trims inner expression.toList) :
      Reads .output inner (.output expression)
  | bare {inner : List Char} {keyword : String} (trimmed : Trims inner keyword.toList)
      (word : NoBlank keyword.toList) : Reads .directive inner (.directive keyword "")
  | full {inner rest : List Char} {blank : Char} {keyword arguments : String}
      (trimmed : Trims inner (keyword.toList ++ blank :: rest)) (word : NoBlank keyword.toList)
      (cut : isBlank blank = true) (remainder : Trims rest arguments.toList) :
      Reads .directive inner (.directive keyword arguments)

structure SpanToken (source : String) (delimiter : Delimiter) (start close : Nat)
    (token : Token) : Prop where
  offset : token.offset = start
  placed : PieceAt source token.raw start (close + 2)
  reads : ∃ inner, Reads delimiter inner token.kind ∧
    token.raw.toList = '{' :: delimiter.mark :: (inner ++ [delimiter.closingMark, '}'])

inductive GapTokens (source : String) (start stop : Nat) : List Token → Prop
  | kept {piece : String} (placed : PieceAt source piece start stop)
      (shown : ¬ AllBlank piece.toList) : GapTokens source start stop [⟨.text piece, piece, start⟩]
  | dropped {piece : String} (placed : PieceAt source piece start stop)
      (blank : AllBlank piece.toList) : GapTokens source start stop []

def NoSpanFrom (source : String) (start stop : Nat) : Prop :=
  ∀ delimiter offset close, start ≤ offset → offset < stop →
    ¬ SpanAt (bytes source) delimiter offset close

/-- The tokens from an offset on, leftmost spans first. -/
inductive Segmented (source : String) : Nat → List Token → Prop
  | last {start : Nat} {gap : List Token}
      (free : NoSpanFrom source start source.utf8ByteSize)
      (text : GapTokens source start source.utf8ByteSize gap) : Segmented source start gap
  | span {start opening close : Nat} {delimiter : Delimiter} {gap rest : List Token}
      {token : Token} (later : start ≤ opening) (free : NoSpanFrom source start opening)
      (found : SpanAt (bytes source) delimiter opening close)
      (text : GapTokens source start opening gap)
      (shown : SpanToken source delimiter opening close token)
      (after : Segmented source (close + 2) rest) : Segmented source start (gap ++ token :: rest)

theorem span_in_bounds {source : String} {delimiter : Delimiter} {start close : Nat}
    (span : SpanAt (bytes source) delimiter start close) : close + 2 ≤ source.utf8ByteSize := by
  have inside := stands_inside span.closed.closes
  rw [bytes_eq_encode, encode_length, ← byteSize_eq] at inside
  exact inside

theorem span_start_in_bounds {source : String} {delimiter : Delimiter} {start close : Nat}
    (span : SpanAt (bytes source) delimiter start close) : start < source.utf8ByteSize := by
  have bound := span_in_bounds span
  have later := span.closed.later
  omega

section Unique

variable {source : String} {start stop close : Nat} {delimiter : Delimiter}

theorem reads_unique {inner : List Char} {left right : TokenKind}
    (one : Reads delimiter inner left) (other : Reads delimiter inner right) : left = right := by
  cases one with
  | output trimmed =>
      cases other with
      | output trimmed' =>
          rw [String.toList_inj.mp ((trims_unique trimmed).trans (trims_unique trimmed').symm)]
  | bare trimmed word =>
      cases other with
      | bare trimmed' word' =>
          rw [String.toList_inj.mp ((trims_unique trimmed).trans (trims_unique trimmed').symm)]
      | full trimmed' word' cut remainder =>
          have same := (trims_unique trimmed).trans (trims_unique trimmed').symm
          have letter := word _ (same ▸ List.mem_append_right _ (List.mem_cons_self ..))
          rw [letter] at cut
          cases cut
  | full trimmed word cut remainder =>
      cases other with
      | bare trimmed' word' =>
          have same := (trims_unique trimmed').trans (trims_unique trimmed).symm
          have letter := word' _ (same ▸ List.mem_append_right _ (List.mem_cons_self ..))
          rw [letter] at cut
          cases cut
      | full trimmed' word' cut' remainder' =>
          have same := (trims_unique trimmed).trans (trims_unique trimmed').symm
          have parts := congrArg cutAtBlank same
          rw [cut_at_first_blank word cut, cut_at_first_blank word' cut'] at parts
          obtain ⟨keywords, rests⟩ := Prod.mk.inj parts
          subst rests
          rw [String.toList_inj.mp keywords,
            String.toList_inj.mp ((trims_unique remainder).trans (trims_unique remainder').symm)]

theorem span_token_unique {left right : Token} (one : SpanToken source delimiter start close left)
    (other : SpanToken source delimiter start close right) : left = right := by
  obtain ⟨offset, placed, inner, reads, parts⟩ := one
  obtain ⟨offset', placed', inner', reads', parts'⟩ := other
  have raws : left.raw = right.raw := piece_unique placed placed'
  have inners : inner = inner' := by
    rw [raws] at parts
    simpa using parts.symm.trans parts'
  have kinds : left.kind = right.kind := reads_unique (inners ▸ reads) reads'
  have offsets := offset.trans offset'.symm
  cases left
  cases right
  simp_all only

theorem gap_unique {left right : List Token} (one : GapTokens source start stop left)
    (other : GapTokens source start stop right) : left = right := by
  cases one with
  | kept placed shown =>
      cases other with
      | kept placed' shown' => rw [piece_unique placed placed']
      | dropped placed' blank => exact absurd (piece_unique placed' placed ▸ blank) shown
  | dropped placed blank =>
      cases other with
      | kept placed' shown => exact absurd (piece_unique placed placed' ▸ blank) shown
      | dropped placed' blank' => rfl

theorem segmented_unique {tokens others : List Token} (one : Segmented source start tokens)
    (other : Segmented source start others) : tokens = others := by
  induction one generalizing others with
  | last free text =>
      cases other with
      | last free' text' => exact gap_unique text text'
      | span later free' found =>
          exact absurd found (free _ _ _ later (span_start_in_bounds found))
  | @span start opening close delimiter gap rest token later free found text shown after unique =>
      cases other with
      | last free' text' => exact absurd found (free' _ _ _ later (span_start_in_bounds found))
      | @span _ opening' _ _ _ _ _ later' free' found' text' shown' after' =>
          have together : opening = opening' := by
            apply Nat.le_antisymm
            · by_contra behind
              exact free _ _ _ later' (Nat.lt_of_not_le behind) found'
            · by_contra behind
              exact free' _ _ _ later (Nat.lt_of_not_le behind) found
          subst together
          obtain ⟨rfl, rfl⟩ := span_unique found found'
          rw [gap_unique text text', span_token_unique shown shown', unique after']

end Unique

section Cutting

theorem fuel_enough (fuel more : Nat) (chars : List Char) (enough : chars.length ≤ fuel)
    (enoughMore : chars.length ≤ more) : segmentsWithin fuel chars = segmentsWithin more chars := by
  induction fuel generalizing more chars with
  | zero =>
      have nothing := List.length_eq_zero_iff.mp (Nat.le_zero.mp enough)
      subst nothing
      cases more <;> rfl
  | succ fuel same =>
      cases chars with
      | nil => cases more <;> rfl
      | cons char rest =>
          rw [List.length_cons] at enough enoughMore
          obtain ⟨more, rfl⟩ := Nat.exists_eq_add_of_le' (show 1 ≤ more by omega)
          rw [segmentsWithin, segmentsWithin]
          cases found : spanAtHead? (char :: rest) with
          | none => simp only [same more rest (by omega) (by omega)]
          | some span =>
              obtain ⟨delimiter, inner, after⟩ := span
              have shorter := congrArg List.length (span_at_head_source found)
              simp only [Segment.source, List.length_cons, List.length_append] at shorter
              simp only [same more after (by omega) (by omega)]

theorem segments_cons (char : Char) (rest : List Char) :
    segments (char :: rest) =
      match spanAtHead? (char :: rest) with
      | some (delimiter, inner, after) => .span delimiter inner :: segments after
      | none => joinText char (segments rest) := by
  rw [segments, List.length_cons, segmentsWithin]
  cases found : spanAtHead? (char :: rest) with
  | none => rfl
  | some span =>
      obtain ⟨delimiter, inner, after⟩ := span
      have shorter := congrArg List.length (span_at_head_source found)
      simp only [Segment.source, List.length_cons, List.length_append] at shorter
      simp only [segments]
      rw [fuel_enough rest.length after.length after (by omega) le_rfl]

/-- No span starts at a character of the text before what follows. -/
def Free (gap after : List Char) : Prop :=
  ∀ front back, gap = front ++ back → back ≠ [] → spanAtHead? (back ++ after) = none

def textSegment (gap : List Char) : List Segment := if gap = [] then [] else [.text gap]

/-- Segments begin with the text before the first span, and go on after that span. -/
theorem segments_shape (chars : List Char) :
    ∃ gap after, chars = gap ++ after ∧ Free gap after ∧
      (after = [] ∧ segments chars = textSegment gap ∨
        ∃ delimiter inner rest, spanAtHead? after = some (delimiter, inner, rest) ∧
          segments chars = textSegment gap ++ .span delimiter inner :: segments rest) := by
  induction chars with
  | nil => exact ⟨[], [], rfl, by simp [Free], .inl ⟨rfl, rfl⟩⟩
  | cons char chars shape =>
      rw [segments_cons]
      cases found : spanAtHead? (char :: chars) with
      | some span =>
          obtain ⟨delimiter, inner, rest⟩ := span
          exact ⟨[], char :: chars, rfl, by simp [Free], .inr ⟨delimiter, inner, rest, found, rfl⟩⟩
      | none =>
          obtain ⟨gap, after, rfl, free, cut⟩ := shape
          refine ⟨char :: gap, after, rfl, ?_, ?_⟩
          · intro front back parts some_back
            cases front with
            | nil =>
                rw [← show char :: gap = back from parts]
                exact found
            | cons first front => exact free front back (List.cons.inj parts).2 some_back
          · have joined : ∀ more, (∀ chars, more.head? ≠ some (.text chars)) →
                joinText char (textSegment gap ++ more) = textSegment (char :: gap) ++ more := by
              intro more noText
              by_cases empty : gap = []
              · subst empty
                match more, noText with
                | [], _ => rfl
                | .text chars :: _, noText => exact absurd rfl (noText chars)
                | .span .. :: _, _ => rfl
              · simp [textSegment, empty, joinText]
            rcases cut with ⟨rfl, same⟩ | ⟨delimiter, inner, rest, later, same⟩
            · refine .inl ⟨rfl, ?_⟩
              rw [List.append_nil] at same ⊢
              simpa only [same, List.append_nil] using joined [] (by simp)
            · refine .inr ⟨delimiter, inner, rest, later, ?_⟩
              simp only [same]
              exact joined _ (by simp)

/-- A span that starts at a cut is one at the start of the text after the cut. -/
theorem span_at_cut {source : String} {before after : List Char}
    (parts : source.toList = before ++ after) (delimiter : Delimiter) (past : Nat) :
    SpanAt (bytes source) delimiter (byteSize before) (byteSize before + past) ↔
      SpanAt (encode after) delimiter 0 past := by
  have shifted : SpanAt (encode before ++ encode after) delimiter ((encode before).length + 0)
      ((encode before).length + past) ↔ SpanAt (encode after) delimiter 0 past :=
    span_shifted (encode before)
  rwa [← encode_append, encode_length, ← parts, ← bytes_eq_encode] at shifted

/-- In text at whose characters no span starts, none starts at any of its bytes. -/
theorem free_bytes {source : String} {before gap after : List Char}
    (parts : source.toList = before ++ gap ++ after) (free : Free gap after) :
    NoSpanFrom source (byteSize before) (byteSize (before ++ gap)) := by
  intro delimiter offset close later inside span
  obtain ⟨place, rfl⟩ := Nat.exists_eq_add_of_le later
  rw [byteSize_append] at inside
  have brace := span.opens.1
  rw [bytes_eq_encode, parts, List.append_assoc, encode_append, ← encode_length before,
    get_shifted] at brace
  obtain ⟨front, back, cut, rfl⟩ := ascii_byte_at (by decide) brace
  -- The brace is a character of the gap, so that the gap goes on with it.
  rcases List.append_eq_append_iff.mp cut with ⟨more, rfl, rfl⟩ | ⟨more, rfl, rest⟩
  · rw [byteSize_append] at inside
    omega
  · have some_more : more ≠ [] := by
      rintro rfl
      rw [List.append_nil] at inside
      omega
    obtain ⟨past, rfl⟩ := Nat.exists_eq_add_of_le
      (show byteSize before + byteSize front ≤ close by have := span.closed.later; omega)
    have there : source.toList = (before ++ front) ++ (more ++ after) := by
      rw [parts, List.append_assoc, List.append_assoc, List.append_assoc]
    rw [← byteSize_append, span_at_cut there] at span
    obtain ⟨inner, tail, found, -⟩ := (span_at_head_iff _ delimiter past).mp span
    rw [free front more rfl some_more] at found
    cases found

theorem segment_reads (delimiter : Delimiter) (inner : List Char) :
    Reads delimiter inner (Segment.span delimiter inner).kind := by
  have trimmed := trim_trims inner
  cases delimiter with
  | output => exact .output (by rwa [String.toList_ofList])
  | directive =>
      rcases cut_at_blank_spec (trim inner) with
        ⟨word, cut⟩ | ⟨keyword, blank, rest, parts, word, gap, cut⟩
      · rw [Segment.kind, cut]
        exact .bare (by rwa [String.toList_ofList]) (by rwa [String.toList_ofList])
      · rw [Segment.kind, cut]
        refine .full ?_ (by rwa [String.toList_ofList]) gap
          (by rw [String.toList_ofList]; exact trim_trims rest)
        rwa [String.toList_ofList, ← parts]

theorem span_size (delimiter : Delimiter) (inner : List Char) :
    byteSize (Segment.span delimiter inner).source = 2 + byteSize inner + 2 := by
  simp only [Segment.source, byteSize_cons, byteSize_append, byteSize_nil,
    ascii_size (show IsAscii '{' by decide), ascii_size (show IsAscii '}' by decide),
    ascii_size (mark_ascii delimiter), ascii_size (closing_mark_ascii delimiter)]
  omega

theorem tokens_from_text (offset : Nat) (gap : List Char) (more : List Segment) :
    ∃ tokens, tokensFrom offset (textSegment gap ++ more) =
        tokens ++ tokensFrom (offset + byteSize gap) more ∧
      (AllBlank gap ∧ tokens = [] ∨
        ¬ AllBlank gap ∧ tokens = [⟨.text (String.ofList gap), String.ofList gap, offset⟩]) := by
  by_cases empty : gap = []
  · subst empty
    exact ⟨[], rfl, .inl ⟨by simp [AllBlank], rfl⟩⟩
  · have shape : textSegment gap = [.text gap] := if_neg empty
    rw [shape, List.singleton_append, tokensFrom, Segment.isBlank, Segment.source, Segment.kind]
    by_cases blank : AllBlank gap
    · refine ⟨[], ?_, .inl ⟨blank, rfl⟩⟩
      rw [if_pos (List.all_eq_true.mpr blank)]
      rfl
    · refine ⟨[_], ?_, .inr ⟨blank, rfl⟩⟩
      rw [if_neg fun all => blank (List.all_eq_true.mp all)]
      rfl

theorem gap_tokens {source : String} {before gap after : List Char}
    (parts : source.toList = before ++ gap ++ after) {tokens : List Token}
    (shown : AllBlank gap ∧ tokens = [] ∨ ¬ AllBlank gap ∧
      tokens = [⟨.text (String.ofList gap), String.ofList gap, byteSize before⟩]) :
    GapTokens source (byteSize before) (byteSize (before ++ gap)) tokens := by
  have placed := piece_of_chars parts
  rcases shown with ⟨blank, rfl⟩ | ⟨shown, rfl⟩
  · exact .dropped placed (by rwa [String.toList_ofList])
  · exact .kept placed (by rwa [String.toList_ofList])

theorem span_token {source : String} {before inner after : List Char} {delimiter : Delimiter}
    (parts : source.toList = before ++ ((Segment.span delimiter inner).source ++ after)) :
    SpanToken source delimiter (byteSize before) (byteSize before + (2 + byteSize inner))
      ⟨(Segment.span delimiter inner).kind, String.ofList (Segment.span delimiter inner).source,
        byteSize before⟩ := by
  refine ⟨rfl, ?_, inner, segment_reads delimiter inner, String.toList_ofList⟩
  have placed := piece_of_chars (show source.toList = before ++ _ ++ after by
    rw [parts, List.append_assoc])
  rwa [byteSize_append, span_size, ← Nat.add_assoc] at placed

/-- From any cut on, the tokens are those that the rules allow. -/
theorem segmented_from (source : String) (before rest : List Char)
    (parts : source.toList = before ++ rest) :
    Segmented source (byteSize before) (tokensFrom (byteSize before) (segments rest)) := by
  -- The induction is on the text that is left, which gets shorter with each span.
  induction size : rest.length using Nat.strong_induction_on generalizing before rest with
  | h total further_on =>
      obtain ⟨gap, after, rfl, free, cut⟩ := segments_shape rest
      rw [← List.append_assoc] at parts
      have noSpan := free_bytes parts free
      rcases cut with ⟨rfl, same⟩ | ⟨delimiter, inner, further, found, same⟩
      · obtain ⟨tokens, shape, shown⟩ := tokens_from_text (byteSize before) gap []
        have whole : byteSize (before ++ gap) = source.utf8ByteSize := by
          rw [byteSize_eq, parts, List.append_nil]
        have text := gap_tokens parts shown
        rw [List.append_nil, tokensFrom, List.append_nil] at shape
        rw [same, shape]
        rw [whole] at noSpan text
        exact .last noSpan text
      · obtain ⟨tokens, shape, shown⟩ := tokens_from_text (byteSize before) gap
          (.span delimiter inner :: segments further)
        have text := gap_tokens parts shown
        obtain rfl := span_at_head_source found
        have span := (span_at_cut parts delimiter _).mpr
          ((span_at_head_iff _ delimiter _).mpr ⟨inner, further, found, rfl⟩)
        have shorter : further.length < total := by
          rw [← size, List.length_append, List.length_append, Segment.source, List.length_cons]
          omega
        have rest := further_on _ shorter (before ++ gap ++ (Segment.span delimiter inner).source)
          further (by rw [parts, List.append_assoc (before ++ gap)]) rfl
        have onward : byteSize (before ++ gap ++ (Segment.span delimiter inner).source) =
            byteSize (before ++ gap) + (2 + byteSize inner) + 2 := by
          rw [byteSize_append, span_size]
          omega
        rw [onward] at rest
        rw [same, shape, tokensFrom, Segment.isBlank, if_neg (by decide), ← byteSize_append,
          span_size, ← Nat.add_assoc]
        exact .span (by rw [byteSize_append]; omega) noSpan span text (span_token parts) rest

end Cutting

/-- A token stands in the source with all its text, which is never empty. A token of text
shows that text, in which no span could be read. -/
structure Laid (source : String) (token : Token) : Prop where
  placed : PieceAt source token.raw token.offset token.stop
  nonempty : token.offset < token.stop
  verbatim : ∀ content, token.kind = .text content → content = token.raw ∧
    ∀ delimiter start close, ¬ SpanAt (bytes content) delimiter start close

/-- Tokens in order make up a text together with blanks before each of them and at the end. -/
def Covers (chars : List Char) (tokens : List Token) : Prop :=
  ∃ blanks last, blanks.length = tokens.length ∧ (∀ blank ∈ last :: blanks, AllBlank blank) ∧
    chars =
      (List.zipWith (fun blank token => blank ++ token.raw.toList) blanks tokens).flatten ++ last

/-- The tokens stand one after the other, and are all of the source but for blanks. -/
structure Layout (source : String) (tokens : List Token) : Prop where
  laid : ∀ token ∈ tokens, Laid source token
  increasing : tokens.Pairwise fun earlier later => earlier.stop ≤ later.offset
  whole : Covers source.toList tokens

section Consequences

variable {source : String} {start stop close : Nat} {delimiter : Delimiter} {token : Token}
  {tokens : List Token}

theorem gap_laid (text : GapTokens source start stop tokens) (free : NoSpanFrom source start stop) :
    ∀ token ∈ tokens, Laid source token ∧ token.offset = start ∧ token.stop = stop := by
  cases text with
  | dropped => simp
  | @kept piece placed shown =>
      intro token member
      obtain rfl := List.mem_singleton.mp member
      have size := piece_size placed
      refine ⟨⟨?_, ?_, ?_⟩, rfl, size⟩
      · rwa [Token.stop, size]
      · have some_char : piece.toList ≠ [] := by
          intro empty
          exact shown (by rw [empty]; intro char member; cases member)
        have positive := byteSize_pos some_char
        rw [← byteSize_eq] at positive
        exact Nat.lt_add_of_pos_right positive
      · rintro content same
        cases same
        refine ⟨rfl, ?_⟩
        intro delimiter inside close span
        -- A span inside the text would be one of the source that starts in the gap.
        obtain ⟨front, back, parts, rfl⟩ := piece_bytes placed
        have wider : SpanAt (bytes piece ++ back) delimiter inside close := span_before_more span
        have outside := (span_shifted front).mpr wider
        rw [← parts] at outside
        have start_inside := span_start_in_bounds span
        exact free delimiter _ _ (by omega) (by omega) outside

theorem span_laid (shown : SpanToken source delimiter start close token) :
    Laid source token ∧ token.offset = start ∧ token.stop = close + 2 := by
  obtain ⟨rfl, placed, inner, reads, parts⟩ := shown
  have size := piece_size placed
  refine ⟨⟨?_, ?_, ?_⟩, rfl, size⟩
  · rwa [Token.stop, size]
  · have positive := byteSize_pos (show token.raw.toList ≠ [] by rw [parts]; simp)
    rw [← byteSize_eq] at positive
    exact Nat.lt_add_of_pos_right positive
  · intro content same
    rw [same] at reads
    cases reads

theorem segmented_laid (segmented : Segmented source start tokens) :
    ∀ token ∈ tokens, Laid source token ∧ start ≤ token.offset := by
  induction segmented with
  | last free text =>
      intro token member
      obtain ⟨laid, offset, -⟩ := gap_laid text free token member
      exact ⟨laid, by omega⟩
  | span later free found text shown after laid_after =>
      intro token member
      rcases List.mem_append.mp member with inGap | member
      · obtain ⟨laid, offset, -⟩ := gap_laid text free token inGap
        exact ⟨laid, by omega⟩
      · obtain ⟨laid, offset, -⟩ := span_laid shown
        rcases List.mem_cons.mp member with rfl | member
        · exact ⟨laid, by omega⟩
        · have past := found.closed.later
          exact ⟨(laid_after token member).1, by have := (laid_after token member).2; omega⟩

theorem gap_increasing (text : GapTokens source start stop tokens) :
    tokens.Pairwise fun earlier later => earlier.stop ≤ later.offset := by
  cases text with
  | kept => exact List.pairwise_singleton _ _
  | dropped => exact List.Pairwise.nil

theorem segmented_increasing (segmented : Segmented source start tokens) :
    tokens.Pairwise fun earlier later => earlier.stop ≤ later.offset := by
  induction segmented with
  | last free text => exact gap_increasing text
  | @span start opening close delimiter gap rest token later free found text shown after
      increasing =>
      obtain ⟨-, offset, stop⟩ := span_laid shown
      have past := found.closed.later
      have beyond := segmented_laid after
      refine List.pairwise_append.mpr
        ⟨gap_increasing text, List.pairwise_cons.mpr ⟨?_, increasing⟩, ?_⟩
      · intro other member
        exact stop.trans_le (beyond other member).2
      · intro early inGap other member
        obtain ⟨-, -, ends⟩ := gap_laid text free early inGap
        rcases List.mem_cons.mp member with rfl | member
        · omega
        · have := (beyond other member).2
          omega

theorem covers_nothing : Covers [] [] := ⟨[], [], rfl, by simp [AllBlank], rfl⟩

theorem covers_token {chars : List Char} (token : Token) (covers : Covers chars tokens) :
    Covers (token.raw.toList ++ chars) (token :: tokens) := by
  obtain ⟨blanks, last, lengths, blank, rfl⟩ := covers
  refine ⟨[] :: blanks, last, by simp [lengths], ?_, by simp⟩
  intro chars member
  rcases List.mem_cons.mp member with rfl | member
  · exact blank _ (by simp)
  · rcases List.mem_cons.mp member with rfl | member
    · simp [AllBlank]
    · exact blank chars (by simp [member])

theorem covers_blank {front chars : List Char} (blank : AllBlank front)
    (covers : Covers chars tokens) : Covers (front ++ chars) tokens := by
  obtain ⟨blanks, last, lengths, allBlank, rfl⟩ := covers
  have joined : ∀ chars, AllBlank chars → AllBlank (front ++ chars) := by
    intro chars more char member
    exact (List.mem_append.mp member).elim (blank char) (more char)
  cases tokens with
  | nil =>
      obtain rfl := List.length_eq_zero_iff.mp lengths
      refine ⟨[], front ++ last, rfl, ?_, rfl⟩
      simpa using joined last (allBlank last (by simp))
  | cons token tokens =>
      obtain ⟨first, blanks, rfl⟩ := List.exists_cons_of_length_eq_add_one lengths
      refine ⟨(front ++ first) :: blanks, last, lengths, ?_, by simp⟩
      have firstBlank := joined first (allBlank first (by simp))
      intro chars member
      simp only [List.mem_cons] at member allBlank
      rcases member with rfl | rfl | member
      · exact allBlank _ (.inl rfl)
      · exact firstBlank
      · exact allBlank _ (.inr (.inr member))

theorem covers_gap {gap : List Token} (text : GapTokens source start stop gap) :
    ∃ piece, PieceAt source piece start stop ∧ ∀ chars tokens, Covers chars tokens →
      Covers (piece.toList ++ chars) (gap ++ tokens) := by
  cases text with
  | kept placed => exact ⟨_, placed, fun _ _ covers => covers_token _ covers⟩
  | dropped placed blank => exact ⟨_, placed, fun _ _ covers => covers_blank blank covers⟩

theorem segmented_covers (segmented : Segmented source start tokens) {before rest : List Char}
    (parts : source.toList = before ++ rest) (size : byteSize before = start) :
    Covers rest tokens := by
  induction segmented generalizing before rest with
  | last free text =>
      obtain ⟨piece, placed, covers⟩ := covers_gap text
      obtain ⟨after, rfl, whole⟩ := piece_at_cut placed parts size
      have nothing : after = [] := by
        rw [byteSize_eq, parts, ← List.append_assoc] at whole
        exact (cut_unique (List.append_nil _) whole.symm).2.symm
      rw [nothing]
      simpa using covers [] [] covers_nothing
  | span later free found text shown after covers_after =>
      obtain ⟨piece, placed, covers⟩ := covers_gap text
      obtain ⟨more, rfl, stop⟩ := piece_at_cut placed parts size
      rw [← List.append_assoc] at parts
      obtain ⟨rest, rfl, end_stop⟩ := piece_at_cut shown.placed parts stop
      rw [← List.append_assoc] at parts
      exact covers _ _ (covers_token _ (covers_after parts end_stop))

theorem segmented_layout (segmented : Segmented source 0 tokens) : Layout source tokens where
  laid token member := (segmented_laid segmented token member).1
  increasing := segmented_increasing segmented
  whole := segmented_covers segmented (List.nil_append _).symm rfl

end Consequences

/-- The tokenizer cuts a source along its leftmost spans, in the one way there is to do so.
Its tokens stand in the source in order, and only blanks of the source are in none of them. -/
theorem tokenize_cuts_leftmost_spans (source : String) :
    (∀ tokens, Segmented source 0 tokens ↔ tokens = tokenize source) ∧
      Layout source (tokenize source) := by
  have segmented : Segmented source 0 (tokenize source) :=
    segmented_from source [] source.toList (List.nil_append _).symm
  refine ⟨fun tokens => ⟨fun other => segmented_unique other segmented, ?_⟩,
    segmented_layout segmented⟩
  rintro rfl
  exact segmented

end Letterpress.Template
