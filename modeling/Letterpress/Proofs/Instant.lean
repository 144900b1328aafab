import Letterpress.Instant
import Letterpress.Proofs.Json.Numeral
import Mathlib.Tactic.IntervalCases

/-!
Times read back as they are written. The calendar first: days and dates match, one to one,
because the year of a day grows with the day and is right at both ends of each year. Then
the text: each number is written with digits that end where its mark stands. Times come one
after another, too.
-/

namespace Letterpress.Instant

section Calendar

/-- The year of a cycle of 400 years that a day of it is in. -/
def yearOfCycle (day : Nat) : Nat := (day - (day / 1460 - day / 36524 + day / 146096)) / 365

def yearStart (year : Nat) : Nat := 365 * year + year / 4 - year / 100 + year / 400

/-- A day of a year that starts in March. -/
def dayIn (year : Int) (dayOfYear : Nat) : Date :=
  let shiftedMonth := (5 * dayOfYear + 2) / 153
  let day := dayOfYear - (153 * shiftedMonth + 2) / 5 + 1
  let month := if shiftedMonth < 10 then shiftedMonth + 3 else shiftedMonth - 9
  ⟨year + (if month ≤ 2 then 1 else 0), month, day⟩

theorem year_of_ends : ∀ year < 400, yearOfCycle (yearStart year) = year ∧
    yearOfCycle (yearStart (year + 1) - 1) = year := by
  decide +kernel

theorem year_of_cycle_mono {day later : Nat} (order : day ≤ later) (within : later < 146097) :
    yearOfCycle day ≤ yearOfCycle later := by
  induction order with
  | refl => exact Nat.le_refl _
  | @step later order before =>
      refine (before (by omega)).trans ?_
      unfold yearOfCycle
      apply Nat.div_le_div_right
      omega

theorem year_bounds {day : Nat} (within : day < 146097) :
    yearOfCycle day < 400 ∧ yearStart (yearOfCycle day) ≤ day ∧
      day < yearStart (yearOfCycle day + 1) := by
  have last : yearOfCycle 146096 = 399 := by decide
  have bounded : yearOfCycle day ≤ yearOfCycle 146096 := year_of_cycle_mono (by omega) (by omega)
  have small : yearOfCycle day < 400 := by omega
  refine ⟨small, ?_, ?_⟩
  · by_contra early
    cases year : yearOfCycle day with
    | zero => simp [year, yearStart] at early
    | succ before =>
        rw [year] at early
        have ended := (year_of_ends before (by omega)).2
        have end_within : yearStart (before + 1) - 1 < 146097 := by
          unfold yearStart
          omega
        have grown : yearOfCycle day ≤ yearOfCycle (yearStart (before + 1) - 1) :=
          year_of_cycle_mono (by omega) end_within
        omega
  · by_contra late
    by_cases final : yearOfCycle day = 399
    · rw [final] at late
      exact late within
    · have begun := (year_of_ends (yearOfCycle day + 1) (by omega)).1
      have grown : yearOfCycle (yearStart (yearOfCycle day + 1)) ≤ yearOfCycle day :=
        year_of_cycle_mono (by omega) within
      omega

/-- Years have 366 days where the calendar year that ends them is a leap year. -/
theorem year_length {year : Nat} (within : year < 400) :
    yearStart (year + 1) = yearStart year + (if isLeapYear (year + 1) then 366 else 365) := by
  have lengths : ∀ year < 400, yearStart (year + 1) =
      yearStart year + (if isLeapYear ((year : Int) + 1) then 366 else 365) := by
    decide +kernel
  exact lengths year within

theorem leap_year_of_cycle (cycle year : Int) :
    isLeapYear (cycle * 400 + year) = isLeapYear year := by
  have quarter : (cycle * 400 + year) % 4 = year % 4 := by omega
  have century : (cycle * 400 + year) % 100 = year % 100 := by omega
  have whole : (cycle * 400 + year) % 400 = year % 400 := by omega
  rw [isLeapYear, quarter, century, whole, isLeapYear]

theorem of_days_eq (days : Int) :
    ∃ year dayOfYear, Date.ofDays days = dayIn year dayOfYear ∧
      dayOfYear < (if isLeapYear (year + 1) then 366 else 365) ∧
      days = year * 365 + year / 4 - year / 100 + year / 400 + dayOfYear - 719468 := by
  have within : ((days + 719468) % 146097).toNat < 146097 := by omega
  obtain ⟨small, begun, unended⟩ := year_bounds within
  generalize from_cycle : ((days + 719468) % 146097).toNat = day at *
  generalize of_cycle : yearOfCycle day = year at *
  refine ⟨(days + 719468) / 146097 * 400 + year, day - yearStart year, ?_, ?_, ?_⟩
  · have start : yearStart year = 365 * year + year / 4 - year / 100 := by
      unfold yearStart
      omega
    rw [Date.ofDays, start, ← of_cycle, ← from_cycle]
    rfl
  · rw [Int.add_assoc, leap_year_of_cycle]
    have length := year_length small
    omega
  · have cycle := Int.emod_add_mul_ediv (days + 719468) 146097
    generalize (days + 719468) / 146097 = count at cycle ⊢
    have quarters : (count * 400 + year) / 4 = count * 100 + (year : Int) / 4 := by omega
    have centuries : (count * 400 + year) / 100 = count * 4 + (year : Int) / 100 := by omega
    have cycles : (count * 400 + year) / 400 = count + (year : Int) / 400 := by omega
    rw [quarters, centuries, cycles]
    unfold yearStart at *
    omega

theorem to_days_day_in {year : Int} {dayOfYear : Nat} (within : dayOfYear < 366) :
    (dayIn year dayOfYear).toDays =
      year * 365 + year / 4 - year / 100 + year / 400 + dayOfYear - 719468 := by
  have months : (5 * dayOfYear + 2) / 153 < 12 := by omega
  unfold dayIn Date.toDays
  generalize month : (5 * dayOfYear + 2) / 153 = shifted at *
  dsimp only
  have quarters : year % 400 / 4 = year / 4 - year / 400 * 100 := by omega
  have centuries : year % 400 / 100 = year / 100 - year / 400 * 4 := by omega
  by_cases before : shifted < 10
  · have month : ¬shifted + 3 ≤ 2 := by omega
    have back : ((shifted + 3 : Nat) + 9) % 12 = (shifted : Int) := by omega
    simp only [if_pos before, if_neg month, Int.add_zero, quarters, centuries, back]
    omega
  · have month : shifted - 9 ≤ 2 := by omega
    have back : ((shifted - 9 : Nat) + 9) % 12 = (shifted : Int) := by omega
    simp only [if_neg before, if_pos month, Int.add_sub_cancel, quarters, centuries, back]
    omega

theorem day_in_valid {year : Int} {dayOfYear : Nat}
    (within : dayOfYear < if isLeapYear (year + 1) then 366 else 365) :
    1 ≤ (dayIn year dayOfYear).month ∧ (dayIn year dayOfYear).month ≤ 12 ∧
      1 ≤ (dayIn year dayOfYear).day ∧
      (dayIn year dayOfYear).day ≤
        daysInMonth (dayIn year dayOfYear).year (dayIn year dayOfYear).month := by
  have months : (5 * dayOfYear + 2) / 153 < 12 := by
    split at within <;> omega
  unfold dayIn
  generalize month : (5 * dayOfYear + 2) / 153 = shifted at *
  dsimp only
  interval_cases shifted <;> simp [daysInMonth] <;> split at within <;> simp_all <;> omega

theorem to_days_of_days (days : Int) : (Date.ofDays days).toDays = days := by
  obtain ⟨year, dayOfYear, same, within, from_start⟩ := of_days_eq days
  rw [same, from_start, to_days_day_in]
  split at within <;> omega

theorem of_days_valid {days : Int} (inRange : yearInRange (Date.ofDays days).year = true) :
    (Date.ofDays days).isValid = true := by
  obtain ⟨year, dayOfYear, same, within, -⟩ := of_days_eq days
  have valid := day_in_valid within
  rw [← same] at valid
  simp [Date.isValid, inRange, valid]

end Calendar

section Digits

variable {width number : Nat} {char : Char} {rest : List Char}

theorem padded_digits (member : char ∈ padded width number) : Decimal.isDigit char = true := by
  rcases List.mem_append.mp member with zero | digit
  · rw [List.eq_of_mem_replicate zero]
    decide
  · exact Decimal.digits_are_digits digit

theorem padded_not_empty (width number : Nat) : padded width number ≠ [] := by
  intro empty
  exact Decimal.digits_not_empty number (List.append_eq_nil_iff.mp empty).2

theorem padded_length (positive : 0 < width) (fits : number < 10 ^ width) :
    (padded width number).length = width := by
  have short : (Decimal.digitsOf number).length ≤ width :=
    (Nat.length_toDigits_le_iff (by omega) positive).mpr fits
  rw [padded, List.length_append, List.length_replicate]
  omega

theorem of_digits_padded (width number : Nat) :
    Decimal.ofDigits (padded width number) = number := by
  rw [padded, Decimal.of_digits_zeros, Decimal.of_digits_digits_of]

theorem padded_starts (width number : Nat) :
    ∃ first others, padded width number = first :: others ∧ Decimal.isDigit first = true := by
  cases digits : padded width number with
  | nil => exact absurd digits (padded_not_empty width number)
  | cons first others => exact ⟨first, others, rfl, padded_digits (by rw [digits]; simp)⟩

/-- What follows digits does not go on with them. -/
def Stops (rest : List Char) : Prop := ∀ char ∈ rest.head?, Decimal.isDigit char = false

theorem read_digits_padded {limit : Nat} (fits : (padded width number).length ≤ limit)
    (stops : Stops rest) :
    readDigits? limit (padded width number ++ rest) = some (number, rest) := by
  have room : limit = (padded width number).length + (limit - (padded width number).length) := by
    omega
  have front : (padded width number ++ rest).take limit =
      padded width number ++ rest.take (limit - (padded width number).length) := by
    rw [room, List.take_length_add_append, ← room]
  have stops_short : ∀ char ∈ (rest.take (limit - (padded width number).length)).head?,
      Decimal.isDigit char = false := by
    intro char member
    rw [List.head?_take] at member
    split at member
    · cases member
    · exact stops char member
  have digits : ∀ char ∈ padded width number, Decimal.isDigit char = true :=
    fun _ => padded_digits
  have taken := (Numeral.take_digits digits stops_short).1
  have some_digit : (padded width number).isEmpty = false :=
    List.isEmpty_eq_false_iff.mpr (padded_not_empty width number)
  rw [readDigits?, front, taken, some_digit, of_digits_padded, List.drop_left]
  rfl

theorem trim_padded (width number : Nat) (rest : List Char) :
    Text.trimStart (padded width number ++ rest) = padded width number ++ rest := by
  obtain ⟨first, others, starts, digit⟩ := padded_starts width number
  simp [starts, Text.trimStart, Decimal.digit_not_blank digit]

theorem read_pair (fits : number < 100) (stops : Stops rest) :
    readPair? (padded 2 number ++ rest) = some (number, rest) := by
  rw [readPair?, trim_padded]
  exact read_digits_padded (padded_length (by omega) fits).le stops

theorem read_year_below (chars : List Char) :
    readYear? ('-' :: chars) =
      (readDigits? chars.length chars).map fun (year, rest) => (-(year : Int), rest) :=
  rfl

theorem read_year_above (chars : List Char) :
    readYear? ('+' :: chars) =
      (readDigits? chars.length chars).map fun (year, rest) => ((year : Int), rest) :=
  rfl

theorem read_year {year : Int} (stops : Stops rest) :
    readYear? (renderYear year ++ rest) = some (year, rest) := by
  unfold renderYear
  split
  · next plain =>
      simp only [Bool.and_eq_true, decide_eq_true_eq] at plain
      have read : readDigits? 4 (padded 4 year.toNat ++ rest) = some (year.toNat, rest) :=
        read_digits_padded (padded_length (by omega) (by omega)).le stops
      have same : (year.toNat : Int) = year := Int.toNat_of_nonneg plain.1
      obtain ⟨first, others, starts, digit⟩ := padded_starts 4 year.toNat
      rw [readYear?, trim_padded]
      rw [starts, List.cons_append] at read ⊢
      split
      · next minus =>
          injection minus with minus
          subst minus
          cases digit
      · next plus =>
          injection plus with plus
          subst plus
          cases digit
      · rw [read, Option.map_some]
        dsimp only
        rw [same]
  · next signed =>
      have read : readDigits? (padded 4 year.natAbs ++ rest).length
          (padded 4 year.natAbs ++ rest) = some (year.natAbs, rest) :=
        read_digits_padded (by simp) stops
      by_cases negative : year < 0
      · have same : -(year.natAbs : Int) = year := by omega
        rw [if_pos negative, List.cons_append, read_year_below, read, Option.map_some]
        dsimp only
        rw [same]
      · have same : (year.natAbs : Int) = year := by omega
        rw [if_neg negative, List.cons_append, read_year_above, read, Option.map_some]
        dsimp only
        rw [same]

/-- Decimal places give back the nanoseconds that they are rounded down from. -/
theorem read_places {width : Nat} (positive : 0 < width) (most : width ≤ 9)
    (fits : number < 10 ^ width) (stops : Stops rest) :
    readFraction? ('.' :: padded width number ++ rest) =
      some (number * Decimal.tenTo (9 - width), rest) := by
  have digits : ∀ char ∈ padded width number, Decimal.isDigit char = true :=
    fun _ => padded_digits
  obtain ⟨taken, dropped⟩ := Numeral.take_digits digits stops
  have some_digit : (padded width number).isEmpty = false :=
    List.isEmpty_eq_false_iff.mpr (padded_not_empty width number)
  have length := padded_length positive fits
  have kept : (padded width number).take 9 = padded width number :=
    List.take_of_length_le (by omega)
  rw [List.cons_append, readFraction?]
  dsimp only
  rw [taken, dropped, some_digit, kept, of_digits_padded, length]
  rfl

theorem read_fraction {nanoseconds : Nat} (fits : nanoseconds < 1000000000)
    (stops : ∀ char ∈ rest.head?, Decimal.isDigit char = false ∧ char ≠ '.') :
    readFraction? (renderFraction nanoseconds ++ rest) = some (nanoseconds, rest) := by
  have no_digit : Stops rest := fun char first => (stops char first).1
  unfold renderFraction
  split
  · next zero =>
      rw [beq_iff_eq] at zero
      rw [zero, List.nil_append]
      unfold readFraction?
      split
      · next point => exact absurd rfl (stops '.' rfl).2
      · rfl
  · split
    · next thousandths =>
        rw [beq_iff_eq] at thousandths
        rw [read_places (by omega) (by omega) (by omega) no_digit]
        change some (nanoseconds / 1000000 * 1000000, rest) = _
        rw [Nat.div_mul_cancel (Nat.dvd_of_mod_eq_zero thousandths)]
    · split
      · next millionths =>
          rw [beq_iff_eq] at millionths
          rw [read_places (by omega) (by omega) (by omega) no_digit]
          change some (nanoseconds / 1000 * 1000, rest) = _
          rw [Nat.div_mul_cancel (Nat.dvd_of_mod_eq_zero millionths)]
      · rw [read_places (by omega) (by omega) (by omega) no_digit]
        change some (nanoseconds * 1, rest) = _
        rw [Nat.mul_one]

end Digits

section Order

variable {first second third : Instant}

theorem after_trans (later : third.isAfter second = true) (after : second.isAfter first = true) :
    third.isAfter first = true := by
  simp only [isAfter, Bool.or_eq_true, Bool.and_eq_true, decide_eq_true_eq, beq_iff_eq] at *
  omega

theorem not_after_earlier (after : second.isAfter first = true) :
    first.isAfter second = false := by
  rw [Bool.eq_false_iff]
  simp only [isAfter, ne_eq, Bool.or_eq_true, Bool.and_eq_true, decide_eq_true_eq,
    beq_iff_eq] at *
  omega

end Order

/-- A time that a date has: its year is in range, and a leap second ends its minute. -/
structure Proper (instant : Instant) : Prop where
  year : yearInRange (Date.ofDays (instant.seconds / 86400)).year = true
  nanoseconds : instant.nanoseconds < 1000000000 ∨
    instant.nanoseconds < 2000000000 ∧ instant.seconds % 60 = 59

instance : DecidablePred Proper := fun instant =>
  decidable_of_iff
    (yearInRange (Date.ofDays (instant.seconds / 86400)).year = true ∧
      (instant.nanoseconds < 1000000000 ∨
        instant.nanoseconds < 2000000000 ∧ instant.seconds % 60 = 59))
    ⟨fun ⟨year, nanoseconds⟩ => ⟨year, nanoseconds⟩,
      fun ⟨year, nanoseconds⟩ => ⟨year, nanoseconds⟩⟩

def written (date : Date) (hour minute second fraction : Nat) : List Char :=
  renderYear date.year ++ '-' :: (padded 2 date.month ++ '-' :: (padded 2 date.day ++
    'T' :: (padded 2 hour ++ ':' :: (padded 2 minute ++ ':' :: (padded 2 second ++
      (renderFraction fraction ++ ['Z']))))))

theorem stops_mark {mark : Char} (rest : List Char) (other : Decimal.isDigit mark = false) :
    Stops (mark :: rest) := by
  intro char first
  cases first
  exact other

theorem stops_fraction (nanoseconds : Nat) : Stops (renderFraction nanoseconds ++ ['Z']) := by
  unfold renderFraction
  split
  · exact stops_mark _ (by decide)
  · split
    · exact stops_mark _ (by decide)
    · split <;> exact stops_mark _ (by decide)

theorem read_written {date : Date} {hour minute second fraction : Nat}
    (valid : date.isValid = true) (hours : hour < 24) (minutes : minute < 60)
    (seconds : second ≤ 60) (places : fraction < 1000000000) :
    read? (String.ofList (written date hour minute second fraction)) =
      (let leap := second == 60
      let secondOfDay : Int := 3600 * hour + 60 * minute + (if leap then 59 else second)
      let seconds := date.toDays * 86400 + secondOfDay
      if yearInRange (Date.ofDays (seconds / 86400)).year then
        some ⟨seconds, if leap then 1000000000 + fraction else fraction⟩
      else none) := by
  have sizes : date.month < 100 ∧ date.day < 100 := by
    simp only [Date.isValid, Bool.and_eq_true, decide_eq_true_eq] at valid
    have longest : daysInMonth date.year date.month ≤ 31 := by
      unfold daysInMonth
      split
      · split <;> omega
      all_goals omega
    omega
  have dash : ∀ rest, afterMark? '-' ('-' :: rest) = some rest := fun _ => rfl
  have colon : ∀ rest, afterMark? ':' (':' :: rest) = some rest := fun _ => rfl
  have separator : ∀ rest, afterSeparator? ('T' :: rest) = some rest := fun _ => rfl
  have universal : readOffset? (Text.trimStart ['Z']) = some (0, []) := by decide
  have year_read : ∀ rest, readYear? (renderYear date.year ++ '-' :: rest) =
      some (date.year, '-' :: rest) := fun rest => read_year (stops_mark rest (by decide))
  have month_read : ∀ rest, readPair? (padded 2 date.month ++ '-' :: rest) =
      some (date.month, '-' :: rest) :=
    fun rest => read_pair (by omega) (stops_mark rest (by decide))
  have day_read : ∀ rest, readPair? (padded 2 date.day ++ 'T' :: rest) =
      some (date.day, 'T' :: rest) :=
    fun rest => read_pair (by omega) (stops_mark rest (by decide))
  have clock_read : ∀ number < 100, ∀ rest, readPair? (padded 2 number ++ ':' :: rest) =
      some (number, ':' :: rest) :=
    fun number fits rest => read_pair fits (stops_mark rest (by decide))
  have second_read : readPair? (padded 2 second ++ (renderFraction fraction ++ ['Z'])) =
      some (second, renderFraction fraction ++ ['Z']) :=
    read_pair (by omega) (stops_fraction fraction)
  have fraction_read : readFraction? (renderFraction fraction ++ ['Z']) =
      some (fraction, ['Z']) :=
    read_fraction places (by simp; decide)
  have day_time : ¬((24 ≤ hour ∨ 60 ≤ minute) ∨ 60 < second) := by omega
  unfold read? written
  simp only [String.toList_ofList, bind, Option.bind, year_read, dash, month_read, day_read,
    separator, clock_read hour (by omega), colon, clock_read minute (by omega), second_read,
    fraction_read, universal]
  have blank_end : (Text.trimStart []).isEmpty = true := rfl
  have same_date : (⟨date.year, date.month, date.day⟩ : Date) = date := rfl
  rw [same_date, valid, blank_end, if_neg (by simp), if_neg (by simpa using day_time)]
  simp only [Int.sub_zero]
  rfl

theorem read_text {now : Instant} (proper : now.Proper) : read? now.toText = some now := by
  obtain ⟨seconds, nanoseconds⟩ := now
  have in_range : yearInRange (Date.ofDays (seconds / 86400)).year = true := proper.year
  have valid := of_days_valid in_range
  have back := to_days_of_days (seconds / 86400)
  have split_day := Int.emod_add_mul_ediv seconds 86400
  by_cases leap : 1000000000 ≤ nanoseconds
  · have last : nanoseconds < 2000000000 ∧ seconds % 60 = 59 := by
      rcases proper.nanoseconds with small | last
      · exact absurd leap (by dsimp only at small; omega)
      · exact last
    have text : toText ⟨seconds, nanoseconds⟩ = String.ofList (written
        (Date.ofDays (seconds / 86400)) ((seconds % 86400).toNat / 3600)
        ((seconds % 86400).toNat / 60 % 60) 60 (nanoseconds - 1000000000)) := by
      have second : (seconds % 86400).toNat % 60 + 1 = 60 := by omega
      simp only [toText, render, written, leap, if_true, second,
        List.append_assoc, List.cons_append]
    have same : seconds / 86400 * 86400 + (3600 * ((seconds % 86400).toNat / 3600 : Nat) +
        60 * ((seconds % 86400).toNat / 60 % 60 : Nat) + 59) = seconds := by omega
    have fraction : 1000000000 + (nanoseconds - 1000000000) = nanoseconds := by omega
    rw [text, read_written valid (by omega) (by omega) (by omega) (by omega), back]
    simp only [beq_self_eq_true, if_true, Nat.cast_ofNat, same, in_range, fraction]
  · have text : toText ⟨seconds, nanoseconds⟩ = String.ofList (written
        (Date.ofDays (seconds / 86400)) ((seconds % 86400).toNat / 3600)
        ((seconds % 86400).toNat / 60 % 60) ((seconds % 86400).toNat % 60) nanoseconds) := by
      simp only [toText, render, written, leap, if_false, Nat.add_zero, List.append_assoc,
        List.cons_append]
    have same : seconds / 86400 * 86400 + (3600 * ((seconds % 86400).toNat / 3600 : Nat) +
        60 * ((seconds % 86400).toNat / 60 % 60 : Nat) + ((seconds % 86400).toNat % 60 : Nat)) =
        seconds := by omega
    have regular : ((seconds % 86400).toNat % 60 == 60) = false := by
      rw [beq_eq_false_iff_ne]
      omega
    rw [text, read_written valid (by omega) (by omega) (by omega) (by omega), back]
    simp only [regular, Bool.false_eq_true, if_false, same, in_range, if_true]

example : Proper ⟨1483228799, 1000000000⟩ ∧
    toText ⟨1483228799, 1000000000⟩ = "2016-12-31T23:59:60Z" := by
  decide +kernel

end Letterpress.Instant
