import Letterpress.Text.Blank
import Letterpress.Decimal.Text

/-!
Points in time, and their text in universal time: `2024-01-02T03:04:05.123Z`, with no,
three, six or nine decimal places of a second, the fewest that lose nothing. Reading
accepts any offset from universal time, a blank or `t` between date and time, one digit
instead of two, and blanks around numbers. A leap second is the 60th of its minute.
-/

namespace Letterpress

/-- Seconds since the start of 1970 and nanoseconds on top. A leap second repeats the
second before it with nanoseconds from one milliard up. -/
structure Instant where
  seconds : Int
  nanoseconds : Nat
  deriving DecidableEq, Repr

namespace Instant

def ofSeconds (seconds : Int) : Instant := ⟨seconds, 0⟩

def isAfter (later earlier : Instant) : Bool :=
  earlier.seconds < later.seconds ||
    (earlier.seconds == later.seconds && earlier.nanoseconds < later.nanoseconds)

structure Date where
  year : Int
  month : Nat
  day : Nat
  deriving DecidableEq, Repr

def isLeapYear (year : Int) : Bool := year % 4 == 0 && (year % 100 != 0 || year % 400 == 0)

def daysInMonth (year : Int) (month : Nat) : Nat :=
  match month with
  | 2 => if isLeapYear year then 29 else 28
  | 4 | 6 | 9 | 11 => 30
  | _ => 31

def yearInRange (year : Int) : Bool := -262143 ≤ year && year ≤ 262142

def Date.isValid (date : Date) : Bool :=
  yearInRange date.year && 1 ≤ date.month && date.month ≤ 12 &&
    1 ≤ date.day && date.day ≤ daysInMonth date.year date.month

/-- Days from the start of 1970. Years are counted from March, so that the leap day
comes last. -/
def Date.toDays (date : Date) : Int :=
  let year := if date.month ≤ 2 then date.year - 1 else date.year
  let cycle := year / 400
  let yearOfCycle := year % 400
  let dayOfYear : Int := (153 * ((date.month + 9) % 12) + 2) / 5 + date.day - 1
  cycle * 146097 + yearOfCycle * 365 + yearOfCycle / 4 - yearOfCycle / 100 + dayOfYear - 719468

def Date.ofDays (days : Int) : Date :=
  let shifted := days + 719468
  let cycle := shifted / 146097
  let dayOfCycle := (shifted % 146097).toNat
  let leapDays := dayOfCycle / 1460 - dayOfCycle / 36524 + dayOfCycle / 146096
  let yearOfCycle := (dayOfCycle - leapDays) / 365
  let dayOfYear := dayOfCycle - (365 * yearOfCycle + yearOfCycle / 4 - yearOfCycle / 100)
  let shiftedMonth := (5 * dayOfYear + 2) / 153
  let day := dayOfYear - (153 * shiftedMonth + 2) / 5 + 1
  let month := if shiftedMonth < 10 then shiftedMonth + 3 else shiftedMonth - 9
  ⟨cycle * 400 + yearOfCycle + (if month ≤ 2 then 1 else 0), month, day⟩

def padded (width number : Nat) : List Char :=
  let digits := Decimal.digitsOf number
  List.replicate (width - digits.length) '0' ++ digits

def renderYear (year : Int) : List Char :=
  if 0 ≤ year && year ≤ 9999 then padded 4 year.toNat
  else (if year < 0 then '-' else '+') :: padded 4 year.natAbs

def renderFraction (nanoseconds : Nat) : List Char :=
  if nanoseconds == 0 then []
  else if nanoseconds % 1000000 == 0 then '.' :: padded 3 (nanoseconds / 1000000)
  else if nanoseconds % 1000 == 0 then '.' :: padded 6 (nanoseconds / 1000)
  else '.' :: padded 9 nanoseconds

def render (instant : Instant) : List Char :=
  let date := Date.ofDays (instant.seconds / 86400)
  let secondOfDay := (instant.seconds % 86400).toNat
  let leap := 1000000000 ≤ instant.nanoseconds
  let second := secondOfDay % 60 + (if leap then 1 else 0)
  let nanoseconds := if leap then instant.nanoseconds - 1000000000 else instant.nanoseconds
  renderYear date.year ++ '-' :: padded 2 date.month ++ '-' :: padded 2 date.day ++
    'T' :: padded 2 (secondOfDay / 3600) ++ ':' :: padded 2 (secondOfDay / 60 % 60) ++
    ':' :: padded 2 second ++ renderFraction nanoseconds ++ ['Z']

def toText (instant : Instant) : String := String.ofList instant.render

/-- One digit or more, but no more than `width`. -/
def readDigits? (width : Nat) (chars : List Char) : Option (Nat × List Char) :=
  let digits := (chars.take width).takeWhile Decimal.isDigit
  if digits.isEmpty then none else some (Decimal.ofDigits digits, chars.drop digits.length)

/-- A number of two digits at most, after blanks. -/
def readPair? (chars : List Char) : Option (Nat × List Char) :=
  readDigits? 2 (Text.trimStart chars)

/-- Four digits at most, or any number of them after a sign. -/
def readYear? (chars : List Char) : Option (Int × List Char) :=
  match Text.trimStart chars with
  | '-' :: rest =>
      (readDigits? rest.length rest).map fun (year, rest) => (-(year : Int), rest)
  | '+' :: rest => (readDigits? rest.length rest).map fun (year, rest) => ((year : Int), rest)
  | rest => (readDigits? 4 rest).map fun (year, rest) => ((year : Int), rest)

/-- What follows a given character, which blanks may precede. -/
def afterMark? (mark : Char) (chars : List Char) : Option (List Char) :=
  match Text.trimStart chars with
  | [] => none
  | first :: rest => if first = mark then some rest else none

/-- Decimal places of a second, in nanoseconds; places beyond the ninth are dropped. -/
def readFraction? (chars : List Char) : Option (Nat × List Char) :=
  match chars with
  | '.' :: rest =>
      let digits := rest.takeWhile Decimal.isDigit
      if digits.isEmpty then none
      else
        let kept := digits.take 9
        some (Decimal.ofDigits kept * Decimal.tenTo (9 - kept.length),
          rest.dropWhile Decimal.isDigit)
  | _ => some (0, chars)

def readTwoDigits? (chars : List Char) : Option (Nat × List Char) :=
  match chars with
  | tens :: ones :: rest =>
      if Decimal.isDigit tens && Decimal.isDigit ones then
        some (10 * Decimal.digitValue tens + Decimal.digitValue ones, rest)
      else none
  | _ => none

/-- Seconds that local time is ahead of universal time: `Z`, `UTC`, or a sign with
hours and minutes. -/
def readOffset? (chars : List Char) : Option (Int × List Char) :=
  match chars with
  | [] => none
  | first :: rest =>
      if String.ofList ((chars.take 3).map Char.toLower) == "utc" then some (0, chars.drop 3)
      else if first == 'Z' || first == 'z' then some (0, rest)
      else if first == '+' || first == '-' || first == '\u2212' then do
        let (hours, rest) ← readTwoDigits? rest
        let (minutes, rest) ←
          readTwoDigits? (rest.dropWhile fun char => char == ':' || Text.isBlank char)
        if 60 ≤ minutes then none
        else
          let seconds : Int := 3600 * hours + 60 * minutes
          if 86400 ≤ seconds then none
          else return (if first == '+' then seconds else -seconds, rest)
      else none

/-- Blanks, `t` or `T` may stand between the date and the time. -/
def afterSeparator? (chars : List Char) : Option (List Char) :=
  match chars with
  | [] => none
  | first :: rest => if first == 't' || first == 'T' || first == ' ' then some rest else none

def read? (text : String) : Option Instant := do
  let (year, rest) ← readYear? text.toList
  let (month, rest) ← readPair? (← afterMark? '-' rest)
  let (day, rest) ← readPair? (← afterMark? '-' rest)
  let (hour, rest) ← readPair? (← afterSeparator? rest)
  let (minute, rest) ← readPair? (← afterMark? ':' rest)
  let (second, rest) ← readPair? (← afterMark? ':' rest)
  let (fraction, rest) ← readFraction? rest
  let (offset, rest) ← readOffset? (Text.trimStart rest)
  let date : Date := ⟨year, month, day⟩
  if !(Text.trimStart rest).isEmpty || !date.isValid then none
  else if 24 ≤ hour || 60 ≤ minute || 60 < second then none
  else
    let leap := second == 60
    let secondOfDay : Int := 3600 * hour + 60 * minute + (if leap then 59 else second)
    let seconds := date.toDays * 86400 + secondOfDay - offset
    if yearInRange (Date.ofDays (seconds / 86400)).year then
      return ⟨seconds, if leap then 1000000000 + fraction else fraction⟩
    else none

end Letterpress.Instant
