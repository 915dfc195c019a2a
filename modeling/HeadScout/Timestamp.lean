import HeadScout.Calendar
import HeadScout.Identifier
import HeadScout.Text.Blank

/-!
# Points in time

A point in time is kept in coordinated universal time, to the nanosecond. Its text form is a date
and a time of day with an offset; written, the offset is zero and the fraction of a second has as
many groups of three digits as it needs. Reading is more generous: any offset, `t` or a blank
between date and time, numbers without their leading zeros, and blanks between the parts.

## Main definitions

* `Timestamp` — a point in time
* `Timestamp.read?` — the point in time that a text names
* `Timestamp.render` — its text form, with the offset as `Z`
* `Timestamp.display` — the same with the offset as `+00:00`
-/

namespace HeadScout

/-- A point in time. -/
structure Timestamp where
  /-- Days since 1 January 1970. -/
  day : Int
  /-- Seconds since the day began. -/
  second : Nat
  /-- Nanoseconds since the second began; a leap second is a second that lasts twice as long. -/
  nano : Nat
  deriving DecidableEq, Repr

namespace Timestamp

/-- The point in time so many nanoseconds after the beginning of 1970. -/
def ofNanoseconds (n : Int) : Timestamp :=
  let second : Nat := 1000000000
  let daily : Int := 86400 * second
  let rest := (n % daily).toNat
  ⟨n / daily, rest / second, rest % second⟩

/-! ### Reading -/

/-- What is left of a text after reading a part of it, and what the part says. -/
abbrev Part (α : Type) := Option (α × List Char)

/-- A number of one to `width` digits. -/
def readNumber (width : Nat) (s : List Char) : Part Nat :=
  let digits := (s.take width).takeWhile Char.isDigit
  (Decimal.read? digits).map fun n => (n, s.drop digits.length)

/-- The year: four digits at most, or any number of them behind a sign. -/
def readYear (s : List Char) : Part Int :=
  match s with
  | '-' :: r => (readNumber r.length r).map fun (n, rest) => (-(n : Int), rest)
  | '+' :: r => (readNumber r.length r).map fun (n, rest) => ((n : Int), rest)
  | _ => (readNumber 4 s).map fun (n, rest) => ((n : Int), rest)

/-- A two-digit part behind blanks and the character `c`. -/
def readPartAfter (c : Char) (s : List Char) : Part Nat :=
  match Text.trimLeft s with
  | x :: r => if x = c then readNumber 2 (Text.trimLeft r) else none
  | [] => none

/-- The fraction of a second in nanoseconds; digits beyond the ninth are passed over. -/
def readFraction : List Char → Part Nat
  | '.' :: r =>
    let digits := r.takeWhile Char.isDigit
    -- Digits that are not written count as zeros.
    let kept := digits.take 9
    (Decimal.read? kept).map fun n => (n * Nat.pow 10 (9 - kept.length), r.drop digits.length)
  | s => some (0, s)

/-- A two-digit number, both digits written. -/
def readTwoDigits : List Char → Part Nat
  | a :: b :: r => (Decimal.read? [a, b]).map fun n => (n, r)
  | _ => none

/-- The offset in seconds: `Z`, `UTC`, or hours and minutes behind a sign. -/
def readOffset (s : List Char) : Option (Int × List Char) :=
  if Text.lower (String.ofList (s.take 3)) = "utc" then some (0, s.drop 3)
  else
    match s with
    | 'Z' :: r | 'z' :: r => some (0, r)
    | sign :: r =>
      if sign = '+' ∨ sign = '-' ∨ sign = '\u2212' then do
        let (hours, r) ← readTwoDigits r
        -- Any run of colons and blanks, also an empty one, may stand between hours and minutes.
        let (minutes, r) ← readTwoDigits (r.dropWhile fun c => c == ':' || Text.isBlank c)
        if minutes < 60 then
          let seconds : Int := (hours * 60 + minutes) * 60
          return (if sign = '+' then seconds else -seconds, r)
        else none
      else none
    | [] => none

/-- The years whose days can be named. -/
def yearInRange (year : Int) : Bool := -262143 ≤ year && year ≤ 262142

/-- The point in time of a local date and time with an offset in seconds, if there is one. A second
beyond the minute is a leap second. -/
def ofLocal? (date : Calendar.Date) (hour minute second nano : Nat) (offset : Int) :
    Option Timestamp :=
  -- A leap second is told by its nanoseconds, so that every minute has sixty seconds.
  let leap := if second = 60 then 1 else 0
  let clock : Int := (hour * 60 + minute) * 60 + (second - leap : Nat) - offset
  let day := date.toDays + clock / 86400
  if yearInRange date.year && date.isValid && hour < 24 && minute < 60 && second ≤ 60 &&
      -86400 < offset && offset < 86400 && yearInRange (Calendar.Date.ofDays day).year then
    some ⟨day, (clock % 86400).toNat, leap * 1000000000 + nano⟩
  else none

/-- The point in time that a text names. -/
def readChars? (s : List Char) : Option Timestamp := do
  let (year, s) ← readYear (Text.trimLeft s)
  let (month, s) ← readPartAfter '-' s
  let (day, s) ← readPartAfter '-' s
  match s with
  | [] => none
  | separator :: s =>
    if separator = 'T' ∨ separator = 't' ∨ separator = ' ' then
      let (hour, s) ← readNumber 2 (Text.trimLeft s)
      let (minute, s) ← readPartAfter ':' s
      let (second, s) ← readPartAfter ':' s
      let (nano, s) ← readFraction s
      let (offset, s) ← readOffset (Text.trimLeft s)
      if s.all Text.isBlank then ofLocal? ⟨year, month, day⟩ hour minute second nano offset
      else none
    else none

/-- The point in time that a text names. -/
def read? (s : String) : Option Timestamp := readChars? s.toList

/-! ### Writing -/

/-- A number with at least `width` digits. -/
def padded (width n : Nat) : List Char :=
  let cs := Decimal.chars n
  List.replicate (width - cs.length) '0' ++ cs

/-- A year; one without four digits carries a sign. -/
def yearChars (year : Int) : List Char :=
  if 0 ≤ year ∧ year ≤ 9999 then padded 4 year.toNat
  else (if year < 0 then '-' else '+') :: padded 4 year.natAbs

/-- The fraction of a second in three, six or nine digits, or nothing. -/
def fractionChars (nano : Nat) : List Char :=
  if nano = 0 then []
  else if nano % 1000000 = 0 then '.' :: padded 3 (nano / 1000000)
  else if nano % 1000 = 0 then '.' :: padded 6 (nano / 1000)
  else '.' :: padded 9 nano

/-- Date and time without the offset. -/
def localChars (t : Timestamp) : List Char :=
  let date := Calendar.Date.ofDays t.day
  let leap := t.nano / 1000000000
  yearChars date.year ++ '-' :: padded 2 date.month ++ '-' :: padded 2 date.day ++
    'T' :: padded 2 (t.second / 3600) ++ ':' :: padded 2 (t.second / 60 % 60) ++
    ':' :: padded 2 (t.second % 60 + leap) ++ fractionChars (t.nano % 1000000000)

/-- The text form, with the offset as `Z`. -/
def render (t : Timestamp) : String := String.ofList (t.localChars ++ ['Z'])

/-- The text form, with the offset in digits. -/
def display (t : Timestamp) : String := String.ofList t.localChars ++ "+00:00"

/-! ### Stored form -/

/-- A point in time is stored as its text form. -/
def toJson (t : Timestamp) : Json := .text t.render

/-- The point in time of a stored text. -/
def ofJson? (v : Json) : Option Timestamp := v.text?.bind read?

end Timestamp

end HeadScout
