import DesiredState.Text.Blank

/-!
# Points in time

A timestamp is a date and a time of day in UTC, to the nanosecond; a minute may have a sixtieth
second. Timestamps are written in the profile of ISO 8601 for the internet, in UTC and with the
fewest of 0, 3, 6 or 9 decimals that lose nothing. Reading takes any offset from UTC, blanks
between the parts, and numbers without their leading zeros.
-/

set_option autoImplicit false

namespace DesiredState

namespace Calendar

def isLeapYear (year : Int) : Bool := year % 4 == 0 && (year % 100 != 0 || year % 400 == 0)

def daysInMonth (year : Int) (month : Nat) : Nat :=
  match month with
  | 1 | 3 | 5 | 7 | 8 | 10 | 12 => 31
  | 4 | 6 | 9 | 11 => 30
  | 2 => if isLeapYear year then 29 else 28
  | _ => 0

end Calendar

/-- A point in time, by its date and time of day in UTC. -/
structure Timestamp where
  year : Int
  month : Nat
  day : Nat
  hour : Nat
  minute : Nat
  second : Nat
  nanosecond : Nat
  valid : -262143 ≤ year ∧ year ≤ 262142 ∧ 1 ≤ day ∧ day ≤ Calendar.daysInMonth year month ∧
    hour < 24 ∧ minute < 60 ∧ second ≤ 60 ∧ nanosecond < 1000000000
  deriving DecidableEq

namespace Timestamp

def ofParts? (year : Int) (month day hour minute second nanosecond : Nat) : Option Timestamp :=
  if valid : -262143 ≤ year ∧ year ≤ 262142 ∧ 1 ≤ day ∧
      day ≤ Calendar.daysInMonth year month ∧ hour < 24 ∧ minute < 60 ∧ second ≤ 60 ∧
      nanosecond < 1000000000 then
    some ⟨year, month, day, hour, minute, second, nanosecond, valid⟩
  else none

def epoch : Timestamp := ⟨1970, 1, 1, 0, 0, 0, 0, by decide⟩

def rank (time : Timestamp) : Int :=
  (((((time.year * 13 + time.month) * 32 + time.day) * 24 + time.hour) * 60 + time.minute) * 61
    + time.second) * 1000000000 + time.nanosecond

/-! ## Writing -/

def padded (width value : Nat) : String :=
  let digits := Nat.toDigits 10 value
  String.ofList (List.replicate (width - digits.length) '0' ++ digits)

def yearText (year : Int) : String :=
  if 0 ≤ year ∧ year ≤ 9999 then padded 4 year.toNat
  else if year < 0 then "-" ++ padded 4 year.natAbs
  else "+" ++ padded 4 year.natAbs

def fractionText (nanosecond : Nat) : String :=
  if nanosecond = 0 then ""
  else if nanosecond % 1000000 = 0 then "." ++ padded 3 (nanosecond / 1000000)
  else if nanosecond % 1000 = 0 then "." ++ padded 6 (nanosecond / 1000)
  else "." ++ padded 9 nanosecond

def dateText (time : Timestamp) : String :=
  yearText time.year ++ "-" ++ padded 2 time.month ++ "-" ++ padded 2 time.day

def clockText (time : Timestamp) : String :=
  padded 2 time.hour ++ ":" ++ padded 2 time.minute ++ ":" ++ padded 2 time.second

def text (time : Timestamp) : String :=
  time.dateText ++ "T" ++ time.clockText ++ fractionText time.nanosecond ++ "Z"

/-! ## Reading -/

def dayBefore (year : Int) (month day : Nat) : Int × Nat × Nat :=
  if 1 < day then (year, month, day - 1)
  else if 1 < month then (year, month - 1, Calendar.daysInMonth year (month - 1))
  else (year - 1, 12, 31)

def dayAfter (year : Int) (month day : Nat) : Int × Nat × Nat :=
  if day < Calendar.daysInMonth year month then (year, month, day + 1)
  else if month < 12 then (year, month + 1, 1)
  else (year + 1, 1, 1)

def sinceEpoch? (nanoseconds : Nat) : Option Timestamp :=
  let seconds := nanoseconds / 1000000000
  let (year, month, day) :=
    Nat.repeat (fun (year, month, day) => dayAfter year month day) (seconds / 86400) (1970, 1, 1)
  let time := seconds % 86400
  ofParts? year month day (time / 3600) (time / 60 % 60) (time % 60) (nanoseconds % 1000000000)

/-- The same instant in UTC, for a date and time of day that runs `offset` minutes ahead. -/
def ofLocal? (year : Int) (month day hour minute second nanosecond : Nat) (offset : Int) :
    Option Timestamp := do
  let _ ← ofParts? year month day hour minute second nanosecond
  let minutes : Int := (hour : Int) * 60 + minute - offset
  let ((year, month, day), minutes) :=
    if minutes < 0 then (dayBefore year month day, minutes + 1440)
    else if 1440 ≤ minutes then (dayAfter year month day, minutes - 1440)
    else ((year, month, day), minutes)
  ofParts? year month day (minutes.toNat / 60) (minutes.toNat % 60) second nanosecond

def skipBlanks (text : List Char) : List Char := text.dropWhile isBlank

def readNumber? (width : Nat) (text : List Char) : Option (Nat × List Char) :=
  let digits := (text.take width).takeWhile Char.isDigit
  if digits.isEmpty then none
  else some (Nat.ofDigitChars 10 digits 0, text.drop digits.length)

def readPart? (width : Nat) (text : List Char) : Option (Nat × List Char) :=
  readNumber? width (skipBlanks text)

def readYear? (text : List Char) : Option (Int × List Char) :=
  match skipBlanks text with
  | '-' :: rest => (readNumber? rest.length rest).map fun (year, rest) => (-(year : Int), rest)
  | '+' :: rest => (readNumber? rest.length rest).map fun (year, rest) => ((year : Int), rest)
  | rest => (readNumber? 4 rest).map fun (year, rest) => ((year : Int), rest)

def readMark? (mark : Char) (text : List Char) : Option (List Char) :=
  match skipBlanks text with
  | c :: rest => if c == mark then some rest else none
  | [] => none

def readDecimals? : List Char → Option (Nat × List Char)
  | '.' :: rest => do
      let (value, after) ← readNumber? 9 rest
      let width := rest.length - after.length
      return (value * Nat.pow 10 (9 - width), after.dropWhile Char.isDigit)
  | rest => some (0, rest)

def readPair? : List Char → Option (Nat × List Char)
  | a :: b :: rest =>
      if a.isDigit && b.isDigit then some (Nat.ofDigitChars 10 [a, b] 0, rest) else none
  | _ => none

def readOffset? (text : List Char) : Option (Int × List Char) :=
  match text with
  | 'Z' :: rest | 'z' :: rest => some (0, rest)
  | sign :: rest =>
      if sign == '+' || sign == '-' || sign == '−' then do
        let (hours, rest) ← readPair? rest
        let rest := rest.dropWhile fun c => c == ':' || isBlank c
        let (minutes, rest) ← readPair? rest
        if 24 ≤ hours || 60 ≤ minutes then none
        else
          let offset : Int := (hours * 60 + minutes : Nat)
          some (if sign == '+' then offset else -offset, rest)
      else none
  | [] => none

def readZone? (text : List Char) : Option (Int × List Char) :=
  if (text.take 3).map Char.toUpper == ['U', 'T', 'C'] then some (0, text.drop 3)
  else readOffset? text

def ofText? (text : String) : Option Timestamp := do
  let (year, rest) ← readYear? text.toList
  let rest ← readMark? '-' rest
  let (month, rest) ← readPart? 2 rest
  let rest ← readMark? '-' rest
  let (day, rest) ← readPart? 2 rest
  let rest ← match rest with
    | 'T' :: rest | 't' :: rest | ' ' :: rest => some rest
    | _ => none
  let (hour, rest) ← readPart? 2 rest
  let rest ← readMark? ':' rest
  let (minute, rest) ← readPart? 2 rest
  let rest ← readMark? ':' rest
  let (second, rest) ← readPart? 2 rest
  let (nanosecond, rest) ← readDecimals? rest
  let (offset, rest) ← readZone? (skipBlanks rest)
  if (skipBlanks rest).isEmpty then
    ofLocal? year month day hour minute second nanosecond offset
  else none

end Timestamp

end DesiredState
