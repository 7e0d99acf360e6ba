import Reports.Calendar.Date
import Reports.Text.Basic

/-! Patterns for dates: text in which a percent sign and a letter stand for a part of a moment.
Months and days of the week have English names; the time zone is UTC. -/
namespace Reports.Calendar

inductive Pad
  | zero
  | blank
  | none
  deriving Repr, DecidableEq

inductive Part
  | year
  | century
  | yearOfCentury
  | isoYear
  | isoYearOfCentury
  | quarter
  | month
  | day
  | weekFromSunday
  | weekFromMonday
  | isoWeek
  | weekdayFromSunday
  | weekdayFromMonday
  | ordinal
  | hour
  | hour12
  | minute
  | second
  | nanosecond
  | timestamp
  deriving Repr, DecidableEq

inductive Item
  | literal (c : Char)
  | number (part : Part) (pad : Pad)
  | longWeekday
  | shortWeekday
  | longMonth
  | shortMonth
  | lowerHalf
  | upperHalf
  | fixed (text : String)
  | standard
  deriving Repr, DecidableEq

def numberItem? (c : Char) : Option (Part × Pad) :=
  match c with
  | 'C' => some (.century, .zero)
  | 'G' => some (.isoYear, .zero)
  | 'H' => some (.hour, .zero)
  | 'I' => some (.hour12, .zero)
  | 'M' => some (.minute, .zero)
  | 'S' => some (.second, .zero)
  | 'U' => some (.weekFromSunday, .zero)
  | 'V' => some (.isoWeek, .zero)
  | 'W' => some (.weekFromMonday, .zero)
  | 'Y' => some (.year, .zero)
  | 'd' => some (.day, .zero)
  | 'e' => some (.day, .blank)
  | 'f' => some (.nanosecond, .zero)
  | 'g' => some (.isoYearOfCentury, .zero)
  | 'j' => some (.ordinal, .zero)
  | 'k' => some (.hour, .blank)
  | 'l' => some (.hour12, .blank)
  | 'm' => some (.month, .zero)
  | 'q' => some (.quarter, .none)
  | 's' => some (.timestamp, .none)
  | 'u' => some (.weekdayFromMonday, .none)
  | 'w' => some (.weekdayFromSunday, .none)
  | 'y' => some (.yearOfCentury, .zero)
  | _ => none

def zeroPadded (p : Part) : Item := .number p .zero

def clockItems : List Item :=
  [zeroPadded .hour, .literal ':', zeroPadded .minute, .literal ':', zeroPadded .second]

def otherItems? (c : Char) : Option (List Item) :=
  match c with
  | 'A' => some [.longWeekday]
  | 'B' => some [.longMonth]
  | 'D' | 'x' => some [zeroPadded .month, .literal '/', zeroPadded .day, .literal '/',
      zeroPadded .yearOfCentury]
  | 'F' => some [zeroPadded .year, .literal '-', zeroPadded .month, .literal '-', zeroPadded .day]
  | 'P' => some [.lowerHalf]
  | 'R' => some [zeroPadded .hour, .literal ':', zeroPadded .minute]
  | 'T' | 'X' => some clockItems
  | 'Z' => some [.fixed "UTC"]
  | 'a' => some [.shortWeekday]
  | 'b' | 'h' => some [.shortMonth]
  | 'c' => some ([.shortWeekday, .literal ' ', .shortMonth, .literal ' ', .number .day .blank,
      .literal ' '] ++ clockItems ++ [.literal ' ', zeroPadded .year])
  | 'n' => some [.literal '\n']
  | 'p' => some [.upperHalf]
  | 'r' => some [zeroPadded .hour12, .literal ':', zeroPadded .minute, .literal ':',
      zeroPadded .second, .literal ' ', .upperHalf]
  | 't' => some [.literal '\t']
  | 'v' => some [.number .day .blank, .literal '-', .shortMonth, .literal '-', zeroPadded .year]
  | 'z' => some [.fixed "+0000"]
  | '+' => some [.standard]
  | '%' => some [.literal '%']
  | _ => none

def pad? (c : Char) : Option Pad :=
  match c with
  | '-' => some .none
  | '0' => some .zero
  | '_' => some .blank
  | _ => none

/-- The items of a pattern; none when it is not valid. Filling can be changed for numbers only. -/
def items : List Char → Option (List Item)
  | [] => some []
  | '%' :: ':' :: ':' :: ':' :: 'z' :: rest => (items rest).map (.fixed "+00" :: ·)
  | '%' :: ':' :: ':' :: 'z' :: rest => (items rest).map (.fixed "+00:00:00" :: ·)
  | '%' :: ':' :: 'z' :: rest => (items rest).map (.fixed "+00:00" :: ·)
  | '%' :: '.' :: '3' :: 'f' :: rest => (items rest).map (.fixed ".000" :: ·)
  | '%' :: '.' :: '6' :: 'f' :: rest => (items rest).map (.fixed ".000000" :: ·)
  | '%' :: '.' :: '9' :: 'f' :: rest => (items rest).map (.fixed ".000000000" :: ·)
  | '%' :: '.' :: 'f' :: rest => items rest
  | '%' :: '3' :: 'f' :: rest => (items rest).map (.fixed "000" :: ·)
  | '%' :: '6' :: 'f' :: rest => (items rest).map (.fixed "000000" :: ·)
  | '%' :: '9' :: 'f' :: rest => (items rest).map (.fixed "000000000" :: ·)
  | '%' :: c :: rest =>
    match pad? c, rest with
    | some pad, d :: rest =>
      match numberItem? d with
      | some (part, _) => (items rest).map (.number part pad :: ·)
      | none => none
    | some _, [] => none
    | none, rest =>
      match numberItem? c, otherItems? c with
      | some (part, pad), _ => (items rest).map (.number part pad :: ·)
      | none, some is => (items rest).map (is ++ ·)
      | none, none => none
  | '%' :: [] => none
  | c :: rest => (items rest).map (.literal c :: ·)

def monthNames : List String :=
  ["January", "February", "March", "April", "May", "June", "July", "August", "September",
   "October", "November", "December"]

def weekdayNames : List String :=
  ["Sunday", "Monday", "Tuesday", "Wednesday", "Thursday", "Friday", "Saturday"]

def fill (pad : Pad) (width : Nat) (digits : List Char) : List Char :=
  match pad with
  | .none => digits
  | .zero => List.replicate (width - digits.length) '0' ++ digits
  | .blank => List.replicate (width - digits.length) ' ' ++ digits

/-- Two digits of a number below 256. From 100 on the first is the character that many places
after zero. -/
def twoDigits (pad : Pad) (n : Int) : List Char :=
  let v := (n % 256).toNat
  let ones := Char.ofNat (48 + v % 10)
  if v / 10 = 0 then
    match pad with
    | .none => [ones]
    | .blank => [' ', ones]
    | .zero => ['0', ones]
  else [Char.ofNat (48 + v / 10), ones]

/-- Four digits; a year of more digits has a sign. -/
def yearDigits (pad : Pad) (year : Int) : List Char :=
  let ds := Nat.toDigits 10 year.natAbs
  if 0 ≤ year ∧ year ≤ 9999 then fill pad 4 ds
  else
    let sign := if 0 ≤ year then '+' else '-'
    match pad with
    | .zero => sign :: fill .zero 4 ds
    | _ => fill pad 5 (sign :: ds)

def plainDigits (pad : Pad) (width : Nat) (n : Int) : List Char :=
  fill pad width (Text.signedDecimal n).toList

/-- Weeks of the year that have begun; weeks begin on the day `first` after Sunday. -/
def weekNumber (day first : Int) : Int :=
  (dayOfYear day + 7 - (weekday day - first) % 7) / 7

def hourOf (seconds : Int) : Int := seconds % 86400 / 3600

def hour12Of (seconds : Int) : Int :=
  let h := hourOf seconds % 12
  if h = 0 then 12 else h

def partText (seconds : Int) (pad : Pad) : Part → List Char :=
  let day := dayOf seconds
  let date := dateOf day
  fun
    | .year => yearDigits pad date.year
    | .century => twoDigits pad (date.year / 100)
    | .yearOfCentury => twoDigits pad (date.year % 100)
    | .isoYear => yearDigits pad (isoWeek day).1
    | .isoYearOfCentury => twoDigits pad ((isoWeek day).1 % 100)
    | .quarter => plainDigits .none 1 ((date.month - 1) / 3 + 1)
    | .month => twoDigits pad date.month
    | .day => twoDigits pad date.day
    | .weekFromSunday => twoDigits pad (weekNumber day 0)
    | .weekFromMonday => twoDigits pad (weekNumber day 1)
    | .isoWeek => twoDigits pad (isoWeek day).2
    | .weekdayFromSunday => plainDigits .none 1 (weekday day)
    | .weekdayFromMonday => plainDigits .none 1 ((weekday day + 6) % 7 + 1)
    | .ordinal => plainDigits pad 3 (dayOfYear day + 1)
    | .hour => twoDigits pad (hourOf seconds)
    | .hour12 => twoDigits pad (hour12Of seconds)
    | .minute => twoDigits pad (seconds % 3600 / 60)
    | .second => twoDigits pad (seconds % 60)
    | .nanosecond => plainDigits pad 9 0
    | .timestamp => plainDigits pad 9 seconds

def monthName (day : Int) : String := monthNames.getD ((dateOf day).month - 1) ""

def weekdayName (day : Int) : String := weekdayNames.getD (weekday day).toNat ""

def shortName (name : String) : List Char := name.toList.take 3

def itemText (seconds : Int) : Item → List Char
  | .literal c => [c]
  | .number part pad => partText seconds pad part
  | .longWeekday => (weekdayName (dayOf seconds)).toList
  | .shortWeekday => shortName (weekdayName (dayOf seconds))
  | .longMonth => (monthName (dayOf seconds)).toList
  | .shortMonth => shortName (monthName (dayOf seconds))
  | .lowerHalf => if hourOf seconds < 12 then ['a', 'm'] else ['p', 'm']
  | .upperHalf => if hourOf seconds < 12 then ['A', 'M'] else ['P', 'M']
  | .fixed text => text.toList
  | .standard =>
    partText seconds .zero .year ++ '-' :: partText seconds .zero .month ++
      '-' :: partText seconds .zero .day ++ 'T' :: partText seconds .zero .hour ++
      ':' :: partText seconds .zero .minute ++ ':' :: partText seconds .zero .second ++
      "+00:00".toList

def format (pattern : String) (seconds : Int) : Option String :=
  (items pattern.toList).map fun is => String.ofList (is.flatMap (itemText seconds))

end Reports.Calendar
