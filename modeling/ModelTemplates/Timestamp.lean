import ModelTemplates.Text
/-! Moments of universal time on the calendar, their texts, and lenient reading of them. -/
namespace ModelTemplates

namespace Calendar

def isLeap (year : Int) : Bool := year % 4 = 0 ∧ (year % 100 ≠ 0 ∨ year % 400 = 0)

def daysIn (year : Int) (month : Nat) : Nat :=
  if month = 2 then (if isLeap year then 29 else 28)
  else if month = 4 ∨ month = 6 ∨ month = 9 ∨ month = 11 then 30
  else 31

def firstYear : Int := -262143

def lastYear : Int := 262142

/-- A day of the calendar and a time of day. A leap second is second 59 with a nano count past one
second. -/
def Valid (year : Int) (month day hour minute second nano : Nat) : Prop :=
  (firstYear ≤ year ∧ year ≤ lastYear) ∧ (1 ≤ month ∧ month ≤ 12) ∧
    (1 ≤ day ∧ day ≤ daysIn year month) ∧ hour ≤ 23 ∧ minute ≤ 59 ∧ second ≤ 59 ∧ nano < 2000000000

instance (year : Int) (month day hour minute second nano : Nat) :
    Decidable (Valid year month day hour minute second nano) := by
  unfold Valid; infer_instance

end Calendar

structure Timestamp where
  year : Int
  month : Nat
  day : Nat
  hour : Nat
  minute : Nat
  second : Nat
  nano : Nat
  valid : Calendar.Valid year month day hour minute second nano
deriving DecidableEq

/-- Why a text is no moment. -/
inductive TimeError where
  | outOfRange
  | impossible
  | badCharacter
  | tooShort
  | tooLong
deriving DecidableEq

def TimeError.message : TimeError → String
  | .outOfRange => "input is out of range"
  | .impossible => "no possible date and time matching input"
  | .badCharacter => "input contains invalid characters"
  | .tooShort => "premature end of input"
  | .tooLong => "trailing input"

namespace Timestamp

/-- The start of the year 1970. -/
def epoch : Timestamp := ⟨1970, 1, 1, 0, 0, 0, 0, by decide⟩

instance : Inhabited Timestamp := ⟨epoch⟩

def ofFields? (year : Int) (month day hour minute second nano : Nat) : Option Timestamp :=
  if h : Calendar.Valid year month day hour minute second nano then
    some ⟨year, month, day, hour, minute, second, nano, h⟩
  else none

/-- Orders moments as their fields, the largest unit first. -/
def rank (t : Timestamp) : Int :=
  (((((t.year * 12 + t.month) * 32 + t.day) * 24 + t.hour) * 60 + t.minute) * 60 +
    t.second) * 2000000000
    + t.nano

instance : LT Timestamp := ⟨fun a b => a.rank < b.rank⟩

instance : LE Timestamp := ⟨fun a b => a.rank ≤ b.rank⟩

instance : DecidableLT Timestamp := fun a b => inferInstanceAs (Decidable (a.rank < b.rank))

instance : DecidableLE Timestamp := fun a b => inferInstanceAs (Decidable (a.rank ≤ b.rank))

def pad (width n : Nat) : List Char :=
  let digits := Nat.toDigits 10 n
  List.replicate (width - digits.length) '0' ++ digits

/-- Four digits, with a sign outside the years 0 to 9999. -/
def yearText (year : Int) : List Char :=
  if 0 ≤ year ∧ year ≤ 9999 then pad 4 year.natAbs
  else (if year < 0 then '-' else '+') :: pad 4 year.natAbs

/-- None, three, six or nine digits, the fewest that are exact. -/
def fractionText (nano : Nat) : List Char :=
  if nano = 0 then []
  else if nano % 1000000 = 0 then '.' :: pad 3 (nano / 1000000)
  else if nano % 1000 = 0 then '.' :: pad 6 (nano / 1000)
  else '.' :: pad 9 nano

def chars (t : Timestamp) : List Char :=
  let (second, nano) :=
    if t.nano ≥ 1000000000 then (t.second + 1, t.nano - 1000000000) else (t.second, t.nano)
  yearText t.year ++ '-' :: pad 2 t.month ++ '-' :: pad 2 t.day ++ 'T' :: pad 2 t.hour ++ ':' ::
    pad 2 t.minute
    ++ ':' :: pad 2 second ++ fractionText nano ++ ['Z']

def text (t : Timestamp) : String := String.ofList t.chars

def isDigit (c : Char) : Bool := '0' ≤ c && c ≤ '9'

def natOfDigits (cs : List Char) : Nat := cs.foldl (fun n c => 10 * n + (c.toNat - 48)) 0

/-- A run of digits, at least one and at most `most`. -/
def digits (most : Option Nat) (cs : List Char) : Except TimeError (List Char × List Char) :=
  let run := (match most with | some n => cs.take n | none => cs).takeWhile isDigit
  if run.isEmpty then .error (if cs.isEmpty then .tooShort else .badCharacter)
  else if natOfDigits run ≥ Nat.pow 2 63 then .error .outOfRange
  else .ok (run, cs.drop run.length)

def literal (c : Char) : List Char → Except TimeError (List Char)
  | [] => .error .tooShort
  | d :: cs => if d = c then .ok cs else .error .badCharacter

/-- A number of one or two digits within its range, after any space. -/
def field (low high : Nat) (cs : List Char) : Except TimeError (Nat × List Char) := do
  let (run, rest) ← digits (some 2) (Text.trimLeft cs)
  let n := natOfDigits run
  if low ≤ n ∧ n ≤ high then .ok (n, rest) else .error .outOfRange

def yearField (cs : List Char) : Except TimeError (Int × List Char) := do
  let (negative, most, cs) := match Text.trimLeft cs with
    | '-' :: rest => (true, none, rest)
    | '+' :: rest => (false, none, rest)
    | cs => (false, some 4, cs)
  let (run, rest) ← digits most cs
  let n := natOfDigits run
  if n ≥ Nat.pow 2 31 then .error .outOfRange
  else .ok (if negative then -(n : Int) else n, rest)

def separator (c : Char) (cs : List Char) : Except TimeError (List Char) :=
  literal c (Text.trimLeft cs)

/-- Digits after a point, those past the ninth cut. -/
def fraction : List Char → Except TimeError (Nat × List Char)
  | '.' :: cs => do
    let (run, rest) ← digits (some 9) cs
    .ok (natOfDigits run * Nat.pow 10 (9 - run.length), rest.dropWhile isDigit)
  | cs => .ok (0, cs)

/-- Two digits that both must be there. -/
def twoDigits : List Char → Except TimeError (Char × Char × List Char)
  | a :: b :: rest => if isDigit a ∧ isDigit b then .ok (a, b, rest) else .error .badCharacter
  | [a] => .error (if a.utf8Size = 1 then .tooShort else .badCharacter)
  | [] => .error .tooShort

/-- Minutes east of universal time. -/
def zone : List Char → Except TimeError (Int × List Char)
  | 'Z' :: rest => .ok (0, rest)
  | 'z' :: rest => .ok (0, rest)
  | [] => .error .tooShort
  | sign :: rest =>
    if sign ≠ '+' ∧ sign ≠ '-' ∧ sign ≠ '−' then .error .badCharacter
    else do
      let (h, h', rest) ← twoDigits rest
      let (m, m', rest) ← twoDigits (rest.dropWhile fun c => c = ':' ∨ Text.isBlank c)
      if m > '5' then .error .outOfRange
      else
        let total : Int := natOfDigits [h, h'] * 60 + natOfDigits [m, m']
        .ok (if sign = '+' then total else -total, rest)

def isUtc : List Char → Bool
  | a :: b :: c :: _ => a.toUpper = 'U' ∧ b.toUpper = 'T' ∧ c.toUpper = 'C'
  | _ => false

def dayBefore (year : Int) (month day : Nat) : Int × Nat × Nat :=
  if day > 1 then (year, month, day - 1)
  else if month > 1 then (year, month - 1, Calendar.daysIn year (month - 1))
  else (year - 1, 12, 31)

def dayAfter (year : Int) (month day : Nat) : Int × Nat × Nat :=
  if day < Calendar.daysIn year month then (year, month, day + 1)
  else if month < 12 then (year, month + 1, 1)
  else (year + 1, 1, 1)

/-- The moment that a clock shows which is `east` minutes ahead of universal time. -/
def ofLocal (year : Int) (month day hour minute second nano : Nat) (east : Int) :
    Except TimeError Timestamp :=
  match ofFields? year month day hour minute second nano with
  | none => .error .outOfRange
  | some _ =>
    if east.natAbs ≥ 1440 then .error .outOfRange
    else
      let minutes : Int := hour * 60 + minute - east
      let (y, m, d) :=
        if minutes < 0 then dayBefore year month day
        else if minutes ≥ 1440 then dayAfter year month day
        else (year, month, day)
      let ofDay := (minutes % 1440).toNat
      match ofFields? y m d (ofDay / 60) (ofDay % 60) second nano with
      | some t => .ok t
      | none => .error .impossible

/-- A date, `T` or a space, a time of day with an optional fraction, and a zone; spaces are allowed
before every number and sign. -/
def ofChars (cs : List Char) : Except TimeError Timestamp := do
  let (year, cs) ← yearField cs
  let cs ← separator '-' cs
  let (month, cs) ← field 1 12 cs
  let cs ← separator '-' cs
  let (day, cs) ← field 1 31 cs
  let cs ← match cs with
    | [] => .error TimeError.tooShort
    | c :: rest => if c = 'T' ∨ c = 't' ∨ c = ' ' then .ok rest else .error TimeError.badCharacter
  let (hour, cs) ← field 0 23 cs
  let cs ← separator ':' cs
  let (minute, cs) ← field 0 59 cs
  let cs ← separator ':' cs
  let (second, cs) ← field 0 60 cs
  let (nano, cs) ← fraction cs
  let cs := Text.trimLeft cs
  let (east, cs) ← if isUtc cs then .ok (0, cs.drop 3) else zone cs
  if !(Text.trimLeft cs).isEmpty then .error .tooLong
  else if second = 60 then ofLocal year month day hour minute 59 (nano + 1000000000) east
  else ofLocal year month day hour minute second nano east

def ofText (s : String) : Except TimeError Timestamp := ofChars s.toList

/-- A later moment of the same day, or the last one of it. -/
def addNanos (t : Timestamp) (n : Nat) : Timestamp :=
  let ofDay := ((t.hour * 60 + t.minute) * 60 + t.second) * 1000000000 + t.nano + n
  let ofDay := min ofDay (86400 * 1000000000 - 1)
  match ofFields? t.year t.month t.day (ofDay / 3600000000000) (ofDay / 60000000000 % 60)
      (ofDay / 1000000000 % 60) (ofDay % 1000000000) with
  | some u => u
  | none => t

end Timestamp
end ModelTemplates
