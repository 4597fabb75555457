import WorldTriggers.Decimal.Reader
import WorldTriggers.Text.Blank
import WorldTriggers.Time.Basic

/-!
Timestamps: instants as they are saved, `2023-11-14T22:13:20.250Z`. They are written in UTC with 0,
3, 6 or 9 digits of fraction, the fewest that are exact. Any offset is read, and it must be given.
Second 60 of any minute is read as a leap second, which no instant is.
-/

namespace WorldTriggers

/-- Seconds from the start of 1970 and nanoseconds. A leap second counts as part of the second before
it, which then has a billion nanoseconds more. -/
structure Timestamp where
  second : Int
  nanos : Nat
  deriving DecidableEq, Repr

namespace Timestamp

def ofInstant (t : Instant) : Timestamp := ⟨t / Span.second, (t % Span.second).toNat⟩

def isLeap (t : Timestamp) : Bool := 1000000000 ≤ t.nanos

def latest (a b : Timestamp) : Timestamp :=
  if b.second < a.second || (b.second = a.second && b.nanos < a.nanos) then a else b

def dayLength : Int := 86400

/-- The span from a timestamp to an instant. A leap second takes its time until a later time of day, but
a new day starts without it. -/
def elapsed (t : Timestamp) (now : Instant) : Span :=
  let leap := t.isLeap && t.second % dayLength < now / Span.second % dayLength
  now - (t.second * Span.second + t.nanos) + (if leap then Span.second else 0)

theorem isLeap_ofInstant (t : Instant) : (ofInstant t).isLeap = false := by
  have h : (t % Span.second).toNat < 1000000000 := by unfold Span.second; omega
  exact decide_eq_false (Nat.not_le.mpr h)

theorem elapsed_ofInstant (t now : Instant) : (ofInstant t).elapsed now = now - t := by
  have hleap := isLeap_ofInstant t
  have hparts : (ofInstant t).second * Span.second + ((ofInstant t).nanos : Int) = t := by
    have hnanos : ((t % Span.second).toNat : Int) = t % Span.second :=
      Int.toNat_of_nonneg (Int.emod_nonneg t (by decide))
    simp only [ofInstant, hnanos]
    exact Int.ediv_mul_add_emod t Span.second
  simp only [elapsed, hleap, hparts, Bool.false_and, Bool.false_eq_true, if_false]
  exact Int.add_zero _

def dayNumber (year month day : Int) : Int :=
  let y := if month ≤ 2 then year - 1 else year
  let era := y.fdiv 400
  let yearOfEra := y - era * 400
  let dayOfYear := (153 * (if month > 2 then month - 3 else month + 9) + 2) / 5 + day - 1
  let dayOfEra := yearOfEra * 365 + yearOfEra / 4 - yearOfEra / 100 + dayOfYear
  era * 146097 + dayOfEra - 719468

def dateOfDay (n : Int) : Int × Int × Int :=
  let z := n + 719468
  let era := z.fdiv 146097
  let dayOfEra := z - era * 146097
  let yearOfEra := (dayOfEra - dayOfEra / 1460 + dayOfEra / 36524 - dayOfEra / 146096) / 365
  let dayOfYear := dayOfEra - (365 * yearOfEra + yearOfEra / 4 - yearOfEra / 100)
  let m := (5 * dayOfYear + 2) / 153
  let day := dayOfYear - (153 * m + 2) / 5 + 1
  let month := if m < 10 then m + 3 else m - 9
  let year := yearOfEra + era * 400 + (if month ≤ 2 then 1 else 0)
  (year, month, day)

def isLeapYear (year : Int) : Bool :=
  year % 4 = 0 && (year % 100 ≠ 0 || year % 400 = 0)

def monthLength (year month : Int) : Int :=
  if month = 2 then (if isLeapYear year then 29 else 28)
  else if month = 4 || month = 6 || month = 9 || month = 11 then 30
  else 31

def padded (width : Nat) (n : Nat) : String :=
  let digits := Nat.toDigits 10 n
  String.ofList (List.replicate (width - digits.length) '0' ++ digits)

def yearText (year : Int) : String :=
  if 0 ≤ year && year ≤ 9999 then padded 4 year.toNat
  else (if year < 0 then "-" else "+") ++ padded 4 year.natAbs

def fractionText (nanos : Nat) : String :=
  if nanos = 0 then ""
  else if nanos % 1000000 = 0 then "." ++ padded 3 (nanos / 1000000)
  else if nanos % 1000 = 0 then "." ++ padded 6 (nanos / 1000)
  else "." ++ padded 9 nanos

def render (t : Timestamp) : String :=
  let time := (t.second % dayLength).toNat
  let second := time % 60 + (if t.isLeap then 1 else 0)
  let (year, month, date) := dateOfDay (t.second / dayLength)
  yearText year ++ "-" ++ padded 2 month.toNat ++ "-" ++ padded 2 date.toNat ++ "T" ++
    padded 2 (time / 3600) ++ ":" ++ padded 2 (time / 60 % 60) ++ ":" ++ padded 2 second ++
    fractionText (t.nanos % 1000000000) ++ "Z"

def readNumber? (width : Nat) (cs : List Char) : Option (Int × List Char) :=
  let cs := cs.dropWhile Text.isBlank
  let digits := (cs.take width).takeWhile Char.isDigit
  if digits.isEmpty then none
  else some (Decimal.natOfDigits digits, cs.drop digits.length)

def readYear? (cs : List Char) : Option (Int × List Char) :=
  let cs := cs.dropWhile Text.isBlank
  match cs with
  | '-' :: rest => signed (-1) rest
  | '+' :: rest => signed 1 rest
  | cs => readNumber? 4 cs
where
  signed (sign : Int) (cs : List Char) : Option (Int × List Char) :=
    let (digits, rest) := Decimal.splitDigits cs
    if digits.isEmpty then none else some (sign * Decimal.natOfDigits digits, rest)

def readMark? (mark : Char) (cs : List Char) : Option (List Char) :=
  match cs.dropWhile Text.isBlank with
  | c :: rest => if c = mark then some rest else none
  | [] => none

def readFraction? : List Char → Option (Nat × List Char)
  | '.' :: rest =>
    let (digits, rest) := Decimal.splitDigits rest
    if digits.isEmpty then none
    else
      let kept := digits.take 9
      some (Decimal.natOfDigits kept * Nat.pow 10 (9 - kept.length), rest)
  | rest => some (0, rest)

def readOffset? (cs : List Char) : Option (Int × List Char) :=
  match cs with
  | 'Z' :: rest => some (0, rest)
  | 'z' :: rest => some (0, rest)
  | '+' :: rest => clock 1 rest
  | '-' :: rest => clock (-1) rest
  | '\u2212' :: rest => clock (-1) rest
  | a :: b :: c :: rest =>
    if [a, b, c].map Char.toLower = ['u', 't', 'c'] then some (0, rest) else none
  | _ => none
where
  clock (sign : Int) : List Char → Option (Int × List Char)
    | a :: b :: rest =>
      if a.isDigit && b.isDigit then
        match rest.dropWhile fun c => c = ':' || Text.isBlank c with
        | c :: d :: rest =>
          if '0' ≤ c && c ≤ '5' && d.isDigit then
            some (sign * ((Decimal.natOfDigits [a, b] : Int) * 3600 +
              Decimal.natOfDigits [c, d] * 60), rest)
          else none
        | _ => none
      else none
    | _ => none

def firstYear : Int := -262143

def lastYear : Int := 262142

def read? (s : String) : Option Timestamp := do
  let (year, cs) ← readYear? s.toList
  let cs ← readMark? '-' cs
  let (month, cs) ← readNumber? 2 cs
  let cs ← readMark? '-' cs
  let (day, cs) ← readNumber? 2 cs
  let cs ←
    match cs with
    | c :: rest => if c = 'T' || c = 't' || c = ' ' then some rest else none
    | [] => none
  let (hour, cs) ← readNumber? 2 cs
  let cs ← readMark? ':' cs
  let (minute, cs) ← readNumber? 2 cs
  let cs ← readMark? ':' cs
  let (second, cs) ← readNumber? 2 cs
  let (nanos, cs) ← readFraction? cs
  let (offset, cs) ← readOffset? (cs.dropWhile Text.isBlank)
  let valid := firstYear ≤ year && year ≤ lastYear && 1 ≤ month && month ≤ 12 && 1 ≤ day &&
    day ≤ monthLength year month && hour ≤ 23 && minute ≤ 59 && second ≤ 60 &&
    offset.natAbs < 86400 && cs.all Text.isBlank
  let (second, nanos) := if second = 60 then (59, nanos + 1000000000) else (second, nanos)
  let seconds :=
    dayNumber year month day * dayLength + hour * 3600 + minute * 60 + second - offset
  let (utcYear, _) := dateOfDay (seconds / dayLength)
  if valid && firstYear ≤ utcYear && utcYear ≤ lastYear then some ⟨seconds, nanos⟩ else none

end Timestamp

end WorldTriggers
