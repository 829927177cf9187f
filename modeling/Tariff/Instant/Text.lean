import Tariff.Instant.Basic
import Tariff.Text.Digits
import Tariff.Text.Blank

/-!
# Instants as text

An instant is written in universal time with as many fraction digits as it
needs, in groups of three. `toText` is the form of RFC 3339, for documents;
`display` is the form of messages, with blanks and the name of the zone.

Reading takes RFC 3339 with any offset, and is lenient about its punctuation:
blanks may stand before a number and around a separator, the date and the time
may be separated by `T`, `t` or one blank, the offset may lack its colon, and
`Z`, `z` and `UTC` all name universal time. A date alone, a time without offset
and a day that does not exist are refused. Second 60 is a leap second.
-/

namespace Tariff

namespace Instant

/-! ## Writing -/

/-- A number with zeros in front up to a width. -/
def padded (width n : Nat) : List Char :=
  let digits := Nat.toDigits 10 n
  List.replicate (width - digits.length) '0' ++ digits

/-- A year: four digits, or a sign and at least four outside the years 0 to
9999. -/
def yearText (year : Int) : List Char :=
  if 0 ≤ year ∧ year ≤ 9999 then padded 4 year.toNat
  else (if year < 0 then '-' else '+') :: padded 4 year.natAbs

/-- The fraction of a second: nothing, or a point and three, six or nine
digits. -/
def fractionText (nanos : Nat) : List Char :=
  if nanos = 0 then []
  else if nanos % 1000000 = 0 then '.' :: padded 3 (nanos / 1000000)
  else if nanos % 1000 = 0 then '.' :: padded 6 (nanos / 1000)
  else '.' :: padded 9 nanos

/-- The date, a separator and the time of day. -/
def render (separator : Char) (t : Instant) : List Char :=
  let date := Date.ofDays (t.seconds / 86400)
  let time := (t.seconds % 86400).toNat
  let leap := 1000000000 ≤ t.nanos
  let second := time % 60 + if leap then 1 else 0
  let nanos := if leap then t.nanos - 1000000000 else t.nanos
  yearText date.year ++ '-' :: padded 2 date.month ++ '-' :: padded 2 date.day
    ++ separator :: padded 2 (time / 3600) ++ ':' :: padded 2 (time / 60 % 60)
    ++ ':' :: padded 2 second ++ fractionText nanos

/-- **The instant in a document**: `2024-06-01T12:30:00Z`. -/
def toText (t : Instant) : String := String.ofList (t.render 'T' ++ ['Z'])

/-- **The instant in a message**: `2024-06-01 12:30:00 UTC`. -/
def display (t : Instant) : String := String.ofList (t.render ' ' ++ " UTC".toList)

/-! ## Reading -/

/-- Skips blanks. -/
def skipBlanks (cs : List Char) : List Char := cs.dropWhile Text.isBlankChar

/-- The longest run of digits, at most `limit` of them if there is a limit. -/
def takeDigits (limit : Option Nat) (cs : List Char) : List Char × List Char :=
  let digits := cs.takeWhile Char.isDigit
  let digits := match limit with
    | some n => digits.take n
    | none => digits
  (digits, cs.drop digits.length)

/-- A number of at least one digit. -/
def readNumber (limit : Option Nat) (cs : List Char) : Option (Nat × List Char) :=
  let (digits, rest) := takeDigits limit cs
  if digits.isEmpty then none else some (Text.digitsValue digits, rest)

/-- A number of one or two digits, after blanks. -/
def readTwo (cs : List Char) : Option (Nat × List Char) := readNumber (some 2) (skipBlanks cs)

/-- A year: up to four digits, or a sign and any number of them. -/
def readYear (cs : List Char) : Option (Int × List Char) :=
  match skipBlanks cs with
  | '-' :: rest => (readNumber none rest).map fun (n, rest) => (-(n : Int), rest)
  | '+' :: rest => (readNumber none rest).map fun (n, rest) => ((n : Int), rest)
  | cs => (readNumber (some 4) cs).map fun (n, rest) => ((n : Int), rest)

/-- A separator, after blanks. -/
def readMark (mark : Char) (cs : List Char) : Option (List Char) :=
  match skipBlanks cs with
  | c :: rest => if c = mark then some rest else none
  | [] => none

/-- The nanoseconds, if a point follows; digits after the ninth do not
count. -/
def readFraction : List Char → Option (Nat × List Char)
  | '.' :: rest =>
    let (digits, _) := takeDigits (some 9) rest
    if digits.isEmpty then none
    else some (Text.digitsValue digits * 10 ^ (9 - digits.length), rest.dropWhile Char.isDigit)
  | cs => some (0, cs)

/-- The minutes of an offset, in exactly two digits, after colons and blanks. -/
def readOffsetMinutes (cs : List Char) : Option (Nat × List Char) :=
  match cs.dropWhile fun c => c == ':' || Text.isBlankChar c with
  | a :: b :: rest =>
    if a.isDigit ∧ b.isDigit ∧ a < '6' then some (Text.digitsValue [a, b], rest) else none
  | _ => none

/-- An offset from universal time, in seconds. -/
def readOffset (cs : List Char) : Option (Int × List Char) :=
  match cs with
  | [] => none
  | c :: rest =>
    if c = 'Z' ∨ c = 'z' then some (0, rest)
    else if (cs.take 3).map Char.toLower = ['u', 't', 'c'] then some (0, cs.drop 3)
    else
      let sign : Option Int :=
        if c = '+' then some 1 else if c = '-' ∨ c = Char.ofNat 0x2212 then some (-1) else none
      match sign, rest with
      | some sign, a :: b :: rest =>
        if a.isDigit ∧ b.isDigit then do
          let (minutes, rest) ← readOffsetMinutes rest
          let hours := Text.digitsValue [a, b]
          if hours < 24 then some (sign * (hours * 3600 + minutes * 60), rest) else none
        else none
      | _, _ => none

/-- **Reads an instant.** Its date must be valid where it is read and in universal
time. -/
def parse? (text : String) : Option Instant := do
  let (year, cs) ← readYear text.toList
  let cs ← readMark '-' cs
  let (month, cs) ← readTwo cs
  let cs ← readMark '-' cs
  let (day, cs) ← readTwo cs
  let date : Date := ⟨year, month, day⟩
  let cs ← match cs with
    | c :: rest => if c = 'T' ∨ c = 't' ∨ c = ' ' then some rest else none
    | [] => none
  let (hour, cs) ← readTwo cs
  let cs ← readMark ':' cs
  let (minute, cs) ← readTwo cs
  let cs ← readMark ':' cs
  let (second, cs) ← readTwo cs
  let (nanos, cs) ← readFraction cs
  let (offset, cs) ← readOffset (skipBlanks cs)
  if date.isValid ∧ hour < 24 ∧ minute < 60 ∧ second ≤ 60 ∧ (skipBlanks cs).isEmpty then
    let leap := second = 60
    let time := hour * 3600 + minute * 60 + (if leap then 59 else second)
    let seconds := date.toDays * 86400 + time - offset
    if (Date.ofDays (seconds / 86400)).isValid then
      some (ofSeconds seconds (if leap then nanos + 1000000000 else nanos))
    else none
  else none

end Instant

end Tariff
