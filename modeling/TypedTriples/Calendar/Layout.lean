import TypedTriples.Calendar.Moment

/-!
# Layouts of timestamps

Five layouts are read, each to the end of the text:

* `zoned?`: date and time with an offset, every field of fixed width;
* `timed?`: date, the letter `T`, and time with seconds;
* `spaced?`: the same with white space, or nothing, in place of the letter;
* `untimed?`: date, the letter `T`, hour and minute;
* `dated?`: the date alone.

The last four have no offset. Their fields may have white space in front and
fewer digits than usual, and their year may have a sign and then any number of
digits.
-/

namespace TypedTriples.Layout

/-! ## Parts of a layout -/

/-- What follows the given character. -/
def char? (c : Char) : Text → Option Text
  | d :: rest => if d = c then some rest else none
  | [] => none

/-- Up to `most` digits as a number, at least one. -/
def upTo? (most : Nat) (t : Text) : Option (Nat × Text) :=
  match (t.take most).takeWhile Char.isDigit with
  | [] => none
  | digits => some (Text.toNat digits, t.drop digits.length)

/-- Exactly `count` digits as a number. -/
def exactly? (count : Nat) (t : Text) : Option (Nat × Text) :=
  let digits := (t.take count).takeWhile Char.isDigit
  if digits.length = count then some (Text.toNat digits, t.drop count) else none

/-- As many digits as there are as a number, at least one. -/
def digits? (t : Text) : Option (Nat × Text) := upTo? t.length t

/-- One or two digits after white space. -/
def field? (t : Text) : Option (Nat × Text) := upTo? 2 t.trimStart

/-- A year after white space: up to four digits, or a sign and digits. -/
def year? (t : Text) : Option (Int × Text) :=
  match t.trimStart with
  | '-' :: rest => (digits? rest).map fun (n, rest) => (-(n : Int), rest)
  | '+' :: rest => (digits? rest).map fun (n, rest) => ((n : Int), rest)
  | t => (upTo? 4 t).map fun (n, rest) => ((n : Int), rest)

/-- The milliseconds that the digits of a fraction stand for; what is smaller
    is dropped. -/
def millisOf (digits : Text) : Nat := Text.toNat ((digits ++ ['0', '0', '0']).take 3)

/-- The fraction of a second, a point and digits, as milliseconds; none is
    zero. -/
def fraction? : Text → Option (Nat × Text)
  | '.' :: rest =>
    match rest.takeWhile Char.isDigit with
    | [] => none
    | digits => some (millisOf digits, rest.drop digits.length)
  | t => some (0, t)

/-- An offset in minutes: the letter `Z`, or a sign, hours and minutes. -/
def offset? : Text → Option (Int × Text)
  | c :: rest =>
    if c == 'Z' || c == 'z' then some (0, rest)
    else if c == '+' || c == '-' || c == '−' then do
      let (hours, rest) ← exactly? 2 rest
      let rest ← char? ':' rest
      let (minutes, rest) ← exactly? 2 rest
      if hours ≤ 23 && minutes ≤ 59 then
        let offset : Int := 60 * hours + minutes
        return (if c == '+' then offset else -offset, rest)
      else none
    else none
  | [] => none

/-- The answer of a layout that reached the end of the text at a moment that
    exists. -/
def atEnd? (m : Moment) : Text → Option Moment
  | [] => if m.Valid then some m else none
  | _ => none

/-- Year, month and day with hyphens between. -/
def date? (t : Text) : Option (Date × Text) := do
  let (year, t) ← year? t
  let t ← char? '-' t
  let (month, t) ← field? t
  let t ← char? '-' t
  let (day, t) ← field? t
  return (⟨year, month, day⟩, t)

/-- Hour, minute and second with colons between and a fraction, on a date. -/
def clock? (date : Date) (t : Text) : Option (Moment × Text) := do
  let (hour, t) ← field? t
  let t ← char? ':' t
  let (minute, t) ← field? t
  let t ← char? ':' t
  let (second, t) ← field? t
  let (millis, t) ← fraction? t
  return ({ date, hour, minute, second, millis }, t)

/-- The character between date and time of a zoned timestamp. -/
def isSeparator (c : Char) : Bool := c == 'T' || c == 't' || c == ' '

/-! ## The five layouts -/

/-- Date, time and offset: the moment as written and the offset. -/
def zonedParts? (t : Text) : Option (Moment × Int) := do
  let (year, t) ← exactly? 4 t
  let t ← char? '-' t
  let (month, t) ← exactly? 2 t
  let t ← char? '-' t
  let (day, t) ← exactly? 2 t
  let (separator, t) ← match t with
    | c :: rest => some (c, rest)
    | [] => none
  guard (isSeparator separator)
  let (hour, t) ← exactly? 2 t
  let t ← char? ':' t
  let (minute, t) ← exactly? 2 t
  let t ← char? ':' t
  let (second, t) ← exactly? 2 t
  let (millis, t) ← fraction? t
  let (offset, t) ← offset? t
  let m ← atEnd? { date := ⟨year, month, day⟩, hour, minute, second, millis } t
  return (m, offset)

/-- Date, time and offset, as the moment at offset zero. -/
def zoned? (t : Text) : Option Moment :=
  (zonedParts? t).map fun (m, offset) => m.shift (-offset)

/-- Date, the letter `T` and time. -/
def timed? (t : Text) : Option Moment := do
  let (date, t) ← date? t
  let t ← char? 'T' t
  let (m, t) ← clock? date t
  atEnd? m t

/-- Date, white space or nothing, and time. -/
def spaced? (t : Text) : Option Moment := do
  let (date, t) ← date? t
  let (m, t) ← clock? date t
  atEnd? m t

/-- Date, the letter `T`, hour and minute. -/
def untimed? (t : Text) : Option Moment := do
  let (date, t) ← date? t
  let t ← char? 'T' t
  let (hour, t) ← field? t
  let t ← char? ':' t
  let (minute, t) ← field? t
  atEnd? { date, hour, minute } t

/-- The date alone. -/
def dated? (t : Text) : Option Moment := do
  let (date, t) ← date? t
  atEnd? { date } t

end TypedTriples.Layout
