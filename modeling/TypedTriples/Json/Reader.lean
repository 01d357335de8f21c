import TypedTriples.Json.Basic

/-!
# Reading JSON

A text is read as one value with blanks around it. The reader accepts the
JSON grammar and nothing else: no leading zeros, no trailing commas, no raw
controls in strings. Nesting may be of any depth.

Main definitions:
* `Json.Reader.units?`: the code units that a string spells.
* `Json.Reader.textOfUnits?`: the text of code units without a lone surrogate.
* `Json.Reader.value?`: a value at the start of a text, and what follows it.
* `Json.read?`: the value that a whole text spells.
-/

namespace TypedTriples.Json

namespace Reader

/-! ## Blanks and words -/

/-- The blanks between the parts of a value. -/
def isSpace (c : Char) : Bool := c == ' ' || c == '\t' || c == '\n' || c == '\r'

/-- The text without the blanks that it starts with. -/
def skipSpace (t : Text) : Text := t.dropWhile isSpace

/-- A literal name, and what follows it. -/
def word? (t : Text) : Option (Json × Text) :=
  ((Text.stripPrefix? "null".toList t).map fun rest => (.null, rest)) <|>
  ((Text.stripPrefix? "true".toList t).map fun rest => (.bool true, rest)) <|>
  ((Text.stripPrefix? "false".toList t).map fun rest => (.bool false, rest))

/-! ## Numbers -/

/-- One or more digits, and what follows them. -/
def digits? (t : Text) : Option (Text × Text) :=
  match t.takeWhile Char.isDigit with
  | [] => none
  | digits => some (digits, t.dropWhile Char.isDigit)

/-- The whole part of a number: zero, or digits that do not start with it. -/
def whole? : Text → Option (Text × Text)
  | '0' :: rest => some (['0'], rest)
  | t => digits? t

/-- The fraction of a number, empty where there is no point. -/
def fraction? : Text → Option (Text × Text)
  | '.' :: rest => (digits? rest).map fun (digits, rest) => ('.' :: digits, rest)
  | t => some ([], t)

/-- The exponent of a number, empty where there is no letter for it. -/
def exponent? : Text → Option (Text × Text)
  | c :: rest =>
    if c == 'e' || c == 'E' then
      match rest with
      | '+' :: rest => (digits? rest).map fun (digits, rest) => (c :: '+' :: digits, rest)
      | '-' :: rest => (digits? rest).map fun (digits, rest) => (c :: '-' :: digits, rest)
      | rest => (digits? rest).map fun (digits, rest) => (c :: digits, rest)
    else some ([], c :: rest)
  | [] => some ([], [])

/-- A number without its sign. -/
def magnitude? (t : Text) : Option (Text × Text) := do
  let (whole, t) ← whole? t
  let (fraction, t) ← fraction? t
  let (exponent, t) ← exponent? t
  return (whole ++ fraction ++ exponent, t)

/-- A number as it is spelled, and what follows it. -/
def number? : Text → Option (Text × Text)
  | '-' :: rest => (magnitude? rest).map fun (spelling, rest) => ('-' :: spelling, rest)
  | t => magnitude? t

/-! ## Strings -/

/-- The value of a hexadecimal digit. -/
def hexValue? (c : Char) : Option Nat :=
  if c.isDigit then some (c.toNat - '0'.toNat)
  else if 'a' ≤ c ∧ c ≤ 'f' then some (c.toNat - 'a'.toNat + 10)
  else if 'A' ≤ c ∧ c ≤ 'F' then some (c.toNat - 'A'.toNat + 10)
  else none

/-- The value of four hexadecimal digits. -/
def hex4? (a b c d : Char) : Option Nat := do
  let a ← hexValue? a
  let b ← hexValue? b
  let c ← hexValue? c
  let d ← hexValue? d
  return ((a * 16 + b) * 16 + c) * 16 + d

/-- The character that a letter after a backslash stands for. -/
def escaped? : Char → Option Char
  | '"' => some '"'
  | '\\' => some '\\'
  | '/' => some '/'
  | 'b' => some '\x08'
  | 'f' => some '\x0c'
  | 'n' => some '\n'
  | 'r' => some '\r'
  | 't' => some '\t'
  | _ => none

/-- The code units that a string spells up to its closing quote, and what
    follows the quote. A character that is not escaped is one unit. -/
def units? : Text → Option (List Nat × Text)
  | '"' :: rest => some ([], rest)
  | '\\' :: 'u' :: a :: b :: c :: d :: rest => do
    let unit ← hex4? a b c d
    let (units, rest) ← units? rest
    return (unit :: units, rest)
  | '\\' :: letter :: rest => do
    let c ← escaped? letter
    let (units, rest) ← units? rest
    return (c.toNat :: units, rest)
  | c :: rest => do
    guard (0x20 ≤ c.toNat ∧ c ≠ '\\')
    let (units, rest) ← units? rest
    return (c.toNat :: units, rest)
  | [] => none

/-- The units that start a surrogate pair. -/
def isHigh (unit : Nat) : Bool := 0xD800 ≤ unit && unit ≤ 0xDBFF

/-- The units that end a surrogate pair. -/
def isLow (unit : Nat) : Bool := 0xDC00 ≤ unit && unit ≤ 0xDFFF

/-- The character that a surrogate pair stands for. -/
def pairChar (high low : Nat) : Char :=
  Char.ofNat (0x10000 + (high - 0xD800) * 0x400 + (low - 0xDC00))

/-- The text of code units, if every surrogate belongs to a pair. -/
def textOfUnits? : List Nat → Option Text
  | [] => some []
  | [unit] => if isHigh unit || isLow unit then none else some [Char.ofNat unit]
  | unit :: next :: rest =>
    if isHigh unit then
      if isLow next then (textOfUnits? rest).map (pairChar unit next :: ·) else none
    else if isLow unit then none
    else (textOfUnits? (next :: rest)).map (Char.ofNat unit :: ·)

/-- A string after its opening quote: its text, if it has one, and what
    follows. -/
def string? (t : Text) : Option (Option Text × Text) :=
  (units? t).map fun (units, rest) => (textOfUnits? units, rest)

/-! ## Values -/

mutual

/-- A value with blanks before it, and what follows it. -/
def value? : Nat → Text → Option (Json × Text)
  | 0, _ => none
  | fuel + 1, t =>
    match skipSpace t with
    | '"' :: rest => (string? rest).map fun (text, rest) => (.string text, rest)
    | '[' :: rest =>
      match skipSpace rest with
      | ']' :: rest => some (.array [], rest)
      | rest => (items? fuel rest).map fun (items, rest) => (.array items, rest)
    | '\x7b' :: rest =>
      match skipSpace rest with
      | '\x7d' :: rest => some (.object [], rest)
      | rest => (members? fuel rest).map fun (members, rest) => (.object members, rest)
    | t => word? t <|> (number? t).map fun (spelling, rest) => (.number spelling, rest)

/-- The items of an array up to its closing bracket, at least one. -/
def items? : Nat → Text → Option (List Json × Text)
  | 0, _ => none
  | fuel + 1, t => do
    let (item, t) ← value? fuel t
    match skipSpace t with
    | ']' :: rest => return ([item], rest)
    | ',' :: rest =>
      let (items, rest) ← items? fuel rest
      return (item :: items, rest)
    | _ => none

/-- The members of an object up to its closing brace, at least one. -/
def members? : Nat → Text → Option (List (Option Text × Json) × Text)
  | 0, _ => none
  | fuel + 1, t => do
    let (name, t) ← match skipSpace t with
      | '"' :: rest => string? rest
      | _ => none
    let t ← match skipSpace t with
      | ':' :: rest => some rest
      | _ => none
    let (value, t) ← value? fuel t
    match skipSpace t with
    | '\x7d' :: rest => return ([(name, value)], rest)
    | ',' :: rest =>
      let (members, rest) ← members? fuel rest
      return ((name, value) :: members, rest)
    | _ => none

end

end Reader

/-- The value that a text spells, with blanks around it. Reading takes at most
    two steps for each character. -/
def read? (t : Text) : Option Json :=
  match Reader.value? (2 * t.length + 2) t with
  | some (value, rest) => if rest.all Reader.isSpace then some value else none
  | none => none

end TypedTriples.Json
