import TypedTriples.Kind

/-!
# Literals

A literal is a value between double quotes, followed by nothing, by `@` and a
language, or by `^^` and a datatype between angle brackets. Between the
quotes the quote, the backslash and the controls are escaped, so that a
literal is one word on one line.
-/

namespace TypedTriples.Literal

/-- The digit of a number below 16, upper case. -/
def hexDigit (n : Nat) : Char := (Nat.digitChar n).toUpper

/-- A code point as four hexadecimal digits. -/
def hex4 (n : Nat) : Text :=
  [hexDigit (n / 4096 % 16), hexDigit (n / 256 % 16), hexDigit (n / 16 % 16), hexDigit (n % 16)]

/-- How a character is written between the quotes. -/
def escapeChar (c : Char) : Text :=
  if c == '\x08' then ['\\', 'b']
  else if c == '\t' then ['\\', 't']
  else if c == '\n' then ['\\', 'n']
  else if c == '\x0c' then ['\\', 'f']
  else if c == '\r' then ['\\', 'r']
  else if c == '"' then ['\\', '"']
  else if c == '\\' then ['\\', '\\']
  else if c.toNat < 0x20 || c.toNat == 0x7F then '\\' :: 'u' :: hex4 c.toNat
  else [c]

/-- How a value is written between the quotes. -/
def escape (value : Text) : Text := value.flatMap escapeChar

/-- A plain literal. -/
def plain (value : Text) : Text := '"' :: escape value ++ ['"']

/-- A literal with a language. -/
def inLanguage (value language : Text) : Text := plain value ++ '@' :: language

/-- A literal with the datatype of a kind. -/
def typed (kind : Kind) (value : Text) : Text :=
  plain value ++ "^^<".toList ++ kind.datatype ++ ['>']

end TypedTriples.Literal
