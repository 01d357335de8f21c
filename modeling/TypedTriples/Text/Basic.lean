/-!
# Text

Text is the list of its characters, so that reading and writing are
recursions over it. Three classes of blank occur in the library and are kept
apart: `isWhite` (any white space of Unicode), the space and tab that
separate the words of a rules line, and the four blanks of JSON.

Main definitions:
* `Text.isWhite`, `Text.trim`: white space and its removal at both ends.
* `Text.breakOn?`: the two parts of a text around the first occurrence of a
  given part; `Text.replaceFirst` puts another part in between.
* `Text.ofNat`, `Text.ofNatPadded`: decimal numerals.
* `Text.inRanges`: a property of characters, given by ranges of code points.
-/

namespace TypedTriples

/-- Text, as the list of its characters. -/
abbrev Text := List Char

namespace Text

/-! ## White space -/

/-- The characters with the Unicode property `White_Space`. -/
def isWhite (c : Char) : Bool :=
  let n := c.toNat
  (9 ≤ n && n ≤ 13) || n == 0x20 || n == 0x85 || n == 0xA0 || n == 0x1680 ||
    (0x2000 ≤ n && n ≤ 0x200A) || n == 0x2028 || n == 0x2029 || n == 0x202F || n == 0x205F ||
    n == 0x3000

/-- The control characters (general category `Cc`). -/
def isControl (c : Char) : Bool :=
  c.toNat < 0x20 || (0x7F ≤ c.toNat && c.toNat ≤ 0x9F)

/-- A text without any character that is not white space. -/
def isBlank (t : Text) : Bool := t.all isWhite

/-- The text without the white space that it starts with. -/
def trimStart (t : Text) : Text := t.dropWhile isWhite

/-- The text without the white space that it ends with. -/
def trimEnd (t : Text) : Text := (t.reverse.dropWhile isWhite).reverse

/-- The text without the white space at its two ends. -/
def trim (t : Text) : Text := (t.trimStart).trimEnd

/-! ## Ranges of code points -/

/-- Whether a character lies in one of the ranges, both ends included. Most
    properties of characters are given as a list of ranges in increasing
    order. -/
def inRanges (ranges : List (Nat × Nat)) (c : Char) : Bool :=
  ranges.any fun range => range.1 ≤ c.toNat && c.toNat ≤ range.2

/-! ## Parts of a text -/

/-- What follows `part` in a text that starts with it. -/
def stripPrefix? (part t : Text) : Option Text :=
  if part.isPrefixOf t then some (t.drop part.length) else none

theorem stripPrefix?_eq_some_iff {part t rest : Text} :
    stripPrefix? part t = some rest ↔ t = part ++ rest := by
  unfold stripPrefix?
  constructor
  · intro h
    split at h
    · rename_i hp
      obtain ⟨after, rfl⟩ := List.isPrefixOf_iff_prefix.mp hp
      simpa using h
    · cases h
  · rintro rfl
    simp

/-- What precedes `part` in a text that ends with it. -/
def stripSuffix? (part t : Text) : Option Text :=
  (stripPrefix? part.reverse t.reverse).map List.reverse

theorem stripSuffix?_eq_some_iff {part t before : Text} :
    stripSuffix? part t = some before ↔ t = before ++ part := by
  rw [stripSuffix?, Option.map_eq_some_iff]
  constructor
  · rintro ⟨reversed, h, rfl⟩
    have := congrArg List.reverse (stripPrefix?_eq_some_iff.mp h)
    simpa using this
  · rintro rfl
    exact ⟨before.reverse, by simp [stripPrefix?_eq_some_iff], by simp⟩

/-- What stands before and after the first occurrence of `part`. The empty
    part occurs first at the start of every text. -/
def breakOn? (part : Text) : Text → Option (Text × Text)
  | [] => if part.isEmpty then some ([], []) else none
  | c :: rest =>
    match stripPrefix? part (c :: rest) with
    | some after => some ([], after)
    | none => (breakOn? part rest).map fun cut => (c :: cut.1, cut.2)

/-- The text with the first occurrence of `part`, if it has one, replaced. -/
def replaceFirst (t part replacement : Text) : Text :=
  match breakOn? part t with
  | some (before, after) => before ++ replacement ++ after
  | none => t

/-! ## Numerals -/

/-- The decimal numeral of a number. -/
def ofNat (n : Nat) : Text := Nat.toDigits 10 n

/-- The decimal numeral of a number, with zeros in front up to `width`. -/
def ofNatPadded (width n : Nat) : Text := (ofNat n).leftpad width '0'

/-- The number that a text of ASCII digits denotes, most significant first. -/
def toNat (digits : Text) : Nat :=
  digits.foldl (fun n c => 10 * n + (c.toNat - '0'.toNat)) 0

/-- The word for a truth value. -/
def ofBool (b : Bool) : Text := if b then "true".toList else "false".toList

end Text

end TypedTriples
