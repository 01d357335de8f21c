import TypedTriples.Text.CharWidth
import TypedTriples.Text.Emoji

/-!
# Ligatures

In several scripts a sequence of letters is drawn as one sign, in fewer
columns than its letters take by themselves. A ligature is read from its last
letter to its first.

Main definitions:
* `Ligature`: a ligature as far as it is read.
* `Ligature.ofChar?`: the ligature that a letter may be the last one of.
* `Ligature.before?`: the ligature with a character in front, and the columns
  that the character changes the whole by.
-/

namespace TypedTriples.Text

/-! ## Letters -/

/-- The letters of Arabic that are shaped as alef. -/
def alefRanges : List (Nat × Nat) :=
  [(0x622, 0x623), (0x625, 0x625), (0x627, 0x627), (0x671, 0x673), (0x675, 0x675), (0x773, 0x774),
   (0x870, 0x882)]

/-- The letters of Arabic that are shaped as lam and join with alef. -/
def lamRanges : List (Nat × Nat) :=
  [(0x644, 0x644), (0x6B5, 0x6B8), (0x76A, 0x76A), (0x8A6, 0x8A6), (0x8C7, 0x8C7)]

/-- The characters without a width that keep the letters of Arabic at their
    sides apart (property `Joining_Type`, any value but `T`). -/
def separatingRanges : List (Nat × Nat) :=
  [(0x605, 0x605), (0x890, 0x891), (0x8E2, 0x8E2), (0x9BE, 0x9BE), (0x9D7, 0x9D7), (0xB3E, 0xB3E),
   (0xB57, 0xB57), (0xBBE, 0xBBE), (0xBD7, 0xBD7), (0xCC0, 0xCC0), (0xCC2, 0xCC2), (0xCC7, 0xCC8),
   (0xCCA, 0xCCB), (0xCD5, 0xCD6), (0xD3E, 0xD3E), (0xD4E, 0xD4E), (0xD57, 0xD57), (0xDCF, 0xDCF),
   (0xDDF, 0xDDF), (0x1160, 0x11FF), (0x1715, 0x1715), (0x1734, 0x1734), (0x180E, 0x180E),
   (0x1B35, 0x1B35), (0x1B3B, 0x1B3B), (0x1B3D, 0x1B3D), (0x1B43, 0x1B44), (0x1BAA, 0x1BAA),
   (0x1BF2, 0x1BF3), (0x200C, 0x200D), (0x2065, 0x2069), (0x302E, 0x302F), (0x3164, 0x3164),
   (0xA8FA, 0xA8FA), (0xA953, 0xA953), (0xA9C0, 0xA9C0), (0xD7B0, 0xD7C6), (0xD7CB, 0xD7FB),
   (0xFFA0, 0xFFA0), (0xFFF0, 0xFFF8), (0x111C0, 0x111C0), (0x111C2, 0x111C3), (0x11235, 0x11235),
   (0x1133E, 0x1133E), (0x1134D, 0x1134D), (0x11357, 0x11357), (0x113B8, 0x113B8),
   (0x113C2, 0x113C2), (0x113C5, 0x113C5), (0x113C7, 0x113C9), (0x113CF, 0x113CF),
   (0x113D1, 0x113D1), (0x114B0, 0x114B0), (0x114BD, 0x114BD), (0x115AF, 0x115AF),
   (0x116B6, 0x116B6), (0x11930, 0x11930), (0x1193D, 0x1193D), (0x1193F, 0x1193F),
   (0x11941, 0x11941), (0x11A84, 0x11A89), (0x11D46, 0x11D46), (0x11F02, 0x11F02),
   (0x11F41, 0x11F41), (0x16FF0, 0x16FF1), (0x1D165, 0x1D166), (0x1D16D, 0x1D172),
   (0x1D250, 0x1D252), (0x1D25F, 0x1D25F), (0x1D280, 0x1D281), (0xE0000, 0xE0000),
   (0xE0002, 0xE001F), (0xE0080, 0xE00FF), (0xE01F0, 0xE0FFF)]

/-- The letters of Khmer that the sign coeng puts below the letter before
    them, within its columns. -/
def khmerLetterRanges : List (Nat × Nat) :=
  [(0x1780, 0x1782), (0x1784, 0x1787), (0x1789, 0x178C), (0x178E, 0x1793), (0x1795, 0x1798),
   (0x179B, 0x179D), (0x17A0, 0x17A0), (0x17A2, 0x17A2), (0x17A7, 0x17A7), (0x17AB, 0x17AC),
   (0x17AF, 0x17AF)]

/-- The consonants of Tifinagh. -/
def tifinaghRanges : List (Nat × Nat) := [(0x2D31, 0x2D65), (0x2D6F, 0x2D6F)]

/-- The tone letters of Lisu that may come first of two. -/
def lisuFirstRanges : List (Nat × Nat) := [(0xA4F8, 0xA4FB)]

/-- The tone letters of Lisu that may come second of two. -/
def lisuSecondRanges : List (Nat × Nat) := [(0xA4FC, 0xA4FD)]

/-- The ignorable characters that may stand within a ligature: the joiner of
    graphemes, the inherent vowels of Khmer and the variation selectors. -/
def variationRanges : List (Nat × Nat) :=
  [(0x34F, 0x34F), (0x17B4, 0x17B5), (0x180B, 0x180D), (0x180F, 0x180F), (0xFE00, 0xFE0F),
   (0xE0100, 0xE01EF)]

/-- Whether the letters of Arabic at the sides of a character join across it. -/
def isTransparent (c : Char) : Bool := charWidth c = 0 && !inRanges separatingRanges c

/-! ## Ligatures -/

/-- A ligature, read from its last letter as far as to the one given. -/
inductive Ligature where
  /-- An alef, to which a lam joins. -/
  | alef
  /-- A lamed of Hebrew, to which an alef joins. -/
  | lamed (joined : Bool)
  /-- A letter of Khmer that a coeng may put below another. -/
  | khmer
  /-- A ya of Buginese, to which a vowel sign joins. -/
  | buginese (joined : Bool)
  /-- The vowel sign before a ya, to which a letter joins. -/
  | bugineseVowel
  /-- A consonant of Tifinagh, to which another joins. -/
  | tifinagh (joined : Bool)
  /-- The joiner of Tifinagh before a consonant. -/
  | tifinaghJoiner
  /-- The second of two tone letters of Lisu. -/
  | lisu
  /-- A letter of Old Turkic, to which another joins. -/
  | turkic (joined : Bool)
  deriving DecidableEq, Repr

namespace Ligature

/-- The ligature that a letter may be the last one of. -/
def ofChar? (c : Char) : Option Ligature :=
  if inRanges alefRanges c then some alef
  else if c.toNat = 0x05DC then some (lamed false)
  else if inRanges khmerLetterRanges c then some khmer
  else if c.toNat = 0x1A10 then some (buginese false)
  else if inRanges tifinaghRanges c then some (tifinagh false)
  else if inRanges lisuSecondRanges c then some lisu
  else if c.toNat = 0x10C03 then some (turkic false)
  else none

/-- The ligature with a joiner in front. Alef is not the letter behind any. -/
def join? : Ligature → Option Ligature
  | alef => none
  | lamed _ => some (lamed true)
  | buginese _ => some (buginese true)
  | tifinagh _ => some (tifinagh true)
  | turkic _ => some (turkic true)
  | ligature => some ligature

/-- The ligature with a letter in front, or nothing if it is complete, and the
    columns that the letter changes the whole by. A letter that has to leave
    its columns to the one before it takes back the column of the letter
    behind it. -/
def letterBefore? (c : Char) : Ligature → Option (Int × Option Ligature)
  | alef =>
    if inRanges lamRanges c then some (0, none)
    else if isTransparent c then some (0, some alef)
    else none
  | lamed true => if c.toNat = 0x05D0 then some (0, none) else none
  | khmer => if c.toNat = 0x17D2 then some (-1, none) else none
  | buginese true => if c.toNat = 0x1A17 then some (0, some bugineseVowel) else none
  | bugineseVowel => if c.toNat = 0x1A15 then some (0, none) else none
  | tifinagh joined =>
    if c.toNat = 0x2D7F then some (1, some tifinaghJoiner)
    else if joined && inRanges tifinaghRanges c then some (0, none)
    else none
  | tifinaghJoiner => if inRanges tifinaghRanges c then some (-1, none) else none
  | lisu => if inRanges lisuFirstRanges c then some (0, none) else none
  | turkic true => if c.toNat = 0x10C32 then some (0, none) else none
  | _ => none

/-- The ligature with a character in front, or nothing if it is complete, and
    the columns that the character changes the whole by. -/
def before? (c : Char) (ligature : Ligature) : Option (Int × Option Ligature) :=
  if c = joiner && ligature.join?.isSome then some (0, ligature.join?)
  else if inRanges variationRanges c then some (0, some ligature)
  else ligature.letterBefore? c

end Ligature

end TypedTriples.Text
