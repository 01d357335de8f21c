import TypedTriples.Text.EmojiSequence
import TypedTriples.Text.Ligature

/-!
# Display width

The number of columns that a text takes on a terminal. Each character takes
its own width, except where several are drawn as one: in ligatures, in emoji
sequences, and where a selector changes the character before it.

The text is read from its end, because a character is drawn as what follows it
demands.

Main definitions:
* `Text.Start`: what a text starts with, as far as it matters to the character
  before it.
* `Text.Start.before`: the start with a character in front, and the columns
  that the character changes the whole by.
* `Text.width`: the columns of a text.
-/

namespace TypedTriples.Text

/-- What a text starts with, selectors aside, as far as it matters to the
    character before it. -/
inductive Head where
  /-- A ligature. -/
  | ligature (l : Ligature)
  /-- An emoji sequence. -/
  | emoji (sequence : EmojiSequence)
  /-- The vowel sign E of Kirat Rai, which joins with the signs before it. -/
  | vowelE
  /-- The vowel sign AI of Kirat Rai, or two signs E. -/
  | vowelAi
  /-- Anything else. -/
  | other
  deriving DecidableEq, Repr

/-- What a text starts with: the selectors that the character before them is
    still to be tried with, the first one first, and what follows them. -/
structure Start where
  head : Head := .other
  selectors : List Selector := []
  deriving DecidableEq, Repr

namespace Head

/-- What a character starts. -/
def ofChar (c : Char) : Head :=
  match Ligature.ofChar? c, EmojiSequence.ofChar? c with
  | some l, _ => ligature l
  | none, some sequence => emoji sequence
  | none, none =>
    if c.toNat = 0x16D67 then vowelE
    else if c.toNat = 0x16D68 then vowelAi
    else other

/-- The head if it is a ligature: a selector breaks all others. -/
def ligatureOnly : Head → Head
  | ligature l => ligature l
  | _ => other

/-- Whether a picture before the head joins it. -/
def awaitsPicture : Head → Bool
  | emoji sequence => sequence.awaitsPicture
  | _ => false

/-- The head with a character in front, where the two are drawn as one, and the
    columns that the character changes the whole by. -/
def before? (c : Char) : Head → Option (Int × Head)
  | ligature l => (l.before? c).map fun (columns, more) => (columns, (more.map ligature).getD other)
  | emoji sequence => (sequence.before? c).map fun (columns, more) => (columns, emoji more)
  | vowelE =>
    if c.toNat = 0x16D63 || c.toNat = 0x16D69 then some (0, other)
    else if c.toNat = 0x16D67 then some (0, vowelAi)
    else if c.toNat = 0x16D68 then some (1, vowelE)
    else none
  | vowelAi => if c.toNat = 0x16D63 then some (0, other) else none
  | other => none

end Head

namespace Start

/-- What follows the selectors, as far as it matters to a character that none
    of them changes. -/
def headBehind (start : Start) : Head :=
  if start.selectors.isEmpty then start.head else start.head.ligatureOnly

/-- The start with a selector in front. Before a ligature it leaves those
    behind it in force, except that only the first selector may ask for a
    picture. Before anything else it takes their place, and a picture in front
    of it may still join what follows. -/
def select (selector : Selector) (start : Start) : Start :=
  match start.headBehind with
  | .ligature l =>
    { head := .ligature l, selectors := selector :: start.selectors.filter (· ≠ .picture) }
  | head =>
    { head := if selector = .picture && head.awaitsPicture then head else .other,
      selectors := [selector] }

/-- What starts with a character that a selector before the head changes, and
    the columns that the character changes the whole by: none for a picture
    that joins what follows. -/
def selectedBy? (c : Char) (head : Head) (selector : Selector) : Option (Int × Start) := do
  let columns ← selector.width? c
  match selector with
  | .picture => return (if head.awaitsPicture then 0 else columns, { head := .emoji .picture })
  | _ => return (columns, {})

/-- The start with a character in front that the first of the selectors to do
    so changes, and the columns that the character changes the whole by. -/
def selected? (c : Char) (start : Start) : Option (Int × Start) :=
  start.selectors.findSome? (selectedBy? c start.head)

/-- The start with any other character in front, and the columns that the
    character changes the whole by. -/
def unselected (c : Char) (start : Start) : Int × Start :=
  if c.toNat ≤ 0xA0 then (1, {})
  else
    match Selector.ofChar? c, start.headBehind.before? c with
    | some selector, _ => (0, start.select selector)
    | none, some (columns, head) => (columns, { head })
    | none, none => (charWidth c, { head := .ofChar c })

/-- The start with a character in front, and the columns that the character
    changes the whole by. -/
def before (c : Char) (start : Start) : Int × Start :=
  (start.selected? c).getD (start.unselected c)

end Start

/-! ## Texts -/

/-- The columns and the start of a text with a character in front. -/
def charBefore (c : Char) : Int × Start → Int × Start
  | (columns, start) =>
    let step := start.before c
    (columns + step.1, step.2)

/-- The columns of a text. -/
def width (t : Text) : Nat := (t.foldr charBefore (0, {})).1.toNat

end TypedTriples.Text
