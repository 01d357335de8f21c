import TypedTriples.Text.Emoji

/-!
# Emoji sequences

A sequence of characters that is drawn as one picture takes the columns of one
picture: an emoji with a selector, a skin tone or a key after it, a flag
spelled with letters, and pictures with joiners between. A sequence is read
from its last character to its first.

Main definitions:
* `EmojiSequence`: a sequence as far as it is read.
* `EmojiSequence.ofChar?`: the sequence that a character may be the last one of.
* `EmojiSequence.before?`: the sequence with a character in front, and the
  columns that the character changes the whole by.
-/

namespace TypedTriples.Text

/-- An emoji sequence, read from its last character as far as to the one
    given. -/
inductive EmojiSequence where
  /-- A picture. -/
  | picture
  /-- A skin tone. -/
  | skinTone
  /-- A letter of a flag. -/
  | flagLetter
  /-- A flag of two letters. -/
  | flag
  /-- A joiner before a picture. -/
  | joined
  /-- A key before a joiner. -/
  | joinedKeycap
  /-- A letter of a flag before a joiner. -/
  | joinedFlagLetter
  /-- A flag of two letters before a joiner. -/
  | joinedFlag
  /-- A flag before a joiner, and a letter before it. -/
  | letterAndJoinedFlag
  /-- The end of the code of a region before a joiner: so many letters, and so
      many digits before them. -/
  | joinedCode (letters digits : Nat)
  deriving DecidableEq, Repr

namespace EmojiSequence

/-- The sequence that a character may be the last one of. -/
def ofChar? (c : Char) : Option EmojiSequence :=
  if isFlagLetter c then some flagLetter
  else if isSkinTone c then some skinTone
  else if isPictograph c then some picture
  else none

/-- Whether the character before the sequence is a picture that joins it, if it
    is one at all. -/
def awaitsPicture : EmojiSequence → Bool
  | joined | joinedKeycap => true
  | _ => false

/-- The code of a region with a character in front. A code has three digits or
    at least three letters, and a black flag stands before it. -/
def codeBefore? (c : Char) (letters digits : Nat) : Option EmojiSequence :=
  if isTagLetter c && digits = 0 && letters < 6 then some (joinedCode (letters + 1) 0)
  else if isTagDigit c && letters ≤ 4 && digits < 3 then some (joinedCode letters (digits + 1))
  else if c = blackFlag && (digits = 3 || (digits = 0 && 3 ≤ letters)) then some picture
  else none

/-- The sequence before a joiner with a character in front. -/
def joinedBefore? (c : Char) : Option (Int × EmojiSequence) :=
  if c = keycap then some (0, joinedKeycap)
  else if isFlagLetter c then some (1, joinedFlagLetter)
  else if isSkinTone c then some (0, skinTone)
  else if c = tagEnd then some (0, joinedCode 0 0)
  else if isPictograph c then some (0, picture)
  else none

/-- The sequence with a character in front, and the columns that the character
    changes the whole by. A letter of a flag takes a column by itself. The
    second letter before a joiner takes it back, for the flag is then part of
    a picture that is counted already; a third letter restores both columns. -/
def before? (c : Char) : EmojiSequence → Option (Int × EmojiSequence)
  | picture => if c = joiner then some (0, joined) else none
  | skinTone =>
    if takesSkinTone c then some (0, picture)
    else if c = joiner then some (0, joined)
    else none
  | flagLetter => if isFlagLetter c then some (1, flag) else none
  | flag =>
    if isFlagLetter c then some (1, flag)
    else if c = joiner then some (0, joined)
    else none
  | joined => joinedBefore? c
  | joinedKeycap => none
  | joinedFlagLetter => if isFlagLetter c then some (-1, joinedFlag) else none
  | joinedFlag =>
    if isFlagLetter c then some (3, letterAndJoinedFlag)
    else if c = joiner then some (0, joined)
    else none
  | letterAndJoinedFlag =>
    if isFlagLetter c then some (-1, joinedFlag)
    else if c = joiner then some (0, joined)
    else none
  | joinedCode letters digits => (codeBefore? c letters digits).map ((0, ·))

end EmojiSequence

end TypedTriples.Text
