import TypedTriples.Calendar.Layout

/-!
# Timestamps

A timestamp is a text in one of five layouts, white space around it aside. It
stands for a moment at offset zero; a timestamp without an offset is at offset
zero already, and one without a time is at midnight.
-/

namespace TypedTriples

/-- A text that is in none of the layouts, without the white space around
    it. -/
structure InvalidTimestamp where
  value : Text
  deriving DecidableEq, Repr

/-- The message for a text that is no timestamp. -/
def InvalidTimestamp.message (fault : InvalidTimestamp) : Text :=
  "Invalid timestamp: ".toList ++ fault.value

namespace Timestamp

/-- The layouts, in the order in which they are tried. -/
def layouts : List (Text → Option Moment) :=
  [Layout.zoned?, Layout.timed?, Layout.spaced?, Layout.untimed?, Layout.dated?]

/-- The moment that a text without white space around it stands for. -/
def ofTrimmed? (t : Text) : Option Moment := layouts.findSome? fun layout => layout t

/-- The moment that a timestamp stands for. -/
def moment (value : Text) : Except InvalidTimestamp Moment :=
  match ofTrimmed? value.trim with
  | some m => .ok m
  | none => .error ⟨value.trim⟩

/-- The canonical form of a timestamp. -/
def normalize (value : Text) : Except InvalidTimestamp Text := (moment value).map Moment.text

/-- The canonical form of the date of a timestamp. -/
def normalizeDate (value : Text) : Except InvalidTimestamp Text :=
  (moment value).map fun m => m.date.text

end Timestamp

end TypedTriples
