import TypedTriples.Text.Basic

/-!
# Places

A path is a list of steps between slashes. Each step leads from a directory
to another place: down to a name, up with two points, nowhere with one point
or none. A place is where the steps lead, so that two spellings of one path
give one place.

Main definitions:
* `Place`: a place, seen from the root or from the working directory.
* `Place.steps`: the steps of a path.
* `Place.ofPath`: the place that a path leads to.
-/

namespace TypedTriples

/-- Where a path leads. -/
structure Place where
  /-- Whether the place is seen from the root, or from the working directory. -/
  rooted : Bool := false
  /-- The names on the way, from the last to the first. Seen from the working
      directory the way may begin with steps up. -/
  names : List Text := []
  deriving DecidableEq, Repr

namespace Place

/-- The step to the directory above. -/
def up : Text := ['.', '.']

/-- Whether a step stays in its directory. -/
def stays (step : Text) : Bool := step = [] || step = ['.']

/-- The directory above a place. The root is above itself. -/
def above : Place → Place
  | ⟨rooted, []⟩ => ⟨rooted, if rooted then [] else [up]⟩
  | ⟨rooted, name :: names⟩ => ⟨rooted, if name = up then up :: name :: names else names⟩

/-- The place that a step leads to. -/
def next (place : Place) (step : Text) : Place :=
  if stays step then place
  else if step = up then place.above
  else { place with names := step :: place.names }

/-- Whether a place is the root, the working directory or a directory above
    it. These always exist. -/
def isGiven (place : Place) : Bool := place.names.all (· = up)

/-- Whether a place lies below a directory. -/
def isBelow (place directory : Place) : Bool :=
  place.rooted = directory.rooted && place.names ≠ directory.names &&
    directory.names.isSuffixOf place.names

/-- The place where the steps of a path begin. -/
def origin (path : Text) : Place := ⟨path.head? = some '/', []⟩

/-- The steps of a path. -/
def steps (path : Text) : List Text := path.splitOn '/'

/-- The place that a path leads to, if all its steps lead through directories. -/
def ofPath (path : Text) : Place := (steps path).foldl next (origin path)

end Place

end TypedTriples
