import TypedTriples.Ruleset.Directive

/-!
# Rules files

A rules file is read line by line, and every line feed and every carriage
return ends a line. A line that holds no directive is passed over, so every
text is a rules file.

Main definitions:
* `Ruleset.lines`, `Ruleset.directives`: the lines and the directives of a
  text.
* `Ruleset.ofText`: the ruleset that the directives build, from the empty one.
-/

namespace TypedTriples.Ruleset

/-- The characters that end a line. -/
def isLineEnd (c : Char) : Bool := c == '\n' || c == '\r'

/-- The lines of a text. -/
def lines (content : Text) : List Text := content.splitOnP isLineEnd

/-- The lines of a text with their numbers, from one. -/
def numberedLines (content : Text) : List (Nat × Text) :=
  (lines content).zipIdx.map fun (line, index) => (index + 1, line)

/-- The directives of a text, in order. -/
def directives (content : Text) : List Directive :=
  (lines content).filterMap Directive.ofLine?

/-- The ruleset after a list of directives. -/
def applyAll (rules : Ruleset) (directives : List Directive) : Ruleset :=
  directives.foldl Directive.apply rules

/-- The ruleset of a rules file. -/
def ofText (content : Text) : Ruleset := applyAll empty (directives content)

end TypedTriples.Ruleset
