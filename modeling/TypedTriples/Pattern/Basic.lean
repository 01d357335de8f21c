import TypedTriples.Text.Basic

/-!
# Wildcard patterns

A pattern is text in which `*` stands for one or more characters other than
the slash and `**` for one or more characters other than the line feed; every
other character stands for itself. A pattern matches a text that starts with
such characters: what follows is free.

Main definitions:
* `Pattern.Item`: a character or a wildcard.
* `Pattern.items`: the items of a source text, cut first at `**`, left to
  right, then at `*`.
* `Pattern.expression`: the same items as a regular expression.
* `Pattern.matchesStart`: whether a text starts with what the items stand for.
* `Pattern.size`: the octets that the compiled expression of the items takes.
-/

namespace TypedTriples

namespace Pattern

/-- One position of a pattern. -/
inductive Item where
  /-- The character itself. -/
  | literal (c : Char)
  /-- One or more characters without a slash. -/
  | segment
  /-- One or more characters without a line feed. -/
  | span
  deriving DecidableEq, Repr

/-! ## Reading a source -/

/-- The parts of a text between the occurrences of `**`, taken from left to
    right. -/
def cutSpans : Text → List Text
  | [] => [[]]
  | '*' :: '*' :: rest => [] :: cutSpans rest
  | c :: rest => (cutSpans rest).modifyHead (c :: ·)

/-- The parts of a text between its stars. -/
def cutSegments (part : Text) : List Text := part.splitOn '*'

/-- The items of a part without `**`. -/
def partItems (part : Text) : List Item :=
  List.intercalate [.segment] ((cutSegments part).map fun text => text.map .literal)

/-- The items of a source, in order. -/
def items (source : Text) : List Item :=
  List.intercalate [.span] ((cutSpans source).map partItems)

/-! ## Regular expressions -/

/-- The characters that a regular expression gives a meaning of its own. -/
def metacharacters : Text := "\\.+*?()|[]\x7b\x7d^$#&-~".toList

/-- A character that stands for itself in a regular expression. -/
def escapeChar (c : Char) : Text :=
  if metacharacters.contains c then ['\\', c] else [c]

/-- The regular expression of a part without `**`. -/
def partExpression (part : Text) : Text :=
  List.intercalate "[^/]+".toList ((cutSegments part).map fun text => text.flatMap escapeChar)

/-- The regular expression that a source stands for, anchored at the start. -/
def expression (source : Text) : Text :=
  '^' :: List.intercalate ".+".toList ((cutSpans source).map partExpression)

/-! ## Matching -/

/-- The characters that an item may stand for. -/
def Item.admits : Item → Char → Bool
  | literal c, d => d == c
  | segment, d => d != '/'
  | span, d => d != '\n'

/-- Whether an item may stand for more than one character. -/
def Item.repeats : Item → Bool
  | literal _ => false
  | segment => true
  | span => true

/-- One step of matching from the last item to the first. `after` tells, for
    every end of a text from the whole down to the empty one, whether the
    items after this one match it; the answer tells the same with this item
    in front. -/
def Item.before (item : Item) : Text → List Bool → List Bool
  | c :: rest, _ :: after =>
    let here := item.before rest after
    let next := after.headD false || (item.repeats && here.headD false)
    (item.admits c && next) :: here
  | _, _ => [false]

/-- For every end of a text, whether it starts with what the items stand
    for. -/
def matchesEnds (items : List Item) (t : Text) : List Bool :=
  items.foldr (fun item after => item.before t after) (List.replicate (t.length + 1) true)

/-- Whether a text starts with what the items stand for. -/
def matchesStart (items : List Item) (t : Text) : Bool := (matchesEnds items t).headD false

/-! ## Size -/

/-- The octets of one state of the automaton that a regular expression is
    compiled to. -/
def stateSize : Nat := 32

/-- The octets of one way out of a state that has several. -/
def branchSize : Nat := 4

/-- How many octets the characters of a wildcard have in UTF-8, one number for
    each range of first octets. The character that a wildcard leaves out has
    one octet, and parts the characters of one octet in two ranges. -/
def wildcardForms : List Nat := [1, 1, 2, 3, 3, 3, 3, 4, 4, 4]

/-- The octets that an item takes. The automaton reads a text backwards and so
    shares no octets between the forms of a wildcard: each octet has a state of
    its own, and three more hold the forms together and repeat them. -/
def Item.size : Item → Nat
  | literal c => stateSize * c.utf8Size
  | segment | span =>
    let states := wildcardForms.foldr (· + ·) 3
    stateSize * states + branchSize * (wildcardForms.length + 2)

/-- The octets that every pattern takes: a state for the start of the text and
    one for the match, and three states, with two ways out and one range of
    octets, to pass over what follows a match. -/
def frameSize : Nat := stateSize * 5 + branchSize * 2 + 8

/-- The octets that the automaton of the items takes. -/
def size (items : List Item) : Nat := items.foldr (fun item rest => item.size + rest) frameSize

/-- The most octets that an automaton may take. -/
def sizeLimit : Nat := 10 * 1024 * 1024

end Pattern

/-- A pattern of admissible size. Its source decides what it matches. -/
structure Pattern where
  source : Text
  size_le : Pattern.size (Pattern.items source) ≤ Pattern.sizeLimit

namespace Pattern

/-- The pattern with the given source, unless it is too large. -/
def ofSource? (source : Text) : Option Pattern :=
  if h : size (items source) ≤ sizeLimit then some ⟨source, h⟩ else none

theorem source_of_ofSource? {source : Text} {pattern : Pattern}
    (h : ofSource? source = some pattern) : pattern.source = source := by
  rw [ofSource?, Option.dite_none_right_eq_some] at h
  obtain ⟨_, heq⟩ := h
  rw [← Option.some.inj heq]

/-- Whether a predicate starts with what the pattern stands for. -/
def accepts (pattern : Pattern) (predicate : Text) : Bool :=
  matchesStart (items pattern.source) predicate

instance : DecidableEq Pattern := fun p q =>
  if h : p.source = q.source then
    isTrue (by cases p; cases q; cases h; rfl)
  else
    isFalse fun e => h (congrArg source e)

end Pattern

end TypedTriples
