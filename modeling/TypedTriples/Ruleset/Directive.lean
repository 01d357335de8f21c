import TypedTriples.Ruleset.Basic

/-!
# The lines of a rules file

A line holds one directive. Its words are separated by spaces and tabs, which
may also stand at both ends:

* `@language TAG`, or `@language` alone, which changes nothing;
* `@prefix NAME IRI`, where a colon may follow the name and angle brackets
  may surround the IRI;
* `@default KIND PATTERN`;
* `CURIE KIND MODIFIER…`, with any number of modifiers.

`Directive.ofLine?` reads a line from left to right; each part takes all that
it can take, and nothing may be left at the end.
-/

namespace TypedTriples

/-- What a line of a rules file declares. -/
inductive Directive where
  /-- The language of localized text, if one is given. -/
  | language (tag : Option Text)
  /-- A namespace and its prefix. -/
  | addNamespace (entry : Namespace)
  /-- A kind for all predicates that match a pattern. -/
  | addDefault (kind : Kind) (source : Text)
  /-- A kind for one predicate. -/
  | addPredicate (curie : Text) (kind : Kind) (modifiers : List Text)
  deriving DecidableEq, Repr

namespace Directive

/-! ## Classes of characters -/

/-- The blanks between the words of a line. -/
def isGap (c : Char) : Bool := c == ' ' || c == '\t'

/-- The characters of a prefix. -/
def isNameChar (c : Char) : Bool := c.isAlphanum || c == '_' || c == '-' || c == '.'

/-- The characters that may not stand in the suffix of a compact name. -/
def isReserved (c : Char) : Bool := "<>\"\x7b\x7d|^`\\".toList.contains c

/-- The characters of the suffix of a compact name. -/
def isSuffixChar (c : Char) : Bool := !(isReserved c || Text.isWhite c || Text.isControl c)

/-! ## Reading the parts of a line -/

/-- One or more characters of a class, and what follows them. -/
def run? (p : Char → Bool) (t : Text) : Option (Text × Text) :=
  match t.takeWhile p with
  | [] => none
  | taken => some (taken, t.dropWhile p)

/-- What follows one or more blanks. -/
def gap? (t : Text) : Option Text := (run? isGap t).map (·.2)

/-- A word: one or more characters other than blanks. -/
def word? (t : Text) : Option (Text × Text) := run? (fun c => !isGap c) t

/-- Groups of letters and digits with a hyphen before each, as many as there
    are. -/
def subtags (t : Text) : Text × Text :=
  match t with
  | '-' :: rest =>
    match rest.takeWhile Char.isAlphanum with
    | [] => ([], '-' :: rest)
    | group =>
      let more := subtags (rest.dropWhile Char.isAlphanum)
      ('-' :: group ++ more.1, more.2)
  | _ => ([], t)
termination_by t.length
decreasing_by
  have := (List.dropWhile_sublist (l := rest) Char.isAlphanum).length_le
  simp only [List.length_cons]
  omega

/-- A language tag: letters, then hyphenated groups of letters and digits. -/
def languageTag? (t : Text) : Option (Text × Text) :=
  (run? Char.isAlpha t).map fun (letters, rest) =>
    let more := subtags rest
    (letters ++ more.1, more.2)

/-- A keyword for a kind, which must be a whole word. -/
def kind? (t : Text) : Option (Kind × Text) :=
  match Kind.keywords.findSome? fun entry =>
      (Text.stripPrefix? entry.1 t).map fun rest => (entry.2, rest) with
  | some (kind, []) => some (kind, [])
  | some (kind, c :: rest) => if isGap c then some (kind, c :: rest) else none
  | none => none

/-- A compact name: a prefix, a colon and a suffix. -/
def curie? (t : Text) : Option (Text × Text) :=
  match run? isNameChar t with
  | some (name, ':' :: rest) =>
    (run? isSuffixChar rest).map fun (suffix, rest) => (name ++ ':' :: suffix, rest)
  | _ => none

/-- Words with blanks before each, as many as there are. -/
def modifiers (t : Text) : List Text × Text :=
  match _ : (gap? t).bind word? with
  | some (word, rest) =>
    let more := modifiers rest
    (word :: more.1, more.2)
  | none => ([], t)
termination_by t.length
decreasing_by
  rename_i h
  obtain ⟨u, hu, hw⟩ := Option.bind_eq_some_iff.mp h
  have h1 : u.length ≤ t.length := by
    simp only [gap?, run?, Option.map_eq_some_iff] at hu
    obtain ⟨_, ha, rfl⟩ := hu
    split at ha
    · cases ha
    · cases ha
      exact (List.dropWhile_sublist _).length_le
  have h2 : rest.length < u.length := by
    simp only [word?, run?] at hw
    split at hw
    · cases hw
    · rename_i heq
      cases hw
      have := congrArg List.length (List.takeWhile_append_dropWhile (p := fun c => !isGap c) (l := u))
      simp only [List.length_append] at this
      have : 0 < (List.takeWhile (fun c => !isGap c) u).length :=
        List.length_pos_iff.mpr heq
      omega
  omega

/-! ## Reading a directive -/

/-- The IRI of a namespace without the angle brackets around it, if it has
    both. -/
def unbracket (iri : Text) : Text :=
  ((Text.stripPrefix? ['<'] iri).bind (Text.stripSuffix? ['>'])).getD iri

/-- The text without the colon that it may start with. -/
def skipColon : Text → Text
  | ':' :: rest => rest
  | t => t

/-- `@language`, with a tag or without. -/
def language? (t : Text) : Option (Directive × Text) :=
  (Text.stripPrefix? "@language".toList t).map fun rest =>
    match (gap? rest).bind languageTag? with
    | some (tag, rest) => (.language (some tag), rest)
    | none => (.language none, rest)

/-- `@prefix`, a name and an IRI. -/
def namespace? (t : Text) : Option (Directive × Text) := do
  let t ← Text.stripPrefix? "@prefix".toList t
  let t ← gap? t
  let (name, t) ← run? isNameChar t
  let t ← gap? (skipColon t)
  let (iri, t) ← word? t
  return (.addNamespace ⟨name, unbracket iri⟩, t)

/-- `@default`, a kind and a pattern. -/
def default? (t : Text) : Option (Directive × Text) := do
  let t ← Text.stripPrefix? "@default".toList t
  let t ← gap? t
  let (kind, t) ← kind? t
  let t ← gap? t
  let (source, t) ← word? t
  return (.addDefault kind source, t)

/-- A compact name, a kind and modifiers. -/
def predicate? (t : Text) : Option (Directive × Text) := do
  let (curie, t) ← curie? t
  let t ← gap? t
  let (kind, t) ← kind? t
  let (words, t) := modifiers t
  return (.addPredicate curie kind words, t)

/-- The directive that a text starts with. -/
def scan? (t : Text) : Option (Directive × Text) :=
  language? t <|> namespace? t <|> default? t <|> predicate? t

/-- The directive of a line. -/
def ofLine? (line : Text) : Option Directive :=
  match scan? (line.dropWhile isGap) with
  | some (directive, rest) => if rest.all isGap then some directive else none
  | none => none

/-! ## Effect on a ruleset -/

/-- The rule of a predicate line. Of the modifiers only `lang` and `many` have
    a meaning. -/
def ruleOf (curie : Text) (kind : Kind) (modifiers : List Text) : PredicateRule where
  curie := curie
  kind := kind
  lang := modifiers.contains "lang".toList
  many := modifiers.contains "many".toList

/-- The ruleset after a directive. -/
def apply (rules : Ruleset) : Directive → Ruleset
  | language (some tag) => { rules with language := tag }
  | language none => rules
  | addNamespace entry => { rules with prefixes := rules.prefixes.push entry }
  | addDefault kind source =>
    match Pattern.ofSource? source with
    | some pattern => { rules with defaults := rules.defaults ++ [⟨kind, pattern⟩] }
    | none => rules
  | addPredicate curie kind modifiers =>
    { rules with predicates := rules.predicates.insert curie (ruleOf curie kind modifiers) }

end Directive

end TypedTriples
