import Mathlib
import TypedTriples.Json.Reader
import TypedTriples.Proofs.Ruleset.Shapes

/-!
# The grammar of JSON

The grammar says which texts spell which values, without a word on how they
are read: a value may be spelled in many ways, with blanks between its parts
and escapes in its strings. The reader finds the value of every text that
spells one. A part is read with any continuation that the grammar allows after
a value; for numbers alone the continuation matters, since they have no end of
their own.

Main definitions:
* `Json.SpellsUnits`: spellings of code units between the quotes of a string.
* `Json.IsNumber`: spellings of numbers.
* `Json.Spells`: spellings of values.

Main results:
* `Json.Reader.units?_append`, `Json.Reader.number?_append`: strings and numbers.
* `Json.Reader.reads`: what is found with a number of steps.
* `Json.read?_of_spells`: the value of a spelled text is read.
-/

namespace TypedTriples.Json

open Directive (IsRun Stops stops_cons takeWhile_append_of_stops dropWhile_append_of_stops)

/-! ## Spellings -/

/-- Blanks between the parts of a value. -/
def IsSpaces (t : Text) : Prop := ∀ c ∈ t, c = ' ' ∨ c = '\t' ∨ c = '\n' ∨ c = '\r'

/-- The hexadecimal digits, of which the letters have two cases, and their values. -/
def hexDigits : List (Char × Nat) :=
  "0123456789abcdef".toList.zipIdx ++ "ABCDEF".toList.zipIdx 10

/-- The letters after a backslash, and what they stand for. -/
def letters : List (Char × Char) :=
  [('"', '"'), ('\\', '\\'), ('/', '/'), ('b', '\x08'), ('f', '\x0c'), ('n', '\n'), ('r', '\r'),
    ('t', '\t')]

/-- A spelling of one code unit in a string. -/
inductive SpellsUnit : Nat → Text → Prop
  | raw {c : Char} : 0x20 ≤ c.toNat → c ≠ '"' → c ≠ '\\' → SpellsUnit c.toNat [c]
  | letter {letter c : Char} : (letter, c) ∈ letters → SpellsUnit c.toNat ['\\', letter]
  | code {w x y z : Nat} {a b c d : Char} :
      (a, w) ∈ hexDigits → (b, x) ∈ hexDigits → (c, y) ∈ hexDigits → (d, z) ∈ hexDigits →
      SpellsUnit (((w * 16 + x) * 16 + y) * 16 + z) ['\\', 'u', a, b, c, d]

/-- A spelling of code units one after another. -/
inductive SpellsUnits : List Nat → Text → Prop
  | nil : SpellsUnits [] []
  | cons {unit : Nat} {units : List Nat} {first t : Text} :
      SpellsUnit unit first → SpellsUnits units t → SpellsUnits (unit :: units) (first ++ t)

/-- The whole part of a number: zero, or digits of which zero is not the first. -/
inductive IsWhole : Text → Prop
  | zero : IsWhole ['0']
  | digits {t : Text} : IsRun Char.isDigit t → t.head? ≠ some '0' → IsWhole t

/-- The fraction of a number, which it may lack. -/
inductive IsFraction : Text → Prop
  | none : IsFraction []
  | digits {t : Text} : IsRun Char.isDigit t → IsFraction ('.' :: t)

/-- The exponent of a number, which it may lack. -/
inductive IsExponent : Text → Prop
  | none : IsExponent []
  | digits {letter : Char} {t : Text} : letter ∈ ['e', 'E'] → IsRun Char.isDigit t →
      IsExponent (letter :: t)
  | signed {letter sign : Char} {t : Text} : letter ∈ ['e', 'E'] → sign ∈ ['+', '-'] →
      IsRun Char.isDigit t → IsExponent (letter :: sign :: t)

/-- A number without its sign. -/
inductive IsMagnitude : Text → Prop
  | parts {whole fraction exponent : Text} : IsWhole whole → IsFraction fraction →
      IsExponent exponent → IsMagnitude (whole ++ fraction ++ exponent)

/-- A number. -/
inductive IsNumber : Text → Prop
  | positive {t : Text} : IsMagnitude t → IsNumber t
  | negative {t : Text} : IsMagnitude t → IsNumber ('-' :: t)

/-- The words and what they stand for. -/
def words : List (Text × Json) :=
  [("null".toList, .null), ("true".toList, .bool true), ("false".toList, .bool false)]

mutual

/-- A spelling of a value, without blanks around it. -/
inductive Spells : Json → Text → Prop
  | word {t : Text} {value : Json} : (t, value) ∈ words → Spells value t
  | number {t : Text} : IsNumber t → Spells (.number t) t
  | string {units : List Nat} {t : Text} : SpellsUnits units t →
      Spells (.string (Reader.textOfUnits? units)) ('"' :: t ++ ['"'])
  | noItems {blanks : Text} : IsSpaces blanks → Spells (.array []) ('[' :: blanks ++ [']'])
  | array {items : List Json} {t : Text} : SpellsItems items t →
      Spells (.array items) ('[' :: t ++ [']'])
  | noMembers {blanks : Text} : IsSpaces blanks →
      Spells (.object []) ('\x7b' :: blanks ++ ['\x7d'])
  | object {members : List (Option Text × Json)} {t : Text} : SpellsMembers members t →
      Spells (.object members) ('\x7b' :: t ++ ['\x7d'])

/-- A spelling of the items of an array, at least one. -/
inductive SpellsItems : List Json → Text → Prop
  | last {item : Json} {before t after : Text} : IsSpaces before → Spells item t →
      IsSpaces after → SpellsItems [item] (before ++ t ++ after)
  | cons {item : Json} {items : List Json} {before t after rest : Text} : IsSpaces before →
      Spells item t → IsSpaces after → SpellsItems items rest →
      SpellsItems (item :: items) (before ++ t ++ after ++ ',' :: rest)

/-- A spelling of the members of an object, at least one. -/
inductive SpellsMembers : List (Option Text × Json) → Text → Prop
  | last {member : Option Text × Json} {t : Text} : SpellsMember member t →
      SpellsMembers [member] t
  | cons {member : Option Text × Json} {members : List (Option Text × Json)} {t rest : Text} :
      SpellsMember member t → SpellsMembers members rest →
      SpellsMembers (member :: members) (t ++ ',' :: rest)

/-- A spelling of one member: a string, a colon and a value, with blanks around
    each. -/
inductive SpellsMember : Option Text × Json → Text → Prop
  | parts {units : List Nat} {value : Json} {before name middle between t after : Text} :
      IsSpaces before → SpellsUnits units name → IsSpaces middle → IsSpaces between →
      Spells value t → IsSpaces after →
      SpellsMember (Reader.textOfUnits? units, value)
        (before ++ '"' :: name ++ '"' :: middle ++ ':' :: between ++ t ++ after)

end

/-! ## What stands where -/

/-- The characters that may follow a value. -/
def followers : List Char := [' ', '\t', '\n', '\r', ',', ']', '\x7d']

/-- A text that may follow a value. -/
def Follows (t : Text) : Prop := ∀ c ∈ t.head?, c ∈ followers

theorem IsSpaces.mem_followers {t : Text} (h : IsSpaces t) {c : Char} (hc : c ∈ t) :
    c ∈ followers := by
  rcases h c hc with rfl | rfl | rfl | rfl <;> simp [followers]

theorem IsSpaces.follows {t : Text} (h : IsSpaces t) : Follows t :=
  fun _ hc => h.mem_followers (List.mem_of_head? hc)

theorem IsSpaces.follows_append {blanks : Text} (h : IsSpaces blanks) {c : Char}
    (hc : c ∈ followers) (rest : Text) : Follows (blanks ++ c :: rest) := by
  intro d hd
  cases blanks with
  | nil =>
    cases hd
    exact hc
  | cons blank blanks =>
    obtain rfl : blank = d := by simpa using hd
    exact h.mem_followers List.mem_cons_self

theorem Follows.stops {t : Text} (h : Follows t) {p : Char → Bool}
    (hp : ∀ c ∈ followers, p c = false) : Stops p t := fun c hc => hp c (h c hc)

/-- Neither digits nor a point follow the fraction of a number. -/
theorem IsExponent.stops {t rest : Text} (h : IsExponent t) (hrest : Follows rest)
    {p : Char → Bool} (hp : ∀ c ∈ 'e' :: 'E' :: followers, p c = false) : Stops p (t ++ rest) := by
  cases h with
  | none => exact hrest.stops fun c hc => hp c (by simp [hc])
  | digits hletter hrun | signed hletter hsign hrun =>
    refine stops_cons.mpr (hp _ ?_)
    simp only [List.mem_cons, List.not_mem_nil, or_false] at hletter
    rcases hletter with rfl | rfl <;> simp

theorem IsMagnitude.exists_cons {t : Text} (h : IsMagnitude t) :
    ∃ c u, t = c :: u ∧ c.isDigit = true := by
  cases h with
  | parts hwhole hfraction hexponent =>
    cases hwhole with
    | zero => exact ⟨'0', _, rfl, rfl⟩
    | digits hrun hzero =>
      obtain ⟨c, whole, rfl⟩ := List.exists_cons_of_ne_nil hrun.1
      exact ⟨c, _, rfl, hrun.2 c List.mem_cons_self⟩

/-- A number starts with its sign or a digit, and with nothing else. -/
theorem IsNumber.exists_cons {t : Text} (h : IsNumber t) :
    ∃ c u, t = c :: u ∧ ∀ d, d ≠ '-' → d.isDigit = false → c ≠ d := by
  cases h with
  | positive hmagnitude =>
    obtain ⟨c, u, rfl, hdigit⟩ := hmagnitude.exists_cons
    refine ⟨c, u, rfl, fun d _ hd => ?_⟩
    rintro rfl
    rw [hdigit] at hd
    cases hd
  | negative hmagnitude => exact ⟨'-', _, rfl, fun d hd _ => hd.symm⟩

namespace Reader

/-! ## Blanks -/

theorem isSpace_iff {c : Char} : isSpace c = true ↔ c = ' ' ∨ c = '\t' ∨ c = '\n' ∨ c = '\r' := by
  simp [isSpace, or_assoc]

theorem skipSpace_append {blanks : Text} (h : IsSpaces blanks) (t : Text) :
    skipSpace (blanks ++ t) = skipSpace t :=
  List.dropWhile_append_of_pos fun c hc => isSpace_iff.mpr (h c hc)

theorem skipSpace_cons {c : Char} (h : isSpace c = false) (t : Text) :
    skipSpace (c :: t) = c :: t := by
  simp [skipSpace, h]

theorem value?_append_spaces {blanks : Text} (h : IsSpaces blanks) (fuel : Nat) (t : Text) :
    value? fuel (blanks ++ t) = value? fuel t := by
  cases fuel with
  | zero => rfl
  | succ fuel => rw [value?, value?, skipSpace_append h]

theorem items?_append_spaces {blanks : Text} (h : IsSpaces blanks) (fuel : Nat) (t : Text) :
    items? fuel (blanks ++ t) = items? fuel t := by
  cases fuel with
  | zero => rfl
  | succ fuel => rw [items?, items?, value?_append_spaces h]

theorem members?_append_spaces {blanks : Text} (h : IsSpaces blanks) (fuel : Nat) (t : Text) :
    members? fuel (blanks ++ t) = members? fuel t := by
  cases fuel with
  | zero => rfl
  | succ fuel => rw [members?, members?, skipSpace_append h]

/-! ## Strings -/

theorem hexValue?_of_mem_hexDigits {digit : Char} {value : Nat} (h : (digit, value) ∈ hexDigits) :
    hexValue? digit = some value := by
  have hall : ∀ entry ∈ hexDigits, hexValue? entry.1 = some entry.2 := by decide
  exact hall _ h

theorem escaped?_of_mem_letters {letter c : Char} (h : (letter, c) ∈ letters) :
    escaped? letter = some c ∧ letter ≠ 'u' := by
  have hall : ∀ entry ∈ letters, escaped? entry.1 = some entry.2 ∧ entry.1 ≠ 'u' := by decide
  exact hall _ h

theorem units?_unit {unit : Nat} {units : List Nat} {t rest after : Text} (h : SpellsUnit unit t)
    (hrest : units? rest = some (units, after)) :
    units? (t ++ rest) = some (unit :: units, after) := by
  cases h with
  | raw hcontrol hquote hbackslash => simp [units?, hcontrol, hbackslash, hrest]
  | letter hletter =>
    obtain ⟨hescaped, hu⟩ := escaped?_of_mem_letters hletter
    simp [units?, hescaped, hu, hrest]
  | code ha hb hc hd =>
    simp [units?, hex4?, hexValue?_of_mem_hexDigits ha, hexValue?_of_mem_hexDigits hb,
      hexValue?_of_mem_hexDigits hc, hexValue?_of_mem_hexDigits hd, hrest]

/-- The units of a string are read up to its closing quote. -/
theorem units?_append {units : List Nat} {t : Text} (h : SpellsUnits units t) (rest : Text) :
    units? (t ++ '"' :: rest) = some (units, rest) := by
  induction h with
  | nil => simp [units?]
  | cons hunit hunits ih =>
    rw [List.append_assoc]
    exact units?_unit hunit ih

theorem string?_append {units : List Nat} {t : Text} (h : SpellsUnits units t) (rest : Text) :
    string? (t ++ '"' :: rest) = some (textOfUnits? units, rest) := by
  rw [string?, units?_append h]
  rfl

/-! ## Numbers -/

theorem digits?_append {t rest : Text} (h : IsRun Char.isDigit t)
    (hrest : Stops Char.isDigit rest) : digits? (t ++ rest) = some (t, rest) := by
  unfold digits?
  rw [takeWhile_append_of_stops h.2 hrest, dropWhile_append_of_stops h.2 hrest]
  cases t with
  | nil => exact absurd rfl h.1
  | cons c t => rfl

theorem whole?_append {t rest : Text} (h : IsWhole t) (hrest : Stops Char.isDigit rest) :
    whole? (t ++ rest) = some (t, rest) := by
  cases h with
  | zero => rfl
  | digits hrun hzero =>
    cases t with
    | nil => exact absurd rfl hrun.1
    | cons c t =>
      have hc : c ≠ '0' := by simpa using hzero
      rw [← digits?_append hrun hrest]
      simp [whole?, hc]

theorem fraction?_append {t rest : Text} (h : IsFraction t) (hrest : Stops Char.isDigit rest)
    (hpoint : Stops (· == '.') rest) : fraction? (t ++ rest) = some (t, rest) := by
  cases h with
  | none =>
    cases rest with
    | nil => rfl
    | cons c rest =>
      have hc : c ≠ '.' := by simpa using stops_cons.mp hpoint
      simp [fraction?, hc]
  | digits hrun => simp [fraction?, digits?_append hrun hrest]

theorem exponent?_append {t rest : Text} (h : IsExponent t) (hrest : Follows rest) :
    exponent? (t ++ rest) = some (t, rest) := by
  have hstops : Stops Char.isDigit rest := hrest.stops (by simp [followers])
  cases h with
  | none =>
    cases rest with
    | nil => rfl
    | cons c rest =>
      have hletter : Stops (fun c => c == 'e' || c == 'E') (c :: rest) :=
        hrest.stops (by simp [followers])
      simp only [List.nil_append, exponent?, stops_cons.mp hletter]
      rfl
  | @digits letter t hletter hrun =>
    have hread := digits?_append hrun hstops
    have hsign : ∀ c ∈ t.head?, c ≠ '+' ∧ c ≠ '-' := by
      intro c hc
      have hdigit := hrun.2 c (List.mem_of_head? hc)
      constructor <;> (rintro rfl; cases hdigit)
    cases t with
    | nil => exact absurd rfl hrun.1
    | cons c t =>
      obtain ⟨hplus, hminus⟩ := hsign c rfl
      have hc : (letter == 'e' || letter == 'E') = true := by simpa using hletter
      rw [List.cons_append] at hread
      simp [exponent?, hc, hplus, hminus, hread]
  | @signed letter sign t hletter hsign hrun =>
    have hread := digits?_append hrun hstops
    have hc : (letter == 'e' || letter == 'E') = true := by simpa using hletter
    simp only [List.mem_cons, List.not_mem_nil, or_false] at hsign
    rcases hsign with rfl | rfl <;> simp [exponent?, hc, hread]

theorem magnitude?_append {t rest : Text} (h : IsMagnitude t) (hrest : Follows rest) :
    magnitude? (t ++ rest) = some (t, rest) := by
  cases h with
  | @parts whole fraction exponent hwhole hfraction hexponent =>
    have hdigit : Stops Char.isDigit (exponent ++ rest) :=
      hexponent.stops hrest (by simp [followers])
    have hpoint : Stops (· == '.') (exponent ++ rest) :=
      hexponent.stops hrest (by simp [followers])
    have hdigit' : Stops Char.isDigit (fraction ++ (exponent ++ rest)) := by
      cases hfraction with
      | none => exact hdigit
      | digits hrun => exact stops_cons.mpr (by decide)
    simp [magnitude?, whole?_append hwhole hdigit', fraction?_append hfraction hdigit hpoint,
      exponent?_append hexponent hrest]

/-- A number is read whole where the text may go on after a value. -/
theorem number?_append {t rest : Text} (h : IsNumber t) (hrest : Follows rest) :
    number? (t ++ rest) = some (t, rest) := by
  cases h with
  | positive hmagnitude =>
    have hread := magnitude?_append hmagnitude hrest
    obtain ⟨c, u, rfl, hdigit⟩ := hmagnitude.exists_cons
    have hc : c ≠ '-' := by
      rintro rfl
      cases hdigit
    rw [List.cons_append] at hread ⊢
    simp [number?, hc, hread]
  | negative hmagnitude => simp [number?, magnitude?_append hmagnitude hrest]

/-! ## How spellings start -/

/-- How the spelling of a value starts: not with a blank and not with a bracket
    that closes an array. -/
theorem exists_cons_of_spells {value : Json} {t : Text} (h : Spells value t) :
    ∃ c u, t = c :: u ∧ isSpace c = false ∧ c ≠ ']' := by
  cases h with
  | word hword =>
    have hall : ∀ entry ∈ words, ∃ c u, entry.1 = c :: u ∧ isSpace c = false ∧ c ≠ ']' := by
      simp [words, isSpace]
    exact hall _ hword
  | number hnumber =>
    obtain ⟨c, u, rfl, hne⟩ := hnumber.exists_cons
    exact ⟨c, u, rfl, by simp [isSpace, hne], hne ']' (by decide) rfl⟩
  | string | noItems | array | noMembers | object =>
    exact ⟨_, _, rfl, rfl, by decide⟩

theorem exists_append_cons_of_spellsItems {items : List Json} {t : Text} (h : SpellsItems items t) :
    ∃ blanks c u, t = blanks ++ c :: u ∧ IsSpaces blanks ∧ isSpace c = false ∧ c ≠ ']' := by
  cases h with
  | last hbefore hitem hafter | cons hbefore hitem hafter hitems =>
    obtain ⟨c, u, rfl, hspace, hc⟩ := exists_cons_of_spells hitem
    exact ⟨_, c, _, by simp only [List.append_assoc, List.cons_append]; rfl, hbefore, hspace, hc⟩

theorem exists_append_cons_of_spellsMembers {members : List (Option Text × Json)} {t : Text}
    (h : SpellsMembers members t) : ∃ blanks u, t = blanks ++ '"' :: u ∧ IsSpaces blanks := by
  cases h with
  | last hmember | cons hmember hmembers =>
    cases hmember with
    | parts hbefore hname hmiddle hbetween hvalue hafter =>
      exact ⟨_, _, by simp only [List.append_assoc, List.cons_append]; rfl, hbefore⟩

/-! ## Words and numbers as values -/

theorem word?_append {word : Text} {value : Json} (h : (word, value) ∈ words) (rest : Text) :
    word? (word ++ rest) = some (value, rest) := by
  simp only [words, List.mem_cons, List.not_mem_nil, or_false, Prod.mk.injEq] at h
  rcases h with ⟨rfl, rfl⟩ | ⟨rfl, rfl⟩ | ⟨rfl, rfl⟩ <;> simp [word?, Text.stripPrefix?]

/-- A text that starts neither a string nor an array nor an object. -/
theorem value?_plain {fuel : Nat} {c : Char} {u : Text} (hspace : isSpace c = false)
    (hc : c ∉ ['"', '[', '\x7b']) :
    value? (fuel + 1) (c :: u) =
      (word? (c :: u) <|>
        (number? (c :: u)).map fun (spelling, rest) => (.number spelling, rest)) := by
  simp only [List.mem_cons, List.not_mem_nil, or_false, not_or] at hc
  rw [value?, skipSpace_cons hspace]
  simp [hc]

theorem value?_word {fuel : Nat} {word : Text} {value : Json} (h : (word, value) ∈ words)
    (rest : Text) : value? (fuel + 1) (word ++ rest) = some (value, rest) := by
  have hstart : ∀ entry ∈ words, ∃ c u, entry.1 = c :: u ∧ isSpace c = false ∧
      c ∉ ['"', '[', '\x7b'] := by
    simp [words, isSpace]
  obtain ⟨c, u, rfl, hspace, hc⟩ : ∃ c u, word = c :: u ∧ _ ∧ _ := hstart _ h
  have hread := word?_append h rest
  rw [List.cons_append] at hread ⊢
  rw [value?_plain hspace hc, hread]
  rfl

theorem value?_number {fuel : Nat} {t rest : Text} (h : IsNumber t) (hrest : Follows rest) :
    value? (fuel + 1) (t ++ rest) = some (.number t, rest) := by
  have hread := number?_append h hrest
  obtain ⟨c, u, rfl, hne⟩ := h.exists_cons
  have hspace : isSpace c = false := by simp [isSpace, hne]
  have hword : word? (c :: (u ++ rest)) = none := by
    simp [word?, Text.stripPrefix?, (hne 'n' (by decide) rfl).symm, (hne 't' (by decide) rfl).symm,
      (hne 'f' (by decide) rfl).symm]
  rw [List.cons_append] at hread ⊢
  rw [value?_plain hspace (by simp [hne]), hword, hread]
  rfl

/-! ## Arrays and objects -/

theorem value?_array {fuel : Nat} {blanks u after : Text} {c : Char} {items : List Json}
    (hblanks : IsSpaces blanks) (hspace : isSpace c = false) (hc : c ≠ ']')
    (hread : items? fuel (blanks ++ c :: u) = some (items, after)) :
    value? (fuel + 1) ('[' :: (blanks ++ c :: u)) = some (.array items, after) := by
  rw [items?_append_spaces hblanks] at hread
  rw [value?, skipSpace_cons rfl]
  simp only [skipSpace_append hblanks, skipSpace_cons hspace]
  simp [hc, hread]

theorem value?_object {fuel : Nat} {blanks u after : Text} {members : List (Option Text × Json)}
    (hblanks : IsSpaces blanks)
    (hread : members? fuel (blanks ++ '"' :: u) = some (members, after)) :
    value? (fuel + 1) ('\x7b' :: (blanks ++ '"' :: u)) = some (.object members, after) := by
  have hquote : isSpace '"' = false := rfl
  rw [members?_append_spaces hblanks] at hread
  rw [value?, skipSpace_cons rfl]
  simp only [skipSpace_append hblanks, skipSpace_cons hquote]
  simp [hread]

theorem items?_last {fuel : Nat} {item : Json} {t after rest : Text} (hafter : IsSpaces after)
    (hread : value? fuel t = some (item, after ++ ']' :: rest)) :
    items? (fuel + 1) t = some ([item], rest) := by
  have hskip : skipSpace (after ++ ']' :: rest) = ']' :: rest := skipSpace_append hafter _
  rw [items?, hread]
  simp [hskip]

theorem items?_cons {fuel : Nat} {item : Json} {items : List Json} {t after others rest : Text}
    (hafter : IsSpaces after) (hread : value? fuel t = some (item, after ++ ',' :: others))
    (hothers : items? fuel others = some (items, rest)) :
    items? (fuel + 1) t = some (item :: items, rest) := by
  have hskip : skipSpace (after ++ ',' :: others) = ',' :: others := skipSpace_append hafter _
  rw [items?, hread]
  simp [hskip, hothers]

theorem members?_last {fuel : Nat} {units : List Nat} {value : Json}
    {name middle t after rest : Text}
    (hname : SpellsUnits units name) (hmiddle : IsSpaces middle) (hafter : IsSpaces after)
    (hread : value? fuel t = some (value, after ++ '\x7d' :: rest)) :
    members? (fuel + 1) ('"' :: (name ++ '"' :: (middle ++ ':' :: t))) =
      some ([(textOfUnits? units, value)], rest) := by
  have hquote : isSpace '"' = false := rfl
  have hcolon : skipSpace (middle ++ ':' :: t) = ':' :: t := skipSpace_append hmiddle _
  have hskip : skipSpace (after ++ '\x7d' :: rest) = '\x7d' :: rest := skipSpace_append hafter _
  rw [members?, skipSpace_cons hquote]
  simp [string?_append hname, hcolon, hread, hskip]

theorem members?_cons {fuel : Nat} {units : List Nat} {value : Json}
    {members : List (Option Text × Json)} {name middle t after others rest : Text}
    (hname : SpellsUnits units name) (hmiddle : IsSpaces middle) (hafter : IsSpaces after)
    (hread : value? fuel t = some (value, after ++ ',' :: others))
    (hothers : members? fuel others = some (members, rest)) :
    members? (fuel + 1) ('"' :: (name ++ '"' :: (middle ++ ':' :: t))) =
      some ((textOfUnits? units, value) :: members, rest) := by
  have hquote : isSpace '"' = false := rfl
  have hcolon : skipSpace (middle ++ ':' :: t) = ':' :: t := skipSpace_append hmiddle _
  have hskip : skipSpace (after ++ ',' :: others) = ',' :: others := skipSpace_append hafter _
  rw [members?, skipSpace_cons hquote]
  simp [string?_append hname, hcolon, hread, hskip, hothers]

/-! ## All values -/

/-- What the reader finds with a number of steps: every value, every list of
    items and every list of members whose spelling is not too long for them. -/
structure Reads (fuel : Nat) : Prop where
  value {value : Json} {t rest : Text} : Spells value t → Follows rest → 2 * t.length ≤ fuel →
    value? fuel (t ++ rest) = some (value, rest)
  items {items : List Json} {t : Text} (rest : Text) : SpellsItems items t →
    2 * t.length + 1 ≤ fuel → items? fuel (t ++ ']' :: rest) = some (items, rest)
  members {members : List (Option Text × Json)} {t : Text} (rest : Text) :
    SpellsMembers members t → 2 * t.length + 1 ≤ fuel →
    members? fuel (t ++ '\x7d' :: rest) = some (members, rest)

theorem Reads.value_succ {fuel : Nat} (ih : Reads fuel) {value : Json} {t rest : Text}
    (h : Spells value t) (hrest : Follows rest) (hfuel : 2 * t.length ≤ fuel + 1) :
    value? (fuel + 1) (t ++ rest) = some (value, rest) := by
  cases h with
  | word hword => exact value?_word hword rest
  | number hnumber => exact value?_number hnumber hrest
  | string hunits =>
    have hread := string?_append hunits rest
    rw [value?, List.append_assoc, List.cons_append, skipSpace_cons rfl]
    simp [hread]
  | noItems hblanks =>
    rw [value?, List.append_assoc, List.cons_append, skipSpace_cons rfl]
    simp only [List.singleton_append, skipSpace_append hblanks]
    rw [skipSpace_cons rfl]
    rfl
  | array hitems =>
    have hread := ih.items rest hitems (by simp at hfuel; omega)
    obtain ⟨blanks, c, u, rfl, hblanks, hspace, hc⟩ := exists_append_cons_of_spellsItems hitems
    simp only [List.append_assoc, List.cons_append, List.nil_append] at hread ⊢
    exact value?_array hblanks hspace hc hread
  | noMembers hblanks =>
    rw [value?, List.append_assoc, List.cons_append, skipSpace_cons rfl]
    simp only [List.singleton_append, skipSpace_append hblanks]
    rw [skipSpace_cons rfl]
    rfl
  | object hmembers =>
    have hread := ih.members rest hmembers (by simp at hfuel; omega)
    obtain ⟨blanks, u, rfl, hblanks⟩ := exists_append_cons_of_spellsMembers hmembers
    simp only [List.append_assoc, List.cons_append, List.nil_append] at hread ⊢
    exact value?_object hblanks hread

theorem Reads.items_succ {fuel : Nat} (ih : Reads fuel) {items : List Json} {t : Text}
    (rest : Text) (h : SpellsItems items t) (hfuel : 2 * t.length + 1 ≤ fuel + 1) :
    items? (fuel + 1) (t ++ ']' :: rest) = some (items, rest) := by
  cases h with
  | @last item before t after hbefore hitem hafter =>
    have hfollows : Follows (after ++ ']' :: rest) :=
      hafter.follows_append (by simp [followers]) rest
    have hread := ih.value hitem hfollows (by simp at hfuel; omega)
    rw [← value?_append_spaces hbefore] at hread
    simp only [List.append_assoc] at hread ⊢
    exact items?_last hafter hread
  | @cons item items before t after others hbefore hitem hafter hitems =>
    have hothers := ih.items rest hitems (by simp at hfuel; omega)
    have hfollows : Follows (after ++ ',' :: (others ++ ']' :: rest)) :=
      hafter.follows_append (by simp [followers]) _
    have hread := ih.value hitem hfollows (by simp at hfuel; omega)
    rw [← value?_append_spaces hbefore] at hread
    simp only [List.append_assoc, List.cons_append] at hread ⊢
    exact items?_cons hafter hread hothers

theorem Reads.members_succ {fuel : Nat} (ih : Reads fuel) {members : List (Option Text × Json)}
    {t : Text} (rest : Text) (h : SpellsMembers members t) (hfuel : 2 * t.length + 1 ≤ fuel + 1) :
    members? (fuel + 1) (t ++ '\x7d' :: rest) = some (members, rest) := by
  cases h with
  | last hmember =>
    cases hmember with
    | @parts units value before name middle between t after hbefore hname hmiddle hbetween hvalue
        hafter =>
      have hfollows : Follows (after ++ '\x7d' :: rest) :=
        hafter.follows_append (by simp [followers]) rest
      have hread := ih.value hvalue hfollows (by simp at hfuel; omega)
      rw [← value?_append_spaces hbetween] at hread
      simp only [List.append_assoc, List.cons_append] at hread ⊢
      rw [members?_append_spaces hbefore]
      exact members?_last hname hmiddle hafter hread
  | @cons member members t others hmember hmembers =>
    have hothers := ih.members rest hmembers (by simp at hfuel; omega)
    cases hmember with
    | @parts units value before name middle between t after hbefore hname hmiddle hbetween hvalue
        hafter =>
      have hfollows : Follows (after ++ ',' :: (others ++ '\x7d' :: rest)) :=
        hafter.follows_append (by simp [followers]) _
      have hread := ih.value hvalue hfollows (by simp at hfuel; omega)
      rw [← value?_append_spaces hbetween] at hread
      simp only [List.append_assoc, List.cons_append] at hread ⊢
      rw [members?_append_spaces hbefore]
      exact members?_cons hname hmiddle hafter hread hothers

/-- Two steps for each character are enough. The induction is on the steps; one
    is taken for a value and one more for each item or member. -/
theorem reads (fuel : Nat) : Reads fuel := by
  induction fuel with
  | zero =>
    refine ⟨fun h hrest hfuel => ?_, fun rest h hfuel => by omega, fun rest h hfuel => by omega⟩
    obtain ⟨c, u, rfl, -, -⟩ := exists_cons_of_spells h
    simp at hfuel
  | succ fuel ih => exact ⟨ih.value_succ, ih.items_succ, ih.members_succ⟩

end Reader

/-- **The value of a spelled text is read**, with any blanks around it. -/
theorem read?_of_spells {value : Json} {before t after : Text} (hbefore : IsSpaces before)
    (h : Spells value t) (hafter : IsSpaces after) :
    read? (before ++ t ++ after) = some value := by
  have hall : after.all Reader.isSpace = true :=
    List.all_eq_true.mpr fun c hc => Reader.isSpace_iff.mpr (hafter c hc)
  have hread := (Reader.reads (2 * (before ++ t ++ after).length + 2)).value h hafter.follows
    (by simp only [List.length_append]; omega)
  rw [read?, List.append_assoc, Reader.value?_append_spaces hbefore, ← List.append_assoc, hread]
  simp [hall]

end TypedTriples.Json
