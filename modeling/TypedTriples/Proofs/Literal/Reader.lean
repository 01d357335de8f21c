import Mathlib
import TypedTriples.Json.Reader
import TypedTriples.Literal
import TypedTriples.Proofs.Ruleset.Shapes

/-!
# Reading literals back

A reader of literals after the grammar of N-Triples, written without regard to
how literals are written here: it goes from left to right, takes every escape
of the grammar, upper or lower case, and stops where a literal can go no
further. What is written between the quotes is what it reads.

Main definitions:
* `Literal.Mark`: what may stand after the closing quote.
* `Literal.Delimited`: the two stretches of a literal that a character closes.
* `Literal.read?`: the reader.
* `Literal.IsBody`: the characters and escapes that are written between the
  quotes.

Main results:
* `quotes_read?_escape`: an escaped value is read back, whatever follows it.
* `read?_append`: so is a literal with its mark.
-/

namespace TypedTriples.Literal

open Json.Reader (hexValue?)

/-! ## Specification -/

/-- What may stand after the closing quote. -/
inductive Mark where
  | none
  /-- A language after `@`. -/
  | language (tag : Text)
  /-- The datatype after `^^`, in angle brackets. -/
  | datatype (iri : Text)
  deriving DecidableEq, Repr

/-- A mark as it is written. -/
def Mark.text : Mark → Text
  | none => []
  | language tag => '@' :: tag
  | datatype iri => "^^<".toList ++ iri ++ ['>']

/-- The character whose code point is spelled with the given number of
    hexadecimal digits, and what follows them. -/
def codePoint? (count : Nat) (t : Text) : Option (Char × Text) := do
  guard (count ≤ t.length)
  let values ← (t.take count).mapM hexValue?
  let code := values.foldl (fun code value => code * 16 + value) 0
  guard code.isValidChar
  return (Char.ofNat code, t.drop count)

/-- The character that an escape stands for, after its backslash, and what
    follows it. `letters` has the escapes of one letter. -/
def escaped? (letters : List (Char × Char)) : Text → Option (Char × Text)
  | [] => none
  | c :: rest =>
    if c = 'u' then codePoint? 4 rest
    else if c = 'U' then codePoint? 8 rest
    else (letters.lookup c).map fun d => (d, rest)

theorem codePoint?_length_le {count : Nat} {t rest : Text} {c : Char}
    (h : codePoint? count t = some (c, rest)) : rest.length ≤ t.length := by
  simp only [codePoint?, Option.bind_eq_bind, Option.bind_eq_some_iff] at h
  obtain ⟨-, -, values, -, -, -, h⟩ := h
  obtain ⟨-, rfl⟩ := Prod.mk.inj (Option.some.inj h)
  simp

theorem escaped?_length_lt {letters : List (Char × Char)} {t rest : Text} {c : Char}
    (h : escaped? letters t = some (c, rest)) : rest.length < t.length := by
  cases t with
  | nil => cases h
  | cons d t =>
    rw [List.length_cons, Nat.lt_succ_iff]
    rw [escaped?] at h
    by_cases hshort : d = 'u'
    · rw [if_pos hshort] at h
      exact codePoint?_length_le h
    rw [if_neg hshort] at h
    by_cases hlong : d = 'U'
    · rw [if_pos hlong] at h
      exact codePoint?_length_le h
    rw [if_neg hlong] at h
    obtain ⟨e, -, heq⟩ := Option.map_eq_some_iff.mp h
    rw [← (Prod.mk.inj heq).2]

/-- A stretch of a literal: the character that closes it, the characters that
    may stand in it as they are, and its escapes of one letter. -/
structure Delimited where
  close : Char
  raw : Char → Bool
  letters : List (Char × Char)

/-- The characters of a stretch up to the one that closes it, and what follows
    that one. -/
def Delimited.read? (stretch : Delimited) : Text → Option (Text × Text)
  | [] => none
  | c :: rest =>
    if c = stretch.close then some ([], rest)
    else if c = '\\' then
      match _h : escaped? stretch.letters rest with
      | some (d, rest) => (stretch.read? rest).map fun (t, rest) => (d :: t, rest)
      | none => none
    else if stretch.raw c then (stretch.read? rest).map fun (t, rest) => (c :: t, rest)
    else none
termination_by t => t.length
decreasing_by
  · exact Nat.lt_succ_of_lt (escaped?_length_lt _h)
  · exact Nat.lt_succ_self _

/-- The value of a literal, between quotes. -/
def quotes : Delimited :=
  { close := '"'
    raw := fun c => c != '\n' && c != '\r'
    letters :=
      [('t', '\t'), ('b', '\x08'), ('n', '\n'), ('r', '\r'), ('f', '\x0c'), ('"', '"'),
       ('\x27', '\x27'), ('\\', '\\')] }

/-- The characters that stand in an IRI as they are. -/
def isIriChar (c : Char) : Bool := 0x20 < c.toNat && !Directive.isReserved c

/-- The datatype of a literal, between angle brackets. -/
def brackets : Delimited := { close := '>', raw := isIriChar, letters := [] }

/-- What stands after the closing quote, and what follows it. -/
def mark? : Text → Option (Mark × Text)
  | '@' :: rest => (Directive.languageTag? rest).map fun (tag, rest) => (.language tag, rest)
  | '^' :: '^' :: '<' :: rest => (brackets.read? rest).map fun (iri, rest) => (.datatype iri, rest)
  | rest => some (.none, rest)

/-- A literal at the start of a text: its lexical form, its mark, and what
    follows it. -/
def read? : Text → Option (Text × Mark × Text)
  | '"' :: rest => do
    let (lexical, rest) ← quotes.read? rest
    let (mark, rest) ← mark? rest
    return (lexical, mark, rest)
  | _ => none

/-- What is written for one character between the quotes. -/
inductive IsUnit : Text → Prop
  | raw {c : Char} (hquote : c ≠ '"') (hbackslash : c ≠ '\\') (hcontrol : 0x20 ≤ c.toNat)
      (hdelete : c.toNat ≠ 0x7F) : IsUnit [c]
  | letter {c : Char} (h : c ∈ "btnfr\"\\".toList) : IsUnit ['\\', c]
  | code {a b c d : Char} (h : ∀ digit ∈ [a, b, c, d], digit ∈ "0123456789ABCDEF".toList) :
      IsUnit ['\\', 'u', a, b, c, d]

/-- What is written between the quotes. -/
def IsBody (t : Text) : Prop := ∃ units : List Text, t = units.flatten ∧ ∀ u ∈ units, IsUnit u

/-! ## Stretches -/

namespace Delimited

variable (stretch : Delimited)

theorem read?_close (rest : Text) : stretch.read? (stretch.close :: rest) = some ([], rest) := by
  rw [read?, if_pos rfl]

theorem read?_raw {c : Char} (hclose : c ≠ stretch.close) (hbackslash : c ≠ '\\')
    (hraw : stretch.raw c = true) (rest : Text) :
    stretch.read? (c :: rest) = (stretch.read? rest).map fun (t, rest) => (c :: t, rest) := by
  rw [read?, if_neg hclose, if_neg hbackslash, if_pos hraw]

theorem read?_escape {c : Char} {t rest : Text} (hclose : '\\' ≠ stretch.close)
    (h : escaped? stretch.letters t = some (c, rest)) :
    stretch.read? ('\\' :: t) = (stretch.read? rest).map fun (t, rest) => (c :: t, rest) := by
  rw [read?, if_neg hclose, if_pos rfl]
  split
  · rename_i d rest' heq
    obtain ⟨rfl, rfl⟩ := Prod.mk.inj (Option.some.inj (heq.symm.trans h))
    rfl
  · rename_i heq
    rw [h] at heq
    cases heq

/-- Characters that may stand as they are are read as they stand. -/
theorem read?_append_close {t : Text} (hbackslash : '\\' ∉ t) (hclose : stretch.close ∉ t)
    (hraw : ∀ c ∈ t, stretch.raw c = true) (rest : Text) :
    stretch.read? (t ++ stretch.close :: rest) = some (t, rest) := by
  induction t with
  | nil => exact stretch.read?_close rest
  | cons c t ih =>
    rw [List.mem_cons, not_or] at hbackslash hclose
    rw [List.cons_append,
      stretch.read?_raw (Ne.symm hclose.1) (Ne.symm hbackslash.1) (hraw c (by simp)),
      ih hbackslash.2 hclose.2 fun c hc => hraw c (by simp [hc])]
    rfl

end Delimited

/-! ## Code points -/

theorem hexValue?_hexDigit {n : Nat} (h : n < 16) : hexValue? (hexDigit n) = some n := by
  revert n
  decide

theorem hexDigit_mem {n : Nat} (h : n < 16) : hexDigit n ∈ "0123456789ABCDEF".toList := by
  revert n
  decide

/-- Four digits are enough for the code points of one unit. -/
theorem codePoint?_hex4 {c : Char} (h : c.toNat < 0x10000) (rest : Text) :
    codePoint? 4 (hex4 c.toNat ++ rest) = some (c, rest) := by
  have hdigit : ∀ n, hexValue? (hexDigit (n % 16)) = some (n % 16) :=
    fun n => hexValue?_hexDigit (Nat.mod_lt n (by decide))
  have hcode : ((c.toNat / 4096 % 16 * 16 + c.toNat / 256 % 16) * 16 + c.toNat / 16 % 16) * 16 +
      c.toNat % 16 = c.toNat := by
    omega
  have hvalid : c.toNat.isValidChar := c.valid
  simp [codePoint?, hex4, hdigit, hcode, hvalid, guard]

/-! ## Between the quotes -/

/-- A character is written as an escape of one letter, by its code point, or as
    it is. -/
theorem escapeChar_cases (c : Char) :
    (∃ letter, escapeChar c = ['\\', letter] ∧ letter ∈ "btnfr\"\\".toList ∧
        ∀ rest, escaped? quotes.letters (letter :: rest) = some (c, rest)) ∨
      (escapeChar c = '\\' :: 'u' :: hex4 c.toNat ∧ c.toNat < 0x80) ∨
      (escapeChar c = [c] ∧ c ≠ '"' ∧ c ≠ '\\' ∧ 0x20 ≤ c.toNat ∧ c.toNat ≠ 0x7F) := by
  by_cases hb : c = '\x08'
  · subst hb
    exact Or.inl ⟨'b', rfl, by simp, fun _ => rfl⟩
  by_cases ht : c = '\t'
  · subst ht
    exact Or.inl ⟨'t', rfl, by simp, fun _ => rfl⟩
  by_cases hn : c = '\n'
  · subst hn
    exact Or.inl ⟨'n', rfl, by simp, fun _ => rfl⟩
  by_cases hf : c = '\x0c'
  · subst hf
    exact Or.inl ⟨'f', rfl, by simp, fun _ => rfl⟩
  by_cases hr : c = '\r'
  · subst hr
    exact Or.inl ⟨'r', rfl, by simp, fun _ => rfl⟩
  by_cases hquote : c = '"'
  · subst hquote
    exact Or.inl ⟨'"', rfl, by simp, fun _ => rfl⟩
  by_cases hbackslash : c = '\\'
  · subst hbackslash
    exact Or.inl ⟨'\\', rfl, by simp, fun _ => rfl⟩
  right
  by_cases hcontrol : c.toNat < 0x20 ∨ c.toNat = 0x7F
  · refine Or.inl ⟨?_, by omega⟩
    simp [escapeChar, hb, ht, hn, hf, hr, hquote, hbackslash, hcontrol]
  · refine Or.inr ⟨?_, hquote, hbackslash, by omega, by omega⟩
    simp [escapeChar, hb, ht, hn, hf, hr, hquote, hbackslash, hcontrol]

theorem isUnit_escapeChar (c : Char) : IsUnit (escapeChar c) := by
  rcases escapeChar_cases c with ⟨letter, heq, hletter, -⟩ | ⟨heq, -⟩ | ⟨heq, h⟩
  · rw [heq]
    exact .letter hletter
  · rw [heq, hex4]
    refine .code fun digit hdigit => ?_
    simp only [List.mem_cons, List.not_mem_nil, or_false] at hdigit
    rcases hdigit with rfl | rfl | rfl | rfl <;> exact hexDigit_mem (Nat.mod_lt _ (by decide))
  · rw [heq]
    exact .raw h.1 h.2.1 h.2.2.1 h.2.2.2

theorem isBody_escape (value : Text) : IsBody (escape value) :=
  ⟨value.map escapeChar, by rw [escape, List.flatMap_def], fun u hu => by
    obtain ⟨c, -, rfl⟩ := List.mem_map.mp hu
    exact isUnit_escapeChar c⟩

theorem quotes_read?_escapeChar (c : Char) (rest : Text) :
    quotes.read? (escapeChar c ++ rest) =
      (quotes.read? rest).map fun (t, rest) => (c :: t, rest) := by
  have hclose : '\\' ≠ quotes.close := by decide
  rcases escapeChar_cases c with ⟨letter, heq, -, hletter⟩ | ⟨heq, hlt⟩ | ⟨heq, h⟩
  · rw [heq]
    exact quotes.read?_escape hclose (hletter rest)
  · have hcode : escaped? quotes.letters ('u' :: (hex4 c.toNat ++ rest)) = some (c, rest) := by
      rw [escaped?, if_pos rfl, codePoint?_hex4 (by omega)]
    rw [heq]
    exact quotes.read?_escape hclose hcode
  · have hraw : quotes.raw c = true := by
      have hn : c ≠ '\n' := by
        rintro rfl
        exact absurd h.2.2.1 (by decide)
      have hr : c ≠ '\r' := by
        rintro rfl
        exact absurd h.2.2.1 (by decide)
      simp [quotes, hn, hr]
    rw [heq]
    exact quotes.read?_raw h.1 h.2.1 hraw rest

/-- A value is read back up to its closing quote. -/
theorem quotes_read?_escape (value rest : Text) :
    quotes.read? (escape value ++ '"' :: rest) = some (value, rest) := by
  induction value with
  | nil => exact quotes.read?_close rest
  | cons c value ih =>
    rw [escape, List.flatMap_cons, ← escape, List.append_assoc, quotes_read?_escapeChar, ih]
    rfl

/-! ## After the quotes -/

/-- A mark that the grammar admits. -/
def Mark.IsWellFormed : Mark → Prop
  | none => True
  | language tag => Directive.IsLanguageTag tag
  | datatype iri => ∀ c ∈ iri, isIriChar c = true

theorem mark?_append {mark : Mark} (h : mark.IsWellFormed) (rest : Text) :
    mark? (mark.text ++ ' ' :: rest) = some (mark, ' ' :: rest) := by
  cases mark with
  | none => rfl
  | language tag =>
    have hends : Directive.Ends (' ' :: rest) := Directive.ends_cons.mpr (by decide)
    rw [Mark.text, List.cons_append, mark?, Directive.languageTag?_append h hends]
    rfl
  | datatype iri =>
    have hnot : ∀ c, isIriChar c = false → c ∉ iri := by
      intro c hc hmem
      rw [h c hmem] at hc
      cases hc
    have hread : brackets.read? (iri ++ '>' :: (' ' :: rest)) = some (iri, ' ' :: rest) :=
      brackets.read?_append_close (hnot _ (by decide)) (hnot _ (by decide)) h _
    have htext : (Mark.datatype iri).text ++ ' ' :: rest =
        '^' :: '^' :: '<' :: (iri ++ '>' :: (' ' :: rest)) := by
      simp [Mark.text]
    rw [htext, mark?, hread]
    rfl

/-- A literal is read back where a blank ends it. -/
theorem read?_append (value : Text) {mark : Mark} (h : mark.IsWellFormed)
    (rest : Text) :
    read? (plain value ++ mark.text ++ ' ' :: rest) =
      some (value, mark, ' ' :: rest) := by
  have htext : plain value ++ mark.text ++ ' ' :: rest =
      '"' :: (escape value ++ '"' :: (mark.text ++ ' ' :: rest)) := by
    simp [plain]
  rw [htext, read?, quotes_read?_escape]
  simp [mark?_append h]

theorem typed_inj {kind : Kind} {t u : Text} (h : typed kind t = typed kind u) : t = u := by
  unfold typed plain at h
  simp only [List.append_cancel_right_eq, List.cons.injEq, true_and] at h
  have hread := quotes_read?_escape t []
  rw [h, quotes_read?_escape u []] at hread
  exact (Prod.mk.inj (Option.some.inj hread)).1.symm

end TypedTriples.Literal
