import Mathlib
import TypedTriples.Proofs.Json.Written

/-!
# Spellings of texts

A character of a string stands for itself or is escaped: by a letter, by its code
point in four hexadecimal digits, or, where four are too few, by the surrogate pair
that UTF-16 has for it. What is read as the text of a string is spelled so, and what
is spelled so is read.

Main definitions:
* `Json.SpellsChar`, `Json.SpellsText`: spellings of characters and of texts.

Main results:
* `Json.spellsChar_pairChar`, `Json.Reader.pairChar_of_le`: characters and their pairs.
* `Json.spellsText_iff`: the spellings whose code units have a text.
-/

namespace TypedTriples.Json

variable {c : Char} {text t : Text} {unit high low : Nat} {units : List Nat}

/-! ## Specification -/

/-- A code unit in four hexadecimal digits. -/
inductive SpellsCode : Nat → Text → Prop
  | digits {w x y z : Nat} {a b c d : Char} :
      (a, w) ∈ hexDigits → (b, x) ∈ hexDigits → (c, y) ∈ hexDigits → (d, z) ∈ hexDigits →
      SpellsCode (((w * 16 + x) * 16 + y) * 16 + z) ['\\', 'u', a, b, c, d]

/-- A spelling of one character in a string. -/
inductive SpellsChar : Char → Text → Prop
  | raw {c : Char} : 0x20 ≤ c.toNat → c ≠ '"' → c ≠ '\\' → SpellsChar c [c]
  | letter {letter c : Char} : (letter, c) ∈ letters → SpellsChar c ['\\', letter]
  | code {c : Char} {t : Text} : SpellsCode c.toNat t → SpellsChar c t
  | pair {c : Char} {first second : Text} : 0x10000 ≤ c.toNat →
      SpellsCode (0xD800 + (c.toNat - 0x10000) / 0x400) first →
      SpellsCode (0xDC00 + (c.toNat - 0x10000) % 0x400) second → SpellsChar c (first ++ second)

/-- A spelling of a text between the quotes of a string. -/
inductive SpellsText : Text → Text → Prop
  | nil : SpellsText [] []
  | cons {c : Char} {text first t : Text} : SpellsChar c first → SpellsText text t →
      SpellsText (c :: text) (first ++ t)

/-! ## One unit -/

theorem SpellsCode.spellsUnit (h : SpellsCode unit t) : SpellsUnit unit t := by
  cases h with
  | digits ha hb hc hd => exact .code ha hb hc hd

theorem SpellsCode.lt (h : SpellsCode unit t) : unit < 0x10000 := by
  have hall : ∀ entry ∈ hexDigits, entry.2 < 16 := by decide
  cases h with
  | digits ha hb hc hd =>
    have hw := hall _ ha
    have hx := hall _ hb
    have hy := hall _ hc
    have hz := hall _ hd
    simp only at hw hx hy hz
    omega

theorem SpellsUnit.cases (h : SpellsUnit unit t) :
    SpellsCode unit t ∨ ∃ c, c.toNat = unit ∧ SpellsChar c t := by
  cases h with
  | raw hcontrol hquote hback => exact .inr ⟨_, rfl, .raw hcontrol hquote hback⟩
  | letter hletter => exact .inr ⟨_, rfl, .letter hletter⟩
  | code ha hb hc hd => exact .inl (.digits ha hb hc hd)

/-- Only digits spell half of a surrogate pair. -/
theorem SpellsUnit.spellsCode (h : SpellsUnit unit t)
    (hpair : Reader.isHigh unit = true ∨ Reader.isLow unit = true) : SpellsCode unit t := by
  rcases h.cases with hcode | ⟨c, rfl, -⟩
  · exact hcode
  · obtain ⟨hhigh, hlow⟩ := isHigh_toNat c
    simp [hhigh, hlow] at hpair

/-- Any other unit is a character. -/
theorem SpellsUnit.exists_spellsChar (h : SpellsUnit unit t) (hhigh : Reader.isHigh unit = false)
    (hlow : Reader.isLow unit = false) : ∃ c, c.toNat = unit ∧ SpellsChar c t := by
  rcases h.cases with hcode | hchar
  · have hvalid : unit.isValidChar := by
      have hlt := hcode.lt
      simp only [Reader.isHigh, Reader.isLow, Bool.and_eq_false_iff, decide_eq_false_iff_not]
        at hhigh hlow
      unfold Nat.isValidChar
      omega
    have htoNat : (Char.ofNat unit).toNat = unit := by rw [Char.toNat_ofNat, if_pos hvalid]
    refine ⟨Char.ofNat unit, htoNat, .code ?_⟩
    rwa [htoNat]
  · exact hchar

/-! ## Surrogate pairs -/

theorem Reader.isHigh_iff : Reader.isHigh unit = true ↔ 0xD800 ≤ unit ∧ unit ≤ 0xDBFF := by
  simp [Reader.isHigh]

theorem Reader.isLow_iff : Reader.isLow unit = true ↔ 0xDC00 ≤ unit ∧ unit ≤ 0xDFFF := by
  simp [Reader.isLow]

theorem Reader.toNat_pairChar (hhigh : isHigh high = true) (hlow : isLow low = true) :
    (pairChar high low).toNat = 0x10000 + (high - 0xD800) * 0x400 + (low - 0xDC00) := by
  rw [isHigh_iff] at hhigh
  rw [isLow_iff] at hlow
  rw [pairChar, Char.toNat_ofNat, if_pos]
  unfold Nat.isValidChar
  omega

theorem Reader.textOfUnits?_pair (hhigh : isHigh high = true) (hlow : isLow low = true)
    (units : List Nat) :
    textOfUnits? (high :: low :: units) = (textOfUnits? units).map (pairChar high low :: ·) := by
  rw [textOfUnits?, if_pos hhigh, if_pos hlow]

theorem spellsChar_pairChar {first second : Text} (hhigh : Reader.isHigh high = true)
    (hlow : Reader.isLow low = true) (hfirst : SpellsCode high first)
    (hsecond : SpellsCode low second) :
    SpellsChar (Reader.pairChar high low) (first ++ second) := by
  have htoNat := Reader.toNat_pairChar hhigh hlow
  rw [Reader.isHigh_iff] at hhigh
  rw [Reader.isLow_iff] at hlow
  have hhigh' : 0xD800 + ((Reader.pairChar high low).toNat - 0x10000) / 0x400 = high := by omega
  have hlow' : 0xDC00 + ((Reader.pairChar high low).toNat - 0x10000) % 0x400 = low := by omega
  refine .pair (by omega) ?_ ?_
  · rwa [hhigh']
  · rwa [hlow']

/-- A character outside the basic plane by its own pair. -/
theorem Reader.pairChar_of_le (h : 0x10000 ≤ c.toNat) :
    isHigh (0xD800 + (c.toNat - 0x10000) / 0x400) = true ∧
      isLow (0xDC00 + (c.toNat - 0x10000) % 0x400) = true ∧
      pairChar (0xD800 + (c.toNat - 0x10000) / 0x400) (0xDC00 + (c.toNat - 0x10000) % 0x400) =
        c := by
  have hvalid : c.toNat.isValidChar := c.valid
  unfold Nat.isValidChar at hvalid
  have hhigh : isHigh (0xD800 + (c.toNat - 0x10000) / 0x400) = true := by
    rw [isHigh_iff]
    omega
  have hlow : isLow (0xDC00 + (c.toNat - 0x10000) % 0x400) = true := by
    rw [isLow_iff]
    omega
  refine ⟨hhigh, hlow, Char.toNat_inj.mp ?_⟩
  rw [toNat_pairChar hhigh hlow]
  omega

/-- Units with a text start with a character or with a pair. -/
theorem Reader.textOfUnits?_cons_cases (h : textOfUnits? (unit :: units) = some text) :
    (isHigh unit = false ∧ isLow unit = false) ∨
      (isHigh unit = true ∧ ∃ low rest, units = low :: rest ∧ isLow low = true) := by
  cases units with
  | nil =>
    rw [textOfUnits?] at h
    by_cases hpart : isHigh unit = true ∨ isLow unit = true
    · simp [hpart] at h
    · left
      simpa using hpart
  | cons low rest =>
    rw [textOfUnits?] at h
    by_cases hhigh : isHigh unit = true
    · right
      by_cases hlow : isLow low = true
      · exact ⟨hhigh, low, rest, rfl, hlow⟩
      · simp [hhigh, hlow] at h
    · left
      by_cases hlow : isLow unit = true
      · simp [hhigh, hlow] at h
      · simpa using And.intro hhigh hlow

/-! ## All units -/

theorem SpellsText.exists_units (h : SpellsText text t) :
    ∃ units, SpellsUnits units t ∧ Reader.textOfUnits? units = some text := by
  induction h with
  | nil => exact ⟨[], .nil, rfl⟩
  | @cons c text first t hchar htext ih =>
    obtain ⟨units, hunits, hread⟩ := ih
    have hread' : Reader.textOfUnits? (c.toNat :: units) = some (c :: text) := by
      rw [Reader.textOfUnits?_cons, hread, Option.map_some]
    cases hchar with
    | raw hcontrol hquote hback =>
      exact ⟨c.toNat :: units, .cons (.raw hcontrol hquote hback) hunits, hread'⟩
    | letter hletter => exact ⟨c.toNat :: units, .cons (.letter hletter) hunits, hread'⟩
    | code hcode => exact ⟨c.toNat :: units, .cons hcode.spellsUnit hunits, hread'⟩
    | pair hle hfirst hsecond =>
      obtain ⟨hhigh, hlow, hpair⟩ := Reader.pairChar_of_le hle
      rw [List.append_assoc]
      refine ⟨_, .cons hfirst.spellsUnit (.cons hsecond.spellsUnit hunits), ?_⟩
      rw [Reader.textOfUnits?_pair hhigh hlow, hpair, hread, Option.map_some]

/-- Units that have a text spell it. The induction is on their number, since a pair is
    two of them. -/
theorem SpellsUnits.spellsText (h : SpellsUnits units t)
    (hread : Reader.textOfUnits? units = some text) : SpellsText text t := by
  induction hlength : units.length using Nat.strong_induction_on generalizing units text t with
  | _ length ih =>
    cases h with
    | nil =>
      obtain rfl := Option.some.inj hread
      exact .nil
    | cons hunit hunits =>
      rcases Reader.textOfUnits?_cons_cases hread with
        ⟨hhigh, hlow⟩ | ⟨hhigh, low, rest, rfl, hlow⟩
      · obtain ⟨c, rfl, hchar⟩ := hunit.exists_spellsChar hhigh hlow
        rw [Reader.textOfUnits?_cons] at hread
        obtain ⟨text', hread', rfl⟩ := Option.map_eq_some_iff.mp hread
        exact .cons hchar (ih _ (by simp [← hlength]) hunits hread' rfl)
      · rw [Reader.textOfUnits?_pair hhigh hlow] at hread
        obtain ⟨text', hread', rfl⟩ := Option.map_eq_some_iff.mp hread
        cases hunits with
        | cons hsecond hrest =>
          have hpair := spellsChar_pairChar hhigh hlow (hunit.spellsCode (.inl hhigh))
            (hsecond.spellsCode (.inr hlow))
          rw [← List.append_assoc]
          exact .cons hpair (ih _ (by simp [← hlength]) hrest hread' rfl)

/-- **The spellings of a text** are those of code units of which it is the text. -/
theorem spellsText_iff :
    SpellsText text t ↔ ∃ units, SpellsUnits units t ∧ Reader.textOfUnits? units = some text := by
  constructor
  · exact SpellsText.exists_units
  · rintro ⟨units, hunits, hread⟩
    exact hunits.spellsText hread

end TypedTriples.Json
