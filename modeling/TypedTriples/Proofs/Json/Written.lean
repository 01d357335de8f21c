import Mathlib
import TypedTriples.Json.Writer
import TypedTriples.Proofs.Json.Grammar

/-!
# Written JSON is spelled as the grammar says

A written string spells the code points of its text, of which none is half of a
surrogate pair, and so has that text again. A written object spells its members
where their values are spelled. No control stands in a written string, which
therefore keeps to its line.

Main results:
* `Json.Reader.textOfUnits?_map_toNat`: the text of its own code points.
* `Json.spells_writeString`, `Json.spells_compact_object`: written strings and objects.
* `Json.le_toNat_of_mem_writeString`, `Json.le_toNat_of_mem_compact_object`: written
  strings and objects have no controls.
-/

namespace TypedTriples.Json

/-! ## Strings -/

theorem mem_hexDigits {n : Nat} (h : n < 16) : (hexDigit n, n) ∈ hexDigits := by
  revert n
  decide

/-- A character is written with a letter, by its code unit, or as it is. -/
theorem escapeChar_cases (c : Char) :
    (∃ letter, (letter, c) ∈ letters ∧ escapeChar c = ['\\', letter]) ∨
      (c.toNat < 0x20 ∧ escapeChar c =
        ['\\', 'u', '0', '0', hexDigit (c.toNat / 16), hexDigit (c.toNat % 16)]) ∨
      (0x20 ≤ c.toNat ∧ c ≠ '"' ∧ c ≠ '\\' ∧ escapeChar c = [c]) := by
  by_cases hletter : c ∈ ['"', '\\', '\x08', '\t', '\n', '\x0c', '\r']
  · left
    simp only [List.mem_cons, List.not_mem_nil, or_false] at hletter
    rcases hletter with rfl | rfl | rfl | rfl | rfl | rfl | rfl
    · exact ⟨'"', by decide, rfl⟩
    · exact ⟨'\\', by decide, rfl⟩
    · exact ⟨'b', by decide, rfl⟩
    · exact ⟨'t', by decide, rfl⟩
    · exact ⟨'n', by decide, rfl⟩
    · exact ⟨'f', by decide, rfl⟩
    · exact ⟨'r', by decide, rfl⟩
  · right
    simp only [List.mem_cons, List.not_mem_nil, or_false, not_or] at hletter
    by_cases hcontrol : c.toNat < 0x20
    · exact Or.inl ⟨hcontrol, by simp [escapeChar, hletter, hcontrol]⟩
    · exact Or.inr ⟨by omega, hletter.1, hletter.2.1, by simp [escapeChar, hletter, hcontrol]⟩

theorem spellsUnit_escapeChar (c : Char) : SpellsUnit c.toNat (escapeChar c) := by
  rcases escapeChar_cases c with
    ⟨letter, hletter, heq⟩ | ⟨hcontrol, heq⟩ | ⟨hle, hquote, hback, heq⟩
  · rw [heq]
    exact .letter hletter
  · have hzero : ('0', 0) ∈ hexDigits := by decide
    have hcode : ((0 * 16 + 0) * 16 + c.toNat / 16) * 16 + c.toNat % 16 = c.toNat := by omega
    have hunit : SpellsUnit (((0 * 16 + 0) * 16 + c.toNat / 16) * 16 + c.toNat % 16) _ :=
      .code hzero hzero (mem_hexDigits (by omega)) (mem_hexDigits (by omega))
    rw [heq]
    rwa [hcode] at hunit
  · rw [heq]
    exact .raw hle hquote hback

theorem spellsUnits_flatMap_escapeChar (t : Text) :
    SpellsUnits (t.map Char.toNat) (t.flatMap escapeChar) := by
  induction t with
  | nil => exact .nil
  | cons c t ih =>
    rw [List.map_cons, List.flatMap_cons]
    exact .cons (spellsUnit_escapeChar c) ih

theorem isHigh_toNat (c : Char) : Reader.isHigh c.toNat = false ∧ Reader.isLow c.toNat = false := by
  have hvalid : c.toNat.isValidChar := c.valid
  unfold Nat.isValidChar at hvalid
  simp only [Reader.isHigh, Reader.isLow, Bool.and_eq_false_iff, decide_eq_false_iff_not]
  omega

theorem Reader.textOfUnits?_cons (c : Char) (units : List Nat) :
    Reader.textOfUnits? (c.toNat :: units) = (Reader.textOfUnits? units).map (c :: ·) := by
  obtain ⟨hhigh, hlow⟩ := isHigh_toNat c
  cases units with
  | nil => simp [textOfUnits?, hhigh, hlow]
  | cons next units => simp [textOfUnits?, hhigh, hlow]

/-- **The code points of a text have it as their text.** -/
theorem Reader.textOfUnits?_map_toNat (t : Text) :
    Reader.textOfUnits? (t.map Char.toNat) = some t := by
  induction t with
  | nil => rfl
  | cons c t ih => rw [List.map_cons, textOfUnits?_cons, ih, Option.map_some]

/-- A written string is spelled as one; half of a surrogate pair has no text. -/
theorem exists_spellsUnits_writeString (text : Option Text) :
    ∃ units t, writeString text = '"' :: t ++ ['"'] ∧ SpellsUnits units t ∧
      Reader.textOfUnits? units = text := by
  cases text with
  | some t =>
    exact ⟨t.map Char.toNat, t.flatMap escapeChar, rfl, spellsUnits_flatMap_escapeChar t,
      Reader.textOfUnits?_map_toNat t⟩
  | none =>
    have hunit : SpellsUnit (((13 * 16 + 8) * 16 + 0) * 16 + 0) "\\ud800".toList :=
      .code (by decide) (by decide) (by decide) (by decide)
    exact ⟨[0xD800], "\\ud800".toList ++ [], rfl, .cons hunit .nil, rfl⟩

theorem spells_writeString (text : Option Text) : Spells (.string text) (writeString text) := by
  obtain ⟨units, t, hwritten, hunits, htext⟩ := exists_spellsUnits_writeString text
  rw [hwritten, ← htext]
  exact .string hunits

/-! ## Objects -/

theorem isSpaces_nil : IsSpaces [] := by simp [IsSpaces]

theorem spellsMember_compact (name : Option Text) {value : Json}
    (h : Spells value value.compact) :
    SpellsMember (name, value) (writeString name ++ ':' :: value.compact) := by
  obtain ⟨units, t, hwritten, hunits, htext⟩ := exists_spellsUnits_writeString name
  have hmember := SpellsMember.parts isSpaces_nil hunits isSpaces_nil isSpaces_nil h isSpaces_nil
  rw [htext] at hmember
  rw [hwritten]
  simpa using hmember

/-- Written members spell them all. The induction is on the members; a comma
    stands in front of all but the first. -/
theorem spellsMembers_compact {member : Option Text × Json} {members : List (Option Text × Json)}
    (h : ∀ other ∈ member :: members, Spells other.2 other.2.compact) :
    SpellsMembers (member :: members)
      (List.intercalate [','] (compactMembers (member :: members))) := by
  induction members generalizing member with
  | nil =>
    have hmember := spellsMember_compact member.1 (h member List.mem_cons_self)
    simpa [compactMembers] using SpellsMembers.last hmember
  | cons next members ih =>
    obtain ⟨hfirst, hrest⟩ := List.forall_mem_cons.mp h
    have hmember := spellsMember_compact member.1 hfirst
    have hmembers := SpellsMembers.cons hmember (ih hrest)
    simpa [compactMembers, List.intercalate_cons_cons] using hmembers

/-- **A written object is spelled as one** where the values of its members are. -/
theorem spells_compact_object {members : List (Option Text × Json)}
    (h : ∀ member ∈ members, Spells member.2 member.2.compact) :
    Spells (.object members) (compact (.object members)) := by
  rw [compact]
  cases members with
  | nil => exact .noMembers isSpaces_nil
  | cons member members => exact .object (spellsMembers_compact h)

/-! ## Controls -/

/-- No escape contains a control, and no other character that is written as it
    is is one. -/
theorem le_toNat_of_mem_escapeChar {c d : Char} (h : d ∈ escapeChar c) : 0x20 ≤ d.toNat := by
  have hletters : ∀ entry ∈ letters, 0x20 ≤ entry.1.toNat := by decide
  have hdigit : ∀ n < 16, 0x20 ≤ (hexDigit n).toNat := by decide
  rcases escapeChar_cases c with ⟨letter, hletter, heq⟩ | ⟨hcontrol, heq⟩ | ⟨hle, -, -, heq⟩
  · rw [heq] at h
    simp only [List.mem_cons, List.not_mem_nil, or_false] at h
    rcases h with rfl | rfl
    · decide
    · exact hletters _ hletter
  · rw [heq] at h
    simp only [List.mem_cons, List.not_mem_nil, or_false] at h
    rcases h with rfl | rfl | rfl | rfl | rfl | rfl
    · decide
    · decide
    · decide
    · decide
    · exact hdigit _ (by omega)
    · exact hdigit _ (by omega)
  · rw [heq, List.mem_singleton] at h
    rwa [h]

/-- **No control stands in a written string.** -/
theorem le_toNat_of_mem_writeString {text : Option Text} {d : Char} (h : d ∈ writeString text) :
    0x20 ≤ d.toNat := by
  cases text with
  | none =>
    have hnone : writeString none = ['"', '\\', 'u', 'd', '8', '0', '0', '"'] := rfl
    rw [hnone] at h
    simp only [List.mem_cons, List.not_mem_nil, or_false] at h
    rcases h with rfl | rfl | rfl | rfl | rfl | rfl | rfl | rfl <;> decide
  | some t =>
    have hsome : writeString (some t) = '"' :: (t.flatMap escapeChar ++ ['"']) := rfl
    rw [hsome] at h
    simp only [List.mem_append, List.mem_cons, List.mem_flatMap, List.not_mem_nil, or_false] at h
    rcases h with rfl | ⟨c, -, hc⟩ | rfl
    · decide
    · exact le_toNat_of_mem_escapeChar hc
    · decide

theorem le_toNat_of_mem_compactMembers {members : List (Option Text × Json)}
    (h : ∀ member ∈ members, ∀ d ∈ member.2.compact, 0x20 ≤ d.toNat) :
    ∀ line ∈ compactMembers members, ∀ d ∈ line, 0x20 ≤ d.toNat := by
  induction members with
  | nil => simp [compactMembers]
  | cons member members ih =>
    obtain ⟨hfirst, hrest⟩ := List.forall_mem_cons.mp h
    rw [compactMembers, List.forall_mem_cons]
    refine ⟨fun d hd => ?_, ih hrest⟩
    rcases List.mem_append.mp hd with hd | hd
    · exact le_toNat_of_mem_writeString hd
    · rcases List.mem_cons.mp hd with rfl | hd
      · decide
      · exact hfirst d hd

/-- **No control stands in a written object** where none stands in the values of
    its members. -/
theorem le_toNat_of_mem_compact_object {members : List (Option Text × Json)}
    (h : ∀ member ∈ members, ∀ d ∈ member.2.compact, 0x20 ≤ d.toNat) :
    ∀ d ∈ compact (.object members), 0x20 ≤ d.toNat := by
  have hcomma : ∀ d ∈ [','], 0x20 ≤ d.toNat := by simp
  have hmembers := Directive.forall_mem_intercalate hcomma (le_toNat_of_mem_compactMembers h)
  intro d hd
  rw [compact, List.mem_append, List.mem_cons, List.mem_singleton] at hd
  rcases hd with (rfl | hd) | rfl
  · decide
  · exact hmembers d hd
  · decide

end TypedTriples.Json
