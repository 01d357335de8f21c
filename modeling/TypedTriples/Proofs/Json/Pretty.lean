import Mathlib
import TypedTriples.Proofs.Json.Written

/-!
# Values over several lines are spelled as the grammar says

A value that is written over several lines spells itself where its parts do: line
ends and indentation are blanks, and stand where the grammar allows blanks. So it is
read back, at whatever level it is written.

Main results:
* `Json.spells_prettyAt_array`, `Json.spells_prettyAt_object`: arrays and objects.
* `Json.read?_pretty`: a value over several lines is read back.
-/

namespace TypedTriples.Json

/-! ## Strings and truth values -/

theorem spells_prettyAt_ofText (level : Nat) (t : Text) :
    Spells (ofText t) ((ofText t).prettyAt level) := by
  unfold ofText
  rw [prettyAt]
  exact spells_writeString (some t)

theorem spells_prettyAt_bool (level : Nat) (value : Bool) :
    Spells (.bool value) (prettyAt level (.bool value)) := by
  rw [prettyAt]
  cases value with
  | true => exact .word (by simp [words, writeBool, Text.ofBool])
  | false => exact .word (by simp [words, writeBool, Text.ofBool])

/-! ## Blanks between lines -/

theorem isSpaces_indent (level : Nat) : IsSpaces ('\n' :: indent level) := by
  intro c hc
  rcases List.mem_cons.mp hc with rfl | hc
  · simp
  · exact .inl (List.eq_of_mem_replicate hc)

theorem block_cons (level : Nat) (left right : Char) (line : Text) (lines : List Text) :
    block level left right (line :: lines) =
      left :: ('\n' :: List.intercalate [',', '\n']
        ((line :: lines).map (indent (level + 1) ++ ·)) ++ '\n' :: indent level) ++ [right] := by
  simp [block]

/-! ## Arrays and objects -/

/-- Items one on a line spell them all. The induction is on the items; a comma stands
    behind all but the last. -/
theorem spellsItems_pretty (level : Nat) {item : Json} {items : List Json}
    (h : ∀ other ∈ item :: items, Spells other (other.prettyAt (level + 1))) :
    SpellsItems (item :: items)
      ('\n' :: List.intercalate [',', '\n']
        ((prettyItems (level + 1) (item :: items)).map (indent (level + 1) ++ ·)) ++
          '\n' :: indent level) := by
  induction items generalizing item with
  | nil =>
    have hlast := SpellsItems.last (isSpaces_indent (level + 1)) (h item List.mem_cons_self)
      (isSpaces_indent level)
    simpa [prettyItems] using hlast
  | cons next items ih =>
    obtain ⟨hfirst, hrest⟩ := List.forall_mem_cons.mp h
    have hitems := SpellsItems.cons (isSpaces_indent (level + 1)) hfirst isSpaces_nil (ih hrest)
    simpa [prettyItems, List.intercalate_cons_cons] using hitems

/-- **An array over several lines is spelled as one** where its items are. -/
theorem spells_prettyAt_array (level : Nat) {items : List Json}
    (h : ∀ item ∈ items, Spells item (item.prettyAt (level + 1))) :
    Spells (.array items) (prettyAt level (.array items)) := by
  rw [prettyAt]
  cases items with
  | nil => exact .noItems isSpaces_nil
  | cons item items =>
    rw [prettyItems, block_cons]
    exact .array (spellsItems_pretty level h)

theorem spellsMember_pretty {level : Nat} {before after : Text} (hbefore : IsSpaces before)
    (hafter : IsSpaces after) (name : Option Text) {value : Json}
    (h : Spells value (value.prettyAt level)) :
    SpellsMember (name, value)
      (before ++ (writeString name ++ ':' :: ' ' :: value.prettyAt level) ++ after) := by
  obtain ⟨units, t, hwritten, hunits, htext⟩ := exists_spellsUnits_writeString name
  have hblank : IsSpaces [' '] := by simp [IsSpaces]
  have hmember := SpellsMember.parts hbefore hunits isSpaces_nil hblank h hafter
  rw [htext] at hmember
  rw [hwritten]
  simpa using hmember

/-- Members one on a line spell them all. The induction is on the members. -/
theorem spellsMembers_pretty (level : Nat) {member : Option Text × Json}
    {members : List (Option Text × Json)}
    (h : ∀ other ∈ member :: members, Spells other.2 (other.2.prettyAt (level + 1))) :
    SpellsMembers (member :: members)
      ('\n' :: List.intercalate [',', '\n']
        ((prettyMembers (level + 1) (member :: members)).map (indent (level + 1) ++ ·)) ++
          '\n' :: indent level) := by
  induction members generalizing member with
  | nil =>
    have hmember := spellsMember_pretty (isSpaces_indent (level + 1)) (isSpaces_indent level)
      member.1 (h member List.mem_cons_self)
    simpa [prettyMembers] using SpellsMembers.last hmember
  | cons next members ih =>
    obtain ⟨hfirst, hrest⟩ := List.forall_mem_cons.mp h
    have hmember := spellsMember_pretty (isSpaces_indent (level + 1)) isSpaces_nil member.1 hfirst
    have hmembers := SpellsMembers.cons hmember (ih hrest)
    simpa [prettyMembers, List.intercalate_cons_cons] using hmembers

/-- **An object over several lines is spelled as one** where the values of its members
    are. -/
theorem spells_prettyAt_object (level : Nat) {members : List (Option Text × Json)}
    (h : ∀ member ∈ members, Spells member.2 (member.2.prettyAt (level + 1))) :
    Spells (.object members) (prettyAt level (.object members)) := by
  rw [prettyAt]
  cases members with
  | nil => exact .noMembers isSpaces_nil
  | cons member members =>
    obtain ⟨name, value⟩ := member
    rw [prettyMembers, block_cons]
    exact .object (spellsMembers_pretty level h)

/-- **A value over several lines is read back**, with a line end behind it. -/
theorem read?_pretty {value : Json} (h : Spells value (value.prettyAt 0)) :
    read? (value.pretty ++ ['\n']) = some value := by
  have hread : read? ([] ++ value.prettyAt 0 ++ ['\n']) = some value :=
    read?_of_spells isSpaces_nil h (by simp [IsSpaces])
  rwa [List.nil_append] at hread

end TypedTriples.Json
