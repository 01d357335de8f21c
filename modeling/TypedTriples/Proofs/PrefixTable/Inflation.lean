import Mathlib
import TypedTriples.PrefixTable
import TypedTriples.Proofs.Text.Occurrence

/-!
# Inflation acts at the start of a name

Inflation looks for the first `prefix:` anywhere in a value. The prefix that it
looks for is the text before the first colon, so what it finds is always at the
start: the namespace takes the place of the prefix and its colon, and the rest
of the value is untouched.

Main definitions:
* `PrefixTable.Assigns`: the namespace of a prefix.
* `PrefixTable.ExpandsTo`: the expansion of a value, by its first colon.

Main results:
* `PrefixTable.expand_append`: a name with a colon is its namespace followed by
  its suffix.
* `PrefixTable.inflate_eq_bracketed_expansion`: every value is inflated to its
  expansion between angle brackets.
-/

namespace TypedTriples

namespace PrefixTable

variable {table : PrefixTable} {name iri suffix value : Text}

/-! ## Specification -/

/-- The first entry with a prefix has the namespace. -/
def Assigns (table : PrefixTable) (name iri : Text) : Prop :=
  ∃ before after, table.entries = before ++ ⟨name, iri⟩ :: after ∧
    ∀ earlier ∈ before, earlier.name ≠ name

/-- The expansion of a value. What stands before its first colon is its prefix; a
    value without a colon, or with a prefix that no entry has, is its own
    expansion. -/
inductive ExpandsTo (table : PrefixTable) : Text → Text → Prop
  | entry {name iri suffix : Text} (hname : ':' ∉ name) (hassigns : table.Assigns name iri) :
      ExpandsTo table (name ++ ':' :: suffix) (iri ++ suffix)
  | noEntry {name suffix : Text} (hname : ':' ∉ name)
      (hnone : ∀ entry ∈ table.entries, entry.name ≠ name) :
      ExpandsTo table (name ++ ':' :: suffix) (name ++ ':' :: suffix)
  | noColon {value : Text} (hvalue : ':' ∉ value) : ExpandsTo table value value

/-! ## The entry of a prefix -/

theorem name_of_get? {entry : Namespace} (h : table.get? name = some entry) :
    entry.name = name := by
  unfold get? at h
  have hfound : (entry.name == name) = true := by simpa using List.find?_some h
  exact beq_iff_eq.mp hfound

theorem assigns_iff : table.Assigns name iri ↔ table.get? name = some ⟨name, iri⟩ := by
  simp [Assigns, get?, List.find?_eq_some_iff_append]

theorem get?_eq_none_iff :
    table.get? name = none ↔ ∀ entry ∈ table.entries, entry.name ≠ name := by
  simp [get?, List.find?_eq_none]

/-! ## The expansion of a value -/

/-- The prefix of a name ends before its first colon. -/
theorem prefixOf_append (h : ':' ∉ name) : prefixOf (name ++ ':' :: suffix) = name := by
  have hname : ∀ c ∈ name, (c != ':') = true := by
    intro c hc
    rw [bne_iff_ne]
    rintro rfl
    exact h hc
  rw [prefixOf, List.takeWhile_append_of_pos hname]
  simp

/-- What stands for a prefix and its colon: the namespace, or the two as they
    are when there is none. -/
def base (table : PrefixTable) (name : Text) : Text :=
  match table.get? name with
  | some entry => entry.iri
  | none => name ++ [':']

/-- **A name with a colon is its namespace followed by its suffix**, whatever
    the suffix is. -/
theorem expand_append (h : ':' ∉ name) :
    table.expand (name ++ ':' :: suffix) = table.base name ++ suffix := by
  unfold expand base
  rw [prefixOf_append h]
  cases hget : table.get? name with
  | none => simp
  | some entry =>
    have hsplit : name ++ ':' :: suffix = (name ++ [':']) ++ suffix := by simp
    show Text.replaceFirst (name ++ ':' :: suffix) (entry.name ++ [':']) entry.iri =
      entry.iri ++ suffix
    rw [name_of_get? hget, hsplit, Text.replaceFirst_append]

/-- A prefix and a colon do not stand in a value without a colon, not even if the
    value is the prefix. -/
theorem expand_of_not_mem (h : ':' ∉ value) : table.expand value = value := by
  unfold expand
  cases table.get? (prefixOf value) with
  | none => rfl
  | some entry =>
    refine Text.replaceFirst_of_not_infix (fun hinfix => h ?_) entry.iri
    exact hinfix.subset (List.mem_append_right entry.name List.mem_cons_self)

/-- **Every value has one expansion**, the one that is computed. -/
theorem expandsTo_iff {expansion : Text} :
    table.ExpandsTo value expansion ↔ expansion = table.expand value := by
  constructor
  · intro h
    cases h with
    | entry hname hassigns =>
      rw [expand_append hname, base, assigns_iff.mp hassigns]
    | noEntry hname hnone =>
      rw [expand_append hname, base, get?_eq_none_iff.mpr hnone, List.append_assoc]
      rfl
    | noColon hvalue => exact (expand_of_not_mem hvalue).symm
  · rintro rfl
    by_cases hcolon : ':' ∈ value
    · obtain ⟨name, suffix, rfl, hname⟩ := List.eq_append_cons_of_mem hcolon
      rw [expand_append hname, base]
      cases hget : table.get? name with
      | none =>
        rw [List.append_assoc]
        exact .noEntry hname (get?_eq_none_iff.mp hget)
      | some entry =>
        obtain rfl := name_of_get? hget
        exact .entry hname (assigns_iff.mpr hget)
    · rw [expand_of_not_mem hcolon]
      exact .noColon hcolon

/-! ## Angle brackets -/

theorem bracket_of_head?_ne {t : Text} (h : t.head? ≠ some '<') :
    bracket t = '<' :: t ++ ['>'] := by
  unfold bracket
  split
  · exact absurd rfl h
  · rfl

theorem bracket_of_head?_eq {t : Text} (h : t.head? = some '<') : bracket t = t := by
  obtain ⟨rest, rfl⟩ := List.head?_eq_some_iff.mp h
  rfl

theorem inflate_congr {a b : PrefixTable} (h : a.get? (prefixOf value) = b.get? (prefixOf value)) :
    a.inflate value = b.inflate value := by
  unfold inflate expand
  rw [h]

/-- **Inflation is expansion at the first colon, and brackets.** What follows the first
    colon is never changed, whatever prefixes stand in it. -/
theorem inflate_eq_bracketed_expansion (table : PrefixTable) (value : Text) :
    ∃ expansion, (∀ t, table.ExpandsTo value t ↔ t = expansion) ∧
      table.inflate value =
        if expansion.head? = some '<' then expansion else '<' :: expansion ++ ['>'] := by
  refine ⟨table.expand value, fun t => expandsTo_iff, ?_⟩
  unfold inflate
  split_ifs with hopen
  · exact bracket_of_head?_eq hopen
  · exact bracket_of_head?_ne hopen

/-- The prefix stands again in the rest of the value. -/
example : inflate ⟨[⟨"x".toList, "urn:".toList⟩]⟩ "x:a/x:b".toList = "<urn:a/x:b>".toList := by
  decide

end PrefixTable

end TypedTriples
