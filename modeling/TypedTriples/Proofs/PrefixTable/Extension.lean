import Mathlib
import TypedTriples.Proofs.PrefixTable.RoundTrip
import TypedTriples.Proofs.Ruleset.Concatenation

/-!
# More prefixes at the end of a table

The first entry that fits decides, so entries that are added at the end of a table
are asked only where those before them have no answer. This holds of both directions,
though each has its own notion of what fits: a prefix is equal to the one in front of
the first colon of a value, and a namespace changes the value somewhere.

Main definitions:
* `PrefixTable.IsLeading`: what stands in front of the first colon of a value.
* `PrefixTable.Conserves`: what added entries may change, and what they may not.

Main results:
* `PrefixTable.inflate_append_of_get?`, `PrefixTable.deflate_append`: a longer table by
  its two parts.
* `PrefixTable.conserves_push`: entries pushed onto a table, and lines added to a
  rules file.
-/

namespace TypedTriples

namespace PrefixTable

variable {table : PrefixTable} {added : List Namespace} {name value compacted : Text}

/-! ## Specification -/

/-- What stands in front of the first colon of a value: all of it, if it has none. -/
inductive IsLeading : Text → Text → Prop
  | colon {name suffix : Text} (hname : ':' ∉ name) : IsLeading name (name ++ ':' :: suffix)
  | whole {value : Text} (hvalue : ':' ∉ value) : IsLeading value value

/-- Some entry has the prefix. -/
def HasPrefix (entries : List Namespace) (name : Text) : Prop :=
  ∃ entry ∈ entries, entry.name = name

/-- What a table with added entries answers, compared with the table before. -/
structure Conserves (table extended : PrefixTable) (added : List Namespace) : Prop where
  /-- A prefix that the table has keeps its namespace. -/
  inflate_eq {name value : Text} : IsLeading name value → HasPrefix table.entries name →
    extended.inflate value = table.inflate value
  /-- A value that has a compact name keeps it. -/
  deflate_eq {value compacted : Text} : table.deflate value = some compacted →
    extended.deflate value = some compacted
  /-- Only a new prefix changes how a value is inflated. -/
  isNew {name value : Text} : IsLeading name value →
    extended.inflate value ≠ table.inflate value →
    HasPrefix added name ∧ ¬ HasPrefix table.entries name
  /-- Only a value without a compact name gets one, by an added namespace inside it. -/
  occurs {value : Text} : extended.deflate value ≠ table.deflate value →
    table.deflate value = none ∧ ∃ entry ∈ added, entry.iri <:+: value

/-! ## A longer table by its two parts -/

theorem entries_foldl_push (table : PrefixTable) (added : List Namespace) :
    added.foldl push table = ⟨table.entries ++ added⟩ := by
  induction added generalizing table with
  | nil => simp
  | cons entry added ih =>
    rw [List.foldl_cons, ih, push]
    simp

theorem IsLeading.prefixOf_eq (h : IsLeading name value) : prefixOf value = name := by
  cases h with
  | colon hname => exact prefixOf_append hname
  | whole hvalue =>
    rw [prefixOf, List.takeWhile_eq_self_iff]
    intro c hc
    rw [bne_iff_ne]
    rintro rfl
    exact hvalue hc

theorem get?_append (entries added : List Namespace) (name : Text) :
    get? ⟨entries ++ added⟩ name = (get? ⟨entries⟩ name).or (get? ⟨added⟩ name) :=
  List.find?_append

/-- **A longer table inflates as its first part** where that has the prefix. -/
theorem inflate_append_of_get? {entries : List Namespace} {entry : Namespace}
    (h : get? ⟨entries⟩ (prefixOf value) = some entry) (added : List Namespace) :
    inflate ⟨entries ++ added⟩ value = inflate ⟨entries⟩ value := by
  apply inflate_congr
  rw [get?_append, h, Option.some_or]

/-- **A longer table deflates as its first part, and where that has no answer as its
    second.** -/
theorem deflate_append (entries added : List Namespace) (value : Text) :
    deflate ⟨entries ++ added⟩ value =
      (deflate ⟨entries⟩ value).or (deflate ⟨added⟩ value) := by
  unfold deflate
  rw [List.map_append, List.find?_append]

/-! ## Added entries -/

theorem hasPrefix_iff {entries : List Namespace} :
    HasPrefix entries name ↔ get? ⟨entries⟩ name ≠ none := by
  rw [Ne, get?_eq_none_iff]
  unfold HasPrefix
  push Not
  rfl

theorem conserves_append (entries added : List Namespace) :
    Conserves ⟨entries⟩ ⟨entries ++ added⟩ added := by
  refine ⟨?_, ?_, ?_, ?_⟩
  · intro name value hname hprefix
    rw [← hname.prefixOf_eq] at hprefix
    obtain ⟨entry, hentry⟩ := Option.ne_none_iff_exists'.mp (hasPrefix_iff.mp hprefix)
    exact inflate_append_of_get? hentry added
  · intro value compacted h
    rw [deflate_append, h, Option.some_or]
  · intro name value hname hne
    rw [← hname.prefixOf_eq]
    have hnone : get? ⟨entries⟩ (prefixOf value) = none := by
      by_contra hsome
      obtain ⟨entry, hentry⟩ := Option.ne_none_iff_exists'.mp hsome
      exact hne (inflate_append_of_get? hentry added)
    refine ⟨?_, fun hprefix => hasPrefix_iff.mp hprefix hnone⟩
    apply hasPrefix_iff.mpr
    intro hadded
    -- Neither part has the prefix, so both tables leave the value as it is.
    apply hne
    apply inflate_congr
    rw [get?_append, hadded, Option.or_none]
  · intro value hne
    rw [deflate_append] at hne
    cases hdeflate : deflate ⟨entries⟩ value with
    | some compacted =>
      rw [hdeflate, Option.some_or] at hne
      exact absurd rfl hne
    | none =>
      refine ⟨rfl, ?_⟩
      rw [hdeflate, Option.none_or] at hne
      by_contra hfree
      push Not at hfree
      -- An entry whose namespace does not occur changes nothing.
      apply hne
      rw [deflate_eq_map, Option.map_eq_none_iff, compacting?, List.find?_eq_none]
      intro entry hentry
      have hsame : compact entry value = value := compact_eq_self (.inl (hfree entry hentry))
      simp [hsame]

end PrefixTable

/-! ## Added lines -/

namespace Ruleset

theorem applyAll_map_addNamespace (rules : Ruleset) (added : List Namespace) :
    rules.applyAll (added.map .addNamespace) =
      { rules with prefixes := added.foldl PrefixTable.push rules.prefixes } := by
  induction added generalizing rules with
  | nil => rfl
  | cons entry added ih =>
    show ((Directive.addNamespace entry).apply rules).applyAll (added.map .addNamespace) = _
    rw [ih]
    rfl

theorem ofText_append_namespaces {content sep extra : Text} {added : List Namespace}
    (hsep : ∀ c ∈ sep, isLineEnd c = true)
    (hends : ∀ c ∈ (content ++ sep).getLast?, isLineEnd c = true)
    (hadded : directives extra = added.map .addNamespace) :
    ofText (content ++ sep ++ extra) =
      { ofText content with
        prefixes := added.foldl PrefixTable.push (ofText content).prefixes } := by
  rw [← applyAll_map_addNamespace, ofText, directives_append_of_endsLine hsep hends, hadded]
  exact List.foldl_append

end Ruleset

namespace PrefixTable

/-- **Added entries leave alone what was answered before.** So do lines about prefixes
    that are added at the end of a rules file, on lines of their own and among lines
    without a directive, and nothing else of its ruleset changes. -/
theorem conserves_push :
    (∀ (table : PrefixTable) (added : List Namespace),
      Conserves table (added.foldl push table) added) ∧
    ∀ (content sep extra : Text) (added : List Namespace),
      (∀ c ∈ sep, Ruleset.isLineEnd c = true) →
      (∀ c ∈ (content ++ sep).getLast?, Ruleset.isLineEnd c = true) →
      Ruleset.directives extra = added.map .addNamespace →
      Conserves (Ruleset.ofText content).prefixes
          (Ruleset.ofText (content ++ sep ++ extra)).prefixes added ∧
        Ruleset.ofText (content ++ sep ++ extra) =
          { Ruleset.ofText content with
            prefixes := added.foldl push (Ruleset.ofText content).prefixes } := by
  have hpush : ∀ (table : PrefixTable) (added : List Namespace),
      Conserves table (added.foldl push table) added := by
    intro table added
    rw [entries_foldl_push]
    exact conserves_append table.entries added
  refine ⟨hpush, ?_⟩
  intro content sep extra added hsep hends hadded
  have hrules := Ruleset.ofText_append_namespaces hsep hends hadded
  refine ⟨?_, hrules⟩
  rw [hrules]
  exact hpush _ added

/-- A prefix is declared again, a namespace reaches into another, and the empty one
    occurs everywhere; the last line of the first text has no end of its own. -/
theorem conserves_push_overlapping :
    (Ruleset.ofText "@prefix x urn:a".toList).prefixes.inflate "x:1".toList =
        "<urn:a1>".toList ∧
      (Ruleset.ofText ("@prefix x urn:a".toList ++ "\r".toList ++
        "@prefix x urn:b\n@prefix y urn:\n\n@prefix z: <>".toList)).prefixes.inflate
          "x:1".toList = "<urn:a1>".toList ∧
      (Ruleset.ofText ("@prefix x urn:a".toList ++ "\r".toList ++
        "@prefix x urn:b\n@prefix y urn:\n\n@prefix z: <>".toList)).prefixes.deflate
          "urn:a1".toList = some "x:1".toList ∧
      (Ruleset.ofText "@prefix x urn:a".toList).prefixes.deflate "q".toList = none ∧
      (Ruleset.ofText ("@prefix x urn:a".toList ++ "\r".toList ++
        "@prefix x urn:b\n@prefix y urn:\n\n@prefix z: <>".toList)).prefixes.deflate
          "q".toList = some "z:q".toList := by
  have hadded : Ruleset.directives "@prefix x urn:b\n@prefix y urn:\n\n@prefix z: <>".toList =
      [(⟨"x".toList, "urn:b".toList⟩ : Namespace), ⟨"y".toList, "urn:".toList⟩,
        ⟨"z".toList, []⟩].map .addNamespace := by
    cbv
  obtain ⟨hconserves, hrules⟩ := conserves_push.2 "@prefix x urn:a".toList "\r".toList
    "@prefix x urn:b\n@prefix y urn:\n\n@prefix z: <>".toList _ (by simp [Ruleset.isLineEnd])
    (by simp [Ruleset.isLineEnd]) hadded
  have hprefixes : (Ruleset.ofText "@prefix x urn:a".toList).prefixes =
      ⟨[⟨"x".toList, "urn:a".toList⟩]⟩ := by
    cbv
  have hleading : IsLeading "x".toList "x:1".toList :=
    @IsLeading.colon "x".toList "1".toList (by decide)
  have hx : HasPrefix (Ruleset.ofText "@prefix x urn:a".toList).prefixes.entries "x".toList := by
    rw [hprefixes]
    exact ⟨_, List.mem_cons_self, rfl⟩
  have hinflate := hconserves.inflate_eq hleading hx
  have hdeflate : (Ruleset.ofText "@prefix x urn:a".toList).prefixes.deflate "urn:a1".toList =
      some "x:1".toList := by
    rw [hprefixes]
    decide
  refine ⟨?_, ?_, hconserves.deflate_eq hdeflate, ?_, ?_⟩
  · rw [hprefixes]
    decide
  · rw [hinflate, hprefixes]
    decide
  · rw [hprefixes]
    decide
  · rw [hrules, hprefixes]
    decide

end PrefixTable

end TypedTriples
