import Mathlib
import TypedTriples.Proofs.Ruleset.Concatenation

/-!
# Rulesets are well formed

Whatever the text of a rules file is, the ruleset that it gives has words of
the right shape in all its parts: a line is only accepted when its words spell
a directive, and a directive with such words keeps a ruleset well formed.

Main definitions:
* `IsUnbroken`: a text without the characters that separate words and lines.
* `Directive.WellFormed`, `Ruleset.WellFormed`: the shapes of all words.

Main results:
* `wellFormed_of_ofLine?`: the directive of a line is well formed.
* `WellFormed.apply`, `WellFormed.applyAll`: one directive keeps a ruleset well
  formed, and so do all.
* `wellFormed_ofText`: the ruleset of a text is well formed, and no predicate
  has an unknown kind under it.
-/

namespace TypedTriples

/-! ## Shapes of the parts -/

/-- A text without the characters that separate words and lines. -/
def IsUnbroken (t : Text) : Prop := ∀ c ∈ t, c ≠ ' ' ∧ c ≠ '\t' ∧ c ≠ '\n' ∧ c ≠ '\r'

open Directive in
/-- The words of a directive have the shapes of what they stand for. -/
def Directive.WellFormed : Directive → Prop
  | language tag => ∀ t ∈ tag, IsLanguageTag t
  | addNamespace entry => IsRun isNameChar entry.name ∧ IsUnbroken entry.iri
  | addDefault kind source => kind ≠ .unknown ∧ source ≠ [] ∧ IsUnbroken source
  | addPredicate curie kind _ => IsCurie curie ∧ kind ≠ .unknown

/-- The parts of a ruleset have the shapes of what they stand for. -/
structure Ruleset.WellFormed (rules : Ruleset) : Prop where
  language : Directive.IsLanguageTag rules.language
  name : ∀ entry ∈ rules.prefixes.entries, Directive.IsRun Directive.isNameChar entry.name
  iri : ∀ entry ∈ rules.prefixes.entries, IsUnbroken entry.iri
  nodup_keys : rules.predicates.keys.Nodup
  /-- Every rule stands under its own compact name. -/
  key_eq : ∀ entry ∈ rules.predicates.entries, entry.1 = entry.2.curie
  isCurie : ∀ key ∈ rules.predicates.keys, Directive.IsCurie key
  predicate_kind : ∀ rule ∈ rules.predicates.values, rule.kind ≠ .unknown
  default_kind : ∀ rule ∈ rules.defaults, rule.kind ≠ .unknown
  pattern : ∀ rule ∈ rules.defaults, rule.pattern.source ≠ [] ∧ IsUnbroken rule.pattern.source

/-! ## The directive of a line -/

namespace Directive

theorem keyword_ne_unknown {word : Text} {kind : Kind} (h : (word, kind) ∈ Kind.keywords) :
    kind ≠ .unknown := by
  have hall : ∀ entry ∈ Kind.keywords, entry.2 ≠ Kind.unknown := by simp [Kind.keywords]
  exact hall _ h

/-- A word of a line separates neither words nor lines. -/
theorem isUnbroken_of_mem_words {line word : Text}
    (hline : ∀ c ∈ line, Ruleset.isLineEnd c = false) (h : word ∈ words line) :
    IsUnbroken word := by
  intro c hc
  have hgap : isGap c = false := (isWord_of_mem_words h).isGap_eq_false hc
  have hend : Ruleset.isLineEnd c = false := hline c (subset_of_mem_words h hc)
  simp only [isGap, Bool.or_eq_false_iff, beq_eq_false_iff_ne] at hgap
  simp only [Ruleset.isLineEnd, Bool.or_eq_false_iff, beq_eq_false_iff_ne] at hend
  exact ⟨hgap.1, hgap.2, hend.1, hend.2⟩

theorem unbracket_subset (iri : Text) : unbracket iri ⊆ iri := by
  rcases unbracket_eq_iff.mp (rfl : unbracket iri = unbracket iri) with h | ⟨-, h⟩
  · intro c hc
    rw [h]
    simp [hc]
  · rw [h]
    exact List.Subset.refl iri

theorem wellFormed_of_ofLine? {line : Text} {d : Directive}
    (hline : ∀ c ∈ line, Ruleset.isLineEnd c = false) (h : ofLine? line = some d) :
    d.WellFormed := by
  have hwords : ∀ word ∈ words line, IsUnbroken word :=
    fun word hword => isUnbroken_of_mem_words hline hword
  have hspells : Spells (words line) d := ofLine?_eq_some_iff.mp h
  have hword : ∀ word ∈ words line, IsWord word := fun word hmem => isWord_of_mem_words hmem
  generalize words line = list at hspells hwords hword
  cases hspells with
  | bareLanguage =>
    rintro tag ⟨⟩
  | language htag =>
    rintro tag ⟨⟩
    exact htag
  | @addNamespace name word iri hname _ =>
    have hiri : IsUnbroken iri := hwords iri (by simp)
    exact ⟨hname, fun c hc => hiri c (unbracket_subset iri hc)⟩
  | @addDefault word source kind hkind =>
    exact ⟨keyword_ne_unknown hkind, (hword source (by simp)).1, hwords source (by simp)⟩
  | addPredicate others hcurie hkind =>
    exact ⟨hcurie, keyword_ne_unknown hkind⟩

end Directive

namespace Ruleset

theorem isLineEnd_of_mem_lines {content line : Text} (h : line ∈ lines content) :
    ∀ c ∈ line, isLineEnd c = false :=
  Directive.eq_false_of_mem_splitOnP h

theorem wellFormed_of_mem_directives {content : Text} {d : Directive}
    (h : d ∈ directives content) : d.WellFormed := by
  obtain ⟨line, hline, hread⟩ := List.mem_filterMap.mp h
  exact Directive.wellFormed_of_ofLine? (isLineEnd_of_mem_lines hline) hread

/-! ## Directives keep a ruleset well formed -/

theorem isLanguageTag_english : Directive.IsLanguageTag empty.language :=
  ⟨['e', 'n'], [], rfl, ⟨by simp, by simp⟩, by simp⟩

theorem wellFormed_empty : empty.WellFormed where
  language := isLanguageTag_english
  name := by simp [empty]
  iri := by simp [empty]
  nodup_keys := List.nodup_nil
  key_eq := by simp [empty]
  isCurie := by simp [empty, OrderedMap.keys]
  predicate_kind := by simp [empty, OrderedMap.values]
  default_kind := by simp [empty]
  pattern := by simp [empty]

/-- A rule under its own compact name keeps the predicates well formed. -/
theorem WellFormed.insert {rules : Ruleset} (h : rules.WellFormed) (rule : PredicateRule)
    (hcurie : Directive.IsCurie rule.curie) (hkind : rule.kind ≠ .unknown) :
    WellFormed { rules with predicates := rules.predicates.insert rule.curie rule } := by
  refine { h with nodup_keys := ?_, key_eq := ?_, isCurie := ?_, predicate_kind := ?_ }
  · exact OrderedMap.nodup_keys_insert h.nodup_keys rule.curie rule
  · intro entry hentry
    rcases OrderedMap.mem_put hentry with rfl | hold
    · rfl
    · exact h.key_eq entry hold
  · intro key hkey
    rcases OrderedMap.mem_keys_insert.mp hkey with hold | rfl
    · exact h.isCurie key hold
    · exact hcurie
  · intro other hother
    obtain ⟨entry, hentry, rfl⟩ := List.mem_map.mp hother
    rcases OrderedMap.mem_put hentry with rfl | hold
    · exact hkind
    · exact h.predicate_kind entry.2 (List.mem_map_of_mem hold)

/-- A well-formed directive keeps a ruleset well formed. -/
theorem WellFormed.apply {rules : Ruleset} {d : Directive} (h : rules.WellFormed)
    (hd : d.WellFormed) : (d.apply rules).WellFormed := by
  cases d with
  | language tag =>
    cases tag with
    | none => exact h
    | some tag => exact { h with language := hd tag rfl }
  | addNamespace entry =>
    obtain ⟨hname, hiri⟩ := hd
    refine { h with name := ?_, iri := ?_ }
    · exact List.forall_mem_append.mpr ⟨h.name, List.forall_mem_singleton.mpr hname⟩
    · exact List.forall_mem_append.mpr ⟨h.iri, List.forall_mem_singleton.mpr hiri⟩
  | addDefault kind source =>
    obtain ⟨hkind, hsource⟩ := hd
    rw [Directive.apply]
    cases hpattern : Pattern.ofSource? source with
    | none => exact h
    | some pattern =>
      rw [← Pattern.source_of_ofSource? hpattern] at hsource
      refine { h with default_kind := ?_, pattern := ?_ }
      · exact List.forall_mem_append.mpr ⟨h.default_kind, List.forall_mem_singleton.mpr hkind⟩
      · exact List.forall_mem_append.mpr ⟨h.pattern, List.forall_mem_singleton.mpr hsource⟩
  | addPredicate curie kind modifiers =>
    obtain ⟨hcurie, hkind⟩ := hd
    exact h.insert (Directive.ruleOf curie kind modifiers) hcurie hkind

/-- So do well-formed directives, one after the other. -/
theorem WellFormed.applyAll {rules : Ruleset} {ds : List Directive} (h : rules.WellFormed)
    (hds : ∀ d ∈ ds, d.WellFormed) : (rules.applyAll ds).WellFormed := by
  induction ds generalizing rules with
  | nil => exact h
  | cons d ds ih =>
    have hfirst : (d.apply rules).WellFormed := h.apply (hds d List.mem_cons_self)
    exact ih hfirst fun other hother => hds other (List.mem_cons_of_mem d hother)

theorem wellFormed_applyAll_directives (content : Text) : (ofText content).WellFormed :=
  wellFormed_empty.applyAll fun _ hd => wellFormed_of_mem_directives hd

/-! ## Kinds under a well-formed ruleset -/

theorem WellFormed.kind?_ne_unknown {rules : Ruleset} (h : rules.WellFormed) {predicate : Text}
    {kind : Kind} (hkind : rules.kind? predicate = some kind) : kind ≠ .unknown := by
  obtain ⟨rule, hrule, rfl⟩ := Option.map_eq_some_iff.mp hkind
  have hentry : (predicate, rule) ∈ rules.predicates.entries :=
    OrderedMap.mem_entries_of_get? hrule
  exact h.predicate_kind rule (List.mem_map_of_mem hentry)

theorem WellFormed.resolve_ne_unknown {rules : Ruleset} (h : rules.WellFormed)
    (predicate : Text) : rules.resolve predicate ≠ .unknown := by
  unfold resolve
  split
  · decide
  split
  · decide
  cases hkind : rules.kind? predicate with
  | none => decide
  | some kind => exact h.kind?_ne_unknown hkind

/-- **The ruleset of a text is well formed**, whatever the text is: so no prefix
    has a colon or starts with an angle bracket, and no predicate has an unknown
    kind in effect. -/
theorem wellFormed_ofText (content : Text) :
    (ofText content).WellFormed ∧
      (∀ entry ∈ (ofText content).prefixes.entries,
        ':' ∉ entry.name ∧ entry.name.head? ≠ some '<') ∧
      ∀ predicate, (ofText content).resolve predicate ≠ .unknown := by
  have h : (ofText content).WellFormed := wellFormed_applyAll_directives content
  refine ⟨h, ?_, h.resolve_ne_unknown⟩
  intro entry hentry
  have hname : Directive.IsRun Directive.isNameChar entry.name := h.name entry hentry
  exact ⟨Directive.colon_not_mem_of_isRun hname, Directive.head?_ne_of_isRun hname⟩

/-- A prefix with a colon after it and an IRI in angle brackets. -/
theorem wellFormed_ofText_bracketed :
    ⟨"ex".toList, "http://e/".toList⟩ ∈
        (ofText "@prefix ex: <http://e/>\r\nex:a uri".toList).prefixes.entries ∧
      ':' ∉ "ex".toList ∧ "ex".toList.head? ≠ some '<' := by
  have hentries : (ofText "@prefix ex: <http://e/>\r\nex:a uri".toList).prefixes.entries =
      [⟨"ex".toList, "http://e/".toList⟩] := by cbv
  have hmem : ⟨"ex".toList, "http://e/".toList⟩ ∈
      (ofText "@prefix ex: <http://e/>\r\nex:a uri".toList).prefixes.entries := by
    rw [hentries]
    exact List.mem_singleton_self _
  exact ⟨hmem, (wellFormed_ofText _).2.1 _ hmem⟩

end Ruleset

end TypedTriples
