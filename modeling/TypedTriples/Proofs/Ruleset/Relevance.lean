import Mathlib
import TypedTriples.Enhance
import TypedTriples.Proofs.PrefixTable.Inflation
import TypedTriples.Proofs.Ruleset.Concatenation
import TypedTriples.Proofs.Ruleset.Resolution

/-!
# What matters in a rules file

Of all the lines of a rules file a statement depends on few: the last language,
the first line about a prefix, the last line about a predicate, of which only the
kind and the localization count, and which patterns have a default of the kinds
`localized` and `iri`. Two rules files that agree there cannot be told apart by
inflation, by the kinds of predicates, or by statements.

Main definitions:
* `Ruleset.Agree`: two lists of directives agree on all that matters.
* `Ruleset.Indistinguishable`: two rulesets give the same answers.
* `Ruleset.Idle`: a change of a list of directives that does not matter.

Main results:
* `Agree.indistinguishable`: agreement is enough.
* `Idle.agree`: shadowed, overwritten and repeated lines do not matter.
* `indistinguishable_ofText`: both of them for rules files.
-/

namespace TypedTriples

/-! ## Specification -/

namespace Ruleset

/-- The first directive about a prefix gives it this IRI. -/
def FirstNamespace (ds : List Directive) (name iri : Text) : Prop :=
  ∃ before after, ds = before ++ Directive.addNamespace ⟨name, iri⟩ :: after ∧
    ∀ iri', Directive.addNamespace ⟨name, iri'⟩ ∉ before

/-- The last directive about a predicate gives it this kind, and says whether its
    values are localized, by the kind or by a modifier. -/
def LastSays (ds : List Directive) (predicate : Text) (kind : Kind) (isLocalized : Bool) : Prop :=
  ∃ modifiers, LastDeclares ds predicate kind modifiers ∧
    (isLocalized = true ↔ kind = .localized ∨ "lang".toList ∈ modifiers)

/-- Two lists of directives agree on all that matters. -/
structure Agree (first second : List Directive) : Prop where
  language : (empty.applyAll first).language = (empty.applyAll second).language
  namespaces : ∀ name iri, FirstNamespace first name iri ↔ FirstNamespace second name iri
  predicates : ∀ predicate kind isLocalized,
    LastSays first predicate kind isLocalized ↔ LastSays second predicate kind isLocalized
  localized : ∀ source,
    Directive.addDefault .localized source ∈ first ↔ Directive.addDefault .localized source ∈ second
  iri : ∀ source,
    Directive.addDefault .iri source ∈ first ↔ Directive.addDefault .iri source ∈ second

/-- Two rulesets give the same answers, faults included. -/
structure Indistinguishable (a b : Ruleset) : Prop where
  inflate : ∀ value, a.prefixes.inflate value = b.prefixes.inflate value
  resolve : ∀ predicate, a.resolve predicate = b.resolve predicate
  enhance : ∀ record, a.enhance record = b.enhance record

/-- A directive has no effect between those before it and those after it. -/
inductive IsDead (before after : List Directive) : Directive → Prop
  | bareLanguage : IsDead before after (.language none)
  | overwrittenLanguage {tag tag' : Text} (h : Directive.language (some tag') ∈ after) :
      IsDead before after (.language (some tag))
  | shadowed {name iri iri' : Text} (h : Directive.addNamespace ⟨name, iri'⟩ ∈ before) :
      IsDead before after (.addNamespace ⟨name, iri⟩)
  | overwritten {predicate : Text} {kind kind' : Kind} {modifiers modifiers' : List Text}
      (h : Directive.addPredicate predicate kind' modifiers' ∈ after) :
      IsDead before after (.addPredicate predicate kind modifiers)
  | repeated {kind : Kind} {source : Text}
      (h : Directive.addDefault kind source ∈ before ++ after) :
      IsDead before after (.addDefault kind source)
  /-- Defaults of other kinds are kept but never asked for. -/
  | unused {kind : Kind} {source : Text} (hlocalized : kind ≠ .localized) (hiri : kind ≠ .iri) :
      IsDead before after (.addDefault kind source)

/-- A change of a list of directives that does not matter. -/
inductive Idle : List Directive → List Directive → Prop
  | drop {before after : List Directive} {d : Directive} (h : IsDead before after d) :
      Idle (before ++ d :: after) (before ++ after)
  /-- Of the modifiers of a predicate only `lang` counts. -/
  | modifiers {before after : List Directive} {predicate : Text} {kind : Kind}
      {modifiers modifiers' : List Text}
      (h : "lang".toList ∈ modifiers ↔ "lang".toList ∈ modifiers') :
      Idle (before ++ .addPredicate predicate kind modifiers :: after)
        (before ++ .addPredicate predicate kind modifiers' :: after)
  /-- A default may stand anywhere. -/
  | move {before after : List Directive} {d : Directive} {kind : Kind} {source : Text} :
      Idle (before ++ .addDefault kind source :: d :: after)
        (before ++ d :: .addDefault kind source :: after)

end Ruleset

/-! ## What one directive says of a name -/

namespace Directive

/-- The namespace that a directive gives to a prefix. -/
def entryFor? (name : Text) (d : Directive) : Option Namespace :=
  d.namespaces.find? fun entry => entry.name == name

theorem entryFor?_eq_some_iff {name : Text} {d : Directive} {iri : Text} :
    d.entryFor? name = some ⟨name, iri⟩ ↔ d = .addNamespace ⟨name, iri⟩ := by
  cases d with
  | addNamespace entry =>
    obtain ⟨name', iri'⟩ := entry
    by_cases h : name' = name
    · simp [entryFor?, namespaces, h]
    · simp [entryFor?, namespaces, h]
  | language tag | addDefault kind source | addPredicate curie kind modifiers =>
    simp [entryFor?, namespaces]

theorem entryFor?_eq_none_iff {name : Text} {d : Directive} :
    d.entryFor? name = none ↔ ∀ iri, d ≠ .addNamespace ⟨name, iri⟩ := by
  cases d with
  | addNamespace entry =>
    obtain ⟨name', iri'⟩ := entry
    by_cases h : name' = name
    · simp [entryFor?, namespaces, h]
    · simp [entryFor?, namespaces, h]
  | language tag | addDefault kind source | addPredicate curie kind modifiers =>
    simp [entryFor?, namespaces]

/-- The kind that a directive gives to a predicate, and whether it localizes its
    values. -/
def saysOf? (predicate : Text) : Directive → Option (Kind × Bool)
  | addPredicate curie kind modifiers =>
    if curie = predicate then some (kind, (ruleOf curie kind modifiers).isLocalized) else none
  | _ => none

theorem isLocalized_ruleOf {curie : Text} {kind : Kind} {modifiers : List Text} :
    (ruleOf curie kind modifiers).isLocalized = true ↔
      kind = .localized ∨ "lang".toList ∈ modifiers := by
  simp [ruleOf, PredicateRule.isLocalized]

theorem saysOf?_eq_some_iff {predicate : Text} {d : Directive} {kind : Kind} {isLocalized : Bool} :
    d.saysOf? predicate = some (kind, isLocalized) ↔
      ∃ modifiers, d = .addPredicate predicate kind modifiers ∧
        (isLocalized = true ↔ kind = .localized ∨ "lang".toList ∈ modifiers) := by
  cases d with
  | addPredicate curie kind' modifiers =>
    rw [saysOf?]
    by_cases h : curie = predicate
    · rw [if_pos h, Option.some_inj, Prod.mk.injEq]
      constructor
      · rintro ⟨rfl, rfl⟩
        exact ⟨modifiers, by rw [h], isLocalized_ruleOf⟩
      · rintro ⟨modifiers', heq, hlocalized⟩
        obtain ⟨-, rfl, rfl⟩ := addPredicate.inj heq
        exact ⟨rfl, Bool.eq_iff_iff.mpr (isLocalized_ruleOf.trans hlocalized.symm)⟩
    · simp [h]
  | language tag | addNamespace entry | addDefault kind source => simp [saysOf?]

theorem saysOf?_eq_none_iff {predicate : Text} {d : Directive} :
    d.saysOf? predicate = none ↔ ∀ kind modifiers, d ≠ .addPredicate predicate kind modifiers := by
  cases d with
  | addPredicate curie kind modifiers =>
    by_cases h : curie = predicate
    · simp [saysOf?, h]
    · simp [saysOf?, h]
  | language tag | addNamespace entry | addDefault kind source => simp [saysOf?]

end Directive

/-! ## What a list of directives says of a name -/

namespace Ruleset

/-- The last language is the first one from the end. -/
theorem language_applyAll (ds : List Directive) :
    (empty.applyAll ds).language = (ds.reverse.findSome? Directive.tag?).getD "en".toList := by
  rw [applyAll_eq, ← List.getLast?_filterMap]
  rfl

theorem get?_applyAll (ds : List Directive) (name : Text) :
    (empty.applyAll ds).prefixes.get? name = ds.findSome? (Directive.entryFor? name) := by
  rw [applyAll_eq]
  exact List.find?_flatMap

theorem firstNamespace_iff {ds : List Directive} {name iri : Text} :
    FirstNamespace ds name iri ↔
      ds.findSome? (Directive.entryFor? name) = some ⟨name, iri⟩ := by
  rw [List.findSome?_eq_some_iff]
  constructor
  · rintro ⟨before, after, heq, hbefore⟩
    refine ⟨before, _, after, heq, Directive.entryFor?_eq_some_iff.mpr rfl, fun d hd => ?_⟩
    rw [Directive.entryFor?_eq_none_iff]
    rintro iri' rfl
    exact hbefore iri' hd
  · rintro ⟨before, d, after, heq, hd, hbefore⟩
    rw [Directive.entryFor?_eq_some_iff.mp hd] at heq
    exact ⟨before, after, heq, fun iri' hmem =>
      Directive.entryFor?_eq_none_iff.mp (hbefore _ hmem) iri' rfl⟩

theorem lastSays_iff {ds : List Directive} {predicate : Text} {kind : Kind} {isLocalized : Bool} :
    LastSays ds predicate kind isLocalized ↔
      ds.reverse.findSome? (Directive.saysOf? predicate) = some (kind, isLocalized) := by
  rw [List.findSome?_eq_some_iff]
  constructor
  · rintro ⟨modifiers, ⟨before, after, rfl, hafter⟩, hlocalized⟩
    refine ⟨after.reverse, .addPredicate predicate kind modifiers, before.reverse, by simp,
      Directive.saysOf?_eq_some_iff.mpr ⟨modifiers, rfl, hlocalized⟩, fun d hd => ?_⟩
    rw [Directive.saysOf?_eq_none_iff]
    rintro kind' modifiers' rfl
    exact hafter kind' modifiers' (List.mem_reverse.mp hd)
  · rintro ⟨after, d, before, heq, hd, hafter⟩
    obtain ⟨modifiers, rfl, hlocalized⟩ := Directive.saysOf?_eq_some_iff.mp hd
    refine ⟨modifiers, ⟨before.reverse, after.reverse, ?_, fun kind' modifiers' hmem => ?_⟩,
      hlocalized⟩
    · rw [← List.reverse_reverse ds, heq]
      simp
    · exact Directive.saysOf?_eq_none_iff.mp (hafter _ (List.mem_reverse.mp hmem)) kind' modifiers'
        rfl

/-- Agreement, read off the lists from the one end and from the other. -/
theorem agree_iff {first second : List Directive} :
    Agree first second ↔
      (empty.applyAll first).language = (empty.applyAll second).language ∧
        (∀ name, first.findSome? (Directive.entryFor? name) =
          second.findSome? (Directive.entryFor? name)) ∧
        (∀ predicate, first.reverse.findSome? (Directive.saysOf? predicate) =
          second.reverse.findSome? (Directive.saysOf? predicate)) ∧
        ∀ kind, kind = .localized ∨ kind = .iri → ∀ source,
          (Directive.addDefault kind source ∈ first ↔ Directive.addDefault kind source ∈ second) := by
  -- an entry that is found for a prefix has that prefix
  have hname : ∀ {ds : List Directive} {name : Text} {entry : Namespace},
      ds.findSome? (Directive.entryFor? name) = some entry → entry.name = name := by
    intro ds name entry h
    rw [← get?_applyAll] at h
    exact PrefixTable.name_of_get? h
  constructor
  · intro h
    refine ⟨h.language, fun name => ?_, fun predicate => ?_, ?_⟩
    · ext ⟨name', iri⟩
      constructor
      · intro hentry
        obtain rfl : name' = name := hname hentry
        exact firstNamespace_iff.mp ((h.namespaces _ iri).mp (firstNamespace_iff.mpr hentry))
      · intro hentry
        obtain rfl : name' = name := hname hentry
        exact firstNamespace_iff.mp ((h.namespaces _ iri).mpr (firstNamespace_iff.mpr hentry))
    · ext ⟨kind, isLocalized⟩
      exact lastSays_iff.symm.trans ((h.predicates predicate kind isLocalized).trans lastSays_iff)
    · rintro kind (rfl | rfl)
      · exact h.localized
      · exact h.iri
  · rintro ⟨hlanguage, hnamespaces, hpredicates, hdefaults⟩
    refine ⟨hlanguage, fun name iri => ?_, fun predicate kind isLocalized => ?_,
      hdefaults _ (Or.inl rfl), hdefaults _ (Or.inr rfl)⟩
    · rw [firstNamespace_iff, firstNamespace_iff, hnamespaces]
    · rw [lastSays_iff, lastSays_iff, hpredicates]

/-! ## Agreement is enough -/

theorem resolve_congr {a b : Ruleset} {predicate : Text}
    (hlocalized : a.isLocalized predicate = b.isLocalized predicate)
    (hiri : a.isIri predicate = b.isIri predicate) (hkind : a.kind? predicate = b.kind? predicate) :
    a.resolve predicate = b.resolve predicate := by
  unfold resolve
  rw [hlocalized, hiri, hkind]

theorem enhance_congr {a b : Ruleset} (hlanguage : a.language = b.language)
    (hinflate : ∀ value, a.prefixes.inflate value = b.prefixes.inflate value)
    (hresolve : ∀ predicate, a.resolve predicate = b.resolve predicate) (record : Triple) :
    a.enhance record = b.enhance record := by
  have hterm : ∀ kind value, a.term kind value = b.term kind value := by
    intro kind value
    cases kind with
    | localized => rw [term, term, hlanguage]
    | iri => rw [term, term, hinflate]
    | string | integer | number | float | boolean | dateTime | date | anyUri | unknown => rfl
  unfold enhance
  rw [hresolve, hterm, hinflate, hinflate]

theorem someDefault_congr {first second : List Directive} {kind : Kind}
    (h : ∀ source,
      (Directive.addDefault kind source ∈ first ↔ Directive.addDefault kind source ∈ second))
    (predicate : Text) : SomeDefault first kind predicate ↔ SomeDefault second kind predicate := by
  unfold SomeDefault
  simp only [h]

theorem lastDeclares_localized_iff {ds : List Directive} {predicate : Text} :
    (∃ kind modifiers, LastDeclares ds predicate kind modifiers ∧
        (kind = .localized ∨ "lang".toList ∈ modifiers)) ↔
      ∃ kind, LastSays ds predicate kind true := by
  simp [LastSays]

theorem lastDeclares_kind_iff {ds : List Directive} {predicate : Text} {kind : Kind} :
    (∃ modifiers, LastDeclares ds predicate kind modifiers) ↔
      ∃ isLocalized, LastSays ds predicate kind isLocalized := by
  constructor
  · rintro ⟨modifiers, h⟩
    exact ⟨decide (kind = .localized ∨ "lang".toList ∈ modifiers), modifiers, h, by simp⟩
  · rintro ⟨isLocalized, modifiers, h, -⟩
    exact ⟨modifiers, h⟩

/-- **Agreement is enough**: inflation, kinds and statements are the same. -/
theorem Agree.indistinguishable {first second : List Directive} (h : Agree first second) :
    Indistinguishable (empty.applyAll first) (empty.applyAll second) := by
  have hinflate : ∀ value, (empty.applyAll first).prefixes.inflate value =
      (empty.applyAll second).prefixes.inflate value := by
    intro value
    apply PrefixTable.inflate_congr
    rw [get?_applyAll, get?_applyAll, (agree_iff.mp h).2.1]
  have hlocalized : ∀ predicate, (empty.applyAll first).isLocalized predicate =
      (empty.applyAll second).isLocalized predicate := by
    intro predicate
    rw [Bool.eq_iff_iff, isLocalized_applyAll, isLocalized_applyAll, SaysLocalized, SaysLocalized,
      lastDeclares_localized_iff, lastDeclares_localized_iff, someDefault_congr h.localized]
    simp only [h.predicates]
  have hiri : ∀ predicate, (empty.applyAll first).isIri predicate =
      (empty.applyAll second).isIri predicate := by
    intro predicate
    rw [Bool.eq_iff_iff, isIri_applyAll, isIri_applyAll, SaysIri, SaysIri,
      lastDeclares_kind_iff, lastDeclares_kind_iff, someDefault_congr h.iri]
    simp only [h.predicates]
  have hkind : ∀ predicate, (empty.applyAll first).kind? predicate =
      (empty.applyAll second).kind? predicate := by
    intro predicate
    ext kind
    rw [kind?_applyAll, kind?_applyAll, lastDeclares_kind_iff, lastDeclares_kind_iff]
    simp only [h.predicates]
  have hresolve : ∀ predicate, (empty.applyAll first).resolve predicate =
      (empty.applyAll second).resolve predicate :=
    fun predicate => resolve_congr (hlocalized predicate) (hiri predicate) (hkind predicate)
  exact ⟨hinflate, hresolve, enhance_congr h.language hinflate hresolve⟩

/-! ## Changes that do not matter -/

section FindSome

variable {β : Type} {f : Directive → Option β} {before after : List Directive} {d e : Directive}

/-- What is found first does not change with an item that has no answer, or one
    that comes before it. -/
theorem findSome?_drop (h : f d = none ∨ ∃ e ∈ before, (f e).isSome = true) :
    (before ++ d :: after).findSome? f = (before ++ after).findSome? f := by
  rw [List.findSome?_append, List.findSome?_append]
  rcases h with hnone | hsome
  · rw [List.findSome?_cons, hnone]
  · obtain ⟨b, hb⟩ := Option.isSome_iff_exists.mp (List.findSome?_isSome_iff.mpr hsome)
    rw [hb, Option.some_or, Option.some_or]

theorem findSome?_reverse_drop (h : f d = none ∨ ∃ e ∈ after, (f e).isSome = true) :
    (before ++ d :: after).reverse.findSome? f = (before ++ after).reverse.findSome? f := by
  have hreverse : f d = none ∨ ∃ e ∈ after.reverse, (f e).isSome = true :=
    h.imp_right fun ⟨e, he, hsome⟩ => ⟨e, List.mem_reverse.mpr he, hsome⟩
  have hdrop : (after.reverse ++ d :: before.reverse).findSome? f =
      (after.reverse ++ before.reverse).findSome? f := findSome?_drop hreverse
  simpa using hdrop

theorem findSome?_move (h : f d = none) :
    (before ++ d :: e :: after).findSome? f = (before ++ e :: d :: after).findSome? f := by
  have hcut : before ++ e :: d :: after = (before ++ [e]) ++ d :: after := by simp
  rw [hcut, findSome?_drop (Or.inl h), findSome?_drop (Or.inl h)]
  simp

theorem findSome?_reverse_move (h : f d = none) :
    (before ++ d :: e :: after).reverse.findSome? f =
      (before ++ e :: d :: after).reverse.findSome? f := by
  have hcut : before ++ e :: d :: after = (before ++ [e]) ++ d :: after := by simp
  rw [hcut, findSome?_reverse_drop (Or.inl h), findSome?_reverse_drop (Or.inl h)]
  simp

end FindSome

/-- A dead change of the tag is followed by another. -/
theorem IsDead.tag?_eq_none_or {before after : List Directive} {d : Directive}
    (h : IsDead before after d) :
    d.tag? = none ∨ ∃ e ∈ after, e.tag?.isSome = true := by
  cases h with
  | overwrittenLanguage hmem => exact Or.inr ⟨_, hmem, rfl⟩
  | bareLanguage | shadowed | overwritten | repeated | unused => exact Or.inl rfl

/-- A dead entry for a prefix comes after another. -/
theorem IsDead.entryFor?_eq_none_or {before after : List Directive} {d : Directive}
    (h : IsDead before after d) (name : Text) :
    d.entryFor? name = none ∨ ∃ e ∈ before, (e.entryFor? name).isSome = true := by
  cases h with
  | @shadowed name' iri iri' hmem =>
    by_cases hname : name' = name
    · exact Or.inr ⟨_, hmem, by simp [Directive.entryFor?, Directive.namespaces, hname]⟩
    · exact Or.inl (by simp [Directive.entryFor?, Directive.namespaces, hname])
  | bareLanguage | overwrittenLanguage | overwritten | repeated | unused => exact Or.inl rfl

/-- A dead rule for a predicate is followed by another. -/
theorem IsDead.saysOf?_eq_none_or {before after : List Directive} {d : Directive}
    (h : IsDead before after d) (predicate : Text) :
    d.saysOf? predicate = none ∨ ∃ e ∈ after, (e.saysOf? predicate).isSome = true := by
  cases h with
  | @overwritten predicate' _ _ _ _ hmem =>
    by_cases hpredicate : predicate' = predicate
    · exact Or.inr ⟨_, hmem, by simp [Directive.saysOf?, hpredicate]⟩
    · exact Or.inl (by simp [Directive.saysOf?, hpredicate])
  | bareLanguage | overwrittenLanguage | shadowed | repeated | unused => exact Or.inl rfl

/-- A dead default that counts is there already. -/
theorem IsDead.addDefault_mem_iff {before after : List Directive} {d : Directive}
    (h : IsDead before after d) {kind : Kind} (hkind : kind = .localized ∨ kind = .iri)
    (source : Text) :
    Directive.addDefault kind source ∈ before ++ d :: after ↔
      Directive.addDefault kind source ∈ before ++ after := by
  cases h with
  | @repeated kind' source' hmem =>
    rw [List.mem_append] at hmem
    simp only [List.mem_append, List.mem_cons]
    constructor
    · rintro (hbefore | heq | hafter)
      · exact Or.inl hbefore
      · rw [heq]
        exact hmem
      · exact Or.inr hafter
    · exact Or.imp_right Or.inr
  | @unused kind' source' hlocalized hiri =>
    have hne : Directive.addDefault kind source ≠ .addDefault kind' source' := by
      rintro ⟨⟩
      rcases hkind with rfl | rfl
      · exact hlocalized rfl
      · exact hiri rfl
    simp [hne]
  | bareLanguage | overwrittenLanguage | shadowed | overwritten => simp

/-- Directives without effect may be left out. -/
theorem IsDead.agree {before after : List Directive} {d : Directive} (h : IsDead before after d) :
    Agree (before ++ d :: after) (before ++ after) := by
  have htag : (empty.applyAll (before ++ d :: after)).language =
      (empty.applyAll (before ++ after)).language := by
    rw [language_applyAll, language_applyAll, findSome?_reverse_drop h.tag?_eq_none_or]
  exact agree_iff.mpr ⟨htag, fun name => findSome?_drop (h.entryFor?_eq_none_or name),
    fun predicate => findSome?_reverse_drop (h.saysOf?_eq_none_or predicate),
    fun _ hkind source => h.addDefault_mem_iff hkind source⟩

/-- **Idle changes keep agreement.** -/
theorem Idle.agree {first second : List Directive} (h : Idle first second) :
    Agree first second := by
  cases h with
  | drop hdead => exact hdead.agree
  | @modifiers before after predicate kind modifiers modifiers' hlang =>
    have hsaid : ∀ other,
        (Directive.addPredicate predicate kind modifiers).saysOf? other =
          (Directive.addPredicate predicate kind modifiers').saysOf? other := by
      intro other
      have hlocalized : (Directive.ruleOf predicate kind modifiers).isLocalized =
          (Directive.ruleOf predicate kind modifiers').isLocalized := by
        rw [Bool.eq_iff_iff, Directive.isLocalized_ruleOf, Directive.isLocalized_ruleOf, hlang]
      simp only [Directive.saysOf?, hlocalized]
    refine agree_iff.mpr ⟨?_, fun name => ?_, fun other => ?_, fun kind' _ source => by simp⟩
    · rw [language_applyAll, language_applyAll, findSome?_reverse_drop (Or.inl rfl),
        findSome?_reverse_drop (Or.inl rfl)]
    · rw [findSome?_drop (Or.inl rfl), findSome?_drop (Or.inl rfl)]
    · simp [List.findSome?_append, List.findSome?_cons, hsaid]
  | @move before after d kind source =>
    refine agree_iff.mpr ⟨?_, fun name => findSome?_move rfl,
      fun predicate => findSome?_reverse_move rfl, fun kind' _ source' => ?_⟩
    · rw [language_applyAll, language_applyAll, findSome?_reverse_move rfl]
    · simp only [List.mem_append, List.mem_cons]
      tauto

/-- Agreement is an equivalence, so a sequence of idle changes keeps it. -/
theorem agree_of_eqvGen {first second : List Directive} (h : Relation.EqvGen Idle first second) :
    Agree first second := by
  induction h with
  | rel first second h => exact h.agree
  | refl ds => exact agree_iff.mpr ⟨rfl, fun _ => rfl, fun _ => rfl, fun _ _ _ => Iff.rfl⟩
  | symm first second _ ih =>
    obtain ⟨hlanguage, hnamespaces, hpredicates, hdefaults⟩ := agree_iff.mp ih
    exact agree_iff.mpr ⟨hlanguage.symm, fun name => (hnamespaces name).symm,
      fun predicate => (hpredicates predicate).symm,
      fun kind hkind source => (hdefaults kind hkind source).symm⟩
  | trans first second third _ _ ih ih' =>
    obtain ⟨hlanguage, hnamespaces, hpredicates, hdefaults⟩ := agree_iff.mp ih
    obtain ⟨hlanguage', hnamespaces', hpredicates', hdefaults'⟩ := agree_iff.mp ih'
    exact agree_iff.mpr ⟨hlanguage.trans hlanguage',
      fun name => (hnamespaces name).trans (hnamespaces' name),
      fun predicate => (hpredicates predicate).trans (hpredicates' predicate),
      fun kind hkind source => (hdefaults kind hkind source).trans (hdefaults' kind hkind source)⟩

/-- **What does not matter in a rules file.** Two rules files cannot be told apart
    by inflation, kinds of predicates or statements, faults included, if they
    agree on the language, on the first line about each prefix, on the kind and
    the localization in the last line about each predicate, and on the patterns
    of the defaults `localized` and `iri`. So they do if one comes from the other
    by leaving out or inserting dead lines, moving defaults, and changing
    modifiers other than `lang`. -/
theorem indistinguishable_ofText :
    (∀ first second : Text, Agree (directives first) (directives second) →
      Indistinguishable (ofText first) (ofText second)) ∧
    ∀ first second : Text, Relation.EqvGen Idle (directives first) (directives second) →
      Agree (directives first) (directives second) ∧
        Indistinguishable (ofText first) (ofText second) := by
  refine ⟨fun first second h => h.indistinguishable, fun first second h => ?_⟩
  have hagree := agree_of_eqvGen h
  exact ⟨hagree, hagree.indistinguishable⟩

/-- A shadowed namespace is left out, a default is moved to the end, and one
    modifier without effect takes the place of another. -/
theorem indistinguishable_ofText_reordered :
    Relation.EqvGen Idle
        (directives "@prefix a x\n@default iri q*\n@prefix a y\na:p date many".toList)
        (directives "@prefix a x\na:p date odd\n@default iri q*".toList) ∧
      Agree (directives "@prefix a x\n@default iri q*\n@prefix a y\na:p date many".toList)
        (directives "@prefix a x\na:p date odd\n@default iri q*".toList) ∧
      Indistinguishable (ofText "@prefix a x\n@default iri q*\n@prefix a y\na:p date many".toList)
        (ofText "@prefix a x\na:p date odd\n@default iri q*".toList) := by
  have hfirst : directives "@prefix a x\n@default iri q*\n@prefix a y\na:p date many".toList =
      [.addNamespace ⟨['a'], ['x']⟩, .addDefault .iri ['q', '*'], .addNamespace ⟨['a'], ['y']⟩,
        .addPredicate "a:p".toList .date ["many".toList]] := by
    cbv
  have hsecond : directives "@prefix a x\na:p date odd\n@default iri q*".toList =
      [.addNamespace ⟨['a'], ['x']⟩, .addPredicate "a:p".toList .date ["odd".toList],
        .addDefault .iri ['q', '*']] := by
    cbv
  have hdrop : Idle
      [.addNamespace ⟨['a'], ['x']⟩, .addDefault .iri ['q', '*'], .addNamespace ⟨['a'], ['y']⟩,
        .addPredicate "a:p".toList .date ["many".toList]]
      [.addNamespace ⟨['a'], ['x']⟩, .addDefault .iri ['q', '*'],
        .addPredicate "a:p".toList .date ["many".toList]] :=
    @Idle.drop [_, _] [_] _ (.shadowed List.mem_cons_self)
  have hmove : Idle
      [.addNamespace ⟨['a'], ['x']⟩, .addDefault .iri ['q', '*'],
        .addPredicate "a:p".toList .date ["many".toList]]
      [.addNamespace ⟨['a'], ['x']⟩, .addPredicate "a:p".toList .date ["many".toList],
        .addDefault .iri ['q', '*']] :=
    @Idle.move [_] [] _ _ _
  have hmodifiers : Idle
      [.addNamespace ⟨['a'], ['x']⟩, .addPredicate "a:p".toList .date ["many".toList],
        .addDefault .iri ['q', '*']]
      [.addNamespace ⟨['a'], ['x']⟩, .addPredicate "a:p".toList .date ["odd".toList],
        .addDefault .iri ['q', '*']] :=
    @Idle.modifiers [_] [_] _ _ _ _ (by decide)
  have hidle : Relation.EqvGen Idle
      (directives "@prefix a x\n@default iri q*\n@prefix a y\na:p date many".toList)
      (directives "@prefix a x\na:p date odd\n@default iri q*".toList) := by
    rw [hfirst, hsecond]
    exact .trans _ _ _ (.rel _ _ hdrop) (.trans _ _ _ (.rel _ _ hmove) (.rel _ _ hmodifiers))
  have hagree := (indistinguishable_ofText.2 _ _ hidle).1
  exact ⟨hidle, hagree, indistinguishable_ofText.1 _ _ hagree⟩

end Ruleset

end TypedTriples
