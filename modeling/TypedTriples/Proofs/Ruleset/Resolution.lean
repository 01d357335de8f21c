import Mathlib
import TypedTriples.Ruleset.Document

/-!
# Resolution

A ruleset is built directive by directive, but the kind of a predicate depends
on little of that history: on the last line about the predicate, and on the
defaults of the two kinds `localized` and `iri`, wherever they stand.

Main definitions:
* `LastDeclares`: what the last line about a predicate declares.
* `SomeDefault`: whether some default of a kind accepts a predicate.
* `Resolves`: the kind of a predicate, read off the directives.

Main results:
* `rule?_applyAll`, `hasDefault_applyAll`: what a ruleset keeps of its
  directives, by induction on the last of them.
* `resolve_ofText_eq_iff`: the kind of a predicate under a rules file.
-/

namespace TypedTriples.Ruleset

/-! ## What directives say of a predicate -/

/-- The last directive about a predicate gives it this kind and these
    modifiers. -/
def LastDeclares (ds : List Directive) (predicate : Text) (kind : Kind) (modifiers : List Text) :
    Prop :=
  ∃ before after, ds = before ++ Directive.addPredicate predicate kind modifiers :: after ∧
    ∀ kind' modifiers', Directive.addPredicate predicate kind' modifiers' ∉ after

/-- Some default of the kind has a pattern of admissible size that accepts the
    predicate. -/
def SomeDefault (ds : List Directive) (kind : Kind) (predicate : Text) : Prop :=
  ∃ source pattern, Directive.addDefault kind source ∈ ds ∧
    Pattern.ofSource? source = some pattern ∧ pattern.accepts predicate = true

/-- The values of a predicate are localized: its last declaration says so, by
    its kind or by a modifier, or a default does. -/
def SaysLocalized (ds : List Directive) (predicate : Text) : Prop :=
  (∃ kind modifiers, LastDeclares ds predicate kind modifiers ∧
    (kind = .localized ∨ "lang".toList ∈ modifiers)) ∨ SomeDefault ds .localized predicate

/-- The values of a predicate are resources: its last declaration says so, or a
    default does. -/
def SaysIri (ds : List Directive) (predicate : Text) : Prop :=
  (∃ modifiers, LastDeclares ds predicate .iri modifiers) ∨ SomeDefault ds .iri predicate

/-- The kind of a predicate, read off the directives. -/
inductive Resolves (ds : List Directive) (predicate : Text) : Kind → Prop
  | localized (h : SaysLocalized ds predicate) : Resolves ds predicate .localized
  | iri (hlocalized : ¬ SaysLocalized ds predicate) (h : SaysIri ds predicate) :
      Resolves ds predicate .iri
  | declared {kind : Kind} {modifiers : List Text} (hlocalized : ¬ SaysLocalized ds predicate)
      (hiri : ¬ SaysIri ds predicate) (h : LastDeclares ds predicate kind modifiers) :
      Resolves ds predicate kind
  | undeclared (hlocalized : ¬ SaysLocalized ds predicate) (hiri : ¬ SaysIri ds predicate)
      (h : ∀ kind modifiers, ¬ LastDeclares ds predicate kind modifiers) :
      Resolves ds predicate .string

/-! ## One more directive -/

theorem lastDeclares_append {ds : List Directive} {d : Directive} {predicate : Text} {kind : Kind}
    {modifiers : List Text} :
    LastDeclares (ds ++ [d]) predicate kind modifiers ↔
      d = .addPredicate predicate kind modifiers ∨
        (∀ kind' modifiers', d ≠ .addPredicate predicate kind' modifiers') ∧
          LastDeclares ds predicate kind modifiers := by
  constructor
  · rintro ⟨before, after, heq, hafter⟩
    -- the last directive is the declaration itself or stands after it
    rcases List.eq_nil_or_concat after with rfl | ⟨after, last, rfl⟩
    · obtain ⟨-, h⟩ := List.append_inj' heq rfl
      exact Or.inl (List.singleton_inj.mp h)
    · rw [List.concat_eq_append, ← List.cons_append, ← List.append_assoc] at heq
      obtain ⟨rfl, h⟩ := List.append_inj' heq rfl
      obtain rfl := List.singleton_inj.mp h
      refine Or.inr ⟨?_, before, after, rfl, fun kind' modifiers' hmem => ?_⟩
      · rintro kind' modifiers' rfl
        exact hafter kind' modifiers' (by simp)
      · exact hafter kind' modifiers' (by simp [hmem])
  · rintro (rfl | ⟨hne, before, after, rfl, hafter⟩)
    · exact ⟨ds, [], rfl, by simp⟩
    · refine ⟨before, after ++ [d], by simp, fun kind' modifiers' hmem => ?_⟩
      rcases List.mem_append.mp hmem with hmem | hmem
      · exact hafter kind' modifiers' hmem
      · exact hne kind' modifiers' (List.mem_singleton.mp hmem).symm

theorem someDefault_append {ds : List Directive} {d : Directive} {kind : Kind} {predicate : Text} :
    SomeDefault (ds ++ [d]) kind predicate ↔
      SomeDefault ds kind predicate ∨ SomeDefault [d] kind predicate := by
  simp only [SomeDefault, List.mem_append]
  constructor
  · rintro ⟨source, pattern, hmem | hmem, h⟩
    · exact Or.inl ⟨source, pattern, hmem, h⟩
    · exact Or.inr ⟨source, pattern, hmem, h⟩
  · rintro (⟨source, pattern, hmem, h⟩ | ⟨source, pattern, hmem, h⟩)
    · exact ⟨source, pattern, Or.inl hmem, h⟩
    · exact ⟨source, pattern, Or.inr hmem, h⟩

theorem applyAll_append (rules : Ruleset) (ds : List Directive) (d : Directive) :
    rules.applyAll (ds ++ [d]) = d.apply (rules.applyAll ds) := by
  simp [applyAll]

/-- Only a declaration of the predicate touches its rule. -/
theorem rule?_apply_of_ne {d : Directive} {predicate : Text}
    (h : ∀ kind modifiers, d ≠ .addPredicate predicate kind modifiers) (rules : Ruleset) :
    (d.apply rules).rule? predicate = rules.rule? predicate := by
  cases d with
  | language tag => cases tag <;> rfl
  | addNamespace entry => rfl
  | addDefault kind source =>
    rw [Directive.apply]
    cases Pattern.ofSource? source <;> rfl
  | addPredicate curie kind modifiers =>
    have hne : predicate ≠ curie := by
      rintro rfl
      exact h kind modifiers rfl
    exact OrderedMap.get?_insert_of_ne _ hne _

theorem rule?_apply_addPredicate (rules : Ruleset) (predicate : Text) (kind : Kind)
    (modifiers : List Text) :
    ((Directive.addPredicate predicate kind modifiers).apply rules).rule? predicate =
      some (Directive.ruleOf predicate kind modifiers) :=
  OrderedMap.get?_insert_self _ _ _

/-- Only a default of the kind adds to the defaults of the kind. -/
theorem hasDefault_apply (d : Directive) (rules : Ruleset) (kind : Kind) (predicate : Text) :
    (d.apply rules).hasDefault kind predicate = true ↔
      rules.hasDefault kind predicate = true ∨ SomeDefault [d] kind predicate := by
  cases d with
  | language tag => cases tag <;> simp [Directive.apply, hasDefault, SomeDefault]
  | addNamespace entry => simp [Directive.apply, hasDefault, SomeDefault]
  | addPredicate curie kind' modifiers => simp [Directive.apply, hasDefault, SomeDefault]
  | addDefault kind' source =>
    rw [Directive.apply]
    cases hsource : Pattern.ofSource? source with
    | none => simp [SomeDefault, hsource]
    | some pattern =>
      simp only [hasDefault, List.any_append, List.any_cons, List.any_nil, Bool.or_false,
        Bool.or_eq_true, Bool.and_eq_true, beq_iff_eq]
      refine or_congr Iff.rfl ?_
      constructor
      · rintro ⟨rfl, haccepts⟩
        exact ⟨source, pattern, by simp, hsource, haccepts⟩
      · rintro ⟨source', pattern', hmem, hsource', haccepts⟩
        obtain ⟨rfl, rfl⟩ := Directive.addDefault.inj (List.mem_singleton.mp hmem)
        rw [hsource] at hsource'
        obtain rfl := Option.some.inj hsource'
        exact ⟨rfl, haccepts⟩

/-! ## What a ruleset keeps of its directives -/

theorem rule?_empty (predicate : Text) : empty.rule? predicate = none := rfl

/-- The rule of a predicate is that of its last declaration; declarations
    before that leave nothing in it. -/
theorem rule?_applyAll (ds : List Directive) (predicate : Text) (rule : PredicateRule) :
    (empty.applyAll ds).rule? predicate = some rule ↔
      ∃ kind modifiers, LastDeclares ds predicate kind modifiers ∧
        rule = Directive.ruleOf predicate kind modifiers := by
  induction ds using List.reverseRecOn with
  | nil => simp [applyAll, rule?_empty, LastDeclares]
  | append_singleton ds d ih =>
    rw [applyAll_append]
    by_cases hd : ∃ kind modifiers, d = .addPredicate predicate kind modifiers
    · obtain ⟨kind, modifiers, rfl⟩ := hd
      rw [rule?_apply_addPredicate, Option.some_inj]
      constructor
      · rintro rfl
        exact ⟨kind, modifiers, lastDeclares_append.mpr (Or.inl rfl), rfl⟩
      · rintro ⟨kind', modifiers', h, rfl⟩
        rcases lastDeclares_append.mp h with heq | ⟨hne, -⟩
        · obtain ⟨-, rfl, rfl⟩ := Directive.addPredicate.inj heq
          rfl
        · exact absurd rfl (hne kind modifiers)
    · have hne : ∀ kind modifiers, d ≠ .addPredicate predicate kind modifiers :=
        fun kind modifiers h => hd ⟨kind, modifiers, h⟩
      rw [rule?_apply_of_ne hne, ih]
      refine exists_congr fun kind => exists_congr fun modifiers => and_congr_left fun _ => ?_
      rw [lastDeclares_append]
      exact ⟨fun h => Or.inr ⟨hne, h⟩, fun h => (h.resolve_left (hne kind modifiers)).2⟩

theorem rule?_applyAll_eq_none (ds : List Directive) (predicate : Text) :
    (empty.applyAll ds).rule? predicate = none ↔
      ∀ kind modifiers, ¬ LastDeclares ds predicate kind modifiers := by
  rw [Option.eq_none_iff_forall_ne_some]
  constructor
  · intro h kind modifiers hlast
    exact h _ ((rule?_applyAll ds predicate _).mpr ⟨kind, modifiers, hlast, rfl⟩)
  · intro h rule hrule
    obtain ⟨kind, modifiers, hlast, -⟩ := (rule?_applyAll ds predicate rule).mp hrule
    exact h kind modifiers hlast

/-- The defaults of a kind are those of the directives, whatever stands around
    them. -/
theorem hasDefault_applyAll (ds : List Directive) (kind : Kind) (predicate : Text) :
    (empty.applyAll ds).hasDefault kind predicate = true ↔ SomeDefault ds kind predicate := by
  induction ds using List.reverseRecOn with
  | nil => simp [applyAll, empty, hasDefault, SomeDefault]
  | append_singleton ds d ih =>
    rw [applyAll_append, hasDefault_apply, someDefault_append, ih]

/-! ## The kind in effect -/

theorem isLocalized_applyAll (ds : List Directive) (predicate : Text) :
    (empty.applyAll ds).isLocalized predicate = true ↔ SaysLocalized ds predicate := by
  rw [isLocalized, Bool.or_eq_true, hasDefault_applyAll, Option.any_eq_true]
  refine or_congr ?_ Iff.rfl
  constructor
  · rintro ⟨rule, hrule, hlocalized⟩
    obtain ⟨kind, modifiers, hlast, rfl⟩ := (rule?_applyAll ds predicate rule).mp hrule
    exact ⟨kind, modifiers, hlast, by
      simpa [PredicateRule.isLocalized, Directive.ruleOf] using hlocalized⟩
  · rintro ⟨kind, modifiers, hlast, hsays⟩
    refine ⟨_, (rule?_applyAll ds predicate _).mpr ⟨kind, modifiers, hlast, rfl⟩, ?_⟩
    simpa [PredicateRule.isLocalized, Directive.ruleOf] using hsays

theorem kind?_applyAll (ds : List Directive) (predicate : Text) (kind : Kind) :
    (empty.applyAll ds).kind? predicate = some kind ↔
      ∃ modifiers, LastDeclares ds predicate kind modifiers := by
  rw [kind?, Option.map_eq_some_iff]
  constructor
  · rintro ⟨rule, hrule, rfl⟩
    obtain ⟨kind, modifiers, hlast, rfl⟩ := (rule?_applyAll ds predicate rule).mp hrule
    exact ⟨modifiers, hlast⟩
  · rintro ⟨modifiers, hlast⟩
    exact ⟨_, (rule?_applyAll ds predicate _).mpr ⟨kind, modifiers, hlast, rfl⟩, rfl⟩

theorem isIri_applyAll (ds : List Directive) (predicate : Text) :
    (empty.applyAll ds).isIri predicate = true ↔ SaysIri ds predicate := by
  rw [isIri, Bool.or_eq_true, hasDefault_applyAll, declares, beq_iff_eq, kind?_applyAll]
  exact Iff.rfl

theorem isMany_applyAll (ds : List Directive) (predicate : Text) :
    (empty.applyAll ds).isMany predicate = true ↔
      ∃ kind modifiers, LastDeclares ds predicate kind modifiers ∧ "many".toList ∈ modifiers := by
  rw [isMany, Option.any_eq_true]
  constructor
  · rintro ⟨rule, hrule, hmany⟩
    obtain ⟨kind, modifiers, hlast, rfl⟩ := (rule?_applyAll ds predicate rule).mp hrule
    exact ⟨kind, modifiers, hlast, by simpa [Directive.ruleOf] using hmany⟩
  · rintro ⟨kind, modifiers, hlast, hmem⟩
    refine ⟨_, (rule?_applyAll ds predicate _).mpr ⟨kind, modifiers, hlast, rfl⟩, ?_⟩
    simpa [Directive.ruleOf] using hmem

/-- The kind in effect is one that the directives give. -/
theorem resolves_resolve (ds : List Directive) (predicate : Text) :
    Resolves ds predicate ((empty.applyAll ds).resolve predicate) := by
  rw [resolve]
  by_cases hlocalized : SaysLocalized ds predicate
  · rw [if_pos ((isLocalized_applyAll ds predicate).mpr hlocalized)]
    exact .localized hlocalized
  rw [if_neg fun h => hlocalized ((isLocalized_applyAll ds predicate).mp h)]
  by_cases hiri : SaysIri ds predicate
  · rw [if_pos ((isIri_applyAll ds predicate).mpr hiri)]
    exact .iri hlocalized hiri
  rw [if_neg fun h => hiri ((isIri_applyAll ds predicate).mp h)]
  cases hkind : (empty.applyAll ds).kind? predicate with
  | some kind =>
    obtain ⟨modifiers, hlast⟩ := (kind?_applyAll ds predicate kind).mp hkind
    exact .declared hlocalized hiri hlast
  | none =>
    rw [kind?, Option.map_eq_none_iff] at hkind
    exact .undeclared hlocalized hiri ((rule?_applyAll_eq_none ds predicate).mp hkind)

theorem LastDeclares.unique {ds : List Directive} {predicate : Text} {kind kind' : Kind}
    {modifiers modifiers' : List Text} (h : LastDeclares ds predicate kind modifiers)
    (h' : LastDeclares ds predicate kind' modifiers') : kind = kind' := by
  have hkind := (kind?_applyAll ds predicate kind).mpr ⟨modifiers, h⟩
  have hkind' := (kind?_applyAll ds predicate kind').mpr ⟨modifiers', h'⟩
  rw [hkind] at hkind'
  exact Option.some.inj hkind'

theorem Resolves.unique {ds : List Directive} {predicate : Text} {kind kind' : Kind}
    (h : Resolves ds predicate kind) (h' : Resolves ds predicate kind') : kind = kind' := by
  cases h with
  | localized hsays =>
    cases h' with
    | localized => rfl
    | iri hnot | declared hnot | undeclared hnot => exact absurd hsays hnot
  | iri hnot hsays =>
    cases h' with
    | localized hlocalized => exact absurd hlocalized hnot
    | iri => rfl
    | declared _ hiri | undeclared _ hiri => exact absurd hsays hiri
  | declared hnot hiri hlast =>
    cases h' with
    | localized hlocalized => exact absurd hlocalized hnot
    | iri _ hsays => exact absurd hsays hiri
    | declared _ _ hlast' => exact hlast.unique hlast'
    | undeclared _ _ hnone => exact absurd hlast (hnone _ _)
  | undeclared hnot hiri hnone =>
    cases h' with
    | localized hlocalized => exact absurd hlocalized hnot
    | iri _ hsays => exact absurd hsays hiri
    | declared _ _ hlast => exact absurd hlast (hnone _ _)
    | undeclared => rfl

/-- **Resolution.** Under a rules file, a predicate has the kind that the last
    line about it and the defaults of the two kinds `localized` and `iri` give
    it, and it has several values exactly when that last line says so. -/
theorem resolve_ofText_eq_iff (content predicate : Text) (kind : Kind) :
    ((ofText content).resolve predicate = kind ↔ Resolves (directives content) predicate kind) ∧
      ((ofText content).isMany predicate = true ↔
        ∃ kind modifiers, LastDeclares (directives content) predicate kind modifiers ∧
          "many".toList ∈ modifiers) := by
  refine ⟨?_, isMany_applyAll (directives content) predicate⟩
  have hresolves := resolves_resolve (directives content) predicate
  constructor
  · rintro rfl
    exact hresolves
  · intro h
    exact hresolves.unique h

end TypedTriples.Ruleset
