import Mathlib
import TypedTriples.Command.Run
import TypedTriples.Proofs.Json.Pretty
import TypedTriples.Proofs.Ruleset.Spelling

/-!
# The document of a ruleset is faithful

The document that is printed for a ruleset can be read back, entry by entry: the
language, the namespaces in order, the rules of predicates in the order in which they
came, and the defaults in order, with each kind by its token. So two rules files have
one document exactly if they give one ruleset.

Main definitions:
* `Ruleset.ofDump?`: the ruleset of a document.

Main results:
* `Ruleset.ofDump?_dump`: a ruleset from its own document.
* `Ruleset.spells_dump`: what is printed spells the document.
* `Ruleset.read_inspect_json`: a ruleset from what is printed.
-/

namespace TypedTriples

/-! ## Specification -/

/-- The rule of a predicate in a document. -/
def PredicateRule.ofDump? (value : Json) : Option PredicateRule := do
  let members ← value.members?
  let curie ← (Json.only? "curie".toList members).bind Json.text?
  let kind ← (Json.only? "kind".toList members).bind Json.text?
  let lang ← (Json.only? "lang".toList members).bind Json.bool?
  let many ← (Json.only? "many".toList members).bind Json.bool?
  return ⟨curie, Kind.ofToken kind, lang, many⟩

/-- The rule of a pattern in a document. -/
def DefaultRule.ofDump? (value : Json) : Option DefaultRule := do
  let members ← value.members?
  let kind ← (Json.only? "kind".toList members).bind Json.text?
  let source ← (Json.only? "pattern".toList members).bind Json.text?
  let pattern ← Pattern.ofSource? source
  return ⟨Kind.ofToken kind, pattern⟩

/-- The ruleset of a document, with the rule of each predicate under its compact name. -/
def Ruleset.ofDump? (value : Json) : Option Ruleset := do
  let members ← value.members?
  let language ← (Json.only? "language".toList members).bind Json.text?
  let prefixes ← (Json.only? "prefixes".toList members).bind PrefixTable.ofJson?
  let predicates ← (Json.only? "predicates".toList members).bind Json.items?
  let defaults ← (Json.only? "defaults".toList members).bind Json.items?
  let rules ← predicates.mapM PredicateRule.ofDump?
  return {
    language := language
    prefixes := prefixes
    predicates := ⟨rules.map fun rule => (rule.curie, rule)⟩
    defaults := ← defaults.mapM DefaultRule.ofDump? }

/-! ## Entries -/

theorem Kind.ofToken_token (kind : Kind) : ofToken kind.token = kind := by
  cases kind <;> rfl

theorem mapM_map_eq_some {α : Type} {write : α → Json} {read? : Json → Option α}
    (h : ∀ entry, read? (write entry) = some entry) (entries : List α) :
    (entries.map write).mapM read? = some entries := by
  induction entries with
  | nil => rfl
  | cons entry entries ih => simp [h, ih]

theorem PredicateRule.ofDump?_dump (rule : PredicateRule) : ofDump? rule.dump = some rule := by
  have hread : ofDump? rule.dump =
      some ⟨rule.curie, Kind.ofToken rule.kind.token, rule.lang, rule.many⟩ := rfl
  rw [hread, Kind.ofToken_token]

theorem DefaultRule.ofDump?_dump (rule : DefaultRule) : ofDump? rule.dump = some rule := by
  have hread : ofDump? rule.dump = (Pattern.ofSource? rule.pattern.source).bind fun pattern =>
      some ⟨Kind.ofToken rule.kind.token, pattern⟩ := rfl
  rw [hread, Pattern.ofSource?_source, Option.bind_some, Kind.ofToken_token]

theorem Namespace.ofJson?_dump (entry : Namespace) : ofJson? entry.dump = some entry := rfl

theorem PrefixTable.ofJson?_dump (table : PrefixTable) : ofJson? table.dump = some table := by
  have hread : ofJson? table.dump =
      ((table.entries.map Namespace.dump).mapM Namespace.ofJson?).bind fun entries =>
        some ⟨entries⟩ := rfl
  rw [hread, mapM_map_eq_some Namespace.ofJson?_dump, Option.bind_some]

namespace Ruleset

/-- Rules that stand under their own compact names need no other keys. -/
theorem map_values_eq_entries {rules : Ruleset} (h : rules.WellFormed) :
    rules.predicates.values.map (fun rule => (rule.curie, rule)) = rules.predicates.entries := by
  have hentry : ∀ entry ∈ rules.predicates.entries, (entry.2.curie, entry.2) = id entry :=
    fun entry hmem => Prod.ext (h.key_eq entry hmem).symm rfl
  unfold OrderedMap.values
  rw [List.map_map]
  exact (List.map_congr_left hentry).trans (List.map_id _)

/-- **A well-formed ruleset is that of its own document.** -/
theorem ofDump?_dump {rules : Ruleset} (h : rules.WellFormed) :
    ofDump? rules.dump = some rules := by
  have hread : ofDump? rules.dump =
      (PrefixTable.ofJson? rules.prefixes.dump).bind fun prefixes =>
        ((rules.predicates.values.map PredicateRule.dump).mapM PredicateRule.ofDump?).bind
          fun predicates =>
            ((rules.defaults.map DefaultRule.dump).mapM DefaultRule.ofDump?).bind fun defaults =>
              some ⟨rules.language, prefixes, ⟨predicates.map fun rule => (rule.curie, rule)⟩,
                defaults⟩ := rfl
  rw [hread, PrefixTable.ofJson?_dump, mapM_map_eq_some PredicateRule.ofDump?_dump,
    mapM_map_eq_some DefaultRule.ofDump?_dump]
  simp only [Option.bind_some]
  rw [map_values_eq_entries h]

end Ruleset

/-! ## What is printed -/

section Printed

open Json (Spells spells_prettyAt_ofText spells_prettyAt_bool)

variable (level : Nat)

theorem spells_prettyAt_ofMembers {members : List (String × Json)}
    (h : ∀ member ∈ members, Spells member.2 (member.2.prettyAt (level + 1))) :
    Spells (.ofMembers members) ((Json.ofMembers members).prettyAt level) := by
  refine Json.spells_prettyAt_object level fun member hmember => ?_
  obtain ⟨⟨name, value⟩, hvalue, rfl⟩ := List.mem_map.mp hmember
  exact h _ hvalue

theorem spells_prettyAt_map {α : Type} {write : α → Json}
    (h : ∀ entry, Spells (write entry) ((write entry).prettyAt (level + 1))) (entries : List α) :
    Spells (.array (entries.map write)) ((Json.array (entries.map write)).prettyAt level) := by
  refine Json.spells_prettyAt_array level fun item hitem => ?_
  obtain ⟨entry, -, rfl⟩ := List.mem_map.mp hitem
  exact h entry

theorem Namespace.spells_dump (entry : Namespace) :
    Spells entry.dump (entry.dump.prettyAt level) := by
  refine spells_prettyAt_ofMembers level ?_
  simp [spells_prettyAt_ofText]

theorem PrefixTable.spells_dump (table : PrefixTable) :
    Spells table.dump (table.dump.prettyAt level) := by
  refine spells_prettyAt_ofMembers level ?_
  simp [spells_prettyAt_map, Namespace.spells_dump]

theorem PredicateRule.spells_dump (rule : PredicateRule) :
    Spells rule.dump (rule.dump.prettyAt level) := by
  refine spells_prettyAt_ofMembers level ?_
  simp [spells_prettyAt_ofText, spells_prettyAt_bool]

theorem DefaultRule.spells_dump (rule : DefaultRule) :
    Spells rule.dump (rule.dump.prettyAt level) := by
  refine spells_prettyAt_ofMembers level ?_
  simp [spells_prettyAt_ofText]

theorem Ruleset.spells_dump (rules : Ruleset) :
    Spells rules.dump (rules.dump.prettyAt level) := by
  refine spells_prettyAt_ofMembers level ?_
  simp [spells_prettyAt_ofText, spells_prettyAt_map, PrefixTable.spells_dump,
    PredicateRule.spells_dump, DefaultRule.spells_dump]

end Printed

namespace Ruleset

/-- **The printed document of a rules file is faithful.** It is read as JSON, and gives
    back the ruleset: language, namespaces, rules of predicates and defaults, each in
    order. So the printed documents of two rules files are equal exactly if their
    rulesets are, with the order of the predicates. -/
theorem read_inspect_json (content : Text) (world : World) :
    Json.read? ((ofText content).run .inspect .json world).output = some (ofText content).dump ∧
      ofDump? (ofText content).dump = some (ofText content) ∧
      ∀ other otherWorld,
        ((ofText content).run .inspect .json world).output =
          ((ofText other).run .inspect .json otherWorld).output ↔
        ofText content = ofText other := by
  have hread (text : Text) (world : World) :
      Json.read? ((ofText text).run .inspect .json world).output = some (ofText text).dump :=
    Json.read?_pretty ((ofText text).spells_dump 0)
  have hback (text : Text) : ofDump? (ofText text).dump = some (ofText text) :=
    ofDump?_dump (wellFormed_applyAll_directives text)
  refine ⟨hread content world, hback content, fun other otherWorld => ⟨?_, ?_⟩⟩
  · intro hequal
    have hdump : (ofText content).dump = (ofText other).dump := by
      have hsame := hread content world
      rw [hequal, hread other otherWorld] at hsame
      exact (Option.some.inj hsame).symm
    have hsame := hback content
    rw [hdump, hback other] at hsame
    exact (Option.some.inj hsame).symm
  · intro hequal
    rw [hequal]
    rfl

end Ruleset

end TypedTriples
