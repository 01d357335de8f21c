import Mathlib
import TypedTriples.Enhance
import TypedTriples.Proofs.Calendar.Canonical
import TypedTriples.Proofs.Literal.Reader
import TypedTriples.Proofs.Ruleset.WellFormed

/-!
# Objects are literals

The object of a statement is a literal for every kind but resources. Its shape
depends on the kind alone, and a reader of literals gets back the value that
the kind gives to the record, whatever stands behind the statement.

Main definitions:
* `Ruleset.WrittenAs`: the lexical form and the mark of the values of a
  kind.

Main results:
* `isLanguageTag_ofText`: the language of a rules file is a language tag.
* `term_eq_ok`: a term of a kind with literals, by its lexical form and its
  mark.
* `enhance_object_read?`: the object of a statement is one literal and is read
  back.
-/

namespace TypedTriples

/-! ## Specification -/

/-- The lexical form and the mark of a value, by its kind. A resource has
    none, and a kind of moments or days has none for a value that is no
    timestamp. -/
inductive Ruleset.WrittenAs (rules : Ruleset) (value : Text) :
    Kind → Text → Literal.Mark → Prop
  | string : WrittenAs rules value .string value .none
  | anyUri : WrittenAs rules value .anyUri value .none
  | number : WrittenAs rules value .number value .none
  | unknown : WrittenAs rules value .unknown value .none
  | localized : WrittenAs rules value .localized value (.language rules.language)
  | integer : WrittenAs rules value .integer (Number.integerText value)
      (.datatype (Kind.schema ++ "integer".toList))
  | float : WrittenAs rules value .float (Number.floatText value)
      (.datatype (Kind.schema ++ "float".toList))
  | true (h : value = "true".toList) : WrittenAs rules value .boolean "true".toList
      (.datatype (Kind.schema ++ "boolean".toList))
  | false (h : value ≠ "true".toList) : WrittenAs rules value .boolean "false".toList
      (.datatype (Kind.schema ++ "boolean".toList))
  | dateTime {lexical : Text} (h : Timestamp.normalize value = .ok lexical) :
      WrittenAs rules value .dateTime lexical
        (.datatype (Kind.schema ++ "dateTime".toList))
  | date {lexical : Text} (h : Timestamp.normalizeDate value = .ok lexical) :
      WrittenAs rules value .date lexical
        (.datatype (Kind.schema ++ "date".toList))

namespace Ruleset

/-! ## The language of a rules file -/

theorem isLanguageTag_ofText (content : Text) :
    Directive.IsLanguageTag (ofText content).language :=
  (wellFormed_applyAll_directives content).language

/-! ## Terms -/

theorem typed_eq {kind : Kind} {iri : Text} (h : kind.datatype = iri) (value : Text) :
    Literal.typed kind value = Literal.plain value ++ (Literal.Mark.datatype iri).text := by
  simp [Literal.typed, Literal.Mark.text, h]

/-- A term of a kind with literals is its lexical form between quotes, and its
    mark. -/
theorem term_eq_ok {rules : Ruleset} {kind : Kind} {value object : Text} (hkind : kind ≠ .iri)
    (h : rules.term kind value = .ok object) :
    ∃ lexical mark, WrittenAs rules value kind lexical mark ∧
      object = Literal.plain lexical ++ mark.text := by
  cases kind with
  | iri => exact absurd rfl hkind
  | string | anyUri | number | unknown =>
    obtain rfl := Except.ok.inj h
    exact ⟨value, .none, by constructor, (List.append_nil _).symm⟩
  | localized =>
    obtain rfl := Except.ok.inj h
    exact ⟨_, _, .localized, rfl⟩
  | integer =>
    obtain rfl := Except.ok.inj h
    exact ⟨_, _, .integer, typed_eq rfl _⟩
  | float =>
    obtain rfl := Except.ok.inj h
    exact ⟨_, _, .float, typed_eq rfl _⟩
  | boolean =>
    obtain rfl := Except.ok.inj h
    by_cases htrue : value = "true".toList
    · rw [booleanText, beq_iff_eq.mpr htrue]
      exact ⟨_, _, .true htrue, typed_eq rfl _⟩
    · rw [booleanText, beq_eq_false_iff_ne.mpr htrue]
      exact ⟨_, _, .false htrue, typed_eq rfl _⟩
  | dateTime =>
    obtain ⟨lexical, hlexical, rfl⟩ := Timestamp.map_eq_ok_iff.mp h
    exact ⟨_, _, .dateTime hlexical, typed_eq rfl _⟩
  | date =>
    obtain ⟨lexical, hlexical, rfl⟩ := Timestamp.map_eq_ok_iff.mp h
    exact ⟨_, _, .date hlexical, typed_eq rfl _⟩

/-- A datatype of the vocabulary is an IRI if its name has no other characters. -/
theorem isWellFormed_datatype {name : Text} (h : ∀ c ∈ name, Literal.isIriChar c = true) :
    (Literal.Mark.datatype (Kind.schema ++ name)).IsWellFormed := by
  have hschema : ∀ c ∈ Kind.schema, Literal.isIriChar c = true := List.all_eq_true.mp (by cbv)
  intro c hc
  rcases List.mem_append.mp hc with hc | hc
  · exact hschema c hc
  · exact h c hc

theorem WrittenAs.isWellFormed {rules : Ruleset} {value lexical : Text} {kind : Kind}
    {mark : Literal.Mark} (hlanguage : Directive.IsLanguageTag rules.language)
    (h : WrittenAs rules value kind lexical mark) : mark.IsWellFormed := by
  cases h with
  | string | anyUri | number | unknown => trivial
  | localized => exact hlanguage
  | integer | float | true | false | dateTime | date =>
    exact isWellFormed_datatype (by simp [Literal.isIriChar, Directive.isReserved])

theorem enhance_eq_ok {rules : Ruleset} {record statement : Triple}
    (h : rules.enhance record = .ok statement) :
    rules.term (rules.resolve record.predicate) record.object = .ok statement.object := by
  unfold enhance at h
  split at h
  · rename_i object hterm
    rw [hterm, ← Except.ok.inj h]
  · cases h

theorem exists_enhance_of_term {rules : Ruleset} {record : Triple} {kind : Kind} {object : Text}
    (hkind : rules.resolve record.predicate = kind)
    (hterm : rules.term kind record.object = .ok object) :
    ∃ statement, rules.enhance record = .ok statement ∧ statement.object = object := by
  unfold enhance
  rw [hkind, hterm]
  exact ⟨_, rfl, rfl⟩

/-- **Objects are literals.** Every rules file has a language tag for its
    language. Under such a ruleset, the object of a statement whose predicate
    does not name resources is one literal: a quote, a body of raw characters
    and escapes, a quote, and the mark of its kind. A reader of the
    statement stops at the end of that literal and gets back its lexical form
    and its mark. -/
theorem enhance_object_read? :
    (∀ content, Directive.IsLanguageTag (ofText content).language) ∧
      ∀ (rules : Ruleset) (record statement : Triple),
        Directive.IsLanguageTag rules.language → rules.enhance record = .ok statement →
        rules.resolve record.predicate ≠ .iri →
        ∃ lexical mark body,
          WrittenAs rules record.object (rules.resolve record.predicate) lexical mark ∧
          statement.object = '"' :: body ++ '"' :: mark.text ∧ Literal.IsBody body ∧
          ∀ w, Literal.read? (statement.object ++ " .".toList ++ w) =
            some (lexical, mark, " .".toList ++ w) := by
  refine ⟨isLanguageTag_ofText, fun rules record statement hlanguage hok hkind => ?_⟩
  obtain ⟨lexical, mark, hwritten, hobject⟩ := term_eq_ok hkind (enhance_eq_ok hok)
  refine ⟨lexical, mark, Literal.escape lexical, hwritten, ?_, Literal.isBody_escape lexical,
    fun w => ?_⟩
  · rw [hobject]
    simp [Literal.plain]
  · rw [hobject, List.append_assoc _ " .".toList w]
    exact Literal.read?_append lexical (hwritten.isWellFormed hlanguage) _

/-- A value with a quote and a backslash at its end, in the language of a rules
    file. -/
theorem enhance_object_read?_localized :
    ∃ statement,
      (ofText "@language de-AT\na:b localized".toList).enhance
        ⟨"a:x".toList, "a:b".toList, "\"\\".toList⟩ = .ok statement ∧
      Literal.read? (statement.object ++ " .".toList ++ []) =
        some ("\"\\".toList, .language "de-AT".toList, " .".toList ++ []) := by
  have hok : (ofText "@language de-AT\na:b localized".toList).enhance
      ⟨"a:x".toList, "a:b".toList, "\"\\".toList⟩ =
        .ok ⟨"<a:x>".toList, "<a:b>".toList, "\"\\\"\\\\\"@de-AT".toList⟩ := by
    cbv
  have hkind : (ofText "@language de-AT\na:b localized".toList).resolve "a:b".toList =
      .localized := by
    cbv
  have hlanguage : (ofText "@language de-AT\na:b localized".toList).language = "de-AT".toList := by
    cbv
  obtain ⟨lexical, mark, body, hwritten, -, -, hread⟩ := enhance_object_read?.2 _ _ _
    (enhance_object_read?.1 _) hok (by rw [hkind]; decide)
  rw [hkind] at hwritten
  cases hwritten
  rw [hlanguage] at hread
  exact ⟨_, hok, hread []⟩

end Ruleset

end TypedTriples
