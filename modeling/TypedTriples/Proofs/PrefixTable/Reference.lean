import Mathlib
import TypedTriples.Proofs.Literal.Enhanced
import TypedTriples.Proofs.PrefixTable.Inflation

/-!
# References to resources

A reference is an IRI between angle brackets. The suffix of a compact name has
none of the characters that may not stand in an IRI, so whether the name
becomes a reference is decided by the namespace of its prefix: the name of a
resource becomes one exactly when no such character stands in the namespace.

The lines of a rules file do not promise that. The brackets around a namespace
are taken off in pairs, so one with a single bracket keeps it, and any other
word is a namespace as it is.

Main definitions:
* `IsReference`: `<`, the characters of an IRI, `>`.
* `PrefixTable.HasIriFor`: the namespace of a name has only such characters.

Main results:
* `PrefixTable.isReference_inflate_iff`: when a compact name becomes a reference.
* `Ruleset.isReference_enhance_iff`: when the terms of a statement are references.
-/

namespace TypedTriples

open Literal (isIriChar)

/-! ## Specification -/

/-- A text of characters that may stand in an IRI. -/
def IsIriText (t : Text) : Prop := ∀ c ∈ t, isIriChar c = true

/-- A reference: an IRI between angle brackets. -/
def IsReference (t : Text) : Prop := ∃ body, t = '<' :: body ++ ['>'] ∧ IsIriText body

/-- The namespace of a name, if its prefix has one, may stand in an IRI. -/
def PrefixTable.HasIriFor (table : PrefixTable) (value : Text) : Prop :=
  ∀ entry ∈ table.get? (prefixOf value), IsIriText entry.iri

/-! ## The parts of a compact name -/

namespace Directive

theorem isIriChar_of_isSuffixChar {c : Char} (h : isSuffixChar c = true) : isIriChar c = true := by
  simp only [isSuffixChar, Bool.not_eq_true', Bool.or_eq_false_iff] at h
  obtain ⟨⟨hreserved, hwhite⟩, hcontrol⟩ := h
  have hne : c.toNat ≠ 0x20 := by
    intro heq
    simp [Text.isWhite, heq] at hwhite
  have hlow : ¬ c.toNat < 0x20 := by
    intro hlt
    simp [Text.isControl, hlt] at hcontrol
  have hlt : 0x20 < c.toNat := by omega
  simp [isIriChar, hreserved, hlt]

theorem isIriChar_of_isNameChar {c : Char} (h : isNameChar c = true) : isIriChar c = true := by
  have hlow : 45 ≤ c.toNat := (isNameChar_toNat h).1
  have hlt : 0x20 < c.toNat := by omega
  have hreserved : isReserved c = false := by
    by_contra hne
    have hall : ∀ d ∈ "<>\"\x7b\x7d|^`\\".toList, (!isNameChar d) = true :=
      List.all_eq_true.mp (by cbv)
    rw [Bool.not_eq_false] at hne
    have := hall c (List.contains_iff_mem.mp hne)
    rw [h] at this
    cases this
  simp [isIriChar, hreserved, hlt]

end Directive

/-! ## Inflated names -/

theorem isIriText_append {t u : Text} : IsIriText (t ++ u) ↔ IsIriText t ∧ IsIriText u :=
  List.forall_mem_append

theorem IsReference.getLast?_eq {t : Text} (h : IsReference t) : t.getLast? = some '>' := by
  obtain ⟨body, rfl, -⟩ := h
  exact List.getLast?_concat

/-- A text that ends in a suffix is made a reference exactly when the part
    before the suffix may stand in an IRI. For the converse: a text that already
    starts with a bracket is left alone, and a suffix does not end in one. -/
theorem isReference_bracket_iff {t suffix : Text}
    (hsuffix : Directive.IsRun Directive.isSuffixChar suffix) :
    IsReference (PrefixTable.bracket (t ++ suffix)) ↔ IsIriText t := by
  have hiri : IsIriText suffix := fun c hc => Directive.isIriChar_of_isSuffixChar (hsuffix.2 c hc)
  constructor
  · intro h
    by_cases hhead : (t ++ suffix).head? = some '<'
    · -- no bracket is added, so the last one would be the end of the suffix
      exfalso
      rw [PrefixTable.bracket_of_head?_eq hhead] at h
      have hlast : suffix.getLast? = some '>' := by
        rw [← List.getLast?_append_of_ne_nil t hsuffix.1]
        exact h.getLast?_eq
      have hclose : isIriChar '>' = true := hiri _ (List.mem_of_getLast? hlast)
      exact absurd hclose (by decide)
    · rw [PrefixTable.bracket_of_head?_ne hhead] at h
      obtain ⟨body, hbody, hall⟩ := h
      have heq : t ++ suffix = body := (List.cons.inj (List.append_cancel_right hbody)).2
      rw [← heq] at hall
      exact (isIriText_append.mp hall).1
  · intro ht
    have hall : IsIriText (t ++ suffix) := isIriText_append.mpr ⟨ht, hiri⟩
    have hhead : (t ++ suffix).head? ≠ some '<' := by
      intro hhead
      have : isIriChar '<' = true := hall _ (List.mem_of_mem_head? hhead)
      exact absurd this (by decide)
    exact ⟨t ++ suffix, PrefixTable.bracket_of_head?_ne hhead, hall⟩

namespace PrefixTable

/-- What stands before the suffix may stand in an IRI exactly when the namespace
    may: a prefix without a namespace is a name itself. -/
theorem isIriText_base_iff {table : PrefixTable} {name : Text}
    (hname : Directive.IsRun Directive.isNameChar name) :
    IsIriText (table.base name) ↔ ∀ entry ∈ table.get? name, IsIriText entry.iri := by
  unfold base
  cases table.get? name with
  | some entry => simp
  | none =>
    have hall : IsIriText (name ++ [':']) := by
      refine isIriText_append.mpr ⟨fun c hc => ?_, ?_⟩
      · exact Directive.isIriChar_of_isNameChar (hname.2 c hc)
      · intro c hc
        rw [List.mem_singleton.mp hc]
        decide
    simpa using hall

/-- **A compact name becomes a reference** exactly when the namespace of its
    prefix may stand in an IRI. -/
theorem isReference_inflate_iff {table : PrefixTable} {value : Text}
    (h : Directive.IsCurie value) : IsReference (table.inflate value) ↔ table.HasIriFor value := by
  obtain ⟨name, suffix, rfl, hname, hsuffix⟩ := h
  have hcolon : ':' ∉ name := Directive.colon_not_mem_of_isRun hname
  unfold inflate HasIriFor
  rw [expand_append hcolon, prefixOf_append hcolon, isReference_bracket_iff hsuffix,
    isIriText_base_iff hname]

theorem hasIriFor_of_forall {table : PrefixTable}
    (h : ∀ entry ∈ table.entries, IsIriText entry.iri) (value : Text) : table.HasIriFor value :=
  fun _ hentry => h _ (List.mem_of_find?_eq_some hentry)

end PrefixTable

/-! ## Statements -/

namespace Ruleset

theorem inflate_of_enhance {rules : Ruleset} {record statement : Triple}
    (h : rules.enhance record = .ok statement) :
    statement.subject = rules.prefixes.inflate record.subject ∧
      statement.predicate = rules.prefixes.inflate record.predicate := by
  unfold enhance at h
  split at h
  · rw [← Except.ok.inj h]
    exact ⟨rfl, rfl⟩
  · cases h

theorem inflate_object_of_enhance {rules : Ruleset} {record statement : Triple}
    (h : rules.enhance record = .ok statement) (hkind : rules.resolve record.predicate = .iri) :
    statement.object = rules.prefixes.inflate record.object := by
  have hterm := enhance_eq_ok h
  rw [hkind] at hterm
  exact (Except.ok.inj hterm).symm

/-- **The terms of a statement are references** exactly when the namespaces of
    their names may stand in IRIs. The names are compact: those of the subject
    and the predicate always, that of the object where the predicate names
    resources. -/
theorem isReference_enhance_iff (content : Text) (record statement : Triple)
    (hsubject : Directive.IsCurie record.subject)
    (hpredicate : Directive.IsCurie record.predicate)
    (hobject : (ofText content).resolve record.predicate = .iri → Directive.IsCurie record.object)
    (hok : (ofText content).enhance record = .ok statement) :
    (IsReference statement.subject ↔ (ofText content).prefixes.HasIriFor record.subject) ∧
      (IsReference statement.predicate ↔
        (ofText content).prefixes.HasIriFor record.predicate) ∧
      ((ofText content).resolve record.predicate = .iri →
        (IsReference statement.object ↔ (ofText content).prefixes.HasIriFor record.object)) := by
  obtain ⟨hs, hp⟩ := inflate_of_enhance hok
  refine ⟨?_, ?_, fun hkind => ?_⟩
  · rw [hs]
    exact PrefixTable.isReference_inflate_iff hsubject
  · rw [hp]
    exact PrefixTable.isReference_inflate_iff hpredicate
  · rw [inflate_object_of_enhance hok hkind]
    exact PrefixTable.isReference_inflate_iff (hobject hkind)

/-- A resource in all three places, under a namespace in angle brackets. -/
theorem isReference_enhance_iff_resource :
    ∃ statement,
      (ofText "@prefix ex: <http://e/>\nex:p iri".toList).enhance
        ⟨"ex:a".toList, "ex:p".toList, "ex:b".toList⟩ = .ok statement ∧
      IsReference statement.subject ∧ IsReference statement.predicate ∧
      IsReference statement.object := by
  have hsubject : Directive.IsCurie "ex:a".toList := Directive.isCurie_iff.mpr (by cbv)
  have hpredicate : Directive.IsCurie "ex:p".toList := Directive.isCurie_iff.mpr (by cbv)
  have hobject : Directive.IsCurie "ex:b".toList := Directive.isCurie_iff.mpr (by cbv)
  have hok : (ofText "@prefix ex: <http://e/>\nex:p iri".toList).enhance
      ⟨"ex:a".toList, "ex:p".toList, "ex:b".toList⟩ =
        .ok ⟨"<http://e/a>".toList, "<http://e/p>".toList, "<http://e/b>".toList⟩ := by
    cbv
  have hkind : (ofText "@prefix ex: <http://e/>\nex:p iri".toList).resolve "ex:p".toList =
      .iri := by
    cbv
  have hentries : (ofText "@prefix ex: <http://e/>\nex:p iri".toList).prefixes.entries =
      [⟨"ex".toList, "http://e/".toList⟩] := by
    cbv
  have hall : ∀ entry ∈ (ofText "@prefix ex: <http://e/>\nex:p iri".toList).prefixes.entries,
      IsIriText entry.iri := by
    intro entry hentry
    rw [hentries, List.mem_singleton] at hentry
    rw [hentry]
    exact List.all_eq_true.mp (by cbv)
  have hiri := PrefixTable.hasIriFor_of_forall hall
  obtain ⟨hs, hp, ho⟩ := isReference_enhance_iff _ _ _ hsubject hpredicate (fun _ => hobject) hok
  exact ⟨_, hok, hs.mpr (hiri _), hp.mpr (hiri _), (ho hkind).mpr (hiri _)⟩

/-- A namespace with a bracket on one side only keeps it, and the statement has
    terms that are no references. -/
theorem enhance_unclosed :
    Directive.IsCurie "ex:a".toList ∧ Directive.IsCurie "ex:p".toList ∧
      (ofText "@prefix ex <http://example.org/".toList).resolve "ex:p".toList ≠ .iri ∧
      (ofText "@prefix ex <http://example.org/".toList).enhance
          ⟨"ex:a".toList, "ex:p".toList, "v".toList⟩ =
        .ok ⟨"<http://example.org/a".toList, "<http://example.org/p".toList,
          "\"v\"".toList⟩ ∧
      ¬ IsReference "<http://example.org/a".toList ∧
      ¬ IsReference "<http://example.org/p".toList := by
  have hkind : (ofText "@prefix ex <http://example.org/".toList).resolve "ex:p".toList =
      .string := by
    cbv
  refine ⟨Directive.isCurie_iff.mpr (by cbv), Directive.isCurie_iff.mpr (by cbv), ?_, by cbv,
    ?_, ?_⟩
  · rw [hkind]
    decide
  · intro h
    exact absurd h.getLast?_eq (by decide)
  · intro h
    exact absurd h.getLast?_eq (by decide)

end Ruleset

end TypedTriples
