import Mathlib
import TypedTriples.Proofs.Ruleset.WellFormed

/-!
# Rulesets built step by step

A ruleset can be built by steps that act on its parts, or read from a rules file
that has a line for every step. Both give the same ruleset, whatever the steps
are, as long as their words can be written in a line at all.

Main definitions:
* `Ruleset.Edit`, `Edit.apply`: the steps and what they do.
* `Edit.line`: the line that spells a step.
* `Edit.IsExpressible`: the words of a step can be written.

Main results:
* `Edit.ofLine?_line`: the line of a step holds a directive with the same effect.
* `Ruleset.ofText_spelling`: a run of steps agrees with the text that spells it.
-/

namespace TypedTriples

/-! ## Specification -/

/-- A step in building a ruleset. -/
inductive Ruleset.Edit where
  /-- Another language. -/
  | setLanguage (tag : Text)
  /-- One more namespace, after all others. -/
  | pushNamespace (entry : Namespace)
  /-- A rule under its own compact name. -/
  | insertRule (rule : PredicateRule)
  /-- One more default, after all others. -/
  | pushDefault (rule : DefaultRule)
  deriving DecidableEq

namespace Ruleset

namespace Edit

/-- The ruleset after a step. -/
def apply (rules : Ruleset) : Edit → Ruleset
  | setLanguage tag => { rules with language := tag }
  | pushNamespace entry => { rules with prefixes := rules.prefixes.push entry }
  | insertRule rule => { rules with predicates := rules.predicates.insert rule.curie rule }
  | pushDefault rule => { rules with defaults := rules.defaults ++ [rule] }

/-- The modifiers that spell the two flags of a rule. -/
def modifiers (rule : PredicateRule) : List Text :=
  (if rule.lang then ["lang".toList] else []) ++ if rule.many then ["many".toList] else []

/-- The words that spell a step. A namespace is written in angle brackets, so
    that brackets of its own are kept and it may be empty. -/
def words : Edit → List Text
  | setLanguage tag => ["@language".toList, tag]
  | pushNamespace entry => ["@prefix".toList, entry.name, '<' :: entry.iri ++ ['>']]
  | insertRule rule => rule.curie :: rule.kind.token :: modifiers rule
  | pushDefault rule => ["@default".toList, rule.kind.token, rule.pattern.source]

/-- The line that spells a step: its words with a space between them. -/
def line (edit : Edit) : Text := List.intercalate [' '] edit.words

open Directive in
/-- The words of a step can be written in a line. -/
def IsExpressible : Edit → Prop
  | setLanguage tag => IsLanguageTag tag
  | pushNamespace entry => IsRun isNameChar entry.name ∧ IsUnbroken entry.iri
  | insertRule rule => IsCurie rule.curie ∧ rule.kind ≠ .unknown
  | pushDefault rule =>
    rule.kind ≠ .unknown ∧ rule.pattern.source ≠ [] ∧ IsUnbroken rule.pattern.source

end Edit

/-- The ruleset that steps build, from the empty one. -/
def build (edits : List Edit) : Ruleset := edits.foldl Edit.apply empty

/-- The text that spells steps, a line for each with the given end. -/
def spelling (lineEnd : Text) (edits : List Edit) : Text :=
  edits.flatMap fun edit => edit.line ++ lineEnd

end Ruleset

/-! ## Words without breaks -/

namespace Directive

theorem isUnbroken_append {t u : Text} : IsUnbroken (t ++ u) ↔ IsUnbroken t ∧ IsUnbroken u :=
  List.forall_mem_append

theorem isUnbroken_cons {c : Char} {t : Text} :
    IsUnbroken (c :: t) ↔ (c ≠ ' ' ∧ c ≠ '\t' ∧ c ≠ '\n' ∧ c ≠ '\r') ∧ IsUnbroken t :=
  List.forall_mem_cons

theorem isUnbroken_of_forall {p : Char → Bool} {t : Text} (ht : ∀ c ∈ t, p c = true)
    (hp : [' ', '\t', '\n', '\r'].any p = false) : IsUnbroken t := by
  intro c hc
  have hne : ∀ d ∈ [' ', '\t', '\n', '\r'], c ≠ d := by
    rintro d hd rfl
    exact List.any_eq_false.mp hp c hd (ht c hc)
  exact ⟨hne _ (by simp), hne _ (by simp), hne _ (by simp), hne _ (by simp)⟩

theorem isWord_of_isUnbroken {t : Text} (hne : t ≠ []) (h : IsUnbroken t) : IsWord t := by
  refine ⟨hne, fun c hc => ?_⟩
  obtain ⟨hspace, htab, -, -⟩ := h c hc
  simp [isGap, hspace, htab]

theorem IsRun.isUnbroken_name {name : Text} (h : IsRun isNameChar name) : IsUnbroken name :=
  isUnbroken_of_forall h.2 (by decide)

theorem IsCurie.isUnbroken {t : Text} (h : IsCurie t) : IsUnbroken t := by
  obtain ⟨name, suffix, rfl, hname, hsuffix⟩ := h
  have hsuffix' : IsUnbroken suffix := isUnbroken_of_forall hsuffix.2 (by decide)
  exact isUnbroken_append.mpr
    ⟨hname.isUnbroken_name, isUnbroken_cons.mpr ⟨by decide, hsuffix'⟩⟩

theorem IsLanguageTag.isUnbroken {t : Text} (h : IsLanguageTag t) : IsUnbroken t := by
  obtain ⟨letters, groups, rfl, hletters, hall⟩ := h
  refine isUnbroken_append.mpr ⟨isUnbroken_of_forall hletters.2 (by decide), fun c hc => ?_⟩
  obtain ⟨group, hgroup, hc⟩ := List.mem_flatMap.mp hc
  have hgroup' : IsUnbroken group := isUnbroken_of_forall (hall group hgroup).2 (by decide)
  exact isUnbroken_cons.mpr ⟨by decide, hgroup'⟩ c hc

/-- Words with spaces between them are the words of a line. -/
theorem words_intercalate {list : List Text} (h : ∀ word ∈ list, IsWord word) :
    words (List.intercalate [' '] list) = list := by
  induction list with
  | nil => exact words_nil
  | cons word rest ih =>
    have hword : IsWord word := h word List.mem_cons_self
    cases rest with
    | nil => simpa using words_of_isWord hword
    | cons next rest =>
      have hrest := ih fun other hother => h other (List.mem_cons_of_mem word hother)
      have hgap : isGap ' ' = true := by decide
      rw [List.intercalate_cons_cons, List.append_assoc, List.singleton_append,
        words_append hword (ends_cons.mpr hgap), words_cons_gap hgap, hrest]

/-- A line of unbroken words has no line end in it. -/
theorem isLineEnd_intercalate {list : List Text} (h : ∀ word ∈ list, IsUnbroken word) :
    ∀ c ∈ List.intercalate [' '] list, Ruleset.isLineEnd c = false := by
  have hblank : ∀ c ∈ [' '], Ruleset.isLineEnd c = false := by simp [Ruleset.isLineEnd]
  refine forall_mem_intercalate hblank fun word hword c hc => ?_
  obtain ⟨-, -, hlf, hcr⟩ := h word hword c hc
  simp [Ruleset.isLineEnd, hlf, hcr]

end Directive

/-! ## One step -/

theorem Kind.mem_keywords_token {kind : Kind} (h : kind ≠ .unknown) :
    (kind.token, kind) ∈ Kind.keywords := by
  cases kind with
  | unknown => exact absurd rfl h
  | string | localized | integer | number | float | boolean | dateTime | date | anyUri | iri =>
    decide

theorem Pattern.ofSource?_source (pattern : Pattern) :
    Pattern.ofSource? pattern.source = some pattern := by
  rw [ofSource?, dif_pos pattern.size_le]

namespace Ruleset.Edit

/-- The directive that a step is written as. -/
def directive : Edit → Directive
  | setLanguage tag => .language (some tag)
  | pushNamespace entry => .addNamespace entry
  | insertRule rule => .addPredicate rule.curie rule.kind (modifiers rule)
  | pushDefault rule => .addDefault rule.kind rule.pattern.source

theorem ruleOf_modifiers (rule : PredicateRule) :
    Directive.ruleOf rule.curie rule.kind (modifiers rule) = rule := by
  obtain ⟨curie, kind, lang, many⟩ := rule
  cases lang <;> cases many <;> rfl

theorem apply_directive (edit : Edit) (rules : Ruleset) :
    edit.directive.apply rules = edit.apply rules := by
  cases edit with
  | setLanguage tag => rfl
  | pushNamespace entry => rfl
  | insertRule rule => rw [directive, Directive.apply, ruleOf_modifiers, apply]
  | pushDefault rule => rw [directive, Directive.apply, Pattern.ofSource?_source, apply]

theorem isUnbroken_token {kind : Kind} (h : kind ≠ .unknown) :
    kind.token ≠ [] ∧ IsUnbroken kind.token := by
  have hmem := Kind.mem_keywords_token h
  have hall : ∀ entry ∈ Kind.keywords, IsUnbroken entry.1 := by
    simp [Kind.keywords, IsUnbroken]
  exact ⟨(Directive.isWord_keyword hmem).1, hall _ hmem⟩

theorem isUnbroken_modifiers (rule : PredicateRule) :
    ∀ word ∈ modifiers rule, word ≠ [] ∧ IsUnbroken word := by
  unfold modifiers
  cases rule.lang <;> cases rule.many <;> simp [IsUnbroken]

theorem isUnbroken_start : ∀ word ∈ ["@language".toList, "@prefix".toList, "@default".toList],
    word ≠ [] ∧ IsUnbroken word := by
  simp [IsUnbroken]

/-- The words of a step are words of a line, and no line end stands in them. -/
theorem IsExpressible.isUnbroken {edit : Edit} (h : edit.IsExpressible) :
    ∀ word ∈ edit.words, word ≠ [] ∧ IsUnbroken word := by
  intro word hword
  cases edit with
  | setLanguage tag =>
    have htag : Directive.IsLanguageTag tag := h
    rcases List.mem_pair.mp hword with rfl | rfl
    · exact isUnbroken_start _ (by simp)
    · exact ⟨htag.isWord.1, htag.isUnbroken⟩
  | pushNamespace entry =>
    obtain ⟨hname, hiri⟩ := h
    simp only [words, List.mem_cons, List.not_mem_nil, or_false] at hword
    rcases hword with rfl | rfl | rfl
    · exact isUnbroken_start _ (by simp)
    · exact ⟨hname.1, hname.isUnbroken_name⟩
    · refine ⟨by simp, ?_⟩
      exact Directive.isUnbroken_append.mpr ⟨Directive.isUnbroken_cons.mpr ⟨by decide, hiri⟩,
        Directive.isUnbroken_cons.mpr ⟨by decide, by simp [IsUnbroken]⟩⟩
  | insertRule rule =>
    obtain ⟨hcurie, hkind⟩ := h
    simp only [words, List.mem_cons] at hword
    rcases hword with rfl | rfl | hmodifier
    · exact ⟨hcurie.isWord.1, hcurie.isUnbroken⟩
    · exact isUnbroken_token hkind
    · exact isUnbroken_modifiers rule word hmodifier
  | pushDefault rule =>
    obtain ⟨hkind, hne, hsource⟩ := h
    simp only [words, List.mem_cons, List.not_mem_nil, or_false] at hword
    rcases hword with rfl | rfl | rfl
    · exact isUnbroken_start _ (by simp)
    · exact isUnbroken_token hkind
    · exact ⟨hne, hsource⟩

theorem IsExpressible.spells {edit : Edit} (h : edit.IsExpressible) :
    Directive.Spells edit.words edit.directive := by
  cases edit with
  | setLanguage tag => exact .language h
  | pushNamespace entry =>
    have hbare : Directive.unbracket ('<' :: entry.iri ++ ['>']) = entry.iri :=
      Directive.unbracket_eq_iff.mpr (Or.inl rfl)
    have hspells : Directive.Spells ["@prefix".toList, entry.name, '<' :: entry.iri ++ ['>']]
        (.addNamespace ⟨entry.name, Directive.unbracket ('<' :: entry.iri ++ ['>'])⟩) :=
      .addNamespace h.1 (Or.inl rfl)
    rw [hbare] at hspells
    exact hspells
  | insertRule rule => exact .addPredicate (modifiers rule) h.1 (Kind.mem_keywords_token h.2)
  | pushDefault rule => exact .addDefault (Kind.mem_keywords_token h.1)

/-- **The line of a step** holds the directive of the step. -/
theorem ofLine?_line {edit : Edit} (h : edit.IsExpressible) :
    Directive.ofLine? edit.line = some edit.directive := by
  have hwords : Directive.words edit.line = edit.words :=
    Directive.words_intercalate fun word hword =>
      Directive.isWord_of_isUnbroken (h.isUnbroken word hword).1 (h.isUnbroken word hword).2
  rw [Directive.ofLine?_eq_some_iff, hwords]
  exact h.spells

theorem isLineEnd_line {edit : Edit} (h : edit.IsExpressible) :
    ∀ c ∈ edit.line, isLineEnd c = false :=
  Directive.isLineEnd_intercalate fun word hword => (h.isUnbroken word hword).2

end Ruleset.Edit

/-! ## A run of steps -/

namespace Ruleset

theorem directives_of_line {line : Text} (h : ∀ c ∈ line, isLineEnd c = false) :
    directives line = (Directive.ofLine? line).toList := by
  rw [directives, lines, List.splitOnP_eq_singleton h, List.filterMap_cons]
  cases Directive.ofLine? line <;> rfl

theorem directives_spelling {lineEnd : Text} (hend : Directive.IsRun isLineEnd lineEnd)
    {edits : List Edit} (h : ∀ edit ∈ edits, edit.IsExpressible) :
    directives (spelling lineEnd edits) = edits.map Edit.directive := by
  induction edits with
  | nil => exact directives_nil
  | cons edit edits ih =>
    have hedit : edit.IsExpressible := h edit List.mem_cons_self
    have hrest := ih fun other hother => h other (List.mem_cons_of_mem edit hother)
    rw [spelling, List.flatMap_cons, ← spelling, directives_append hend, hrest,
      directives_of_line (Edit.isLineEnd_line hedit), Edit.ofLine?_line hedit]
    rfl

/-- The lines with ends between them, and one more end, are the spelling. -/
theorem intercalate_append_lineEnd (lineEnd : Text) {edits : List Edit} (hne : edits ≠ []) :
    List.intercalate lineEnd (edits.map Edit.line) ++ lineEnd = spelling lineEnd edits := by
  induction edits with
  | nil => exact absurd rfl hne
  | cons edit edits ih =>
    cases edits with
    | nil => simp [spelling]
    | cons next rest =>
      have hrest := ih (by simp)
      rw [List.map_cons] at hrest
      rw [List.map_cons, List.map_cons, List.intercalate_cons_cons, List.append_assoc, hrest]
      rfl

/-- The end of the last line may be left out. -/
theorem directives_intercalate {lineEnd : Text} (hend : Directive.IsRun isLineEnd lineEnd)
    {edits : List Edit} (h : ∀ edit ∈ edits, edit.IsExpressible) :
    directives (List.intercalate lineEnd (edits.map Edit.line)) = edits.map Edit.directive := by
  by_cases hne : edits = []
  · rw [hne]
    exact directives_nil
  · have happend := directives_append hend (List.intercalate lineEnd (edits.map Edit.line)) []
    rw [directives_nil, List.append_nil, List.append_nil,
      intercalate_append_lineEnd lineEnd hne] at happend
    rw [← happend, directives_spelling hend h]

/-- Steps and their directives build the same ruleset: each step does what its
    directive does. -/
theorem applyAll_map_directive (edits : List Edit) (rules : Ruleset) :
    rules.applyAll (edits.map Edit.directive) = edits.foldl Edit.apply rules := by
  induction edits generalizing rules with
  | nil => rfl
  | cons edit edits ih =>
    show (edit.directive.apply rules).applyAll (edits.map Edit.directive) = _
    rw [ih, Edit.apply_directive, List.foldl_cons]

/-- **Building agrees with writing.** Steps whose words can be written build the
    ruleset of the text that spells them line by line, with whatever line ends
    and with or without one at the end of the text. -/
theorem ofText_spelling {edits : List Edit} (h : ∀ edit ∈ edits, edit.IsExpressible)
    {lineEnd : Text} (hend : lineEnd ∈ lineEnds) :
    ofText (spelling lineEnd edits) = build edits ∧
      ofText (List.intercalate lineEnd (edits.map Edit.line)) = build edits := by
  have hrun : Directive.IsRun isLineEnd lineEnd := isRun_of_mem_lineEnds hend
  constructor
  · rw [ofText, directives_spelling hrun h, applyAll_map_directive, build]
  · rw [ofText, directives_intercalate hrun h, applyAll_map_directive, build]

/-- A namespace in brackets of its own, a predicate with colons in its suffix that
    is declared twice, and a pattern of stars only. -/
theorem ofText_spelling_redeclared :
    (∀ edit ∈ [Edit.pushNamespace ⟨"a".toList, "<b>".toList⟩,
        .insertRule ⟨"a:x:".toList, .string, true, true⟩,
        .insertRule ⟨"a:y".toList, .iri, false, false⟩,
        .insertRule ⟨"a:x:".toList, .date, false, true⟩,
        .pushDefault ⟨.localized, ⟨"***".toList, by decide⟩⟩], edit.IsExpressible) ∧
      ['\r', '\n'] ∈ lineEnds ∧
      ofText ("@prefix a <<b>>\r\na:x: string lang many\r\na:y iri\r\na:x: date many\r\n".toList ++
          "@default localized ***\r\n".toList) =
        { language := "en".toList
          prefixes := ⟨[⟨"a".toList, "<b>".toList⟩]⟩
          predicates := ⟨[("a:x:".toList, ⟨"a:x:".toList, .date, false, true⟩),
            ("a:y".toList, ⟨"a:y".toList, .iri, false, false⟩)]⟩
          defaults := [⟨.localized, ⟨"***".toList, by decide⟩⟩] } := by
  have hedits : ∀ edit ∈ [Edit.pushNamespace ⟨"a".toList, "<b>".toList⟩,
      .insertRule ⟨"a:x:".toList, .string, true, true⟩,
      .insertRule ⟨"a:y".toList, .iri, false, false⟩,
      .insertRule ⟨"a:x:".toList, .date, false, true⟩,
      .pushDefault ⟨.localized, ⟨"***".toList, by decide⟩⟩], edit.IsExpressible := by
    simp only [List.mem_cons, List.not_mem_nil, or_false, forall_eq_or_imp, forall_eq]
    refine ⟨⟨⟨by simp, by simp; decide⟩, by simp [IsUnbroken]⟩, ⟨?_, by simp⟩, ⟨?_, by simp⟩,
      ⟨?_, by simp⟩, by simp, by simp, by simp [IsUnbroken]⟩
    · exact Directive.isCurie_iff.mpr (by cbv)
    · exact Directive.isCurie_iff.mpr (by cbv)
    · exact Directive.isCurie_iff.mpr (by cbv)
  have hend : ['\r', '\n'] ∈ lineEnds := by decide
  exact ⟨hedits, hend, (ofText_spelling hedits hend).1⟩

end Ruleset

end TypedTriples
