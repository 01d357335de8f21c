import Mathlib
import TypedTriples.Proofs.OrderedMap
import TypedTriples.Proofs.Ruleset.Line

/-!
# Rules files one after the other

The lines of a rules file act one by one on a ruleset, but what they come to
can be said for each part of the ruleset by itself: namespaces and defaults are
lists that grow, predicates a map into which rules are inserted, and the
language is that of the last line that sets one. So the rules of two texts
joined by line ends are those of the two, joined part by part, and neither
lines without a directive nor the choice of line ends matter.

Main definitions:
* `Ruleset.Joins`: the parts of a ruleset by those of two texts.
* `Ruleset.PassedOver`: a line that is blank or holds no directive.
* `Ruleset.EqUpToLineEnds`: two texts that differ in their line ends only.

Main results:
* `applyAll_eq`: what directives make of a ruleset, part by part.
* `directives_append`: the directives of two texts joined by line ends.
* `joins_ofText`: the ruleset of two texts, and what does not change it.
-/

namespace TypedTriples

/-! ## What a directive adds -/

namespace Directive

/-- The language that a directive sets. -/
def tag? : Directive → Option Text
  | language tag => tag
  | _ => none

/-- The namespaces that a directive adds. -/
def namespaces : Directive → List Namespace
  | addNamespace entry => [entry]
  | _ => []

/-- The rules that a directive inserts, with their keys. -/
def declarations : Directive → List (Text × PredicateRule)
  | addPredicate curie kind modifiers => [(curie, ruleOf curie kind modifiers)]
  | _ => []

/-- The rules by pattern that a directive adds: none where the pattern is too
    large. -/
def defaultRules : Directive → List DefaultRule
  | addDefault kind source => ((Pattern.ofSource? source).map fun pattern => ⟨kind, pattern⟩).toList
  | _ => []

theorem apply_eq (d : Directive) (rules : Ruleset) :
    d.apply rules =
      { language := d.tag?.getD rules.language
        prefixes := ⟨rules.prefixes.entries ++ d.namespaces⟩
        predicates := rules.predicates.insertAll d.declarations
        defaults := rules.defaults ++ d.defaultRules } := by
  cases d with
  | language tag => cases tag <;> simp [apply, tag?, namespaces, declarations, defaultRules]
  | addNamespace entry =>
    simp [apply, tag?, namespaces, declarations, defaultRules, PrefixTable.push]
  | addPredicate curie kind modifiers =>
    simp [apply, tag?, namespaces, declarations, defaultRules]
  | addDefault kind source =>
    rw [apply]
    cases hsource : Pattern.ofSource? source with
    | none => simp [tag?, namespaces, declarations, defaultRules, hsource]
    | some pattern => simp [tag?, namespaces, declarations, defaultRules, hsource]

end Directive

namespace Ruleset

/-- What directives make of a ruleset: two lists that grow, a map with more
    entries, and the last language. -/
theorem applyAll_eq (rules : Ruleset) (ds : List Directive) :
    rules.applyAll ds =
      { language := (ds.filterMap Directive.tag?).getLast?.getD rules.language
        prefixes := ⟨rules.prefixes.entries ++ ds.flatMap Directive.namespaces⟩
        predicates := rules.predicates.insertAll (ds.flatMap Directive.declarations)
        defaults := rules.defaults ++ ds.flatMap Directive.defaultRules } := by
  induction ds generalizing rules with
  | nil => simp [applyAll]
  | cons d ds ih =>
    have hlanguage : (ds.filterMap Directive.tag?).getLast?.getD (d.tag?.getD rules.language) =
        ((d :: ds).filterMap Directive.tag?).getLast?.getD rules.language := by
      cases htag : d.tag? with
      | none => rw [List.filterMap_cons_none htag, Option.getD_none]
      | some tag => rw [List.filterMap_cons_some htag, List.getLast?_cons]; rfl
    show (d.apply rules).applyAll ds = _
    rw [ih, Directive.apply_eq]
    simp only [hlanguage, List.flatMap_cons, List.append_assoc, OrderedMap.insertAll_append]

end Ruleset

/-! ## Blank lines -/

namespace Directive

theorem isWhite_of_isNameChar {c : Char} (h : isNameChar c = true) : Text.isWhite c = false := by
  have hrange := isNameChar_toNat h
  unfold Text.isWhite
  simp only [Bool.or_eq_false_iff, Bool.and_eq_false_iff, decide_eq_false_iff_not,
    beq_eq_false_iff_ne]
  omega

/-- What spells a directive starts with a word that is not of white space. -/
theorem Spells.exists_not_isWhite {list : List Text} {d : Directive} (h : Spells list d) :
    ∃ word ∈ list, ∃ c ∈ word, Text.isWhite c = false := by
  cases h with
  | bareLanguage | language | addNamespace | addDefault =>
    exact ⟨_, List.mem_cons_self, '@', by simp, by decide⟩
  | addPredicate others hcurie hkind =>
    obtain ⟨name, suffix, rfl, ⟨hne, hname⟩, -⟩ := hcurie
    obtain ⟨c, hc⟩ := List.exists_mem_of_ne_nil name hne
    exact ⟨_, List.mem_cons_self, c, by simp [hc], isWhite_of_isNameChar (hname c hc)⟩

theorem ofLine?_of_isBlank {line : Text} (h : line.isBlank = true) : ofLine? line = none := by
  rw [Option.eq_none_iff_forall_ne_some]
  intro d hd
  obtain ⟨word, hword, c, hc, hwhite⟩ := (ofLine?_eq_some_iff.mp hd).exists_not_isWhite
  have hblank : Text.isWhite c = true :=
    List.all_eq_true.mp h c (subset_of_mem_words hword hc)
  rw [hwhite] at hblank
  cases hblank

end Directive

namespace Ruleset

/-- A line that is blank or holds no directive. -/
def PassedOver (line : Text) : Prop := line.isBlank = true ∨ Directive.ofLine? line = none

theorem PassedOver.ofLine?_eq_none {line : Text} (h : PassedOver line) :
    Directive.ofLine? line = none := by
  rcases h with hblank | hnone
  · exact Directive.ofLine?_of_isBlank hblank
  · exact hnone

/-! ## The directives of a text -/

theorem directives_nil : directives [] = [] := by
  have hblank : Directive.ofLine? [] = none := Directive.ofLine?_of_isBlank rfl
  simp [directives, lines, List.splitOnP_nil, hblank]

/-- The directives on both sides of a line end are read apart. -/
theorem directives_append_cons {c : Char} (hc : isLineEnd c = true) (first second : Text) :
    directives (first ++ c :: second) = directives first ++ directives second := by
  unfold directives lines
  rw [List.splitOnP_append_cons first second hc, List.filterMap_append]

/-- So are those of two texts with one or more line ends between them. -/
theorem directives_append {sep : Text} (hsep : Directive.IsRun isLineEnd sep)
    (first second : Text) :
    directives (first ++ sep ++ second) = directives first ++ directives second := by
  obtain ⟨hne, hall⟩ := hsep
  induction sep generalizing first with
  | nil => exact absurd rfl hne
  | cons c rest ih =>
    have hc : isLineEnd c = true := hall c List.mem_cons_self
    rw [List.append_assoc, List.cons_append, directives_append_cons hc]
    cases rest with
    | nil => rfl
    | cons d rest =>
      -- an empty line stands between two line ends
      have := ih [] (by simp) fun e he => hall e (List.mem_cons_of_mem c he)
      rw [List.nil_append, directives_nil, List.nil_append] at this
      rw [this]

/-- A text that starts on a line of its own is read apart from the one before it,
    whether that one ends its last line or what stands between them does. -/
theorem directives_append_of_endsLine {first sep : Text} (hsep : ∀ c ∈ sep, isLineEnd c = true)
    (hends : ∀ c ∈ (first ++ sep).getLast?, isLineEnd c = true) (second : Text) :
    directives (first ++ sep ++ second) = directives first ++ directives second := by
  by_cases hne : sep = []
  · subst hne
    rw [List.append_nil] at hends ⊢
    rcases List.eq_nil_or_concat first with rfl | ⟨start, c, rfl⟩
    · rw [directives_nil, List.nil_append, List.nil_append]
    · rw [List.concat_eq_append] at hends ⊢
      have hc : isLineEnd c = true := by
        apply hends
        rw [List.getLast?_concat]
        rfl
      rw [List.append_assoc, List.singleton_append, directives_append_cons hc,
        directives_append_cons hc, directives_nil, List.append_nil]
  · exact directives_append ⟨hne, hsep⟩ first second

theorem directives_of_passedOver {content : Text} (h : ∀ line ∈ lines content, PassedOver line) :
    directives content = [] := by
  rw [directives, List.filterMap_eq_nil_iff]
  exact fun line hline => (h line hline).ofLine?_eq_none

/-! ## Line ends -/

/-- The ends of a line. -/
def lineEnds : List Text := [['\n'], ['\r'], ['\r', '\n']]

theorem isRun_of_mem_lineEnds {e : Text} (h : e ∈ lineEnds) : Directive.IsRun isLineEnd e := by
  simp only [lineEnds, List.mem_cons, List.not_mem_nil, or_false] at h
  rcases h with rfl | rfl | rfl
  all_goals exact ⟨by simp, by simp [isLineEnd]⟩

/-- Two texts that differ in their line ends only. -/
inductive EqUpToLineEnds : Text → Text → Prop
  | nil : EqUpToLineEnds [] []
  | char {c : Char} {t u : Text} (hc : isLineEnd c = false) (h : EqUpToLineEnds t u) :
      EqUpToLineEnds (c :: t) (c :: u)
  | lineEnd {e e' t u : Text} (he : e ∈ lineEnds) (he' : e' ∈ lineEnds) (h : EqUpToLineEnds t u) :
      EqUpToLineEnds (e ++ t) (e' ++ u)

/-- Such texts have the same directives, also as the rest of a text whose last
    line is not yet at its end. -/
theorem EqUpToLineEnds.directives_eq {t u : Text} (h : EqUpToLineEnds t u) (start : Text) :
    directives (start ++ t) = directives (start ++ u) := by
  induction h generalizing start with
  | nil => rfl
  | @char c t u hc h ih =>
    have hmove : ∀ rest : Text, start ++ c :: rest = (start ++ [c]) ++ rest := by simp
    rw [hmove t, hmove u, ih]
  | @lineEnd e e' t u he he' h ih =>
    have hrest : directives t = directives u := ih []
    rw [← List.append_assoc, ← List.append_assoc, directives_append (isRun_of_mem_lineEnds he),
      directives_append (isRun_of_mem_lineEnds he'), hrest]

/-! ## Rulesets of joined texts -/

/-- Some line of a text sets the language. -/
def SetsLanguage (content : Text) : Prop :=
  ∃ line ∈ lines content, ∃ tag, Directive.ofLine? line = some (.language (some tag))

theorem setsLanguage_iff {content : Text} :
    SetsLanguage content ↔ (directives content).filterMap Directive.tag? ≠ [] := by
  rw [Ne, List.filterMap_eq_nil_iff]
  constructor
  · rintro ⟨line, hline, tag, hread⟩ hnone
    have := hnone _ (List.mem_filterMap.mpr ⟨line, hline, hread⟩)
    cases this
  · intro h
    push Not at h
    obtain ⟨d, hd, htag⟩ := h
    obtain ⟨line, hline, hread⟩ := List.mem_filterMap.mp hd
    cases d with
    | language tag =>
      cases tag with
      | none => exact absurd rfl htag
      | some tag => exact ⟨line, hline, tag, hread⟩
    | addNamespace entry => exact absurd rfl htag
    | addDefault kind source => exact absurd rfl htag
    | addPredicate curie kind modifiers => exact absurd rfl htag

/-- The parts of a ruleset by those of the rulesets of two texts. -/
structure Joins (first second : Text) (joined : Ruleset) : Prop where
  prefixes : joined.prefixes.entries =
    (ofText first).prefixes.entries ++ (ofText second).prefixes.entries
  defaults : joined.defaults = (ofText first).defaults ++ (ofText second).defaults
  predicates : joined.predicates =
    (ofText first).predicates.insertAll (ofText second).predicates.entries
  /-- A predicate of the first text keeps its place and has the rule of the
      second text, if it has one there; the other predicates of the second text
      follow in its order. -/
  entries : joined.predicates.entries =
    (ofText first).predicates.entries.map
        (fun entry => (entry.1, ((ofText second).predicates.get? entry.1).getD entry.2)) ++
      (ofText second).predicates.entries.filter
        (fun entry => ((ofText first).predicates.get? entry.1).isNone)
  language_of_sets : SetsLanguage second → joined.language = (ofText second).language
  language_of_not_sets : ¬ SetsLanguage second → joined.language = (ofText first).language

theorem ofText_eq (content : Text) :
    ofText content =
      { language := ((directives content).filterMap Directive.tag?).getLast?.getD "en".toList
        prefixes := ⟨(directives content).flatMap Directive.namespaces⟩
        predicates := OrderedMap.insertAll {} ((directives content).flatMap Directive.declarations)
        defaults := (directives content).flatMap Directive.defaultRules } := by
  rw [ofText, applyAll_eq]
  rfl

theorem nodup_keys_ofText (content : Text) : (ofText content).predicates.keys.Nodup := by
  have hempty : ({} : OrderedMap PredicateRule).keys.Nodup := List.nodup_nil
  rw [ofText_eq]
  exact OrderedMap.nodup_keys_insertAll hempty _

theorem joins_of_directives {first second joined : Text}
    (h : directives joined = directives first ++ directives second) :
    Joins first second (ofText joined) := by
  have hpredicates : (ofText joined).predicates =
      (ofText first).predicates.insertAll (ofText second).predicates.entries := by
    simp only [ofText_eq, h, List.flatMap_append, OrderedMap.insertAll_append,
      OrderedMap.insertAll_insertAll]
  refine ⟨?_, ?_, hpredicates, ?_, ?_, ?_⟩
  · simp only [ofText_eq, h, List.flatMap_append]
  · simp only [ofText_eq, h, List.flatMap_append]
  · rw [hpredicates,
      OrderedMap.entries_insertAll (nodup_keys_ofText first) (nodup_keys_ofText second)]
    rfl
  · intro hsets
    obtain ⟨tag, htag⟩ := Option.ne_none_iff_exists'.mp
      (mt List.getLast?_eq_none_iff.mp (setsLanguage_iff.mp hsets))
    simp only [ofText_eq, h, List.filterMap_append, List.getLast?_append, htag, Option.some_or,
      Option.getD_some]
  · intro hnot
    rw [setsLanguage_iff, not_not] at hnot
    simp only [ofText_eq, h, List.filterMap_append, hnot, List.append_nil]

/-- **Rules files are read piece by piece.** Of two texts with line ends between
    them, the ruleset is that of the two, joined part by part. So lines that are
    blank or hold no directive may be inserted between two lines, before the
    first and after the last, and line ends may be exchanged. -/
theorem joins_ofText :
    (∀ first second sep : Text, Directive.IsRun isLineEnd sep →
      Joins first second (ofText (first ++ sep ++ second))) ∧
    (∀ first second extra sep sep' sep'' : Text, Directive.IsRun isLineEnd sep →
      Directive.IsRun isLineEnd sep' → Directive.IsRun isLineEnd sep'' →
      (∀ line ∈ lines extra, PassedOver line) →
      ofText (first ++ sep ++ extra ++ sep' ++ second) = ofText (first ++ sep'' ++ second) ∧
        ofText (extra ++ sep ++ second) = ofText second ∧
        ofText (first ++ sep ++ extra) = ofText first) ∧
    ∀ text text' : Text, EqUpToLineEnds text text' → ofText text = ofText text' := by
  refine ⟨?_, ?_, ?_⟩
  · intro first second sep hsep
    exact joins_of_directives (directives_append hsep first second)
  · intro first second extra sep sep' sep'' hsep hsep' hsep'' hextra
    have hnone : directives extra = [] := directives_of_passedOver hextra
    refine ⟨?_, ?_, ?_⟩
    · rw [ofText, ofText, directives_append hsep', directives_append hsep, directives_append hsep'',
        hnone, List.append_nil]
    · rw [ofText, ofText, directives_append hsep, hnone, List.nil_append]
    · rw [ofText, ofText, directives_append hsep, hnone, List.append_nil]
  · intro text text' h
    have hdirectives : directives text = directives text' := h.directives_eq []
    rw [ofText, ofText, hdirectives]

/-- The second text redeclares a predicate of the first one and sets no language;
    lines without a directive are inserted, and a line end is exchanged. -/
theorem joins_ofText_redeclared :
    (ofText ("@language de\na:x string\na:y iri".toList ++ "\r\n".toList ++
        "a:z date\na:x integer many".toList)).language = "de".toList ∧
      (ofText ("@language de\na:x string\na:y iri".toList ++ "\r\n".toList ++
        "a:z date\na:x integer many".toList)).predicates =
        ⟨[("a:x".toList, ⟨"a:x".toList, .integer, false, true⟩),
          ("a:y".toList, ⟨"a:y".toList, .iri, false, false⟩),
          ("a:z".toList, ⟨"a:z".toList, .date, false, false⟩)]⟩ ∧
      ofText ("a:y iri".toList ++ "\n".toList ++ " \n# none".toList ++ "\r".toList ++
        "a:z date".toList) = ofText ("a:y iri".toList ++ "\n".toList ++ "a:z date".toList) ∧
      ofText ['a', '\r', '\n', 'b'] = ofText ['a', '\n', 'b'] := by
  have hlf : Directive.IsRun isLineEnd "\n".toList := ⟨by simp, by simp [isLineEnd]⟩
  have hcr : Directive.IsRun isLineEnd "\r".toList := ⟨by simp, by simp [isLineEnd]⟩
  have hcrlf : Directive.IsRun isLineEnd "\r\n".toList := ⟨by simp, by simp [isLineEnd]⟩
  have hjoins := joins_ofText.1 "@language de\na:x string\na:y iri".toList
    "a:z date\na:x integer many".toList "\r\n".toList hcrlf
  have hkept : ¬ SetsLanguage "a:z date\na:x integer many".toList := by
    rw [setsLanguage_iff, not_not]
    cbv
  have hpassed : ∀ line ∈ lines " \n# none".toList, PassedOver line := by
    have hlines : lines " \n# none".toList = [" ".toList, "# none".toList] := by cbv
    rw [hlines]
    simp only [List.mem_cons, List.not_mem_nil, or_false, forall_eq_or_imp, forall_eq]
    exact ⟨Or.inl (by decide), Or.inr (by cbv)⟩
  refine ⟨?_, ?_, ?_, ?_⟩
  · have hlanguage : (ofText "@language de\na:x string\na:y iri".toList).language =
        "de".toList := by cbv
    rw [hjoins.language_of_not_sets hkept, hlanguage]
  · rw [hjoins.predicates]
    cbv
  · exact (joins_ofText.2.1 "a:y iri".toList "a:z date".toList " \n# none".toList "\n".toList
      "\r".toList "\n".toList hlf hcr hlf hpassed).1
  · have hcrlf' : ['\r', '\n'] ∈ lineEnds := by decide
    have hlf' : ['\n'] ∈ lineEnds := by decide
    exact joins_ofText.2.2 _ _ (.char (by decide) (.lineEnd hcrlf' hlf' (.char (by decide) .nil)))

end Ruleset

end TypedTriples
