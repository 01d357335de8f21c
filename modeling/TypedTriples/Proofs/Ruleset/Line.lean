import Mathlib
import TypedTriples.Proofs.Ruleset.Shapes

/-!
# Lines as lists of words

The reader of a line goes from left to right and never back. Here it is
compared with a reading that first cuts the line into its words and then looks
at the words one by one, so that nothing is left of choices, lookahead and
blanks at the ends.

Main definitions:
* `Directive.words`: the words of a line.
* `Directive.Spells`: which lists of words spell which directive.
* `LineEffect`: what a list of words makes of a ruleset.

Main results:
* `ofLine?_eq_some_iff`: a line holds a directive exactly when its words spell
  it.
* `readLine_agrees`: on every ruleset a line has the effect of its words, and
  none when they spell nothing.
-/

namespace TypedTriples

namespace Directive

/-! ## Words -/

/-- A piece of a text between cuts has no character of those that are cut at. -/
theorem eq_false_of_mem_splitOnP {p : Char → Bool} {t piece : Text} (h : piece ∈ t.splitOnP p) :
    ∀ c ∈ piece, p c = false := by
  induction t generalizing piece with
  | nil =>
    rw [List.splitOnP_nil, List.mem_singleton] at h
    simp [h]
  | cons d t ih =>
    rw [List.splitOnP_cons_eq_if_modifyHead] at h
    by_cases hd : p d = true
    · rw [if_pos hd] at h
      rcases List.mem_cons.mp h with rfl | hmem
      · simp
      · exact ih hmem
    · rw [if_neg hd] at h
      obtain ⟨first, others, hsplit⟩ := List.exists_cons_of_ne_nil (List.splitOnP_ne_nil p t)
      rw [hsplit, List.modifyHead_cons] at h
      rcases List.mem_cons.mp h with rfl | hmem
      · intro c hc
        rcases List.mem_cons.mp hc with rfl | hc
        · simpa using hd
        · exact ih (by simp [hsplit]) c hc
      · exact ih (by simp [hsplit, hmem])

/-- The words of a line: the longest stretches of it without blanks. -/
def words (line : Text) : List Text := (line.splitOnP isGap).filter fun word => word ≠ []

/-- A text of blanks only. -/
def OnlyGaps (t : Text) : Prop := ∀ c ∈ t, isGap c = true

theorem IsWord.stops {t rest : Text} (h : IsWord t) : Stops isGap (t ++ rest) := by
  cases t with
  | nil => exact absurd rfl h.1
  | cons c t => exact stops_cons.mpr (h.isGap_eq_false (by simp))

/-- Words are cut at every blank; the other equations follow from this one. -/
theorem words_append_gap {c : Char} (hc : isGap c = true) (t u : Text) :
    words (t ++ c :: u) = words t ++ words u := by
  unfold words
  rw [List.splitOnP_append_cons t u hc, List.filter_append]

@[simp] theorem words_nil : words [] = [] := by simp [words, List.splitOnP_nil]

theorem words_cons_gap {c : Char} (hc : isGap c = true) (t : Text) : words (c :: t) = words t := by
  simpa using words_append_gap hc [] t

theorem words_blank_append {blanks : Text} (h : OnlyGaps blanks) (t : Text) :
    words (blanks ++ t) = words t := by
  induction blanks with
  | nil => rfl
  | cons c blanks ih =>
    rw [List.cons_append, words_cons_gap (h c (by simp)), ih fun c hc => h c (by simp [hc])]

theorem words_of_onlyGaps {t : Text} (h : OnlyGaps t) : words t = [] := by
  simpa using words_blank_append h []

theorem words_of_isWord {word : Text} (h : IsWord word) : words word = [word] := by
  rw [words, List.splitOnP_eq_singleton fun c hc => h.isGap_eq_false hc]
  simp [h.1]

/-- A word that ends is the first of the words. -/
theorem words_append {word rest : Text} (hword : IsWord word) (hrest : Ends rest) :
    words (word ++ rest) = word :: words rest := by
  cases rest with
  | nil => simp [words_of_isWord hword]
  | cons c rest =>
    have hc := ends_cons.mp hrest
    rw [words_append_gap hc, words_of_isWord hword, words_cons_gap hc]
    rfl

theorem onlyGaps_or_exists_word (t : Text) :
    OnlyGaps t ∨ ∃ blanks word rest, t = blanks ++ (word ++ rest) ∧ OnlyGaps blanks ∧
      IsWord word ∧ Ends rest := by
  have hblanks : OnlyGaps (t.takeWhile isGap) := fun c hc => List.mem_takeWhile_imp hc
  have ht : t = t.takeWhile isGap ++ t.dropWhile isGap := List.takeWhile_append_dropWhile.symm
  cases hdrop : t.dropWhile isGap with
  | nil =>
    rw [hdrop, List.append_nil] at ht
    rw [ht]
    exact Or.inl hblanks
  | cons c u =>
    refine Or.inr ⟨t.takeWhile isGap, (c :: u).takeWhile (fun c => !isGap c),
      (c :: u).dropWhile (fun c => !isGap c), ?_, hblanks, ⟨?_, ?_⟩, ?_⟩
    · rw [List.takeWhile_append_dropWhile, ← hdrop]
      exact ht
    · have hc : isGap c = false := by
        have := stops_dropWhile isGap t
        rw [hdrop] at this
        exact stops_cons.mp this
      simp [hc]
    · exact fun c hc => List.mem_takeWhile_imp (p := fun c => !isGap c) hc
    · exact stops_not_isGap.mp (stops_dropWhile _ _)

theorem onlyGaps_of_words_eq_nil {t : Text} (h : words t = []) : OnlyGaps t := by
  rcases onlyGaps_or_exists_word t with hblank | ⟨blanks, word, rest, rfl, hblanks, hword, hrest⟩
  · exact hblank
  · rw [words_blank_append hblanks, words_append hword hrest] at h
    cases h

/-- Where the first word stands, and where the others. -/
theorem exists_of_words_eq_cons {t word : Text} {others : List Text} (h : words t = word :: others) :
    ∃ blanks rest, t = blanks ++ (word ++ rest) ∧ OnlyGaps blanks ∧ IsWord word ∧ Ends rest ∧
      words rest = others := by
  rcases onlyGaps_or_exists_word t with hblank | ⟨blanks, word', rest, rfl, hblanks, hword, hrest⟩
  · rw [words_of_onlyGaps hblank] at h
    cases h
  · rw [words_blank_append hblanks, words_append hword hrest] at h
    obtain ⟨rfl, rfl⟩ := List.cons.inj h
    exact ⟨blanks, rest, rfl, hblanks, hword, hrest, rfl⟩

theorem isWord_of_mem_words {t word : Text} (h : word ∈ words t) : IsWord word := by
  obtain ⟨hpiece, hne⟩ := List.mem_filter.mp h
  refine ⟨by simpa using hne, fun c hc => ?_⟩
  simp [eq_false_of_mem_splitOnP hpiece c hc]

theorem subset_of_mem_words {t word : Text} (h : word ∈ words t) : word ⊆ t := by
  generalize hlist : words t = list at h
  induction list generalizing t with
  | nil => cases h
  | cons first others ih =>
    obtain ⟨blanks, rest, rfl, -, -, -, hrest⟩ := exists_of_words_eq_cons hlist
    intro c hc
    rcases List.mem_cons.mp h with rfl | hmem
    · simp [hc]
    · have := ih hrest hmem hc
      simp [this]

/-! ## Gaps between words -/

theorem gap?_sound {t rest : Text} (h : gap? t = some rest) : Ends t ∧ words t = words rest := by
  obtain ⟨blanks, rfl, ⟨hne, hall⟩, -⟩ := gap?_eq_some_iff.mp h
  refine ⟨?_, words_blank_append hall rest⟩
  cases blanks with
  | nil => exact absurd rfl hne
  | cons c blanks => exact ends_cons.mpr (hall c (by simp))

/-- After the end of a word the gap leads to the next one. -/
theorem gap?_of_words_eq_cons {t word : Text} {others : List Text} (ht : Ends t)
    (h : words t = word :: others) :
    ∃ rest, gap? t = some (word ++ rest) ∧ IsWord word ∧ Ends rest ∧ words rest = others := by
  obtain ⟨blanks, rest, rfl, hblanks, hword, hrest, hwords⟩ := exists_of_words_eq_cons h
  refine ⟨rest, gap?_eq_some_iff.mpr ⟨blanks, rfl, ⟨?_, hblanks⟩, hword.stops⟩, hword, hrest, hwords⟩
  rintro rfl
  cases word with
  | nil => exact hword.1 rfl
  | cons c word =>
    have := hword.isGap_eq_false (c := c) (by simp)
    rw [ends_cons.mp ht] at this
    cases this

theorem modifiers_eq {t : Text} (ht : Ends t) :
    (modifiers t).1 = words t ∧ OnlyGaps (modifiers t).2 := by
  induction t using modifiers.induct with
  | case1 t word rest hread ih =>
    obtain ⟨u, hu, hword⟩ := Option.bind_eq_some_iff.mp hread
    obtain ⟨rfl, hword, hrest⟩ := word?_eq_some_iff.mp hword
    obtain ⟨hmore, hblank⟩ := ih hrest
    rw [modifiers]
    split
    · rename_i heq
      rw [hread] at heq
      obtain ⟨rfl, rfl⟩ := Prod.mk.inj (Option.some.inj heq)
      refine ⟨?_, hblank⟩
      rw [(gap?_sound hu).2, words_append hword hrest, ← hmore]
    · rename_i heq
      rw [hread] at heq
      cases heq
  | case2 t hnone =>
    have hwords : words t = [] := by
      cases hwords : words t with
      | nil => rfl
      | cons word others =>
        obtain ⟨rest, hgap, hword, hrest, -⟩ := gap?_of_words_eq_cons ht hwords
        rw [hgap, Option.bind_some, word?_eq_some_iff.mpr ⟨rfl, hword, hrest⟩] at hnone
        cases hnone
    rw [modifiers]
    split
    · rename_i heq
      rw [hnone] at heq
      cases heq
    · exact ⟨hwords.symm, onlyGaps_of_words_eq_nil hwords⟩

/-! ## Reading a directive -/

/-- Which lists of words spell which directive. -/
inductive Spells : List Text → Directive → Prop
  | bareLanguage : Spells ["@language".toList] (.language none)
  | language {tag : Text} (htag : IsLanguageTag tag) :
      Spells ["@language".toList, tag] (.language (some tag))
  | addNamespace {name word iri : Text} (hname : IsRun isNameChar name)
      (hword : word = name ∨ word = name ++ [':']) :
      Spells ["@prefix".toList, word, iri] (.addNamespace ⟨name, unbracket iri⟩)
  | addDefault {word source : Text} {kind : Kind} (hkind : (word, kind) ∈ Kind.keywords) :
      Spells ["@default".toList, word, source] (.addDefault kind source)
  | addPredicate {curie word : Text} {kind : Kind} (others : List Text) (hcurie : IsCurie curie)
      (hkind : (word, kind) ∈ Kind.keywords) :
      Spells (curie :: word :: others) (.addPredicate curie kind others)

theorem isWord_language : IsWord "@language".toList := ⟨by simp, by simp [isGap]⟩

theorem isWord_prefix : IsWord "@prefix".toList := ⟨by simp, by simp [isGap]⟩

theorem isWord_default : IsWord "@default".toList := ⟨by simp, by simp [isGap]⟩

theorem isWord_keyword {word : Text} {kind : Kind} (h : (word, kind) ∈ Kind.keywords) :
    IsWord word := by
  refine ⟨?_, fun c hc => by simp [keyword_no_gap _ h c hc]⟩
  rintro rfl
  simp [Kind.keywords] at h

theorem OnlyGaps.ends {t : Text} (h : OnlyGaps t) : Ends t :=
  fun c hc => h c (List.mem_of_mem_head? hc)

theorem language?_sound {t rest : Text} {d : Directive} (h : language? t = some (d, rest))
    (hrest : OnlyGaps rest) : Spells (words t) d := by
  obtain ⟨after, hstrip, hd⟩ := Option.map_eq_some_iff.mp h
  rw [Text.stripPrefix?_eq_some_iff.mp hstrip]
  split at hd
  · rename_i tag rest' hread
    obtain ⟨rfl, rfl⟩ := Prod.mk.inj hd
    obtain ⟨u, hgap, hscan⟩ := Option.bind_eq_some_iff.mp hread
    obtain ⟨rfl, htag⟩ := languageTag?_sound hscan
    obtain ⟨hends, hwords⟩ := gap?_sound hgap
    rw [words_append isWord_language hends, hwords, words_append htag.isWord hrest.ends,
      words_of_onlyGaps hrest]
    exact .language htag
  · obtain ⟨rfl, rfl⟩ := Prod.mk.inj hd
    rw [words_append isWord_language hrest.ends, words_of_onlyGaps hrest]
    exact .bareLanguage

/-- What follows a name is a colon, or not a colon and kept. -/
theorem skipColon_cases (t : Text) : t = ':' :: skipColon t ∨ t = skipColon t := by
  unfold skipColon
  split
  · exact Or.inl rfl
  · exact Or.inr rfl

theorem namespace?_sound {t rest : Text} {d : Directive} (h : namespace? t = some (d, rest))
    (hrest : OnlyGaps rest) : Spells (words t) d := by
  simp only [namespace?, Option.bind_eq_bind, Option.bind_eq_some_iff, Option.pure_def,
    Option.some.injEq, Prod.mk.injEq] at h
  obtain ⟨u, hstrip, v, hgap, ⟨name, w⟩, hname, x, hgap', ⟨iri, rest'⟩, hiri, rfl, rfl⟩ := h
  rw [Text.stripPrefix?_eq_some_iff.mp hstrip]
  obtain ⟨rfl, hrun, -⟩ := run?_eq_some_iff.mp hname
  obtain ⟨rfl, hword, hends⟩ := word?_eq_some_iff.mp hiri
  obtain ⟨hu, hwordsu⟩ := gap?_sound hgap
  obtain ⟨hw, hwordsw⟩ := gap?_sound hgap'
  have hlast : words (iri ++ rest') = [iri] := by
    rw [words_append hword hends, words_of_onlyGaps hrest]
  rw [words_append isWord_prefix hu, hwordsu]
  have hisWord : IsWord name := hrun.isWord (by decide) (by decide)
  rcases skipColon_cases w with hcolon | hcolon
  · have hisWord' : IsWord (name ++ [':']) := hisWord.append_of_forall (by simp [isGap])
    have hcut : name ++ w = (name ++ [':']) ++ skipColon w := by
      conv_lhs => rw [hcolon]
      simp
    rw [hcut, words_append hisWord' hw, hwordsw, hlast]
    exact .addNamespace hrun (Or.inr rfl)
  · rw [hcolon, words_append hisWord hw, hwordsw, hlast]
    exact .addNamespace hrun (Or.inl rfl)

theorem default?_sound {t rest : Text} {d : Directive} (h : default? t = some (d, rest))
    (hrest : OnlyGaps rest) : Spells (words t) d := by
  simp only [default?, Option.bind_eq_bind, Option.bind_eq_some_iff, Option.pure_def,
    Option.some.injEq, Prod.mk.injEq] at h
  obtain ⟨u, hstrip, v, hgap, ⟨kind, w⟩, hkind, x, hgap', ⟨source, rest'⟩, hsource, rfl, rfl⟩ := h
  rw [Text.stripPrefix?_eq_some_iff.mp hstrip]
  obtain ⟨word, hmem, rfl, hw⟩ := kind?_eq_some_iff.mp hkind
  obtain ⟨rfl, hlast, hends⟩ := word?_eq_some_iff.mp hsource
  obtain ⟨hu, hwordsu⟩ := gap?_sound hgap
  rw [words_append isWord_default hu, hwordsu, words_append (isWord_keyword hmem) hw,
    (gap?_sound hgap').2, words_append hlast hends, words_of_onlyGaps hrest]
  exact .addDefault hmem

theorem predicate?_sound {t rest : Text} {d : Directive} (h : predicate? t = some (d, rest)) :
    Spells (words t) d := by
  simp only [predicate?, Option.bind_eq_bind, Option.bind_eq_some_iff, Option.pure_def,
    Option.some.injEq, Prod.mk.injEq] at h
  obtain ⟨⟨curie, u⟩, hread, v, hgap, ⟨kind, w⟩, hkind, rfl, rfl⟩ := h
  obtain ⟨rfl, hcurie⟩ := curie?_sound hread
  obtain ⟨word, hmem, rfl, hw⟩ := kind?_eq_some_iff.mp hkind
  obtain ⟨hu, hwordsu⟩ := gap?_sound hgap
  rw [words_append hcurie.isWord hu, hwordsu, words_append (isWord_keyword hmem) hw,
    (modifiers_eq hw).1]
  exact .addPredicate _ hcurie hmem

/-! ## Every spelling is read -/

/-- A text that starts with another character than a keyword does not start
    with the keyword. -/
theorem stripPrefix?_of_ne {a c : Char} (hne : a ≠ c) (part t : Text) :
    Text.stripPrefix? (a :: part) (c :: t) = none := by
  simp [Text.stripPrefix?, hne]

theorem language?_bare {rest : Text} (h : OnlyGaps rest) :
    language? ("@language".toList ++ rest) = some (.language none, rest) := by
  have hnone : (gap? rest).bind languageTag? = none := by
    rw [Option.bind_eq_none_iff]
    intro u hu
    have hu' : words u = [] := by rw [← (gap?_sound hu).2, words_of_onlyGaps h]
    rw [Option.eq_none_iff_forall_ne_some]
    rintro ⟨tag, rest'⟩ hread
    obtain ⟨rfl, htag⟩ := languageTag?_sound hread
    cases tag with
    | nil => exact htag.isWord.1 rfl
    | cons c tag =>
      have := onlyGaps_of_words_eq_nil hu' c (by simp)
      rw [htag.isWord.isGap_eq_false (by simp)] at this
      cases this
  simp only [language?, Text.stripPrefix?_eq_some_iff.mpr rfl, Option.map_some, hnone]

theorem language?_tag {tag t : Text} (htag : IsLanguageTag tag) (ht : Ends t)
    (hwords : words t = [tag]) :
    ∃ rest, language? ("@language".toList ++ t) = some (.language (some tag), rest) ∧
      OnlyGaps rest := by
  obtain ⟨rest, hgap, -, hrest, hblank⟩ := gap?_of_words_eq_cons ht hwords
  refine ⟨rest, ?_, onlyGaps_of_words_eq_nil hblank⟩
  simp only [language?, Text.stripPrefix?_eq_some_iff.mpr rfl, Option.map_some, hgap,
    Option.bind_some, languageTag?_append htag hrest]

theorem skipColon_of_ends {t : Text} (h : Ends t) : skipColon t = t := by
  unfold skipColon
  split
  · exact absurd (ends_cons.mp h) (by decide)
  · rfl

theorem namespace?_complete {name word iri t : Text} (hname : IsRun isNameChar name)
    (hword : word = name ∨ word = name ++ [':']) (ht : Ends t) (hwords : words t = [word, iri]) :
    ∃ rest, namespace? ("@prefix".toList ++ t) =
      some (.addNamespace ⟨name, unbracket iri⟩, rest) ∧ OnlyGaps rest := by
  obtain ⟨u, hgap, -, hu, hwordsu⟩ := gap?_of_words_eq_cons ht hwords
  obtain ⟨rest, hgap', hiri, hrest, hblank⟩ := gap?_of_words_eq_cons hu hwordsu
  refine ⟨rest, ?_, onlyGaps_of_words_eq_nil hblank⟩
  have hread : ∃ v, run? isNameChar (word ++ u) = some (name, v) ∧ skipColon v = u := by
    rcases hword with rfl | rfl
    · exact ⟨u, run?_eq_some_iff.mpr ⟨rfl, hname, hu.stops (by decide) (by decide)⟩,
        skipColon_of_ends hu⟩
    · exact ⟨':' :: u, run?_eq_some_iff.mpr ⟨by simp, hname, stops_cons.mpr (by decide)⟩, rfl⟩
  obtain ⟨v, hrun, hskip⟩ := hread
  simp only [namespace?, Option.bind_eq_bind, Text.stripPrefix?_eq_some_iff.mpr rfl,
    Option.bind_some, hgap, hrun, hskip, hgap', word?_eq_some_iff.mpr ⟨rfl, hiri, hrest⟩,
    Option.pure_def]

theorem default?_complete {word source t : Text} {kind : Kind}
    (hkind : (word, kind) ∈ Kind.keywords) (ht : Ends t) (hwords : words t = [word, source]) :
    ∃ rest, default? ("@default".toList ++ t) = some (.addDefault kind source, rest) ∧
      OnlyGaps rest := by
  obtain ⟨u, hgap, -, hu, hwordsu⟩ := gap?_of_words_eq_cons ht hwords
  obtain ⟨rest, hgap', hsource, hrest, hblank⟩ := gap?_of_words_eq_cons hu hwordsu
  refine ⟨rest, ?_, onlyGaps_of_words_eq_nil hblank⟩
  simp only [default?, Option.bind_eq_bind, Text.stripPrefix?_eq_some_iff.mpr rfl,
    Option.bind_some, hgap, kind?_eq_some_iff.mpr ⟨word, hkind, rfl, hu⟩, hgap',
    word?_eq_some_iff.mpr ⟨rfl, hsource, hrest⟩, Option.pure_def]

theorem predicate?_complete {curie word t : Text} {kind : Kind} {others : List Text}
    (hcurie : IsCurie curie) (hkind : (word, kind) ∈ Kind.keywords) (ht : Ends t)
    (hwords : words t = word :: others) :
    ∃ rest, predicate? (curie ++ t) = some (.addPredicate curie kind others, rest) ∧
      OnlyGaps rest := by
  obtain ⟨u, hgap, -, hu, rfl⟩ := gap?_of_words_eq_cons ht hwords
  obtain ⟨hmodifiers, hblank⟩ := modifiers_eq hu
  refine ⟨(modifiers u).2, ?_, hblank⟩
  simp only [predicate?, Option.bind_eq_bind, curie?_append hcurie ht, Option.bind_some, hgap,
    kind?_eq_some_iff.mpr ⟨word, hkind, rfl, hu⟩, Option.pure_def, ← hmodifiers]

/-! ## The choice among directives -/

theorem scan?_sound {t rest : Text} {d : Directive} (h : scan? t = some (d, rest))
    (hrest : OnlyGaps rest) : Spells (words t) d := by
  simp only [scan?, Option.orElse_eq_some] at h
  rcases h with h | ⟨-, h | ⟨-, h | ⟨-, h⟩⟩⟩
  · exact language?_sound h hrest
  · exact namespace?_sound h hrest
  · exact default?_sound h hrest
  · exact predicate?_sound h

/-- The first character decides between predicate lines and the others. -/
theorem scan?_of_ne_at {c : Char} (hc : '@' ≠ c) (t : Text) :
    scan? (c :: t) = predicate? (c :: t) := by
  have hnone : ∀ part, Text.stripPrefix? ('@' :: part) (c :: t) = none :=
    fun part => stripPrefix?_of_ne hc part t
  simp [scan?, language?, namespace?, default?, hnone]

/-- What the words spell is what the choice comes to: no directive stands in
    the way of another. -/
theorem scan?_complete {word t : Text} {others : List Text} {d : Directive}
    (h : Spells (word :: others) d) (ht : Ends t) (hwords : words t = others) :
    ∃ rest, scan? (word ++ t) = some (d, rest) ∧ OnlyGaps rest := by
  cases h with
  | bareLanguage =>
    have hblank := onlyGaps_of_words_eq_nil hwords
    exact ⟨t, by simp only [scan?, language?_bare hblank]; rfl, hblank⟩
  | language htag =>
    obtain ⟨rest, hread, hblank⟩ := language?_tag htag ht hwords
    exact ⟨rest, by simp only [scan?, hread]; rfl, hblank⟩
  | addNamespace hname hword =>
    obtain ⟨rest, hread, hblank⟩ := namespace?_complete hname hword ht hwords
    have hlanguage : language? ("@prefix".toList ++ t) = none := by
      simp [language?, Text.stripPrefix?]
    exact ⟨rest, by simp only [scan?, hlanguage, hread]; rfl, hblank⟩
  | addDefault hkind =>
    obtain ⟨rest, hread, hblank⟩ := default?_complete hkind ht hwords
    have hlanguage : language? ("@default".toList ++ t) = none := by
      simp [language?, Text.stripPrefix?]
    have hnamespace : namespace? ("@default".toList ++ t) = none := by
      simp [namespace?, Text.stripPrefix?]
    exact ⟨rest, by simp only [scan?, hlanguage, hnamespace, hread]; rfl, hblank⟩
  | addPredicate _ hcurie hkind =>
    obtain ⟨rest, hread, hblank⟩ := predicate?_complete hcurie hkind ht hwords
    refine ⟨rest, ?_, hblank⟩
    rw [← hread]
    obtain ⟨name, suffix, rfl, ⟨hne, hall⟩, -⟩ := hcurie
    cases name with
    | nil => exact absurd rfl hne
    | cons c name =>
      refine scan?_of_ne_at ?_ _
      rintro rfl
      exact absurd (hall '@' (by simp)) (by decide)

/-- **A line holds a directive exactly when its words spell it.** -/
theorem ofLine?_eq_some_iff {line : Text} {d : Directive} :
    ofLine? line = some d ↔ Spells (words line) d := by
  have hline : line = line.takeWhile isGap ++ line.dropWhile isGap :=
    List.takeWhile_append_dropWhile.symm
  have hblanks : OnlyGaps (line.takeWhile isGap) := fun c hc => List.mem_takeWhile_imp hc
  have hwords : words line = words (line.dropWhile isGap) := by
    conv_lhs => rw [hline, words_blank_append hblanks]
  rw [hwords, ofLine?]
  constructor
  · intro h
    split at h
    · rename_i d' rest hscan
      split at h
      · rename_i hall
        obtain rfl := Option.some.inj h
        exact scan?_sound hscan (List.all_eq_true.mp hall)
      · cases h
    · cases h
  · intro h
    cases hcut : words (line.dropWhile isGap) with
    | nil =>
      rw [hcut] at h
      cases h
    | cons word others =>
      obtain ⟨blanks, t, ht, hblanks', hword, hends, hothers⟩ := exists_of_words_eq_cons hcut
      -- the blanks in front are gone already
      have hnil : blanks = [] := by
        have hstop := stops_dropWhile isGap line
        rw [ht] at hstop
        cases blanks with
        | nil => rfl
        | cons c blanks =>
          have := stops_cons.mp hstop
          rw [hblanks' c (by simp)] at this
          cases this
      rw [hcut] at h
      obtain ⟨rest, hscan, hblank⟩ := scan?_complete h hends hothers
      rw [ht, hnil, List.nil_append, hscan]
      simp only
      rw [if_pos (List.all_eq_true.mpr hblank)]

example : ofLine? "\t@prefix ex: <http://e/>  ".toList =
    some (.addNamespace ⟨"ex".toList, "http://e/".toList⟩) := by cbv

/-! ## The effect of a line -/

/-- The IRI of a namespace as it is written and as it is kept: angle brackets
    go, but only both together. -/
def Unbracketed (iri bare : Text) : Prop :=
  iri = '<' :: bare ++ ['>'] ∨ (∀ t, iri ≠ '<' :: t ++ ['>']) ∧ bare = iri

theorem unbracket_eq_iff {iri bare : Text} : unbracket iri = bare ↔ Unbracketed iri bare := by
  have hsome : ∀ t, (Text.stripPrefix? ['<'] iri).bind (Text.stripSuffix? ['>']) = some t ↔
      iri = '<' :: t ++ ['>'] := by
    intro t
    simp [Option.bind_eq_some_iff, Text.stripPrefix?_eq_some_iff, Text.stripSuffix?_eq_some_iff]
  unfold unbracket Unbracketed
  cases hcut : (Text.stripPrefix? ['<'] iri).bind (Text.stripSuffix? ['>']) with
  | none =>
    have hno : ∀ t, iri ≠ '<' :: t ++ ['>'] := by
      intro t ht
      rw [(hsome t).mpr ht] at hcut
      cases hcut
    simp only [Option.getD_none, hno, false_or, ne_eq, not_false_eq_true, implies_true, true_and]
    exact eq_comm
  | some t =>
    have ht := (hsome t).mp hcut
    rw [Option.getD_some]
    constructor
    · rintro rfl
      exact Or.inl ht
    · rintro (h | ⟨h, -⟩)
      · rw [ht] at h
        simpa using h
      · exact absurd ht (h t)

end Directive

open Directive in
/-- What a list of words makes of a ruleset. Words that spell no directive make
    nothing of it. -/
inductive LineEffect (rules : Ruleset) : List Text → Ruleset → Prop
  /-- Without a tag the language stays. -/
  | bareLanguage : LineEffect rules ["@language".toList] rules
  | language {tag : Text} (htag : IsLanguageTag tag) :
      LineEffect rules ["@language".toList, tag] { rules with language := tag }
  | addNamespace {name word iri bare : Text} (hname : IsRun isNameChar name)
      (hword : word = name ∨ word = name ++ [':']) (hiri : Unbracketed iri bare) :
      LineEffect rules ["@prefix".toList, word, iri]
        { rules with prefixes := ⟨rules.prefixes.entries ++ [⟨name, bare⟩]⟩ }
  | addDefault {word source : Text} {kind : Kind} {pattern : Pattern}
      (hkind : (word, kind) ∈ Kind.keywords) (hsource : Pattern.ofSource? source = some pattern) :
      LineEffect rules ["@default".toList, word, source]
        { rules with defaults := rules.defaults ++ [⟨kind, pattern⟩] }
  /-- A pattern that is too large is dropped. -/
  | dropDefault {word source : Text} {kind : Kind}
      (hkind : (word, kind) ∈ Kind.keywords) (hsource : Pattern.ofSource? source = none) :
      LineEffect rules ["@default".toList, word, source] rules
  | addPredicate {curie word : Text} {kind : Kind} (modifiers : List Text) (hcurie : IsCurie curie)
      (hkind : (word, kind) ∈ Kind.keywords) :
      LineEffect rules (curie :: word :: modifiers)
        { rules with
          predicates := rules.predicates.insert curie
            ⟨curie, kind, decide ("lang".toList ∈ modifiers), decide ("many".toList ∈ modifiers)⟩ }

theorem Directive.ruleOf_eq (curie : Text) (kind : Kind) (modifiers : List Text) :
    ruleOf curie kind modifiers =
      ⟨curie, kind, decide ("lang".toList ∈ modifiers), decide ("many".toList ∈ modifiers)⟩ := by
  simp [ruleOf, List.contains_eq_mem]

theorem lineEffect_iff {rules rules' : Ruleset} {words : List Text} :
    LineEffect rules words rules' ↔ ∃ d, Directive.Spells words d ∧ d.apply rules = rules' := by
  constructor
  · intro h
    cases h with
    | bareLanguage => exact ⟨_, .bareLanguage, rfl⟩
    | language htag => exact ⟨_, .language htag, rfl⟩
    | addNamespace hname hword hiri =>
      refine ⟨_, .addNamespace hname hword, ?_⟩
      rw [Directive.unbracket_eq_iff.mpr hiri]
      rfl
    | addDefault hkind hsource => exact ⟨_, .addDefault hkind, by simp [Directive.apply, hsource]⟩
    | dropDefault hkind hsource => exact ⟨_, .addDefault hkind, by simp [Directive.apply, hsource]⟩
    | addPredicate modifiers hcurie hkind =>
      refine ⟨_, .addPredicate modifiers hcurie hkind, ?_⟩
      rw [Directive.apply, Directive.ruleOf_eq]
  · rintro ⟨d, hspells, rfl⟩
    cases hspells with
    | bareLanguage => exact .bareLanguage
    | language htag => exact .language htag
    | addNamespace hname hword =>
      exact .addNamespace hname hword (Directive.unbracket_eq_iff.mp rfl)
    | @addDefault _ source _ hkind =>
      rw [Directive.apply]
      cases hsource : Pattern.ofSource? source with
      | none => exact .dropDefault hkind hsource
      | some pattern => exact .addDefault hkind hsource
    | addPredicate modifiers hcurie hkind =>
      rw [Directive.apply, Directive.ruleOf_eq]
      exact .addPredicate modifiers hcurie hkind

namespace Ruleset

/-- The ruleset after one more line. -/
def readLine (rules : Ruleset) (line : Text) : Ruleset :=
  rules.applyAll (Directive.ofLine? line).toList

theorem readLine_of_some {rules : Ruleset} {line : Text} {d : Directive}
    (h : Directive.ofLine? line = some d) : rules.readLine line = d.apply rules := by
  simp [readLine, applyAll, h]

theorem readLine_of_none {rules : Ruleset} {line : Text} (h : Directive.ofLine? line = none) :
    rules.readLine line = rules := by
  simp [readLine, applyAll, h]

/-- A rules file is read line by line. -/
theorem ofText_eq_foldl (content : Text) : ofText content = (lines content).foldl readLine empty := by
  unfold ofText directives
  generalize empty = rules
  induction lines content generalizing rules with
  | nil => rfl
  | cons line rest ih =>
    rw [List.foldl_cons, ← ih, readLine, applyAll, applyAll, applyAll, List.filterMap_cons]
    cases Directive.ofLine? line with
    | none => rfl
    | some d => rfl

/-- **Lines agree with their words.** For every line, the reader accepts it
    exactly when its words have an effect, and the ruleset after it is then the
    one of that effect; a line whose words have no effect leaves every ruleset
    as it is. -/
theorem readLine_agrees (line : Text) (rules rules' : Ruleset) :
    ((Directive.ofLine? line).isSome = true ↔
        ∃ after, LineEffect rules (Directive.words line) after) ∧
      (rules.readLine line = rules' ↔
        LineEffect rules (Directive.words line) rules' ∨
          (∀ after, ¬ LineEffect rules (Directive.words line) after) ∧ rules' = rules) := by
  cases hline : Directive.ofLine? line with
  | none =>
    have hnone : ∀ after, ¬ LineEffect rules (Directive.words line) after := by
      intro after h
      obtain ⟨d, hspells, -⟩ := lineEffect_iff.mp h
      rw [Directive.ofLine?_eq_some_iff.mpr hspells] at hline
      cases hline
    rw [readLine_of_none hline]
    refine ⟨by simp [hnone], ?_⟩
    simp only [hnone, false_or, not_false_eq_true, implies_true, true_and]
    exact eq_comm
  | some d =>
    have hspells := Directive.ofLine?_eq_some_iff.mp hline
    have heffect : ∀ after,
        LineEffect rules (Directive.words line) after ↔ d.apply rules = after := by
      intro after
      rw [lineEffect_iff]
      constructor
      · rintro ⟨d', hspells', rfl⟩
        rw [← Directive.ofLine?_eq_some_iff, hline] at hspells'
        obtain rfl := Option.some.inj hspells'
        rfl
      · exact fun h => ⟨d, hspells, h⟩
    rw [readLine_of_some hline]
    refine ⟨by simp [heffect], ?_⟩
    simp [heffect]

end Ruleset

end TypedTriples
