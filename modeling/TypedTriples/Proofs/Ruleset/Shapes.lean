import Mathlib
import TypedTriples.Ruleset.Document

/-!
# The shapes of words in a rules file

The parts of a line are read greedily, each by a scanner of its own. Here
every scanner is compared with the shape of what it reads: the shape says
which words there are, without a word on how they are found.

Main results:
* `run?_eq_some_iff`: a run is all of the class that there is.
* `languageTag?_sound`, `languageTag?_append`: the scanner of tags reads
  exactly the words with the shape `IsLanguageTag`.
* `curie?_sound`, `curie?_append`: the same for compact names and `IsCurie`.
* `kind?_eq_some_iff`: a kind is a whole keyword.
-/

namespace TypedTriples.Directive

/-! ## Shapes -/

/-- One or more characters of a class, and no others. -/
def IsRun (p : Char → Bool) (t : Text) : Prop := t ≠ [] ∧ ∀ c ∈ t, p c = true

/-- A text that does not start with a character of a class. -/
def Stops (p : Char → Bool) (t : Text) : Prop := ∀ c ∈ t.head?, p c = false

/-- A text that starts with a blank, if it is not empty: the word before it
    goes no further. -/
def Ends (t : Text) : Prop := ∀ c ∈ t.head?, isGap c = true

/-- One word: at least one character, and no blank. -/
abbrev IsWord (t : Text) : Prop := IsRun (fun c => !isGap c) t

/-- A language tag: letters, then any number of groups of letters and digits
    with a hyphen before each. -/
def IsLanguageTag (t : Text) : Prop :=
  ∃ (letters : Text) (groups : List Text), t = letters ++ groups.flatMap ('-' :: ·) ∧
    IsRun Char.isAlpha letters ∧ ∀ group ∈ groups, IsRun Char.isAlphanum group

/-- A compact name: the characters of a prefix, a colon, and a suffix. -/
def IsCurie (t : Text) : Prop :=
  ∃ name suffix, t = name ++ ':' :: suffix ∧ IsRun isNameChar name ∧ IsRun isSuffixChar suffix

/-! ## Runs -/

theorem stops_cons {p : Char → Bool} {c : Char} {t : Text} : Stops p (c :: t) ↔ p c = false := by
  simp [Stops]

theorem ends_nil : Ends [] := by simp [Ends]

theorem ends_cons {c : Char} {t : Text} : Ends (c :: t) ↔ isGap c = true := by simp [Ends]

theorem IsRun.imp {p q : Char → Bool} {t : Text} (h : IsRun p t)
    (himp : ∀ c ∈ t, p c = true → q c = true) : IsRun q t :=
  ⟨h.1, fun c hc => himp c hc (h.2 c hc)⟩

theorem Stops.imp {p q : Char → Bool} {t : Text} (h : Stops q t)
    (himp : ∀ c, p c = true → q c = true) : Stops p t := fun c hc =>
  Bool.eq_false_iff.mpr fun hp => Bool.eq_false_iff.mp (h c hc) (himp c hp)

theorem stops_dropWhile (p : Char → Bool) (t : Text) : Stops p (t.dropWhile p) := by
  intro c hc
  have := List.head?_dropWhile_not p t
  rw [hc] at this
  simpa using this

theorem stops_append {p : Char → Bool} {t rest : Text} (h : Stops p t) (hrest : Stops p rest) :
    Stops p (t ++ rest) := by
  cases t with
  | nil => exact hrest
  | cons c t => exact stops_cons.mpr (stops_cons.mp h)

theorem stops_of_append {p : Char → Bool} {t rest : Text} (h : Stops p (t ++ rest)) :
    Stops p t := by
  cases t with
  | nil => simp [Stops]
  | cons c t => exact stops_cons.mpr (stops_cons.mp h)

theorem takeWhile_append_of_stops {p : Char → Bool} {t rest : Text} (ht : ∀ c ∈ t, p c = true)
    (hrest : Stops p rest) : (t ++ rest).takeWhile p = t := by
  rw [List.takeWhile_append_of_pos ht]
  cases rest with
  | nil => simp
  | cons c rest => simp [stops_cons.mp hrest]

theorem dropWhile_append_of_stops {p : Char → Bool} {t rest : Text} (ht : ∀ c ∈ t, p c = true)
    (hrest : Stops p rest) : (t ++ rest).dropWhile p = rest := by
  rw [List.dropWhile_append_of_pos ht]
  cases rest with
  | nil => simp
  | cons c rest => simp [stops_cons.mp hrest]

/-- A run is read whole, and nothing is read without one. -/
theorem run?_eq_some_iff {p : Char → Bool} {t taken rest : Text} :
    run? p t = some (taken, rest) ↔ t = taken ++ rest ∧ IsRun p taken ∧ Stops p rest := by
  constructor
  · intro h
    unfold run? at h
    split at h
    · cases h
    · rename_i hne
      obtain ⟨rfl, rfl⟩ := Prod.mk.inj (Option.some.inj h)
      exact ⟨List.takeWhile_append_dropWhile.symm, ⟨hne, fun c hc => List.mem_takeWhile_imp hc⟩,
        stops_dropWhile p t⟩
  · rintro ⟨rfl, ⟨hne, hall⟩, hstop⟩
    unfold run?
    rw [takeWhile_append_of_stops hall hstop, dropWhile_append_of_stops hall hstop]
    cases taken with
    | nil => exact absurd rfl hne
    | cons c taken => rfl

theorem gap?_eq_some_iff {t rest : Text} :
    gap? t = some rest ↔ ∃ blanks, t = blanks ++ rest ∧ IsRun isGap blanks ∧ Stops isGap rest := by
  simp [gap?, run?_eq_some_iff]

theorem stops_not_isGap {t : Text} : Stops (fun c => !isGap c) t ↔ Ends t := by
  simp [Stops, Ends]

theorem word?_eq_some_iff {t word rest : Text} :
    word? t = some (word, rest) ↔
      t = word ++ rest ∧ IsWord word ∧ Ends rest := by
  rw [word?, run?_eq_some_iff, stops_not_isGap]

/-- What holds of all characters of some parts and of what separates them holds of
    all characters of the parts put together. -/
theorem forall_mem_intercalate {p : Char → Prop} {separator : Text} {parts : List Text}
    (hseparator : ∀ c ∈ separator, p c) (h : ∀ part ∈ parts, ∀ c ∈ part, p c) :
    ∀ c ∈ List.intercalate separator parts, p c := by
  induction parts with
  | nil => simp
  | cons part parts ih =>
    obtain ⟨hpart, hparts⟩ := List.forall_mem_cons.mp h
    cases parts with
    | nil => simpa using hpart
    | cons next parts =>
      rw [List.intercalate_cons_cons]
      intro c hc
      rcases List.mem_append.mp hc with hc | hc
      · rcases List.mem_append.mp hc with hc | hc
        · exact hpart c hc
        · exact hseparator c hc
      · exact ih hparts c hc

/-! ## Blanks stand in no word -/

theorem isGap_iff {c : Char} : isGap c = true ↔ c = ' ' ∨ c = '\t' := by simp [isGap]

theorem IsWord.isGap_eq_false {t : Text} (h : IsWord t) {c : Char} (hc : c ∈ t) :
    isGap c = false := by
  simpa using h.2 c hc

/-- Where a word ends, every class without blanks stops. -/
theorem Ends.stops {p : Char → Bool} {t : Text} (h : Ends t) (hspace : p ' ' = false)
    (htab : p '\t' = false) : Stops p t := by
  intro c hc
  rcases isGap_iff.mp (h c hc) with rfl | rfl
  · exact hspace
  · exact htab

theorem IsRun.isWord {p : Char → Bool} {t : Text} (h : IsRun p t) (hspace : p ' ' = false)
    (htab : p '\t' = false) : IsWord t := by
  refine ⟨h.1, fun c hc => ?_⟩
  by_cases hgap : isGap c = true
  · rcases isGap_iff.mp hgap with rfl | rfl
    · rw [h.2 _ hc] at hspace; cases hspace
    · rw [h.2 _ hc] at htab; cases htab
  · simpa using hgap

theorem IsRun.append_of_forall {p : Char → Bool} {t u : Text} (h : IsRun p t)
    (hu : ∀ c ∈ u, p c = true) : IsRun p (t ++ u) := by
  refine ⟨by simp [h.1], fun c hc => ?_⟩
  rcases List.mem_append.mp hc with hc | hc
  · exact h.2 c hc
  · exact hu c hc

/-! ## Language tags -/

theorem subtags_of_ends {t : Text} (h : Ends t) : subtags t = ([], t) := by
  rw [subtags]
  rintro rest rfl
  exact absurd (ends_cons.mp h) (by decide)

theorem subtags_cons {group rest : Text} (hgroup : IsRun Char.isAlphanum group)
    (hrest : Stops Char.isAlphanum rest) :
    subtags ('-' :: group ++ rest) =
      ('-' :: group ++ (subtags rest).1, (subtags rest).2) := by
  rw [List.cons_append, subtags]
  simp only
  rw [takeWhile_append_of_stops hgroup.2 hrest, dropWhile_append_of_stops hgroup.2 hrest]
  cases group with
  | nil => exact absurd rfl hgroup.1
  | cons c group => rfl

/-- What follows groups starts with a hyphen or is not theirs at all. -/
theorem stops_groups (groups : List Text) {rest : Text} (hrest : Ends rest) :
    Stops Char.isAlphanum (groups.flatMap ('-' :: ·) ++ rest) := by
  cases groups with
  | nil => exact hrest.stops (by decide) (by decide)
  | cons group groups => exact stops_cons.mpr (by decide)

theorem subtags_groups {groups : List Text} (h : ∀ group ∈ groups, IsRun Char.isAlphanum group)
    {rest : Text} (hrest : Ends rest) :
    subtags (groups.flatMap ('-' :: ·) ++ rest) = (groups.flatMap ('-' :: ·), rest) := by
  induction groups with
  | nil => exact subtags_of_ends hrest
  | cons group groups ih =>
    rw [List.flatMap_cons, List.append_assoc,
      subtags_cons (h group (by simp)) (stops_groups groups hrest),
      ih fun group hg => h group (by simp [hg])]

theorem subtags_sound (t : Text) :
    t = (subtags t).1 ++ (subtags t).2 ∧
      ∃ groups : List Text, (subtags t).1 = groups.flatMap ('-' :: ·) ∧
        ∀ group ∈ groups, IsRun Char.isAlphanum group := by
  induction t using subtags.induct with
  | case1 rest hnil =>
    rw [subtags]
    simp only [hnil]
    exact ⟨rfl, [], rfl, by simp⟩
  | case2 rest hne ih =>
    obtain ⟨hmore, groups, hgroups, hall⟩ := ih
    have hrun : IsRun Char.isAlphanum (rest.takeWhile Char.isAlphanum) :=
      ⟨hne, fun c hc => List.mem_takeWhile_imp hc⟩
    have hcut : '-' :: rest =
        '-' :: rest.takeWhile Char.isAlphanum ++ rest.dropWhile Char.isAlphanum := by
      rw [List.cons_append, List.takeWhile_append_dropWhile]
    rw [hcut, subtags_cons hrun (stops_dropWhile _ _)]
    refine ⟨?_, rest.takeWhile Char.isAlphanum :: groups, ?_, ?_⟩
    · rw [List.append_assoc, ← hmore]
    · rw [hgroups, List.flatMap_cons]
    · intro group hg
      rcases List.mem_cons.mp hg with rfl | hg
      · exact hrun
      · exact hall group hg
  | case3 t hne =>
    rw [subtags]
    · exact ⟨rfl, [], rfl, by simp⟩
    · exact hne

theorem languageTag?_sound {t tag rest : Text} (h : languageTag? t = some (tag, rest)) :
    t = tag ++ rest ∧ IsLanguageTag tag := by
  rw [languageTag?, Option.map_eq_some_iff] at h
  obtain ⟨⟨letters, more⟩, hrun, heq⟩ := h
  obtain ⟨rfl, hletters, -⟩ := run?_eq_some_iff.mp hrun
  obtain ⟨hmore, groups, hgroups, hall⟩ := subtags_sound more
  obtain ⟨rfl, rfl⟩ := Prod.mk.inj heq
  refine ⟨by rw [List.append_assoc, ← hmore], letters, groups, by rw [hgroups], hletters, hall⟩

theorem languageTag?_append {tag rest : Text} (h : IsLanguageTag tag) (hrest : Ends rest) :
    languageTag? (tag ++ rest) = some (tag, rest) := by
  obtain ⟨letters, groups, rfl, hletters, hall⟩ := h
  have hstop : Stops Char.isAlpha (groups.flatMap ('-' :: ·) ++ rest) := by
    cases groups with
    | nil => exact hrest.stops (by decide) (by decide)
    | cons group groups => exact stops_cons.mpr (by decide)
  rw [languageTag?, List.append_assoc, run?_eq_some_iff.mpr ⟨rfl, hletters, hstop⟩,
    Option.map_some]
  simp only [subtags_groups hall hrest]

theorem IsLanguageTag.isWord {t : Text} (h : IsLanguageTag t) : IsWord t := by
  obtain ⟨letters, groups, rfl, hletters, hall⟩ := h
  refine (hletters.isWord (by decide) (by decide)).append_of_forall fun c hc => ?_
  obtain ⟨group, hgroup, hc⟩ := List.mem_flatMap.mp hc
  rcases List.mem_cons.mp hc with rfl | hc
  · decide
  · exact ((hall group hgroup).isWord (by decide) (by decide)).2 c hc

/-! ## Compact names -/

/-- The characters of a prefix lie between the hyphen and the letter `z`. -/
theorem isNameChar_toNat {c : Char} (h : isNameChar c = true) : 45 ≤ c.toNat ∧ c.toNat ≤ 122 := by
  simp only [isNameChar, Bool.or_eq_true, beq_iff_eq] at h
  rcases h with ((h | rfl) | rfl) | rfl
  · simp only [Char.isAlphanum, Char.isAlpha, Char.isUpper, Char.isLower, Char.isDigit,
      Bool.or_eq_true, Bool.and_eq_true, decide_eq_true_eq, ge_iff_le,
      UInt32.le_iff_toNat_le] at h
    change ((65 ≤ c.toNat ∧ c.toNat ≤ 90) ∨ (97 ≤ c.toNat ∧ c.toNat ≤ 122)) ∨
      (48 ≤ c.toNat ∧ c.toNat ≤ 57) at h
    omega
  all_goals decide

theorem colon_not_mem_of_isRun {name : Text} (h : IsRun isNameChar name) : ':' ∉ name := by
  intro hmem
  have : isNameChar ':' = true := h.2 ':' hmem
  exact absurd this (by decide)

theorem head?_ne_of_isRun {name : Text} (h : IsRun isNameChar name) : name.head? ≠ some '<' := by
  intro hhead
  have : isNameChar '<' = true := h.2 '<' (List.mem_of_mem_head? hhead)
  exact absurd this (by decide)

theorem curie?_sound {t curie rest : Text} (h : curie? t = some (curie, rest)) :
    t = curie ++ rest ∧ IsCurie curie := by
  unfold curie? at h
  split at h
  · rename_i name after hread
    obtain ⟨rfl, hname, -⟩ := run?_eq_some_iff.mp hread
    obtain ⟨⟨suffix, more⟩, hread', heq⟩ := Option.map_eq_some_iff.mp h
    obtain ⟨rfl, hsuffix, -⟩ := run?_eq_some_iff.mp hread'
    obtain ⟨rfl, rfl⟩ := Prod.mk.inj heq
    exact ⟨by simp, name, suffix, rfl, hname, hsuffix⟩
  · cases h

theorem curie?_append {curie rest : Text} (h : IsCurie curie) (hrest : Ends rest) :
    curie? (curie ++ rest) = some (curie, rest) := by
  obtain ⟨name, suffix, rfl, hname, hsuffix⟩ := h
  have hcut : (name ++ ':' :: suffix) ++ rest = name ++ ':' :: (suffix ++ rest) := by simp
  have hrun : run? isNameChar ((name ++ ':' :: suffix) ++ rest) =
      some (name, ':' :: (suffix ++ rest)) :=
    run?_eq_some_iff.mpr ⟨hcut, hname, stops_cons.mpr (by decide)⟩
  have hrun' : run? isSuffixChar (suffix ++ rest) = some (suffix, rest) :=
    run?_eq_some_iff.mpr ⟨rfl, hsuffix, hrest.stops (by decide) (by decide)⟩
  simp only [curie?, hrun, hrun', Option.map_some]

theorem isCurie_iff {t : Text} : IsCurie t ↔ curie? t = some (t, []) := by
  constructor
  · intro h
    simpa using curie?_append h ends_nil
  · intro h
    exact (curie?_sound h).2

/-- A compact name is a word, which starts with a character of a prefix. -/
theorem IsCurie.isWord {t : Text} (h : IsCurie t) : IsWord t := by
  obtain ⟨name, suffix, rfl, hname, hsuffix⟩ := h
  refine (hname.isWord (by decide) (by decide)).append_of_forall fun c hc => ?_
  rcases List.mem_cons.mp hc with rfl | hc
  · decide
  · exact (hsuffix.isWord (by decide) (by decide)).2 c hc

/-! ## Kinds -/

/-- Whether a text without blanks stands at the start of a word is not for
    what follows the word to decide. -/
theorem stripPrefix?_append_of_ends {part word rest : Text} (hpart : ∀ c ∈ part, isGap c = false)
    (hrest : Ends rest) :
    Text.stripPrefix? part (word ++ rest) = (Text.stripPrefix? part word).map (· ++ rest) := by
  induction part generalizing word with
  | nil => simp [Text.stripPrefix?]
  | cons a part ih =>
    have ha : isGap a = false := hpart a (by simp)
    have hpart' : ∀ c ∈ part, isGap c = false := fun c hc => hpart c (by simp [hc])
    cases word with
    | nil =>
      cases rest with
      | nil => simp [Text.stripPrefix?]
      | cons c rest =>
        have hne : a ≠ c := by
          rintro rfl
          rw [ends_cons.mp hrest] at ha
          cases ha
        simp [Text.stripPrefix?, hne]
    | cons c word =>
      have := @ih word hpart'
      by_cases hac : a = c
      · subst hac
        simpa [Text.stripPrefix?] using this
      · simp [Text.stripPrefix?, hac]

theorem keyword_no_gap : ∀ entry ∈ Kind.keywords, ∀ c ∈ entry.1, isGap c = false := by
  simp [Kind.keywords, isGap]

/-- The first of the keywords that a text starts with, as its kind, and what follows
    it. -/
def keyword? (t : Text) : Option (Kind × Text) :=
  Kind.keywords.findSome? fun entry =>
    (Text.stripPrefix? entry.1 t).map fun rest => (entry.2, rest)

theorem keyword?_sound {t rest : Text} {kind : Kind} (h : keyword? t = some (kind, rest)) :
    ∃ word, (word, kind) ∈ Kind.keywords ∧ t = word ++ rest := by
  obtain ⟨⟨word, kind'⟩, hmem, hstrip⟩ := List.exists_of_findSome?_eq_some h
  obtain ⟨after, hafter, heq⟩ := Option.map_eq_some_iff.mp hstrip
  obtain ⟨rfl, rfl⟩ := Prod.mk.inj heq
  exact ⟨word, hmem, Text.stripPrefix?_eq_some_iff.mp hafter⟩

/-- Of the keywords that a keyword starts with, the list has it first. -/
theorem keyword?_self : ∀ entry ∈ Kind.keywords, keyword? entry.1 = some (entry.2, []) := by
  intro entry h
  simp only [Kind.keywords, List.mem_cons, List.not_mem_nil, or_false] at h
  rcases h with rfl | rfl | rfl | rfl | rfl | rfl | rfl | rfl | rfl | rfl | rfl
  all_goals rfl

/-- So it has where the keyword is a word of its own: a keyword that reaches beyond
    the word would have a blank in it. -/
theorem keyword?_append {word rest : Text} {kind : Kind} (hmem : (word, kind) ∈ Kind.keywords)
    (hrest : Ends rest) : keyword? (word ++ rest) = some (kind, rest) := by
  have hlocal : ∀ entry ∈ Kind.keywords,
      ((Text.stripPrefix? entry.1 (word ++ rest)).map fun after => (entry.2, after)) =
        ((Text.stripPrefix? entry.1 word).map fun after => (entry.2, after)).map
          fun found => (found.1, found.2 ++ rest) := by
    intro entry hentry
    rw [stripPrefix?_append_of_ends (keyword_no_gap entry hentry) hrest]
    simp [Option.map_map, Function.comp_def]
  obtain ⟨before, entry, after, hsplit, hentry, hbefore⟩ :=
    List.findSome?_eq_some_iff.mp (keyword?_self _ hmem)
  refine List.findSome?_eq_some_iff.mpr ⟨before, entry, after, hsplit, ?_, fun other hother => ?_⟩
  · rw [hlocal entry (by rw [hsplit]; simp), hentry]
    rfl
  · rw [hlocal other (by rw [hsplit]; simp [hother]), hbefore other hother]
    rfl

/-- A kind is read where a whole word is one of the keywords. -/
theorem kind?_eq_some_iff {t rest : Text} {kind : Kind} :
    kind? t = some (kind, rest) ↔
      ∃ word, (word, kind) ∈ Kind.keywords ∧ t = word ++ rest ∧ Ends rest := by
  constructor
  · intro h
    unfold kind? at h
    split at h
    · rename_i hfound
      obtain ⟨rfl, rfl⟩ := Prod.mk.inj (Option.some.inj h)
      obtain ⟨word, hmem, ht⟩ := keyword?_sound hfound
      exact ⟨word, hmem, ht, ends_nil⟩
    · rename_i hfound
      split at h
      · rename_i hgap
        obtain ⟨rfl, rfl⟩ := Prod.mk.inj (Option.some.inj h)
        obtain ⟨word, hmem, ht⟩ := keyword?_sound hfound
        exact ⟨word, hmem, ht, ends_cons.mpr hgap⟩
      · cases h
    · cases h
  · rintro ⟨word, hmem, rfl, hrest⟩
    have hfound : Kind.keywords.findSome? (fun entry =>
        (Text.stripPrefix? entry.1 (word ++ rest)).map fun rest => (entry.2, rest)) =
        some (kind, rest) := keyword?_append hmem hrest
    unfold kind?
    rw [hfound]
    cases rest with
    | nil => rfl
    | cons c rest => simp [ends_cons.mp hrest]

end TypedTriples.Directive
