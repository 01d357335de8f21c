import Mathlib
import TypedTriples.Proofs.Pattern.Cuts

/-!
# The regular expression of a pattern

The regular expression of a pattern uses little of the syntax: characters,
escaped where they have a meaning of their own, `.+` and `[^/]+`. For that part
of the syntax `Matches` says what an expression matches, and what the
expression of a source matches is what the items of the source cut.

Results:

* `expression_eq_flatMap`: the expression is that of the items, one after the
  other.
* `matches_flatMap_iff`: an expression of items matches what the items cut.
* `accepts_iff_of_ofSource?`: what a pattern accepts, by its source and by its
  regular expression.
-/

namespace TypedTriples.Pattern

/-! ## Specification -/

/-- An expression for one character, and the characters that it stands for. -/
inductive Atom : Text → (Char → Prop) → Prop
  | plain {c : Char} (h : c ∉ metacharacters) : Atom [c] (· = c)
  | escaped {c : Char} (h : c ∈ metacharacters) : Atom ['\\', c] (· = c)
  /-- Any character but a line feed. -/
  | dot : Atom ".".toList (· ≠ '\n')
  /-- Any character but a slash. -/
  | notSlash : Atom "[^/]".toList (· ≠ '/')

/-- A sequence of atoms, each of them as it stands or with a `+` for one or more
    of its characters, matches the whole of a text. -/
inductive Matches : Text → Text → Prop
  | nil : Matches [] []
  | one {atom rest t : Text} {admits : Char → Prop} {c : Char} (hatom : Atom atom admits)
      (hc : admits c) (h : Matches rest t) : Matches (atom ++ rest) (c :: t)
  | plus {atom rest piece t : Text} {admits : Char → Prop} (hatom : Atom atom admits)
      (hne : piece ≠ []) (hpiece : ∀ c ∈ piece, admits c) (h : Matches rest t) :
      Matches (atom ++ '+' :: rest) (piece ++ t)

/-- An expression that is anchored at the start is found in a text: the rest of
    the expression matches a start of the text. -/
def Finds (expression t : Text) : Prop :=
  ∃ rest pre post, expression = '^' :: rest ∧ t = pre ++ post ∧ Matches rest pre

/-! ## The expression of the items -/

/-- The expression of an item. -/
def Item.expression : Item → Text
  | literal c => escapeChar c
  | segment => "[^/]+".toList
  | span => ".+".toList

theorem flatMap_intercalate {α β : Type} (f : α → List β) (sep : List α) (parts : List (List α)) :
    (List.intercalate sep parts).flatMap f =
      List.intercalate (sep.flatMap f) (parts.map (·.flatMap f)) := by
  induction parts with
  | nil => rfl
  | cons part rest ih =>
    cases rest with
    | nil => simp
    | cons next rest =>
      rw [List.intercalate_cons_cons, List.flatMap_append, List.flatMap_append, ih, List.map_cons,
        List.map_cons, List.map_cons, List.intercalate_cons_cons]

theorem partExpression_eq (part : Text) :
    partExpression part = (partItems part).flatMap Item.expression := by
  have htext : ∀ text : Text, (text.map Item.literal).flatMap Item.expression =
      text.flatMap escapeChar := by
    intro text
    rw [List.flatMap_map]
    rfl
  rw [partItems, flatMap_intercalate, List.map_map, partExpression]
  simp [Function.comp_def, htext, Item.expression]

theorem expression_eq_flatMap (source : Text) :
    expression source = '^' :: (items source).flatMap Item.expression := by
  have hparts : (cutSpans source).map partExpression =
      ((cutSpans source).map partItems).map (·.flatMap Item.expression) := by
    rw [List.map_map]
    exact List.map_congr_left fun part _ => partExpression_eq part
  rw [expression, items, flatMap_intercalate, hparts]
  rfl

/-! ## What an expression matches -/

theorem Atom.head?_ne {atom rest : Text} {admits : Char → Prop} (h : Atom atom admits) :
    (atom ++ rest).head? ≠ some '+' := by
  cases h with
  | plain h =>
    intro heq
    obtain rfl := Option.some.inj heq
    exact h (by decide)
  | escaped | dot | notSlash => simp

/-- A character without a meaning of its own starts no other expression. -/
theorem Atom.eq_of_plain {atom rest rest' : Text} {admits : Char → Prop} {c : Char}
    (hc : c ∉ metacharacters) (h : Atom atom admits) (heq : c :: rest = atom ++ rest') :
    atom = [c] ∧ admits = (· = c) ∧ rest = rest' := by
  cases h with
  | plain h =>
    obtain ⟨rfl, rfl⟩ := List.cons.inj heq
    exact ⟨rfl, rfl, rfl⟩
  | escaped | dot | notSlash =>
    -- these start with a character that has a meaning of its own
    obtain ⟨rfl, -⟩ := List.cons.inj heq
    exact absurd (by decide) hc

/-- An expression for a character is told from what follows it. -/
theorem Atom.unique {atom atom' rest rest' : Text} {admits admits' : Char → Prop}
    (h : Atom atom admits) (h' : Atom atom' admits') (heq : atom ++ rest = atom' ++ rest') :
    atom = atom' ∧ admits = admits' ∧ rest = rest' := by
  cases h with
  | plain hc =>
    obtain ⟨rfl, rfl, rfl⟩ := h'.eq_of_plain hc heq
    exact ⟨rfl, rfl, rfl⟩
  | escaped hc =>
    cases h' with
    | plain hc' =>
      obtain ⟨rfl, -⟩ := List.cons.inj heq
      exact absurd (by decide) hc'
    | escaped hc' =>
      obtain ⟨rfl, rfl⟩ := List.cons.inj (List.cons.inj heq).2
      exact ⟨rfl, rfl, rfl⟩
    | dot | notSlash => simp at heq
  | dot =>
    cases h' with
    | plain hc' =>
      obtain ⟨rfl, -⟩ := List.cons.inj heq
      exact absurd (by decide) hc'
    | dot => exact ⟨rfl, rfl, List.append_cancel_left heq⟩
    | escaped | notSlash => simp at heq
  | notSlash =>
    cases h' with
    | plain hc' =>
      obtain ⟨rfl, -⟩ := List.cons.inj heq
      exact absurd (by decide) hc'
    | notSlash => exact ⟨rfl, rfl, List.append_cancel_left heq⟩
    | escaped | dot => simp at heq

theorem escapeChar_atom (c : Char) : Atom (escapeChar c) (· = c) := by
  rw [escapeChar]
  by_cases h : metacharacters.contains c = true
  · rw [if_pos h]
    exact .escaped (List.contains_iff_mem.mp h)
  · rw [if_neg h]
    exact .plain fun hmem => h (List.contains_iff_mem.mpr hmem)

theorem head?_flatMap_expression_ne (items : List Item) :
    (items.flatMap Item.expression).head? ≠ some '+' := by
  cases items with
  | nil => simp
  | cons item items =>
    rw [List.flatMap_cons]
    cases item with
    | literal c => exact (escapeChar_atom c).head?_ne
    | segment | span => simp [Item.expression]

theorem matches_atom_append {atom rest : Text} {admits : Char → Prop} (hatom : Atom atom admits)
    (hrest : rest.head? ≠ some '+') (t : Text) :
    Matches (atom ++ rest) t ↔ ∃ c post, t = c :: post ∧ admits c ∧ Matches rest post := by
  constructor
  · intro h
    generalize hexpression : atom ++ rest = expression at h
    cases h with
    | nil => cases hatom <;> simp at hexpression
    | one hatom' hc h =>
      obtain ⟨rfl, rfl, rfl⟩ := hatom.unique hatom' hexpression
      exact ⟨_, _, rfl, hc, h⟩
    | plus hatom' =>
      obtain ⟨rfl, rfl, rfl⟩ := hatom.unique hatom' hexpression
      exact absurd rfl hrest
  · rintro ⟨c, post, rfl, hc, h⟩
    exact .one hatom hc h

theorem matches_plus_append {atom rest : Text} {admits : Char → Prop} (hatom : Atom atom admits)
    (t : Text) :
    Matches (atom ++ '+' :: rest) t ↔
      ∃ piece post, t = piece ++ post ∧ (piece ≠ [] ∧ ∀ c ∈ piece, admits c) ∧
        Matches rest post := by
  constructor
  · intro h
    generalize hexpression : atom ++ '+' :: rest = expression at h
    cases h with
    | nil => simp at hexpression
    | one hatom' hc h =>
      obtain ⟨rfl, rfl, rfl⟩ := hatom.unique hatom' hexpression
      -- no expression starts with a plus sign
      generalize hplus : '+' :: rest = expression at h
      cases h with
      | nil => simp at hplus
      | one hatom' => exact absurd (congrArg List.head? hplus).symm hatom'.head?_ne
      | plus hatom' => exact absurd (congrArg List.head? hplus).symm hatom'.head?_ne
    | plus hatom' hne hpiece h =>
      obtain ⟨rfl, rfl, hrest⟩ := hatom.unique hatom' hexpression
      obtain ⟨-, rfl⟩ := List.cons.inj hrest
      exact ⟨_, _, rfl, ⟨hne, hpiece⟩, h⟩
  · rintro ⟨piece, post, rfl, ⟨hne, hpiece⟩, h⟩
    exact .plus hatom hne hpiece h

/-- The expression of the items matches what the items cut. -/
theorem matches_flatMap_iff (items : List Item) (t : Text) :
    Matches (items.flatMap Item.expression) t ↔ Cuts items t := by
  induction items generalizing t with
  | nil =>
    rw [cuts_nil]
    constructor
    · intro h
      generalize hexpression : [].flatMap Item.expression = expression at h
      cases h with
      | nil => rfl
      | one hatom | plus hatom => cases hatom <;> simp at hexpression
    · rintro rfl
      exact .nil
  | cons item items ih =>
    rw [List.flatMap_cons, cuts_cons]
    cases item with
    | literal c =>
      rw [Item.expression,
        matches_atom_append (escapeChar_atom c) (head?_flatMap_expression_ne items)]
      simp [Item.Stands, ih]
    | segment =>
      rw [show Item.segment.expression = "[^/]".toList ++ ['+'] from rfl, List.append_assoc,
        List.singleton_append, matches_plus_append .notSlash]
      simp [Item.Stands, ih, List.forall_mem_ne']
    | span =>
      rw [show Item.span.expression = ".".toList ++ ['+'] from rfl, List.append_assoc,
        List.singleton_append, matches_plus_append .dot]
      simp [Item.Stands, ih, List.forall_mem_ne']

theorem finds_expression_iff (source t : Text) :
    Finds (expression source) t ↔ ∃ pre post, t = pre ++ post ∧ Cuts (items source) pre := by
  rw [expression_eq_flatMap]
  constructor
  · rintro ⟨rest, pre, post, heq, rfl, h⟩
    obtain ⟨-, rfl⟩ := List.cons.inj heq
    exact ⟨pre, post, rfl, (matches_flatMap_iff (items source) pre).mp h⟩
  · rintro ⟨pre, post, rfl, h⟩
    exact ⟨_, pre, post, rfl, rfl, (matches_flatMap_iff (items source) pre).mpr h⟩

/-! ## What a pattern accepts -/

theorem reading_of_not_mem {source : Text} (h : '*' ∉ source) :
    reading source = source.map .literal := by
  induction source with
  | nil => rw [reading, List.map_nil]
  | cons c rest ih =>
    rw [List.mem_cons, not_or] at h
    rw [reading, if_neg (Ne.symm h.1), ih h.2, List.map_cons]

theorem cuts_map_literal (source t : Text) : Cuts (source.map .literal) t ↔ t = source := by
  induction source generalizing t with
  | nil => exact cuts_nil t
  | cons c rest ih =>
    rw [List.map_cons, cuts_cons]
    simp [Item.Stands, ih]

/-- **What a pattern accepts.** A pattern accepts a text exactly when some start
    of the text can be cut into the pieces that its source asks for, and so does
    its regular expression. What follows that start is free, and a source
    without a star asks for itself. -/
theorem accepts_of_ofSource? {source : Text} {pattern : Pattern}
    (h : ofSource? source = some pattern) (t : Text) :
    (pattern.accepts t = true ↔ ∃ pre post, t = pre ++ post ∧ Cuts (reading source) pre) ∧
      (pattern.accepts t = true ↔ Finds (expression source) t) ∧
      (∀ more, pattern.accepts t = true → pattern.accepts (t ++ more) = true) ∧
      ('*' ∉ source → (pattern.accepts t = true ↔ source <+: t)) := by
  have haccepts : ∀ t, pattern.accepts t = true ↔
      ∃ pre post, t = pre ++ post ∧ Cuts (items source) pre := by
    intro t
    rw [accepts, source_of_ofSource? h, matchesStart_iff]
  refine ⟨?_, ?_, ?_, ?_⟩
  · rw [haccepts, items_eq_reading]
  · rw [haccepts, finds_expression_iff]
  · intro more hstart
    obtain ⟨pre, post, rfl, hcuts⟩ := (haccepts t).mp hstart
    exact (haccepts _).mpr ⟨pre, post ++ more, List.append_assoc .., hcuts⟩
  · intro hstar
    rw [haccepts, items_eq_reading, reading_of_not_mem hstar]
    simp only [cuts_map_literal]
    constructor
    · rintro ⟨pre, post, rfl, rfl⟩
      exact List.prefix_append pre post
    · rintro ⟨post, rfl⟩
      exact ⟨source, post, rfl, rfl⟩

/-- An odd run of stars, a character with a meaning of its own, and a text with
    more than one way to be cut. -/
theorem accepts_of_ofSource?_odd_stars :
    ∃ pattern, ofSource? "s.a:***".toList = some pattern ∧
      Finds (expression "s.a:***".toList) "s.a:b/c/d".toList ∧
      ¬ Finds (expression "s.a:***".toList) "sxa:b/c/d".toList := by
  have h : ofSource? "s.a:***".toList = some ⟨"s.a:***".toList, by decide⟩ := rfl
  refine ⟨_, h, (accepts_of_ofSource? h _).2.1.mp (by decide), fun hfinds => ?_⟩
  exact absurd ((accepts_of_ofSource? h _).2.1.mpr hfinds) (by decide)

end TypedTriples.Pattern
