import Mathlib
import TypedTriples.Proofs.Ruleset.Shapes

/-!
# Regular expressions by preference

A regular expression can match the start of a text in several ways. They are
tried in an order of preference, and the first way is the one that counts: a
repetition takes all it can and then one character less at a time, an
alternative is tried before those behind it, and of two choices the later one is
changed first. The first way is not always the longest.

Main definitions:
* `Expression.Matches`: the texts that an expression matches, whatever the order.
* `Expression.ways`: the ways to match a start of a text, in the order in which
  they are tried.
* `Expression.first?`, `Expression.take?`: the way that counts, and what it takes.
* `Expression.capture?`: what is taken from a value behind white space.
* `Expression.StartsOutside`: an expression does not start with a character of a class.

Main results:
* `mem_ways_iff`: the ways are all the starts of the text that match.
* `first?_both_of_matches_nil`: no second way is tried before a part that never
  fails.
* `flatMap_repetitions`, `first?_both_optional_one_cons`: nothing is given back to a
  part that does not start with it.
-/

namespace TypedTriples

open Directive (IsRun Stops)

/-- A regular expression over classes of characters. -/
inductive Expression where
  | empty
  | one (admits : Char → Bool)
  /-- Any number of characters of a class, as many as possible first. -/
  | many (admits : Char → Bool)
  | both (first second : Expression)
  /-- The first of two, or else the second. -/
  | either (first second : Expression)

namespace Expression

/-- One character of a class or more, as many as possible first. -/
def atLeastOne (admits : Char → Bool) : Expression := both (one admits) (many admits)

/-- An expression, or else nothing. -/
def optional (e : Expression) : Expression := either e empty

/-! ## Specification -/

/-- An expression matches the whole of a text. -/
def Matches : Expression → Text → Prop
  | empty, t => t = []
  | one admits, t => ∃ c, admits c = true ∧ t = [c]
  | many admits, t => ∀ c ∈ t, admits c = true
  | both first second, t => ∃ s s', first.Matches s ∧ second.Matches s' ∧ t = s ++ s'
  | either first second, t => first.Matches t ∨ second.Matches t

/-- The ways to take characters of a class from the start of a text, each as what
    it takes and what it leaves: first all of them, at last none. -/
def repetitions (admits : Char → Bool) : Text → List (Text × Text)
  | [] => [([], [])]
  | c :: t =>
    if admits c then (repetitions admits t).map (fun way => (c :: way.1, way.2)) ++ [([], c :: t)]
    else [([], c :: t)]

/-- The ways in which an expression matches a start of a text, each as what it
    takes and what it leaves, in the order in which they are tried. -/
def ways : Expression → Text → List (Text × Text)
  | empty, t => [([], t)]
  | one _, [] => []
  | one admits, c :: t => if admits c then [([c], t)] else []
  | many admits, t => repetitions admits t
  | both first second, t =>
    (first.ways t).flatMap fun way =>
      (second.ways way.2).map fun next => (way.1 ++ next.1, next.2)
  | either first second, t => first.ways t ++ second.ways t

/-- The way that counts. -/
def first? (e : Expression) (t : Text) : Option (Text × Text) := (e.ways t).head?

/-- What is taken from the start of a text. -/
def take? (e : Expression) (t : Text) : Option Text := (e.first? t).map Prod.fst

/-- What is taken from a value in the first way to match white space and then the
    expression. -/
def capture? (e : Expression) (value : Text) : Option Text :=
  (((many Text.isWhite).ways value).flatMap fun way => e.ways way.2).head?.map Prod.fst

/-- A text does not start with a character of the class if it starts with one that the
    expression matches. -/
def StartsOutside (e : Expression) (admits : Char → Bool) : Prop :=
  ∀ s rest, e.Matches s → Stops admits (s ++ rest)

/-! ## All ways -/

section

variable {admits : Char → Bool} {s rest t : Text}

theorem nil_mem_repetitions_iff : ([], rest) ∈ repetitions admits t ↔ t = rest := by
  cases t with
  | nil => simp [repetitions, eq_comm]
  | cons c t =>
    rw [repetitions]
    split_ifs <;> simp [eq_comm]

/-- A way that takes anything takes the first character. -/
theorem cons_mem_repetitions_iff {c d : Char} :
    (d :: s, rest) ∈ repetitions admits (c :: t) ↔
      admits c = true ∧ d = c ∧ (s, rest) ∈ repetitions admits t := by
  rw [repetitions]
  split_ifs with hc
  · simp [hc, and_left_comm, eq_comm]
  · simp [hc]

theorem mem_repetitions_iff :
    (s, rest) ∈ repetitions admits t ↔ (∀ c ∈ s, admits c = true) ∧ t = s ++ rest := by
  induction s generalizing t with
  | nil =>
    rw [nil_mem_repetitions_iff, List.nil_append, and_iff_right (List.forall_mem_nil _)]
  | cons d s ih =>
    cases t with
    | nil => simp [repetitions]
    | cons c t =>
      rw [cons_mem_repetitions_iff, ih, List.forall_mem_cons, List.cons_append, List.cons.injEq]
      constructor
      · rintro ⟨hc, rfl, hs, rfl⟩
        exact ⟨⟨hc, hs⟩, rfl, rfl⟩
      · rintro ⟨⟨hc, hs⟩, rfl, rfl⟩
        exact ⟨hc, rfl, hs, rfl⟩

/-- **All ways.** The ways are the starts of the text that the expression matches. -/
theorem mem_ways_iff {e : Expression} : (s, rest) ∈ e.ways t ↔ e.Matches s ∧ t = s ++ rest := by
  induction e generalizing s rest t with
  | empty =>
    rw [ways, List.mem_singleton, Prod.mk.injEq, Matches]
    constructor <;> rintro ⟨rfl, rfl⟩ <;> exact ⟨rfl, rfl⟩
  | one admits =>
    rw [Matches]
    cases t with
    | nil =>
      constructor
      · exact fun h => absurd h List.not_mem_nil
      · rintro ⟨⟨d, -, rfl⟩, h⟩
        cases h
    | cons c t =>
      rw [ways]
      split_ifs with hc
      · rw [List.mem_singleton, Prod.mk.injEq]
        constructor
        · rintro ⟨rfl, rfl⟩
          exact ⟨⟨c, hc, rfl⟩, rfl⟩
        · rintro ⟨⟨d, -, rfl⟩, h⟩
          obtain ⟨rfl, rfl⟩ := List.cons.inj h
          exact ⟨rfl, rfl⟩
      · constructor
        · exact fun h => absurd h List.not_mem_nil
        · rintro ⟨⟨d, hd, rfl⟩, h⟩
          obtain ⟨rfl, -⟩ := List.cons.inj h
          exact absurd hd hc
  | many admits => exact mem_repetitions_iff
  | both first second ihfirst ihsecond =>
    simp only [ways, Matches, List.mem_flatMap, List.mem_map, Prod.exists, Prod.mk.injEq]
    constructor
    · rintro ⟨s₁, rest₁, hmem₁, s₂, rest₂, hmem₂, rfl, rfl⟩
      obtain ⟨hfirst, rfl⟩ := ihfirst.mp hmem₁
      obtain ⟨hsecond, rfl⟩ := ihsecond.mp hmem₂
      exact ⟨⟨s₁, s₂, hfirst, hsecond, rfl⟩, (List.append_assoc ..).symm⟩
    · rintro ⟨⟨s₁, s₂, hfirst, hsecond, rfl⟩, rfl⟩
      refine ⟨s₁, s₂ ++ rest, ihfirst.mpr ⟨hfirst, List.append_assoc ..⟩, s₂, rest, ?_, rfl, rfl⟩
      exact ihsecond.mpr ⟨hsecond, rfl⟩
  | either first second ihfirst ihsecond =>
    rw [ways, Matches, List.mem_append, ihfirst, ihsecond, or_and_right]

/-- All the digits first, and then one less at a time. -/
example : (many Char.isDigit).ways "12x".toList =
    [("12".toList, "x".toList), ("1".toList, "2x".toList), ([], "12x".toList)] := by
  decide

/-- The first way is not the longest. -/
example : (either (one (· == 'a')) (both (one (· == 'a')) (one (· == 'b')))).ways "ab".toList =
    [("a".toList, "b".toList), ("ab".toList, [])] := by
  decide

theorem matches_atLeastOne_iff : (atLeastOne admits).Matches t ↔ IsRun admits t := by
  constructor
  · rintro ⟨_, s, ⟨c, hc, rfl⟩, hs, rfl⟩
    exact ⟨List.cons_ne_nil c s, List.forall_mem_cons.mpr ⟨hc, hs⟩⟩
  · rintro ⟨hne, ht⟩
    obtain ⟨c, s, rfl⟩ := List.exists_cons_of_ne_nil hne
    obtain ⟨hc, hs⟩ := List.forall_mem_cons.mp ht
    exact ⟨[c], s, ⟨c, hc, rfl⟩, hs, rfl⟩

end

/-! ## The first way -/

section

variable {e first second : Expression} {admits : Char → Bool} {c : Char}

theorem first?_either (t : Text) :
    (either first second).first? t = (first.first? t).or (second.first? t) :=
  List.head?_append

theorem first?_many (t : Text) :
    (many admits).first? t = some (t.takeWhile admits, t.dropWhile admits) := by
  rw [first?, ways]
  induction t with
  | nil => rfl
  | cons c t ih =>
    rw [repetitions]
    split_ifs with hc
    · rw [List.head?_append, List.head?_map, ih, List.takeWhile_cons_of_pos hc,
        List.dropWhile_cons_of_pos hc]
      rfl
    · rw [List.takeWhile_cons_of_neg hc, List.dropWhile_cons_of_neg hc]
      rfl

theorem ways_one_of_stops {t : Text} (ht : Stops admits t) : (one admits).ways t = [] := by
  cases t with
  | nil => rfl
  | cons c t => exact if_neg (Bool.eq_false_iff.mp (Directive.stops_cons.mp ht))

theorem first?_optional_one_of_stops {t : Text} (ht : Stops admits t) :
    (optional (one admits)).first? t = some ([], t) := by
  rw [first?, optional, ways, ways_one_of_stops ht]
  rfl

theorem first?_both_one_cons (t : Text) :
    (both (one admits) second).first? (c :: t) =
      if admits c then (second.first? t).map fun next => (c :: next.1, next.2) else none := by
  rw [first?, ways, ways]
  split_ifs
  · rw [List.flatMap_singleton, List.head?_map]
    rfl
  · rfl

theorem first?_atLeastOne (t : Text) :
    (atLeastOne admits).first? t =
      if t.takeWhile admits = [] then none
      else some (t.takeWhile admits, t.dropWhile admits) := by
  cases t with
  | nil => rfl
  | cons c t =>
    rw [atLeastOne, first?_both_one_cons, first?_many]
    by_cases hc : admits c = true
    · rw [if_pos hc, List.takeWhile_cons_of_pos hc, List.dropWhile_cons_of_pos hc,
        if_neg (List.cons_ne_nil c _)]
      rfl
    · rw [if_neg hc, List.takeWhile_cons_of_neg hc, if_pos rfl]

/-- An expression that matches the empty text never fails. -/
theorem ways_ne_nil (he : e.Matches []) (t : Text) : e.ways t ≠ [] :=
  List.ne_nil_of_mem (mem_ways_iff.mpr ⟨he, (List.nil_append t).symm⟩)

/-- What a part that never fails takes is taken behind the first way of the part
    before it: no other way of that part is tried. -/
theorem first?_both_of_matches_nil (hsecond : second.Matches []) (t : Text) :
    (both first second).first? t =
      (first.first? t).bind fun way =>
        (second.first? way.2).map fun next => (way.1 ++ next.1, next.2) := by
  unfold first?
  rw [ways]
  cases first.ways t with
  | nil => rfl
  | cons way others =>
    rw [List.flatMap_cons, List.head?_append_of_ne_nil, List.head?_map]
    · rfl
    · exact mt List.map_eq_nil_iff.mp (ways_ne_nil hsecond way.2)

theorem StartsOutside.ways_eq_nil (he : e.StartsOutside admits) (hc : admits c = true)
    (t : Text) : e.ways (c :: t) = [] := by
  refine List.eq_nil_iff_forall_not_mem.mpr fun ⟨s, rest⟩ hmem => ?_
  obtain ⟨hs, hsplit⟩ := mem_ways_iff.mp hmem
  have hstops := he s rest hs
  rw [← hsplit, Directive.stops_cons, hc] at hstops
  cases hstops

/-- A repetition gives nothing back to a part that does not start with any of its
    characters. -/
theorem flatMap_repetitions {β : Type} {f : Text × Text → List β}
    (hf : ∀ s c rest, admits c = true → f (s, c :: rest) = []) (t : Text) :
    (repetitions admits t).flatMap f = f (t.takeWhile admits, t.dropWhile admits) := by
  induction t generalizing f with
  | nil => exact List.flatMap_singleton f _
  | cons c t ih =>
    rw [repetitions]
    split_ifs with hc
    · rw [List.flatMap_append, List.flatMap_map, ih fun s => hf (c :: s), List.flatMap_singleton,
        hf [] c t hc, List.append_nil, List.takeWhile_cons_of_pos hc,
        List.dropWhile_cons_of_pos hc]
    · rw [List.flatMap_singleton, List.takeWhile_cons_of_neg hc, List.dropWhile_cons_of_neg hc]

theorem first?_both_optional_one_of_stops {t : Text} (ht : Stops admits t) :
    (both (optional (one admits)) second).first? t = second.first? t := by
  rw [first?, ways, optional, ways, ways_one_of_stops ht, List.nil_append, ways,
    List.flatMap_singleton, List.head?_map]
  exact Option.map_id'

/-- A character that may be there is not given back to a part that does not start
    with it. -/
theorem first?_both_optional_one_cons (hsecond : second.StartsOutside admits)
    (hc : admits c = true) (t : Text) :
    (both (optional (one admits)) second).first? (c :: t) =
      (second.first? t).map fun next => (c :: next.1, next.2) := by
  rw [first?, ways, optional, ways, ways, ways, if_pos hc, List.flatMap_append,
    List.flatMap_singleton, List.flatMap_singleton, hsecond.ways_eq_nil hc, List.map_nil,
    List.append_nil, List.head?_map]
  rfl

/-- What is captured follows all the white space that the value starts with. -/
theorem capture?_eq_take? (he : e.StartsOutside Text.isWhite) (value : Text) :
    e.capture? value = e.take? value.trimStart := by
  rw [capture?, ways, flatMap_repetitions fun _ _ rest hc => he.ways_eq_nil hc rest]
  rfl

end

end Expression

end TypedTriples
