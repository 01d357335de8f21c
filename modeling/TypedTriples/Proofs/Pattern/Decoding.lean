import Mathlib
import TypedTriples.Proofs.Pattern.Expression

/-!
# Patterns from their regular expressions

Nothing of a pattern is lost in its regular expression. The positions of an
expression are told apart first, those behind a backslash and those that stand
free; `readItems?` takes them for items, and the items spell the source that
they were read from.

Main definitions:
* `tokens`: the positions of an expression.
* `decode?`: the source that an expression was written for.

Main results:
* `tokens_expression`: the positions of the expression of a source, item by
  item.
* `decode?_expression`: the source is got back, so that patterns are equal when
  their expressions are, and what stands free and has a meaning of its own
  belongs to a wildcard.
-/

namespace TypedTriples.Pattern

/-! ## Specification -/

/-- One position of a regular expression. -/
inductive Token where
  /-- A character behind a backslash. -/
  | escaped (c : Char)
  /-- A character that stands free. -/
  | bare (c : Char)
  deriving DecidableEq, Repr

/-- The positions of an expression: a backslash escapes the character behind
    it, whatever it is. -/
def tokens : Text → List Token
  | '\\' :: c :: rest => .escaped c :: tokens rest
  | c :: rest => .bare c :: tokens rest
  | [] => []

/-- The items that positions stand for, when they are characters, escaped or
    without a meaning of their own, `.+` and `[^/]+`. -/
def readItems? : List Token → Option (List Item)
  | [] => some []
  | .bare '.' :: .bare '+' :: rest => (readItems? rest).map (.span :: ·)
  | .bare '[' :: .bare '^' :: .bare '/' :: .bare ']' :: .bare '+' :: rest =>
    (readItems? rest).map (.segment :: ·)
  | .escaped c :: rest => (readItems? rest).map (.literal c :: ·)
  | .bare c :: rest => if c ∈ metacharacters then none else (readItems? rest).map (.literal c :: ·)

/-- The items of an expression that is anchored at the start. -/
def itemsOf? (expression : Text) : Option (List Item) :=
  match tokens expression with
  | .bare '^' :: rest => readItems? rest
  | _ => none

/-- An item as it is spelled in a source. -/
def Item.source : Item → Text
  | literal c => [c]
  | segment => "*".toList
  | span => "**".toList

/-- The source that an expression was written for. -/
def decode? (expression : Text) : Option Text :=
  (itemsOf? expression).map (·.flatMap Item.source)

/-- The positions of the expression of an item. -/
def Item.tokens : Item → List Token
  | literal c => if c ∈ metacharacters then [.escaped c] else [.bare c]
  | segment => "[^/]+".toList.map .bare
  | span => ".+".toList.map .bare

/-- In the expression of a source, the character between `front` and `back`
    belongs to what is written for a wildcard of the source. -/
inductive OfWildcard (source : Text) : List Token → Char → List Token → Prop
  | intro {before after : List Item} {item : Item} {left right : List Token} {c : Char}
      (hreading : reading source = before ++ item :: after)
      (hsource : source =
        before.flatMap Item.source ++ item.source ++ after.flatMap Item.source)
      (hwildcard : item = .segment ∨ item = .span)
      (htokens : item.tokens = left ++ .bare c :: right) :
      OfWildcard source (before.flatMap Item.tokens ++ left) c
        (right ++ after.flatMap Item.tokens)

/-! ## Positions -/

theorem tokens_cons {c : Char} (hc : c ≠ '\\') (rest : Text) :
    tokens (c :: rest) = .bare c :: tokens rest := by
  rw [tokens]
  rintro d tail rfl
  exact absurd rfl hc

theorem tokens_expression_append (item : Item) (rest : Text) :
    tokens (item.expression ++ rest) = item.tokens ++ tokens rest := by
  cases item with
  | literal c =>
    rw [Item.expression, escapeChar, Item.tokens]
    by_cases hc : c ∈ metacharacters
    · rw [if_pos (List.contains_iff_mem.mpr hc), if_pos hc]
      rfl
    · have hbackslash : c ≠ '\\' := by
        rintro rfl
        exact hc (by decide)
      rw [if_neg (mt List.contains_iff_mem.mp hc), if_neg hc]
      exact tokens_cons hbackslash rest
  | segment | span => rfl

/-- The expression of a source, position by position. -/
theorem tokens_expression (source : Text) :
    tokens (expression source) = .bare '^' :: (reading source).flatMap Item.tokens := by
  have hbody : ∀ items : List Item,
      tokens (items.flatMap Item.expression) = items.flatMap Item.tokens := by
    intro items
    induction items with
    | nil => rfl
    | cons item items ih =>
      rw [List.flatMap_cons, tokens_expression_append, ih, List.flatMap_cons]
  rw [expression_eq_flatMap, tokens_cons (by decide), items_eq_reading, hbody]

/-! ## Items -/

theorem readItems?_bare {c : Char} (hc : c ∉ metacharacters) (rest : List Token) :
    readItems? (.bare c :: rest) = (readItems? rest).map (.literal c :: ·) := by
  rw [readItems?, if_neg hc]
  · rintro tail rfl rfl
    exact hc (by decide)
  · rintro tail rfl rfl
    exact hc (by decide)

theorem readItems?_flatMap_tokens (items : List Item) :
    readItems? (items.flatMap Item.tokens) = some items := by
  induction items with
  | nil => rfl
  | cons item items ih =>
    rw [List.flatMap_cons]
    cases item with
    | literal c =>
      rw [Item.tokens]
      by_cases hc : c ∈ metacharacters
      · rw [if_pos hc, List.singleton_append, readItems?, ih, Option.map_some]
      · rw [if_neg hc, List.singleton_append, readItems?_bare hc, ih, Option.map_some]
    | segment =>
      change (readItems? (items.flatMap Item.tokens)).map _ = _
      rw [ih, Option.map_some]
    | span =>
      change (readItems? (items.flatMap Item.tokens)).map _ = _
      rw [ih, Option.map_some]

theorem itemsOf?_expression (source : Text) : itemsOf? (expression source) = some (reading source) := by
  rw [itemsOf?, tokens_expression]
  exact readItems?_flatMap_tokens (reading source)

/-! ## Sources -/

theorem source_starItems (stars : Nat) :
    (starItems stars).flatMap Item.source = List.replicate stars '*' := by
  have hpairs : ∀ n, (List.replicate n Item.span).flatMap Item.source =
      List.replicate (2 * n) '*' := by
    intro n
    induction n with
    | zero => rfl
    | succ n ih => rw [List.replicate_succ, List.flatMap_cons, ih]; rfl
  have hodd : (List.replicate (stars % 2) Item.segment).flatMap Item.source =
      List.replicate (stars % 2) '*' := by
    rcases Nat.mod_two_eq_zero_or_one stars with h | h <;> rw [h] <;> rfl
  rw [starItems, List.flatMap_append, hpairs, hodd, List.replicate_append_replicate,
    Nat.div_add_mod]

theorem source_reading (source : Text) : (reading source).flatMap Item.source = source := by
  fun_induction reading source with
  | case1 => rfl
  | case2 rest ih =>
    rw [List.flatMap_append, source_starItems, ih, Nat.add_comm, List.replicate_succ,
      List.cons_append, ← takeWhile_star, List.takeWhile_append_dropWhile]
  | case3 c rest hc ih =>
    rw [List.flatMap_cons, ih]
    rfl

/-! ## Wildcards -/

theorem flatMap_eq_append_cons {α β : Type} {f : α → List β} {parts : List α} {b : β}
    {front back : List β} (h : parts.flatMap f = front ++ b :: back) :
    ∃ before part after left right, parts = before ++ part :: after ∧
      f part = left ++ b :: right ∧ front = before.flatMap f ++ left ∧
      back = right ++ after.flatMap f := by
  induction parts generalizing front with
  | nil => simp at h
  | cons part parts ih =>
    rw [List.flatMap_cons] at h
    obtain ⟨middle, rfl, hrest⟩ | ⟨middle, hpart, hback⟩ := List.append_eq_append_iff.mp h
    · obtain ⟨before, part', after, left, right, rfl, hpart, rfl, rfl⟩ := ih hrest
      exact ⟨part :: before, part', after, left, right, rfl, hpart, by simp, rfl⟩
    · cases middle with
      | nil =>
        rw [List.append_nil] at hpart
        obtain ⟨before, part', after, left, right, rfl, hpart', hnil, rfl⟩ :=
          ih (show parts.flatMap f = [] ++ b :: back from hback.symm)
        exact ⟨part :: before, part', after, left, right, rfl, hpart',
          by rw [← hpart, List.flatMap_cons, List.append_assoc, ← hnil, List.append_nil], rfl⟩
      | cons b' middle =>
        obtain ⟨rfl, rfl⟩ := List.cons.inj hback
        exact ⟨[], part, parts, front, middle, rfl, hpart, rfl, rfl⟩

/-- What stands free in the expression of a character has no meaning of its
    own. -/
theorem not_mem_metacharacters_of_bare {c d : Char} (h : .bare d ∈ (Item.literal c).tokens) :
    d ∉ metacharacters := by
  rw [Item.tokens] at h
  split at h
  · simp at h
  · obtain rfl := Token.bare.inj (List.mem_singleton.mp h)
    assumption

/-- What stands free behind the anchor and has a meaning of its own belongs to
    a wildcard. -/
theorem ofWildcard_of_bare {source : Text} {front back : List Token} {c : Char}
    (h : tokens (expression source) = .bare '^' :: (front ++ .bare c :: back))
    (hc : c ∈ metacharacters) : OfWildcard source front c back := by
  rw [tokens_expression] at h
  obtain ⟨before, item, after, left, right, hreading, htokens, rfl, rfl⟩ :=
    flatMap_eq_append_cons (List.cons.inj h).2
  refine .intro hreading ?_ ?_ htokens
  · rw [← source_reading source, hreading, List.flatMap_append, List.flatMap_cons,
      ← List.append_assoc]
  · cases item with
    | literal d =>
      have hmem : Token.bare c ∈ (Item.literal d).tokens := by simp [htokens]
      exact absurd hc (not_mem_metacharacters_of_bare hmem)
    | segment => exact Or.inl rfl
    | span => exact Or.inr rfl

/-! ## Decoding -/

/-- **Nothing is lost in a regular expression.** A decoder gets every source
    back from its expression, so that no two sources share one and patterns are
    equal exactly when their expressions are. Read as characters, escaped or
    plain, `.+` and `[^/]+`, an expression has the items of its source in
    order, a run of stars by pairs from the left. Behind the anchor, whatever
    stands free and has a meaning of its own belongs to a wildcard. -/
theorem decode?_expression :
    (∀ source, decode? (expression source) = some source) ∧
      Function.Injective expression ∧
      (∀ p q : Pattern, p = q ↔ expression p.source = expression q.source) ∧
      (∀ source, itemsOf? (expression source) = some (reading source)) ∧
      ∀ source front c back, tokens (expression source) = .bare '^' :: (front ++ .bare c :: back) →
        c ∈ metacharacters → OfWildcard source front c back := by
  have hdecode : ∀ source, decode? (expression source) = some source := by
    intro source
    rw [decode?, itemsOf?_expression, Option.map_some, source_reading]
  have hinjective : Function.Injective expression := by
    intro source source' h
    have := congrArg decode? h
    rwa [hdecode, hdecode, Option.some.injEq] at this
  refine ⟨hdecode, hinjective, fun p q => ?_, itemsOf?_expression,
    fun source front c back => ofWildcard_of_bare⟩
  constructor
  · rintro rfl
    rfl
  · intro h
    have hsource : p.source = q.source := hinjective h
    cases p
    cases q
    cases hsource
    rfl

/-- A literal that looks like what is written for wildcards, and an odd run of
    stars. -/
theorem decode?_expression_like_wildcards :
    expression ".+[^/]+\\***".toList = "^\\.\\+\\[\\^/\\]\\+\\\\.+[^/]+".toList ∧
      decode? (expression ".+[^/]+\\***".toList) = some ".+[^/]+\\***".toList ∧
      OfWildcard ".+[^/]+\\***".toList
        ([.escaped '.', .escaped '+', .escaped '[', .escaped '^', .bare '/', .escaped ']',
          .escaped '+', .escaped '\\', .bare '.', .bare '+', .bare '[', .bare '^', .bare '/'])
        ']' [.bare '+'] :=
  ⟨by decide, decode?_expression.1 _, decode?_expression.2.2.2.2 _ _ _ _ (by decide) (by decide)⟩

end TypedTriples.Pattern
