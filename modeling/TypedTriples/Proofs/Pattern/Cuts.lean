import Mathlib
import TypedTriples.Pattern.Basic

/-!
# What a pattern matches

`Pattern.matchesStart` goes over a text once for each item, from the last item
to the first, and keeps one answer for every end of the text. `Pattern.Cuts`
says what the answers mean without any order of trying: a text can be cut into
consecutive pieces, one for each item.

Results:

* `items_eq_reading`: cutting a source first at `**` and then at `*` reads it
  by runs of stars, two stars for a span and one left over for a segment.
* `matchesEnds_eq_map_tails`: the answers kept by the matcher, one for each end
  of the text.
* `matchesStart_iff`: the matcher agrees with the pieces.
-/

namespace TypedTriples.Pattern

/-! ## Specification -/

/-- What a run of stars stands for: a span for each pair of them and a segment
    for one left over. -/
def starItems (stars : Nat) : List Item :=
  List.replicate (stars / 2) .span ++ List.replicate (stars % 2) .segment

/-- The items of a source, read from left to right by maximal runs of stars and
    single other characters. -/
def reading : Text → List Item
  | [] => []
  | c :: rest =>
    if c = '*' then
      starItems (1 + (rest.takeWhile (· == '*')).length) ++ reading (rest.dropWhile (· == '*'))
    else
      .literal c :: reading rest
termination_by source => source.length
decreasing_by
  · exact Nat.lt_succ_of_le (List.dropWhile_sublist _).length_le
  · exact Nat.lt_succ_self _

/-- A text is what an item stands for. -/
def Item.Stands : Item → Text → Prop
  | literal c, piece => piece = [c]
  | segment, piece => piece ≠ [] ∧ '/' ∉ piece
  | span, piece => piece ≠ [] ∧ '\n' ∉ piece

/-- A text can be cut into consecutive pieces that the items stand for, one
    after the other. -/
def Cuts (items : List Item) (t : Text) : Prop :=
  ∃ pieces : List Text, List.Forall₂ Item.Stands items pieces ∧ pieces.flatten = t

/-! ## Reading by runs of stars -/

/-- What stands before the first part stands before the whole. -/
theorem intercalate_map_modifyHead {α β : Type} {parts : List (List α)} {g : List α → List α}
    {f : List α → List β} (sep front : List β) (hne : parts ≠ [])
    (h : ∀ part, f (g part) = front ++ f part) :
    List.intercalate sep ((parts.modifyHead g).map f) =
      front ++ List.intercalate sep (parts.map f) := by
  obtain ⟨part, rest, rfl⟩ := List.exists_cons_of_ne_nil hne
  cases rest <;> simp [h]

theorem partItems_nil : partItems [] = [] := rfl

theorem partItems_star (part : Text) : partItems ('*' :: part) = .segment :: partItems part := by
  have hne : ((cutSegments part).map fun text => text.map Item.literal) ≠ [] := by
    simp [cutSegments]
  rw [partItems, cutSegments, List.splitOn_cons_eq_if_modifyHead, if_pos (beq_self_eq_true _),
    List.map_cons, ← cutSegments,
    List.intercalate_cons_of_ne_nil hne]
  rfl

theorem partItems_cons {c : Char} (hc : c ≠ '*') (part : Text) :
    partItems (c :: part) = .literal c :: partItems part := by
  have hbeq : ¬ (c == '*') = true := by simpa using hc
  rw [partItems, cutSegments, List.splitOn_cons_eq_if_modifyHead, if_neg hbeq]
  exact intercalate_map_modifyHead [Item.segment] [Item.literal c] (List.splitOn_ne_nil '*' part)
    fun _ => rfl

theorem cutSpans_ne_nil (source : Text) : cutSpans source ≠ [] := by
  fun_induction cutSpans source with
  | case1 => simp
  | case2 rest ih => simp
  | case3 c rest hstars ih => simpa using ih

theorem items_nil : items [] = [] := rfl

theorem items_span (rest : Text) : items ('*' :: '*' :: rest) = .span :: items rest := by
  have hne : (cutSpans rest).map partItems ≠ [] := by simp [cutSpans_ne_nil]
  rw [items, cutSpans, List.map_cons, partItems_nil, List.intercalate_cons_of_ne_nil hne]
  rfl

/-- A character that does not start a `**` belongs to the first part. -/
theorem items_cons {c : Char} {rest : Text} {item : Item}
    (hstars : ¬ (c = '*' ∧ rest.head? = some '*'))
    (h : ∀ part, partItems (c :: part) = item :: partItems part) :
    items (c :: rest) = item :: items rest := by
  have hcut : cutSpans (c :: rest) = (cutSpans rest).modifyHead (c :: ·) := by
    rw [cutSpans]
    rintro tail rfl rfl
    exact hstars ⟨rfl, rfl⟩
  rw [items, hcut]
  exact intercalate_map_modifyHead [.span] [item] (cutSpans_ne_nil rest) h

theorem items_segment {rest : Text} (hrest : rest.head? ≠ some '*') :
    items ('*' :: rest) = .segment :: items rest :=
  items_cons (fun h => hrest h.2) partItems_star

theorem items_literal {c : Char} (hc : c ≠ '*') (rest : Text) :
    items (c :: rest) = .literal c :: items rest :=
  items_cons (fun h => hc h.1) (partItems_cons hc)

/-- A whole run of stars, by pairs from the left. -/
theorem items_stars {rest : Text} (hrest : rest.head? ≠ some '*') (stars : Nat) :
    items (List.replicate stars '*' ++ rest) = starItems stars ++ items rest := by
  induction stars using Nat.twoStepInduction with
  | zero => rfl
  | one => exact items_segment hrest
  | more stars ih _ =>
    have hdiv : (stars + 2) / 2 = stars / 2 + 1 := by omega
    have hmod : (stars + 2) % 2 = stars % 2 := by omega
    have hstars : starItems (stars + 2) = .span :: starItems stars := by
      rw [starItems, hdiv, hmod, List.replicate_succ, List.cons_append, ← starItems]
    rw [hstars, List.cons_append, ← ih]
    exact items_span _

theorem takeWhile_star (t : Text) :
    t.takeWhile (· == '*') = List.replicate (t.takeWhile (· == '*')).length '*' := by
  refine List.eq_replicate_iff.mpr ⟨rfl, fun c hc => ?_⟩
  simpa using List.mem_takeWhile_imp hc

/-- A run of stars and what follows it, where the first star is known. -/
theorem cons_star_eq (rest : Text) :
    '*' :: rest = List.replicate (1 + (rest.takeWhile (· == '*')).length) '*' ++
      rest.dropWhile (· == '*') := by
  rw [Nat.add_comm, List.replicate_succ, List.cons_append, ← takeWhile_star,
    List.takeWhile_append_dropWhile]

theorem head?_dropWhile_star (t : Text) : (t.dropWhile (· == '*')).head? ≠ some '*' := by
  intro h
  have hhead := List.head?_dropWhile_not (· == '*') t
  rw [h] at hhead
  simp at hhead

theorem items_eq_reading (source : Text) : items source = reading source := by
  fun_induction reading source with
  | case1 => exact items_nil
  | case2 rest ih => rw [cons_star_eq, items_stars (head?_dropWhile_star rest), ih]
  | case3 c rest hc ih => rw [items_literal hc, ih]

/-! ## Pieces -/

theorem Item.not_stands_nil (item : Item) : ¬ item.Stands [] := by
  cases item <;> simp [Item.Stands]

/-- Only a wildcard goes on after an admitted character. -/
theorem Item.stands_cons (item : Item) (c : Char) (piece : Text) :
    item.Stands (c :: piece) ↔
      item.admits c = true ∧ (piece = [] ∨ item.repeats = true ∧ item.Stands piece) := by
  cases item with
  | literal d => simp [Item.Stands, Item.admits, Item.repeats]
  | segment | span =>
    simp only [Item.Stands, Item.admits, Item.repeats, bne_iff_ne, List.mem_cons, not_or, ne_eq,
      reduceCtorEq, not_false_eq_true, true_and]
    refine and_congr (not_congr eq_comm) ?_
    by_cases hpiece : piece = []
    · simp [hpiece]
    · simp [hpiece]

theorem cuts_nil (t : Text) : Cuts [] t ↔ t = [] := by
  constructor
  · rintro ⟨pieces, hpieces, rfl⟩
    rw [List.forall₂_nil_left_iff.mp hpieces, List.flatten_nil]
  · rintro rfl
    exact ⟨[], .nil, rfl⟩

theorem cuts_cons (item : Item) (items : List Item) (t : Text) :
    Cuts (item :: items) t ↔ ∃ piece rest, t = piece ++ rest ∧ item.Stands piece ∧ Cuts items rest := by
  constructor
  · rintro ⟨pieces, hpieces, rfl⟩
    obtain ⟨piece, others, hpiece, hothers, rfl⟩ := List.forall₂_cons_left_iff.mp hpieces
    exact ⟨piece, others.flatten, List.flatten_cons, hpiece, others, hothers, rfl⟩
  · rintro ⟨piece, rest, rfl, hpiece, others, hothers, rfl⟩
    exact ⟨piece :: others, .cons hpiece hothers, List.flatten_cons⟩

/-! ## One item -/

/-- Whether a text starts with a piece that the item stands for and goes on
    with one of the ends that `after` accepts. -/
def Item.starts (item : Item) (after : Text → Bool) : Text → Bool
  | [] => false
  | c :: rest => item.admits c && (after rest || (item.repeats && item.starts after rest))

theorem Item.starts_eq_true_iff (item : Item) (after : Text → Bool) (t : Text) :
    item.starts after t = true ↔
      ∃ piece rest, t = piece ++ rest ∧ item.Stands piece ∧ after rest = true := by
  induction t with
  | nil =>
    refine ⟨fun h => absurd h Bool.false_ne_true, ?_⟩
    rintro ⟨piece, rest, h, hpiece, -⟩
    rw [(List.append_eq_nil_iff.mp h.symm).1] at hpiece
    exact absurd hpiece item.not_stands_nil
  | cons c t ih =>
    rw [Item.starts, Bool.and_eq_true, Bool.or_eq_true, Bool.and_eq_true, ih]
    constructor
    · rintro ⟨hc, hafter | ⟨hrepeats, piece, rest, rfl, hpiece, hafter⟩⟩
      · exact ⟨[c], t, rfl, (item.stands_cons c []).mpr ⟨hc, Or.inl rfl⟩, hafter⟩
      · exact ⟨c :: piece, rest, rfl,
          (item.stands_cons c piece).mpr ⟨hc, Or.inr ⟨hrepeats, hpiece⟩⟩, hafter⟩
    · rintro ⟨piece, rest, heq, hpiece, hafter⟩
      cases piece with
      | nil => exact absurd hpiece item.not_stands_nil
      | cons d piece =>
        obtain ⟨rfl, rfl⟩ := List.cons.inj heq
        obtain ⟨hc, rfl | ⟨hrepeats, hpiece⟩⟩ := (item.stands_cons c piece).mp hpiece
        · exact ⟨hc, Or.inl hafter⟩
        · exact ⟨hc, Or.inr ⟨hrepeats, piece, rest, rfl, hpiece, hafter⟩⟩

/-- One step of the matcher turns the answers about what follows an item into
    the answers about the item and what follows it. -/
theorem Item.before_map_tails (item : Item) (after : Text → Bool) (t : Text) :
    item.before t (t.tails.map after) = t.tails.map (item.starts after) := by
  induction t with
  | nil => rfl
  | cons c t ih =>
    have hhead : ∀ f : Text → Bool, (t.tails.map f).headD false = f t := by
      intro f
      cases t <;> rfl
    rw [List.tails_cons, List.map_cons, List.map_cons, Item.before, ih, hhead, hhead, Item.starts]

/-! ## All items -/

/-- Whether a text starts with pieces for all items, item by item. -/
def startsWith (items : List Item) : Text → Bool :=
  items.foldr Item.starts fun _ => true

theorem startsWith_eq_true_iff (items : List Item) (t : Text) :
    startsWith items t = true ↔ ∃ pre post, t = pre ++ post ∧ Cuts items pre := by
  induction items generalizing t with
  | nil => simp [startsWith, cuts_nil]
  | cons item items ih =>
    rw [startsWith, List.foldr_cons, ← startsWith, Item.starts_eq_true_iff]
    constructor
    · rintro ⟨piece, rest, rfl, hpiece, hrest⟩
      obtain ⟨pre, post, rfl, hcuts⟩ := (ih rest).mp hrest
      exact ⟨piece ++ pre, post, (List.append_assoc ..).symm,
        (cuts_cons item items _).mpr ⟨piece, pre, rfl, hpiece, hcuts⟩⟩
    · rintro ⟨pre, post, rfl, hcuts⟩
      obtain ⟨piece, rest, rfl, hpiece, hrest⟩ := (cuts_cons item items pre).mp hcuts
      exact ⟨piece, rest ++ post, List.append_assoc .., hpiece,
        (ih _).mpr ⟨rest, post, rfl, hrest⟩⟩

/-- The answers that the matcher keeps are those about the ends of the text. -/
theorem matchesEnds_eq_map_tails (items : List Item) (t : Text) :
    matchesEnds items t = t.tails.map (startsWith items) := by
  induction items with
  | nil => simp [matchesEnds, startsWith, List.map_const']
  | cons item items ih =>
    rw [matchesEnds, List.foldr_cons, ← matchesEnds, ih, Item.before_map_tails]
    rfl

/-- **The matcher.** A text matches exactly when some start of it can be cut
    into pieces. -/
theorem matchesStart_iff (items : List Item) (t : Text) :
    matchesStart items t = true ↔ ∃ pre post, t = pre ++ post ∧ Cuts items pre := by
  rw [matchesStart, matchesEnds_eq_map_tails, ← startsWith_eq_true_iff]
  cases t <;> rfl

end TypedTriples.Pattern
