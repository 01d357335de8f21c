import Mathlib
import TypedTriples.Proofs.Pattern.Cuts
import TypedTriples.Proofs.Ruleset.Resolution

/-!
# Longer predicates and wider patterns

A pattern says how a predicate starts, so a longer predicate keeps its matches. A star
between other characters stands for pieces that two stars in its place stand for as
well, unless a line feed is in them; the stars elsewhere in the source are read as
before, since neither side of the one that is doubled goes on with a star.

Main definitions:
* `Pattern.Item.Widens`: an item that stands for more.

Main results:
* `Pattern.items_append`: the items of two sources put together.
* `Pattern.Cuts.widen`: a text that is cut by items is cut by wider ones.
* `Pattern.accepts_widen`: longer predicates, wider patterns, and the defaults of a
  rules file.
-/

namespace TypedTriples

namespace Pattern

/-! ## Specification -/

/-- Every piece without a line feed that an item stands for, the wider item stands
    for. -/
def Item.Widens (item wide : Item) : Prop :=
  ∀ piece, '\n' ∉ piece → item.Stands piece → wide.Stands piece

/-! ## Sources put together -/

/-- Sources are read apart where the first does not end with a star. -/
theorem items_append {a : Text} (h : a.getLast? ≠ some '*') (b : Text) :
    items (a ++ b) = items a ++ items b := by
  fun_induction reading a with
  | case1 => rw [items_nil, List.nil_append, List.nil_append]
  | case2 rest ih =>
    have hhead := head?_dropWhile_star rest
    rw [cons_star_eq] at h ⊢
    generalize rest.dropWhile (· == '*') = tail at h hhead ih ⊢
    cases tail with
    | nil =>
      -- A source of stars alone ends with a star.
      rw [List.append_nil, List.getLast?_replicate, if_neg (by omega)] at h
      exact absurd rfl h
    | cons c tail =>
      have hhead' : (c :: tail ++ b).head? ≠ some '*' := hhead
      rw [List.getLast?_append_of_ne_nil _ (List.cons_ne_nil c tail)] at h
      rw [List.append_assoc, items_stars hhead', items_stars hhead, ih h, List.append_assoc]
  | case3 c rest hc ih =>
    have hlast : rest.getLast? ≠ some '*' := by
      intro hstar
      rw [List.getLast?_cons, hstar] at h
      exact h rfl
    rw [List.cons_append, items_literal hc, items_literal hc, ih hlast, List.cons_append]

/-! ## Wider items -/

theorem Item.widens_refl (item : Item) : item.Widens item := fun _ _ h => h

theorem Item.segment_widens_span : Item.segment.Widens .span := fun _ hfeed h => ⟨h.1, hfeed⟩

/-- **A text that is cut by items is cut by wider ones**, piece by piece. -/
theorem Cuts.widen {items wide : List Item} (h : List.Forall₂ Item.Widens items wide) {t : Text}
    (hfeed : '\n' ∉ t) (hcuts : Cuts items t) : Cuts wide t := by
  induction h generalizing t with
  | nil => exact hcuts
  | @cons item wideItem items wide hitem _ ih =>
    obtain ⟨piece, rest, rfl, hpiece, hrest⟩ := (cuts_cons item items t).mp hcuts
    rw [List.mem_append, not_or] at hfeed
    exact (cuts_cons wideItem wide _).mpr
      ⟨piece, rest, rfl, hitem piece hfeed.1 hpiece, ih hfeed.2 hrest⟩

/-- One star among other characters, and two in its place. -/
theorem forall₂_widens {a b : Text} (ha : a.getLast? ≠ some '*') (hb : b.head? ≠ some '*') :
    List.Forall₂ Item.Widens (items (a ++ '*' :: b)) (items (a ++ '*' :: '*' :: b)) := by
  have hsame : ∀ list : List Item, List.Forall₂ Item.Widens list list :=
    fun list => List.forall₂_same.mpr fun item _ => item.widens_refl
  rw [items_append ha, items_append ha, items_segment hb, items_span]
  exact List.rel_append (hsame (items a)) (.cons Item.segment_widens_span (hsame (items b)))

/-! ## What a pattern accepts -/

theorem accepts_iff {pattern : Pattern} {t : Text} :
    pattern.accepts t = true ↔ ∃ pre post, t = pre ++ post ∧ Cuts (items pattern.source) pre :=
  matchesStart_iff (items pattern.source) t

theorem accepts_append {pattern : Pattern} {t : Text} (h : pattern.accepts t = true)
    (more : Text) : pattern.accepts (t ++ more) = true := by
  obtain ⟨pre, post, rfl, hcuts⟩ := accepts_iff.mp h
  exact accepts_iff.mpr ⟨pre, post ++ more, List.append_assoc .., hcuts⟩

/-- Two stars in the place of one keep the texts without a line feed. -/
theorem accepts_of_accepts {a b t : Text} {narrow wide : Pattern} (ha : a.getLast? ≠ some '*')
    (hb : b.head? ≠ some '*') (hnarrow : ofSource? (a ++ '*' :: b) = some narrow)
    (hwide : ofSource? (a ++ '*' :: '*' :: b) = some wide) (hfeed : '\n' ∉ t)
    (h : narrow.accepts t = true) : wide.accepts t = true := by
  obtain ⟨pre, post, rfl, hcuts⟩ := accepts_iff.mp h
  rw [source_of_ofSource? hnarrow] at hcuts
  rw [List.mem_append, not_or] at hfeed
  apply accepts_iff.mpr
  rw [source_of_ofSource? hwide]
  exact ⟨pre, post, rfl, hcuts.widen (forall₂_widens ha hb) hfeed.1⟩

end Pattern

/-! ## The defaults of a rules file -/

namespace Ruleset

theorem hasDefault_append {rules : Ruleset} {kind : Kind} {predicate : Text}
    (h : rules.hasDefault kind predicate = true) (more : Text) :
    rules.hasDefault kind (predicate ++ more) = true := by
  unfold hasDefault at h ⊢
  rw [List.any_eq_true] at h ⊢
  obtain ⟨rule, hrule, haccepts⟩ := h
  rw [Bool.and_eq_true] at haccepts
  refine ⟨rule, hrule, ?_⟩
  rw [Bool.and_eq_true]
  exact ⟨haccepts.1, Pattern.accepts_append haccepts.2 more⟩

/-- A default with a wider pattern in the place of another keeps the predicates that had
    one. -/
theorem someDefault_widen {before after : List Directive} {kind kind' : Kind}
    {source source' predicate : Text} {wide : Pattern}
    (hwide : Pattern.ofSource? source' = some wide)
    (haccepts : ∀ narrow, Pattern.ofSource? source = some narrow →
      narrow.accepts predicate = true → wide.accepts predicate = true)
    (h : SomeDefault (before ++ .addDefault kind source :: after) kind' predicate) :
    SomeDefault (before ++ .addDefault kind source' :: after) kind' predicate := by
  obtain ⟨found, pattern, hmem, hpattern, hfound⟩ := h
  rw [List.mem_append, List.mem_cons] at hmem
  rcases hmem with hbefore | heq | hafter
  · exact ⟨found, pattern, by simp [hbefore], hpattern, hfound⟩
  · obtain ⟨rfl, rfl⟩ := Directive.addDefault.inj heq
    exact ⟨source', wide, by simp, hwide, haccepts pattern hpattern hfound⟩
  · exact ⟨found, pattern, by simp [hafter], hpattern, hfound⟩

end Ruleset

namespace Pattern

/-- **Longer predicates and wider patterns keep their matches.** A pattern that accepts a
    text accepts every longer one. Two stars in the place of one, which no other star
    stands beside, accept what the one accepted, line feeds apart. So a default of a
    rules file loses no predicate by either. -/
theorem accepts_widen :
    (∀ (source : Text) (pattern : Pattern), ofSource? source = some pattern →
      ∀ t more, pattern.accepts t = true → pattern.accepts (t ++ more) = true) ∧
    (∀ (a b : Text) (narrow wide : Pattern), a.getLast? ≠ some '*' → b.head? ≠ some '*' →
      ofSource? (a ++ '*' :: b) = some narrow → ofSource? (a ++ '*' :: '*' :: b) = some wide →
      ∀ t, '\n' ∉ t → narrow.accepts t = true → wide.accepts t = true) ∧
    (∀ (content : Text) (kind : Kind) (predicate more : Text),
      (Ruleset.ofText content).hasDefault kind predicate = true →
      (Ruleset.ofText content).hasDefault kind (predicate ++ more) = true) ∧
    ∀ (content widened a b : Text) (kind : Kind) (before after : List Directive) (wide : Pattern),
      a.getLast? ≠ some '*' → b.head? ≠ some '*' →
      Ruleset.directives content = before ++ .addDefault kind (a ++ '*' :: b) :: after →
      Ruleset.directives widened = before ++ .addDefault kind (a ++ '*' :: '*' :: b) :: after →
      ofSource? (a ++ '*' :: '*' :: b) = some wide →
      ∀ kind' predicate, '\n' ∉ predicate →
        (Ruleset.ofText content).hasDefault kind' predicate = true →
        (Ruleset.ofText widened).hasDefault kind' predicate = true := by
  refine ⟨?_, ?_, ?_, ?_⟩
  · intro source pattern _ t more h
    exact accepts_append h more
  · intro a b narrow wide ha hb hnarrow hwide t hfeed h
    exact accepts_of_accepts ha hb hnarrow hwide hfeed h
  · intro content kind predicate more h
    exact Ruleset.hasDefault_append h more
  · intro content widened a b kind before after wide ha hb hcontent hwidened hwide kind' predicate
      hfeed h
    unfold Ruleset.ofText at h ⊢
    rw [Ruleset.hasDefault_applyAll] at h ⊢
    rw [hcontent] at h
    rw [hwidened]
    apply Ruleset.someDefault_widen hwide _ h
    intro narrow hnarrow haccepts
    exact accepts_of_accepts ha hb hnarrow hwide hfeed haccepts

/-- The star that is doubled stands between a run of three stars and another star; the
    pieces of the three are not determined by the text. -/
theorem accepts_widen_among_stars :
    ∃ narrow wide, ofSource? "s:***/*-x*".toList = some narrow ∧
      ofSource? "s:***/**-x*".toList = some wide ∧
      narrow.accepts "s:a/b/c-xy".toList = true ∧
      narrow.accepts "s:a/b/c-xy/z".toList = true ∧
      wide.accepts "s:a/b/c-xy".toList = true ∧
      (Ruleset.ofText "@default iri s:***/**-x*".toList).hasDefault .iri
        "s:a/b/c-xy".toList = true := by
  have hnarrow : ofSource? "s:***/*-x*".toList = some ⟨"s:***/*-x*".toList, by decide⟩ := rfl
  have hwide : ofSource? "s:***/**-x*".toList = some ⟨"s:***/**-x*".toList, by decide⟩ := rfl
  have hcontent : Ruleset.directives "@default iri s:***/*-x*".toList =
      [.addDefault .iri "s:***/*-x*".toList] := by
    cbv
  have hwidened : Ruleset.directives "@default iri s:***/**-x*".toList =
      [.addDefault .iri "s:***/**-x*".toList] := by
    cbv
  have haccepts : Pattern.accepts ⟨"s:***/*-x*".toList, by decide⟩ "s:a/b/c-xy".toList = true := by
    decide
  have hdefault : (Ruleset.ofText "@default iri s:***/*-x*".toList).hasDefault .iri
      "s:a/b/c-xy".toList = true := by
    rw [Ruleset.ofText, hcontent]
    decide
  refine ⟨_, _, hnarrow, hwide, haccepts, ?_, ?_, ?_⟩
  · exact accepts_widen.1 _ _ hnarrow "s:a/b/c-xy".toList "/z".toList haccepts
  · exact accepts_widen.2.1 "s:***/".toList "-x*".toList _ _ (by decide) (by decide) hnarrow hwide
      _ (by decide) haccepts
  · exact accepts_widen.2.2.2 _ _ "s:***/".toList "-x*".toList .iri [] [] _ (by decide)
      (by decide) hcontent hwidened hwide .iri _ (by decide) hdefault

/-- A line feed may be in the piece of one star, but not in that of two. -/
example : matchesStart (items "a*".toList) ['a', '\n'] = true ∧
    matchesStart (items "a**".toList) ['a', '\n'] = false := by
  decide

end Pattern

end TypedTriples
