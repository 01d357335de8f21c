import Mathlib
import TypedTriples.Proofs.PrefixTable.Inflation
import TypedTriples.Proofs.Ruleset.WellFormed

/-!
# Compact names and resources, there and back

Inflation finds its entry by the prefix of a name. Deflation finds its own by
going through the table: it replaces the first occurrence of each namespace,
wherever in the value that is, and stops at the first entry for which this
changes the value. The two undo each other as long as both end up at the same
entry and the namespace stands at the start of the value.

What has been inflated starts with an angle bracket. No prefix does, so
inflating it again changes nothing.

Main definitions:
* `PrefixTable.compacting?`: the entry that deflation uses.

Main results:
* `PrefixTable.deflate_inverts_inflate`: from a name to its resource and back.
* `PrefixTable.inflate_inverts_deflate`: from a resource to its name and back.
* `PrefixTable.inflate_inflate`: inflating twice is inflating once.
-/

namespace TypedTriples

namespace PrefixTable

variable {table : PrefixTable} {entry : Namespace} {value compacted : Text}

/-! ## The entry that decides -/

/-- The entry that the compact name of a value is made with: the first that
    changes the value. -/
def compacting? (table : PrefixTable) (value : Text) : Option Namespace :=
  table.entries.find? fun entry => compact entry value != value

theorem deflate_eq_map (table : PrefixTable) (value : Text) :
    table.deflate value = (table.compacting? value).map fun entry => compact entry value := by
  unfold deflate compacting?
  rw [List.find?_map]
  rfl

section Place

variable {before after : List Namespace}

theorem get?_of_entries_eq (hentries : table.entries = before ++ entry :: after)
    (hfirst : ∀ earlier ∈ before, earlier.name ≠ entry.name) :
    table.get? entry.name = some entry :=
  assigns_iff.mp ⟨before, after, hentries, hfirst⟩

theorem compacting?_of_entries_eq (hentries : table.entries = before ++ entry :: after)
    (hbefore : ∀ earlier ∈ before, compact earlier value = value)
    (hentry : compact entry value ≠ value) : table.compacting? value = some entry := by
  apply List.find?_eq_some_iff_append.mpr
  refine ⟨bne_iff_ne.mpr hentry, before, after, hentries, ?_⟩
  intro earlier hearlier
  simpa using hbefore earlier hearlier

end Place

theorem get?_of_mem (hdistinct : (table.entries.map Namespace.name).Nodup)
    (hentry : entry ∈ table.entries) : table.get? entry.name = some entry := by
  obtain ⟨before, after, hentries⟩ := List.append_of_mem hentry
  apply get?_of_entries_eq hentries
  intro earlier hearlier
  rw [hentries, List.map_append, List.nodup_append] at hdistinct
  exact hdistinct.2.2 _ (List.mem_map_of_mem hearlier) _ List.mem_cons_self

/-! ## One entry -/

/-- An entry changes no value that its namespace does not stand in, and none at
    all if the namespace is what it is replaced with. -/
theorem compact_eq_self (h : ¬ entry.iri <:+: value ∨ entry.iri = entry.name ++ [':']) :
    compact entry value = value := by
  unfold compact
  rcases h with hfree | hsame
  · exact Text.replaceFirst_of_not_infix hfree _
  · rw [← hsame]
    exact Text.replaceFirst_self value entry.iri

theorem compact_append (entry : Namespace) (suffix : Text) :
    compact entry (entry.iri ++ suffix) = entry.name ++ ':' :: suffix := by
  unfold compact
  rw [Text.replaceFirst_append, List.append_assoc]
  rfl

/-- An entry is found by inflation if it is the first with its prefix, and its
    namespace takes the place of the prefix. -/
theorem inflate_of_get? (hget : table.get? entry.name = some entry) (hname : ':' ∉ entry.name)
    {suffix : Text} (hopen : (entry.iri ++ suffix).head? ≠ some '<') :
    table.inflate (entry.name ++ ':' :: suffix) = '<' :: (entry.iri ++ suffix) ++ ['>'] := by
  have hbase : table.base entry.name = entry.iri := by
    unfold base
    rw [hget]
  unfold inflate
  rw [expand_append hname, hbase, bracket_of_head?_ne hopen]

/-! ## There and back -/

/-- **Inflation, and deflation back.** The entry is the first with its prefix, and
    those before it leave the resource as it is: their namespaces do not stand in
    it, or are replaced by themselves. -/
theorem deflate_inverts_inflate {before after : List Namespace}
    (hentries : table.entries = before ++ entry :: after) (hname : ':' ∉ entry.name)
    (hfirst : ∀ earlier ∈ before, earlier.name ≠ entry.name)
    (hiri : entry.iri ≠ entry.name ++ [':']) {suffix : Text}
    (hopen : (entry.iri ++ suffix).head? ≠ some '<')
    (hearlier : ∀ earlier ∈ before,
      ¬ earlier.iri <:+: entry.iri ++ suffix ∨ earlier.iri = earlier.name ++ [':']) :
    table.inflate (entry.name ++ ':' :: suffix) = '<' :: (entry.iri ++ suffix) ++ ['>'] ∧
      table.deflate (entry.iri ++ suffix) = some (entry.name ++ ':' :: suffix) := by
  constructor
  · exact inflate_of_get? (get?_of_entries_eq hentries hfirst) hname hopen
  · have hchanged : compact entry (entry.iri ++ suffix) ≠ entry.iri ++ suffix := by
      rw [compact_append, ← List.singleton_append, ← List.append_assoc]
      intro heq
      exact hiri (List.append_cancel_right heq).symm
    have hused : table.compacting? (entry.iri ++ suffix) = some entry :=
      compacting?_of_entries_eq hentries
        (fun earlier hmem => compact_eq_self (hearlier earlier hmem)) hchanged
    rw [deflate_eq_map, hused, Option.map_some, compact_append]

/-- The last entry has the empty namespace. Of those before it one stands in the
    resource and is replaced by itself, and the other does not stand in it. -/
theorem deflate_inverts_inflate_empty :
    "x:".toList <:+: "x:e:a".toList ∧ ¬ "urn:".toList <:+: "x:e:a".toList ∧
      inflate ⟨[⟨"x".toList, "x:".toList⟩, ⟨"y".toList, "urn:".toList⟩, ⟨"e".toList, []⟩]⟩
        "e:x:e:a".toList = "<x:e:a>".toList ∧
      deflate ⟨[⟨"x".toList, "x:".toList⟩, ⟨"y".toList, "urn:".toList⟩, ⟨"e".toList, []⟩]⟩
        "x:e:a".toList = some "e:x:e:a".toList := by
  have hoccurs : "x:".toList <:+: "x:e:a".toList := by decide
  have hfree : ¬ "urn:".toList <:+: "x:e:a".toList := by decide
  refine ⟨hoccurs, hfree, ?_⟩
  apply @deflate_inverts_inflate _ ⟨"e".toList, []⟩
    [⟨"x".toList, "x:".toList⟩, ⟨"y".toList, "urn:".toList⟩] [] rfl
  · decide
  · decide
  · decide
  · decide
  · intro earlier hearlier
    simp only [List.mem_cons, List.not_mem_nil, or_false] at hearlier
    rcases hearlier with rfl | rfl
    · exact .inr rfl
    · exact .inl hfree

/-- **Deflation, and inflation back.** The entry that deflation uses is the one
    that inflation finds, since it is the only one with its prefix; where its
    namespace stands at the start, the rest of the value is the suffix. -/
theorem inflate_inverts_deflate (hnames : ∀ entry ∈ table.entries, ':' ∉ entry.name)
    (hdistinct : (table.entries.map Namespace.name).Nodup) (hopen : value.head? ≠ some '<')
    (h : table.deflate value = some compacted) :
    ∃ entry, table.compacting? value = some entry ∧ compacted = compact entry value ∧
      (entry.iri <+: value → table.inflate compacted = '<' :: value ++ ['>']) := by
  rw [deflate_eq_map] at h
  obtain ⟨entry, hused, rfl⟩ := Option.map_eq_some_iff.mp h
  refine ⟨entry, hused, rfl, ?_⟩
  rintro ⟨suffix, rfl⟩
  have hmem : entry ∈ table.entries := List.mem_of_find?_eq_some hused
  rw [compact_append]
  exact inflate_of_get? (get?_of_mem hdistinct hmem) (hnames entry hmem) hopen

/-- The namespace stands twice in the value, and the one of the next entry starts
    with it. -/
theorem inflate_inverts_deflate_nested :
    deflate ⟨[⟨"w".toList, "z/".toList⟩, ⟨"x".toList, "a/".toList⟩, ⟨"y".toList, "a/b".toList⟩]⟩
        "a/b/a/b".toList = some "x:b/a/b".toList ∧
      inflate ⟨[⟨"w".toList, "z/".toList⟩, ⟨"x".toList, "a/".toList⟩, ⟨"y".toList, "a/b".toList⟩]⟩
        "x:b/a/b".toList = "<a/b/a/b>".toList := by
  have hdeflate : deflate
      ⟨[⟨"w".toList, "z/".toList⟩, ⟨"x".toList, "a/".toList⟩, ⟨"y".toList, "a/b".toList⟩]⟩
      "a/b/a/b".toList = some "x:b/a/b".toList := by
    decide
  obtain ⟨entry, hused, -, hback⟩ :=
    inflate_inverts_deflate (by decide) (by decide) (by decide) hdeflate
  have hentry : some entry = some ⟨"x".toList, "a/".toList⟩ := hused.symm.trans (by decide)
  refine ⟨hdeflate, hback ?_⟩
  rw [Option.some.inj hentry]
  decide

/-! ## Inflating twice -/

theorem head?_bracket (t : Text) : (bracket t).head? = some '<' := by
  unfold bracket
  split <;> rfl

/-- What starts with a bracket has no prefix of the table, and is left alone. -/
theorem inflate_of_head?_eq (hnames : ∀ entry ∈ table.entries, entry.name.head? ≠ some '<')
    (h : value.head? = some '<') : table.inflate value = value := by
  obtain ⟨rest, rfl⟩ := List.head?_eq_some_iff.mp h
  have hprefix : (prefixOf ('<' :: rest)).head? = some '<' := rfl
  have hget : table.get? (prefixOf ('<' :: rest)) = none := by
    apply get?_eq_none_iff.mpr
    intro entry hentry hsame
    exact hnames entry hentry (hsame ▸ hprefix)
  unfold inflate expand
  rw [hget]
  rfl

/-- **Inflating twice is inflating once**, whatever the namespaces are, where no
    prefix starts with a bracket. The prefixes of a rules file never do. -/
theorem inflate_inflate :
    (∀ table : PrefixTable, (∀ entry ∈ table.entries, entry.name.head? ≠ some '<') →
      ∀ value, table.inflate (table.inflate value) = table.inflate value) ∧
    ∀ content, ∀ entry ∈ (Ruleset.ofText content).prefixes.entries,
      entry.name.head? ≠ some '<' := by
  constructor
  · intro table hnames value
    exact inflate_of_head?_eq hnames (head?_bracket (table.expand value))
  · intro content entry hentry
    exact Directive.head?_ne_of_isRun
      ((Ruleset.wellFormed_applyAll_directives content).name entry hentry)

/-- One namespace starts with a bracket and has a prefix of the table behind it. -/
theorem inflate_inflate_unclosed :
    (Ruleset.ofText "@prefix x <e:\n@prefix e urn:e:".toList).prefixes.inflate "x:e:a".toList =
        "<e:e:a".toList ∧
      (Ruleset.ofText "@prefix x <e:\n@prefix e urn:e:".toList).prefixes.inflate
        "<e:e:a".toList = "<e:e:a".toList := by
  have honce : (Ruleset.ofText "@prefix x <e:\n@prefix e urn:e:".toList).prefixes.inflate
      "x:e:a".toList = "<e:e:a".toList := by
    cbv
  have hnames := inflate_inflate.2 "@prefix x <e:\n@prefix e urn:e:".toList
  have htwice := inflate_inflate.1 _ hnames "x:e:a".toList
  rw [honce] at htwice
  exact ⟨honce, htwice⟩

end PrefixTable

end TypedTriples
