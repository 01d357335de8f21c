import Mathlib
import TypedTriples.Triple
import TypedTriples.Proofs.Json.Accepted
import TypedTriples.Proofs.Json.Strings

/-!
# Records in JSON

A text is a record exactly if it spells an object or an array that stands for a triple.
Of an object only the members with the three names count. Others may stand in front of
them, between and behind, of one name or of many, and may hold any value: all that is
asked is that their names have a text. The three names are told apart as texts, so that
it does not matter how they are spelled.

Main definitions:
* `Json.HasOnce`, `Json.Lacks`: members that have a text under a name, and members that
  have not.
* `Triple.IsRecord`: the values that stand for a triple.

Main results:
* `Triple.ofJson?_eq_some_iff`: what is decoded of a value.
* `Triple.read?_iff`: the texts that are records of a triple, and objects that are none.
-/

namespace TypedTriples

/-! ## Specification -/

namespace Json

/-- Members that have a name once, with a value. -/
structure HasOnce (members : List (Option Text × Json)) (name : Text) (value : Json) : Prop where
  once : (members.map Prod.fst).count (some name) = 1
  mem : (some name, value) ∈ members

/-- What members may lack under a name: the name itself, its being there once, or a text
    as its value. -/
inductive Lacks (members : List (Option Text × Json)) (name : Text) : Prop
  | missing (h : some name ∉ members.map Prod.fst)
  | repeated (h : 1 < (members.map Prod.fst).count (some name))
  | noText {value : Json} (hmem : (some name, value) ∈ members)
      (hvalue : ∀ text, value ≠ .ofText text)

end Json

namespace Triple

/-- The names of the members that count. -/
def names : List Text := ["subject".toList, "predicate".toList, "object".toList]

/-- The members that count, with their texts. -/
def fields (t : Triple) : List (Text × Text) := names.zip [t.subject, t.predicate, t.object]

/-- A value that stands for a triple. Half of a surrogate pair may stand in the value of
    another member, but not in a name. -/
inductive IsRecord (t : Triple) : Json → Prop
  | object {members : List (Option Text × Json)}
      (hnames : ∀ member ∈ members, ∃ name, member.1 = some name)
      (hfields : ∀ field ∈ t.fields, Json.HasOnce members field.1 (.ofText field.2)) :
      IsRecord t (.object members)
  | array : IsRecord t (.array [.ofText t.subject, .ofText t.predicate, .ofText t.object])

end Triple

/-! ## Members -/

namespace Json

variable {members : List (Option Text × Json)} {named : List (Text × Json)} {name text : Text}
  {value other : Json}

theorem text?_eq_some_iff : value.text? = some text ↔ value = .ofText text := by
  cases value <;> simp [text?, ofText]

theorem members?_eq_some_iff :
    (object members).members? = some named ↔ members = named.map (Prod.map some id) := by
  rw [members?]
  induction members generalizing named with
  | nil =>
    rw [List.mapM_nil]
    constructor
    · intro h
      obtain rfl := Option.some.inj h
      rfl
    · intro h
      rw [List.map_eq_nil_iff.mp h.symm]
      rfl
  | cons member members ih =>
    obtain ⟨name, value⟩ := member
    rw [List.mapM_cons]
    constructor
    · intro h
      obtain ⟨first, hfirst, h⟩ := Option.bind_eq_some_iff.mp h
      obtain ⟨rest, hrest, h⟩ := Option.bind_eq_some_iff.mp h
      obtain ⟨name, rfl, rfl⟩ := Option.map_eq_some_iff.mp hfirst
      obtain rfl := Option.some.inj h
      rw [ih.mp hrest]
      rfl
    · intro h
      obtain ⟨first, rest, rfl, hfirst, hrest⟩ := List.map_eq_cons_iff.mp h.symm
      obtain ⟨rfl, rfl⟩ := Prod.mk.inj hfirst
      rw [ih.mpr hrest.symm]
      rfl

theorem exists_named (h : ∀ member ∈ members, ∃ name, member.1 = some name) :
    ∃ named : List (Text × Json), members = named.map (Prod.map some id) := by
  have hrange : members ∈ Set.range (List.map (Prod.map some id)) := by
    rw [Set.range_list_map]
    intro member hmember
    obtain ⟨name, hname⟩ := h member hmember
    exact ⟨(name, member.2), Prod.ext hname.symm rfl⟩
  obtain ⟨named, hnamed⟩ := hrange
  exact ⟨named, hnamed.symm⟩

theorem hasOnce_iff_filter :
    HasOnce members name value ↔
      members.filter (fun member => member.1 == some name) = [(some name, value)] := by
  have hcount : (members.map Prod.fst).count (some name) =
      (members.filter fun member => member.1 == some name).length := by
    rw [List.count_eq_countP, List.countP_map, List.countP_eq_length_filter]
    rfl
  constructor
  · intro h
    obtain ⟨member, hmember⟩ := List.length_eq_one_iff.mp (hcount.symm.trans h.once)
    have hmem : (some name, value) ∈ members.filter fun member => member.1 == some name :=
      List.mem_filter.mpr ⟨h.mem, by simp⟩
    rw [hmember] at hmem ⊢
    rw [List.mem_singleton.mp hmem]
  · intro h
    have hmem : (some name, value) ∈ members.filter fun member => member.1 == some name := by
      rw [h]
      exact List.mem_singleton_self _
    refine ⟨?_, (List.mem_filter.mp hmem).1⟩
    rw [hcount, h]
    rfl

theorem HasOnce.unique (h : HasOnce members name value) (hmem : (some name, other) ∈ members) :
    other = value := by
  have hother : (some name, other) ∈ members.filter fun member => member.1 == some name :=
    List.mem_filter.mpr ⟨hmem, by simp⟩
  rw [hasOnce_iff_filter.mp h, List.mem_singleton] at hother
  exact (Prod.mk.inj hother).2

/-- **The one member with a name** is found if it is the only one. -/
theorem only?_eq_some_iff :
    only? name named = some value ↔ HasOnce (named.map (Prod.map some id)) name value := by
  have hinjective : Function.Injective (Prod.map (some : Text → Option Text) (id : Json → Json)) :=
    (Option.some_injective Text).prodMap Function.injective_id
  have hfilter : (named.map (Prod.map some id)).filter (fun member => member.1 == some name) =
      (named.filter fun member => member.1 == name).map (Prod.map some id) := by
    rw [List.filter_map]
    rfl
  have hone : [(some name, value)] = [(name, value)].map (Prod.map some id) := rfl
  rw [hasOnce_iff_filter, hfilter, hone, hinjective.list_map.eq_iff, only?]
  constructor
  · intro h
    split at h
    · rename_i member hmember
      have hname : member ∈ named.filter fun member => member.1 == name := by
        rw [hmember]
        exact List.mem_singleton_self member
      rw [hmember, ← Option.some.inj h, ← beq_iff_eq.mp (List.mem_filter.mp hname).2]
    · cases h
  · intro h
    rw [h]

theorem HasOnce.not_lacks (h : HasOnce members name (.ofText text)) : ¬ Lacks members name := by
  intro hlacks
  cases hlacks with
  | missing hname => exact hname (List.mem_map_of_mem h.mem)
  | repeated hcount =>
    have honce := h.once
    omega
  | noText hmem hvalue => exact hvalue text (h.unique hmem)

end Json

/-! ## Values -/

namespace Triple

variable {t : Triple} {members : List (Option Text × Json)} {value : Json}

theorem forall_fields {p : Text × Text → Prop} :
    (∀ field ∈ t.fields, p field) ↔ p ("subject".toList, t.subject) ∧
      p ("predicate".toList, t.predicate) ∧ p ("object".toList, t.object) := by
  unfold fields names
  rw [List.zip_cons_cons, List.zip_cons_cons, List.zip_cons_cons, List.zip_nil_left,
    List.forall_mem_cons, List.forall_mem_cons, List.forall_mem_cons]
  simp only [List.not_mem_nil, false_imp_iff, implies_true, and_true]

/-- What is decoded of an object is in the members with the three names. -/
theorem ofJson?_object :
    ofJson? (.object members) = some t ↔ ∃ named, (Json.object members).members? = some named ∧
      ∀ field ∈ t.fields, Json.only? field.1 named = some (.ofText field.2) := by
  rw [ofJson?]
  constructor
  · intro h
    obtain ⟨named, hnamed, h⟩ := Option.bind_eq_some_iff.mp h
    obtain ⟨subject, hsubject, h⟩ := Option.bind_eq_some_iff.mp h
    obtain ⟨predicate, hpredicate, h⟩ := Option.bind_eq_some_iff.mp h
    obtain ⟨object, hobject, h⟩ := Option.bind_eq_some_iff.mp h
    obtain ⟨s, hs, h⟩ := Option.bind_eq_some_iff.mp h
    obtain ⟨p, hp, h⟩ := Option.bind_eq_some_iff.mp h
    obtain ⟨o, ho, h⟩ := Option.bind_eq_some_iff.mp h
    obtain rfl := Option.some.inj h
    rw [Json.text?_eq_some_iff.mp hs] at hsubject
    rw [Json.text?_eq_some_iff.mp hp] at hpredicate
    rw [Json.text?_eq_some_iff.mp ho] at hobject
    exact ⟨named, hnamed, forall_fields.mpr ⟨hsubject, hpredicate, hobject⟩⟩
  · rintro ⟨named, hnamed, hfields⟩
    obtain ⟨hsubject, hpredicate, hobject⟩ := forall_fields.mp hfields
    refine Option.bind_eq_some_iff.mpr ⟨named, hnamed, ?_⟩
    refine Option.bind_eq_some_iff.mpr ⟨_, hsubject, ?_⟩
    refine Option.bind_eq_some_iff.mpr ⟨_, hpredicate, ?_⟩
    exact Option.bind_eq_some_iff.mpr ⟨_, hobject, rfl⟩

theorem eq_of_ofJson?_array {items : List Json} (h : ofJson? (.array items) = some t) :
    items = [.ofText t.subject, .ofText t.predicate, .ofText t.object] := by
  unfold ofJson? at h
  split at h
  · rename_i subject predicate object heq
    obtain rfl := Json.array.inj heq
    obtain ⟨s, hs, h⟩ := Option.bind_eq_some_iff.mp h
    obtain ⟨p, hp, h⟩ := Option.bind_eq_some_iff.mp h
    obtain ⟨o, ho, h⟩ := Option.bind_eq_some_iff.mp h
    obtain rfl := Option.some.inj h
    rw [Json.text?_eq_some_iff.mp hs, Json.text?_eq_some_iff.mp hp, Json.text?_eq_some_iff.mp ho]
  · rename_i heq
    cases heq
  · cases h

/-- **What is decoded of a value** is the triple that it stands for. -/
theorem ofJson?_eq_some_iff : ofJson? value = some t ↔ IsRecord t value := by
  constructor
  · intro h
    cases value with
    | object members =>
      obtain ⟨named, hnamed, hfields⟩ := ofJson?_object.mp h
      have hmembers := Json.members?_eq_some_iff.mp hnamed
      refine .object ?_ fun field hfield => ?_
      · intro member hmember
        rw [hmembers] at hmember
        obtain ⟨entry, -, rfl⟩ := List.mem_map.mp hmember
        exact ⟨entry.1, rfl⟩
      · rw [hmembers]
        exact Json.only?_eq_some_iff.mp (hfields field hfield)
    | array items =>
      rw [eq_of_ofJson?_array h]
      exact .array
    | null | bool | number | string => cases h
  · intro h
    cases h with
    | array => rfl
    | object hnames hfields =>
      obtain ⟨named, rfl⟩ := Json.exists_named hnames
      refine ofJson?_object.mpr ⟨named, Json.members?_eq_some_iff.mpr rfl, fun field hfield => ?_⟩
      exact Json.only?_eq_some_iff.mpr (hfields field hfield)

theorem ofJson?_eq_none {name : Text} (hname : name ∈ names) (h : Json.Lacks members name) :
    ofJson? (.object members) = none := by
  rw [Option.eq_none_iff_forall_ne_some]
  intro t ht
  cases ofJson?_eq_some_iff.mp ht with
  | object hnames hfields =>
    have hkeys : t.fields.map Prod.fst = names := rfl
    rw [← hkeys] at hname
    obtain ⟨field, hfield, rfl⟩ := List.mem_map.mp hname
    exact (hfields field hfield).not_lacks h

/-! ## Texts -/

/-- **Records in JSON.** A text is read as a triple exactly if it spells, between blanks,
    an object or an array that stands for it. An object that lacks one of the three
    texts is not read, whatever else it has. A string of the grammar, name or value, has
    a text exactly if it spells that text. -/
theorem read?_iff :
    (∀ text t, read? text = some t ↔ ∃ value before spelling after, IsRecord t value ∧
      Json.IsSpaces before ∧ Json.Spells value spelling ∧ Json.IsSpaces after ∧
      text = before ++ spelling ++ after) ∧
    (∀ name ∈ names, ∀ members, Json.Lacks members name → ∀ before spelling after,
      Json.IsSpaces before → Json.Spells (.object members) spelling → Json.IsSpaces after →
      read? (before ++ spelling ++ after) = none) ∧
    ∀ text quoted, (∃ units, Json.SpellsUnits units quoted ∧
      Json.Reader.textOfUnits? units = some text) ↔ Json.SpellsText text quoted := by
  refine ⟨fun text t => ?_, ?_, fun text quoted => Json.spellsText_iff.symm⟩
  · rw [read?, Option.bind_eq_some_iff]
    constructor
    · rintro ⟨value, hread, hvalue⟩
      obtain ⟨before, spelling, after, hbefore, hspelling, hafter, rfl⟩ :=
        Json.read?_eq_some_iff.mp hread
      exact ⟨value, before, spelling, after, ofJson?_eq_some_iff.mp hvalue, hbefore, hspelling,
        hafter, rfl⟩
    · rintro ⟨value, before, spelling, after, hvalue, hbefore, hspelling, hafter, rfl⟩
      exact ⟨value, Json.read?_of_spells hbefore hspelling hafter, ofJson?_eq_some_iff.mpr hvalue⟩
  · intro name hname members hlacks before spelling after hbefore hspelling hafter
    rw [read?, Json.read?_of_spells hbefore hspelling hafter, Option.bind_some,
      ofJson?_eq_none hname hlacks]

/-- Names and values are escaped, another member stands twice and holds what would be
    a member; a name that comes back in another spelling is one too many. -/
theorem read?_iff_escaped_names :
    read? ("\t\x7b\"s\\u0075bject\":\"\\ud83d\\ude00\",".toList ++
        "\"x\":[\x7b\"object\":\"\\ud800\"\x7d],\"predicate\":\"\\/\",".toList ++
        " \"x\" : -0.5E+1 ,\"object\":\"\"\x7d\r".toList) = some ⟨"😀".toList, "/".toList, []⟩ ∧
      read? ("\x7b\"subject\":\"\",\"predicate\":\"\",".toList ++
        "\"object\":\"\",\"\\u006Fbject\":\"\"\x7d".toList) = none := by
  have hfirst : Json.read? ("\t\x7b\"s\\u0075bject\":\"\\ud83d\\ude00\",".toList ++
        "\"x\":[\x7b\"object\":\"\\ud800\"\x7d],\"predicate\":\"\\/\",".toList ++
        " \"x\" : -0.5E+1 ,\"object\":\"\"\x7d\r".toList) =
      some (.object [(some "subject".toList, .ofText "😀".toList),
        (some "x".toList, .array [.object [(some "object".toList, .string none)]]),
        (some "predicate".toList, .ofText "/".toList), (some "x".toList, .number "-0.5E+1".toList),
        (some "object".toList, .ofText [])]) := by
    cbv
  have hsecond : Json.read? ("\x7b\"subject\":\"\",\"predicate\":\"\",".toList ++
        "\"object\":\"\",\"\\u006Fbject\":\"\"\x7d".toList) =
      some (.object [(some "subject".toList, .ofText []), (some "predicate".toList, .ofText []),
        (some "object".toList, .ofText []), (some "object".toList, .ofText [])]) := by
    cbv
  constructor
  · obtain ⟨before, spelling, after, hbefore, hspelling, hafter, htext⟩ :=
      Json.read?_eq_some_iff.mp hfirst
    refine (read?_iff.1 _ _).mpr
      ⟨_, before, spelling, after, .object ?_ ?_, hbefore, hspelling, hafter, htext⟩
    · simp
    · exact forall_fields.mpr ⟨⟨by decide, by simp⟩, ⟨by decide, by simp⟩, ⟨by decide, by simp⟩⟩
  · obtain ⟨before, spelling, after, hbefore, hspelling, hafter, htext⟩ :=
      Json.read?_eq_some_iff.mp hsecond
    rw [htext]
    exact read?_iff.2.1 "object".toList (by simp [names]) _ (.repeated (by decide)) before spelling
      after hbefore hspelling hafter

end Triple

end TypedTriples
