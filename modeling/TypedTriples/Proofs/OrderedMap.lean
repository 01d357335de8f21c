import Mathlib
import TypedTriples.OrderedMap

/-!
# Insertion into an ordered map

What one insertion does to the keys and the entries of a map, and what many
insertions come to: a key keeps the place of its first insertion and has the
value of its last.

Main definitions:
* `insertAll`: a map after the insertion of entries, one after the other.

Main results:
* `nodup_keys_insert`, `mem_put`: keys stay distinct, and no entry
  comes from elsewhere.
* `insertAll_insertAll`: entries may be collected in a map of their own first.
* `entries_insertAll`: all entries after the insertion of those of another map.
-/

namespace TypedTriples.OrderedMap

variable {α : Type}

/-- The map after the insertion of entries, one after the other. -/
def insertAll (map : OrderedMap α) (entries : List (Text × α)) : OrderedMap α :=
  entries.foldl (fun map entry => map.insert entry.1 entry.2) map

@[simp] theorem insertAll_nil (map : OrderedMap α) : map.insertAll [] = map := rfl

@[simp] theorem insertAll_cons (map : OrderedMap α) (entry : Text × α)
    (entries : List (Text × α)) :
    map.insertAll (entry :: entries) = (map.insert entry.1 entry.2).insertAll entries := rfl

theorem insertAll_append (map : OrderedMap α) (front back : List (Text × α)) :
    map.insertAll (front ++ back) = (map.insertAll front).insertAll back :=
  List.foldl_append

/-! ## One insertion -/

theorem put_of_not_mem {key : Text} {entries : List (Text × α)}
    (h : key ∉ entries.map Prod.fst) (value : α) :
    put key value entries = entries ++ [(key, value)] := by
  induction entries with
  | nil => rfl
  | cons entry rest ih =>
    have hne : entry.1 ≠ key := fun heq => h (by simp [heq])
    have hrest : key ∉ rest.map Prod.fst := fun hmem => h (by simp [hmem])
    rw [put, if_neg hne, ih hrest, List.cons_append]

theorem map_fst_put_of_mem {key : Text} {entries : List (Text × α)}
    (h : key ∈ entries.map Prod.fst) (value : α) :
    (put key value entries).map Prod.fst = entries.map Prod.fst := by
  induction entries with
  | nil => simp at h
  | cons entry rest ih =>
    rw [put]
    by_cases heq : entry.1 = key
    · rw [if_pos heq, List.map_cons, List.map_cons, heq]
    · have hrest : key ∈ rest.map Prod.fst := by
        rw [List.map_cons, List.mem_cons] at h
        exact h.resolve_left fun hkey => heq hkey.symm
      rw [if_neg heq, List.map_cons, List.map_cons, ih hrest]

/-- A new key comes last; a key that is there already stays where it is. -/
theorem keys_insert (map : OrderedMap α) (key : Text) (value : α) :
    (map.insert key value).keys = if key ∈ map.keys then map.keys else map.keys ++ [key] := by
  unfold keys insert
  by_cases h : key ∈ map.entries.map Prod.fst
  · rw [if_pos h, map_fst_put_of_mem h]
  · rw [if_neg h, put_of_not_mem h, List.map_append]
    rfl

theorem mem_keys_insert {map : OrderedMap α} {key other : Text} {value : α} :
    other ∈ (map.insert key value).keys ↔ other ∈ map.keys ∨ other = key := by
  rw [keys_insert]
  split
  · rename_i h
    constructor
    · exact Or.inl
    · rintro (hmem | rfl)
      · exact hmem
      · exact h
  · rw [List.mem_append, List.mem_singleton]

theorem nodup_keys_insert {map : OrderedMap α} (h : map.keys.Nodup) (key : Text) (value : α) :
    (map.insert key value).keys.Nodup := by
  rw [keys_insert]
  split
  · exact h
  · rename_i hnot
    rw [List.nodup_append]
    refine ⟨h, List.nodup_singleton key, ?_⟩
    rintro a ha b hb rfl
    rw [List.mem_singleton.mp hb] at ha
    exact hnot ha

theorem mem_put {key : Text} {value : α} {entry : Text × α} {entries : List (Text × α)}
    (h : entry ∈ put key value entries) : entry = (key, value) ∨ entry ∈ entries := by
  induction entries with
  | nil => exact Or.inl (List.mem_singleton.mp h)
  | cons first rest ih =>
    rw [put] at h
    split at h
    · rcases List.mem_cons.mp h with rfl | hrest
      · exact Or.inl rfl
      · exact Or.inr (List.mem_cons_of_mem first hrest)
    · rcases List.mem_cons.mp h with rfl | hrest
      · exact Or.inr List.mem_cons_self
      · exact (ih hrest).imp id (List.mem_cons_of_mem first)

/-- Where the keys are distinct, the entry of the key is the only one to change. -/
theorem put_eq_map {key : Text} {entries : List (Text × α)} (hnodup : (entries.map Prod.fst).Nodup)
    (hmem : key ∈ entries.map Prod.fst) (value : α) :
    put key value entries =
      entries.map fun entry => if entry.1 = key then (key, value) else entry := by
  induction entries with
  | nil => simp at hmem
  | cons entry rest ih =>
    obtain ⟨hnot, hrest⟩ := List.nodup_cons.mp hnodup
    rw [put, List.map_cons]
    by_cases heq : entry.1 = key
    · have hid : ∀ other ∈ rest, (if other.1 = key then (key, value) else other) = other := by
        intro other hother
        have hne : other.1 ≠ key := by
          intro hkey
          exact hnot (List.mem_map.mpr ⟨other, hother, hkey.trans heq.symm⟩)
        rw [if_neg hne]
      rw [if_pos heq, if_pos heq, List.map_congr_left hid, List.map_id']
    · have hmem' : key ∈ rest.map Prod.fst := by
        rw [List.map_cons, List.mem_cons] at hmem
        exact hmem.resolve_left fun hkey => heq hkey.symm
      rw [if_neg heq, if_neg heq, ih hrest hmem']

theorem lookup_cons_of_ne {key other : Text} (h : other ≠ key) (value : α)
    (entries : List (Text × α)) :
    ((key, value) :: entries).lookup other = entries.lookup other := by
  rw [List.lookup_cons, beq_eq_false_iff_ne.mpr h]

theorem lookup_eq_none_iff_not_mem {key : Text} {entries : List (Text × α)} :
    entries.lookup key = none ↔ key ∉ entries.map Prod.fst := by
  rw [List.lookup_eq_none_iff]
  constructor
  · intro h hmem
    obtain ⟨entry, hentry, rfl⟩ := List.mem_map.mp hmem
    simpa using h entry hentry
  · intro h entry hentry
    have hne : key ≠ entry.1 := by
      rintro rfl
      exact h (List.mem_map_of_mem hentry)
    simpa using hne

theorem get?_eq_none_iff {map : OrderedMap α} {key : Text} :
    map.get? key = none ↔ key ∉ map.keys :=
  lookup_eq_none_iff_not_mem

theorem mem_entries_of_get? {map : OrderedMap α} {key : Text} {value : α}
    (h : map.get? key = some value) : (key, value) ∈ map.entries := by
  obtain ⟨front, back, hsplit, -⟩ := List.lookup_eq_some_iff.mp h
  rw [hsplit]
  simp

/-! ## Two insertions -/

theorem put_put_self (key : Text) (value old : α) (entries : List (Text × α)) :
    put key value (put key old entries) = put key value entries := by
  induction entries with
  | nil => simp [put]
  | cons entry rest ih =>
    by_cases h : entry.1 = key
    · simp [put, h]
    · simp [put, h, ih]

/-- Two keys may be inserted in either order if one of them is there already:
    its place is fixed. -/
theorem put_put_comm {key other : Text} (hne : key ≠ other) (value value' : α)
    {entries : List (Text × α)} (h : key ∈ entries.map Prod.fst) :
    put key value (put other value' entries) = put other value' (put key value entries) := by
  induction entries with
  | nil => simp at h
  | cons entry rest ih =>
    by_cases hkey : entry.1 = key
    · simp [put, hkey, hne]
    · have hrest : key ∈ rest.map Prod.fst := by
        rw [List.map_cons, List.mem_cons] at h
        exact h.resolve_left fun heq => hkey heq.symm
      by_cases hother : entry.1 = other
      · simp [put, hother, hne.symm]
      · simp [put, hkey, hother, ih hrest]

/-! ## Many insertions -/

theorem nodup_keys_insertAll {map : OrderedMap α} (h : map.keys.Nodup)
    (entries : List (Text × α)) : (map.insertAll entries).keys.Nodup := by
  induction entries generalizing map with
  | nil => exact h
  | cons entry rest ih => exact ih (nodup_keys_insert h entry.1 entry.2)

theorem mem_keys_insertAll {map : OrderedMap α} {entries : List (Text × α)} {key : Text} :
    key ∈ (map.insertAll entries).keys ↔ key ∈ map.keys ∨ key ∈ entries.map Prod.fst := by
  induction entries generalizing map with
  | nil => simp
  | cons entry rest ih =>
    rw [insertAll_cons, ih, mem_keys_insert, List.map_cons, List.mem_cons, or_assoc]

theorem size_insertAll_empty (entries : List (Text × α)) :
    (insertAll {} entries).size = (entries.map Prod.fst).toFinset.card := by
  have hempty : ({} : OrderedMap α).keys.Nodup := List.nodup_nil
  have hnodup := nodup_keys_insertAll hempty entries
  have hkeys : (insertAll {} entries).keys.toFinset = (entries.map Prod.fst).toFinset := by
    ext key
    rw [List.mem_toFinset, List.mem_toFinset, mem_keys_insertAll]
    simp [keys]
  rw [← hkeys, List.toFinset_card_of_nodup hnodup, size, keys, List.length_map]

/-- The value of a key that is there already may be set before or after the
    insertion of other keys. -/
theorem insertAll_insert {map : OrderedMap α} {key : Text} (hmem : key ∈ map.keys)
    {entries : List (Text × α)} (hnot : key ∉ entries.map Prod.fst) (value : α) :
    (map.insertAll entries).insert key value = (map.insert key value).insertAll entries := by
  induction entries generalizing map with
  | nil => rfl
  | cons entry rest ih =>
    have hne : key ≠ entry.1 := fun heq => hnot (by simp [heq])
    have hrest : key ∉ rest.map Prod.fst := fun h => hnot (by simp [h])
    have hcomm : (map.insert entry.1 entry.2).insert key value =
        (map.insert key value).insert entry.1 entry.2 :=
      congrArg OrderedMap.mk (put_put_comm hne value entry.2 hmem)
    rw [insertAll_cons, insertAll_cons, ih (mem_keys_insert.mpr (Or.inl hmem)) hrest, hcomm]

/-- Inserting the entries of a map and then one more is inserting the entries of
    the map with one more. -/
theorem insertAll_put (map : OrderedMap α) (key : Text) (value : α) {entries : List (Text × α)}
    (h : (entries.map Prod.fst).Nodup) :
    map.insertAll (put key value entries) = (map.insertAll entries).insert key value := by
  induction entries generalizing map with
  | nil => rfl
  | cons entry rest ih =>
    obtain ⟨hnot, hrest⟩ := List.nodup_cons.mp h
    rw [put]
    by_cases heq : entry.1 = key
    · subst heq
      have hself : (map.insert entry.1 entry.2).insert entry.1 value = map.insert entry.1 value :=
        congrArg OrderedMap.mk (put_put_self entry.1 value entry.2 map.entries)
      rw [if_pos rfl, insertAll_cons, insertAll_cons,
        insertAll_insert (mem_keys_insert.mpr (Or.inr rfl)) hnot, hself]
    · rw [if_neg heq, insertAll_cons, insertAll_cons, ih _ hrest]

/-- Entries may be collected in a map of their own before they are inserted. -/
theorem insertAll_insertAll (map : OrderedMap α) (entries : List (Text × α)) :
    map.insertAll (insertAll {} entries).entries = map.insertAll entries := by
  induction entries using List.reverseRecOn with
  | nil => rfl
  | append_singleton front entry ih =>
    have hempty : ({} : OrderedMap α).keys.Nodup := List.nodup_nil
    have hnodup : ((insertAll {} front).entries.map Prod.fst).Nodup :=
      nodup_keys_insertAll hempty front
    rw [insertAll_append, insertAll_append, ← ih]
    exact insertAll_put map entry.1 entry.2 hnodup

theorem filter_get?_insert (map : OrderedMap α) {key : Text} (value : α)
    {entries : List (Text × α)} (hnot : key ∉ entries.map Prod.fst) :
    entries.filter (fun entry => ((map.insert key value).get? entry.1).isNone) =
      entries.filter (fun entry => (map.get? entry.1).isNone) := by
  apply List.filter_congr
  intro entry hentry
  have hne : entry.1 ≠ key := by
    rintro rfl
    exact hnot (List.mem_map_of_mem hentry)
  rw [get?_insert_of_ne map hne]

/-- Entries after two steps, first that of a key that is there already. -/
theorem map_lookup_put {key : Text} (value : α) {entries rest : List (Text × α)}
    (hnodup : (entries.map Prod.fst).Nodup) (hmem : key ∈ entries.map Prod.fst)
    (hnot : key ∉ rest.map Prod.fst) :
    (put key value entries).map (fun entry => (entry.1, (rest.lookup entry.1).getD entry.2)) =
      entries.map fun entry =>
        (entry.1, (((key, value) :: rest).lookup entry.1).getD entry.2) := by
  have hnone : rest.lookup key = none := lookup_eq_none_iff_not_mem.mpr hnot
  rw [put_eq_map hnodup hmem, List.map_map]
  apply List.map_congr_left
  intro entry _
  rw [Function.comp_apply]
  by_cases heq : entry.1 = key
  · simp [heq, hnone]
  · rw [if_neg heq, lookup_cons_of_ne heq]

theorem map_lookup_cons_of_not_mem {key : Text} (value : α) {entries : List (Text × α)}
    (hnot : key ∉ entries.map Prod.fst) (rest : List (Text × α)) :
    entries.map (fun entry => (entry.1, (((key, value) :: rest).lookup entry.1).getD entry.2)) =
      entries.map fun entry => (entry.1, (rest.lookup entry.1).getD entry.2) := by
  apply List.map_congr_left
  intro entry hentry
  have hne : entry.1 ≠ key := by
    rintro rfl
    exact hnot (List.mem_map_of_mem hentry)
  rw [lookup_cons_of_ne hne]

/-- **All entries after the insertion of others.** Every key of the map keeps its
    place and has its value among the new entries, if it has one there; the new
    keys follow in their order. -/
theorem entries_insertAll {map : OrderedMap α} {entries : List (Text × α)}
    (hmap : map.keys.Nodup) (hentries : (entries.map Prod.fst).Nodup) :
    (map.insertAll entries).entries =
      map.entries.map (fun entry => (entry.1, (entries.lookup entry.1).getD entry.2)) ++
        entries.filter (fun entry => (map.get? entry.1).isNone) := by
  induction entries generalizing map with
  | nil => simp
  | cons new rest ih =>
    obtain ⟨key, value⟩ := new
    obtain ⟨hnot, hrest⟩ := List.nodup_cons.mp hentries
    rw [insertAll_cons, ih (nodup_keys_insert hmap key value) hrest,
      filter_get?_insert map value hnot]
    show (put key value map.entries).map _ ++ _ = _
    by_cases hmem : key ∈ map.keys
    · have hsome : ¬ (map.get? key).isNone = true := by
        rw [Option.isNone_iff_eq_none, get?_eq_none_iff]
        exact not_not.mpr hmem
      rw [map_lookup_put value hmap hmem hnot, List.filter_cons, if_neg hsome]
    · have hkey : (map.get? key).isNone = true :=
        Option.isNone_iff_eq_none.mpr (get?_eq_none_iff.mpr hmem)
      have hnone : rest.lookup key = none := lookup_eq_none_iff_not_mem.mpr hnot
      rw [put_of_not_mem hmem, map_lookup_cons_of_not_mem value hmem, List.filter_cons,
        if_pos hkey, List.map_append, List.append_assoc]
      simp [hnone]

end TypedTriples.OrderedMap
