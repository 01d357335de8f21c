import TypedTriples.Text.Basic

/-!
# Maps in insertion order

A map from texts that remembers the order in which its keys came. A key that
is inserted again keeps its place and takes the new value.
-/

namespace TypedTriples

/-- A map from texts, as the list of its entries in the order of their keys'
    first insertion. -/
structure OrderedMap (α : Type) where
  entries : List (Text × α) := []
  deriving DecidableEq, Repr

namespace OrderedMap

variable {α : Type}

/-- The entries with the value of `key` replaced, or with a new entry at the
    end. -/
def put (key : Text) (value : α) : List (Text × α) → List (Text × α)
  | [] => [(key, value)]
  | entry :: rest =>
    if entry.1 = key then (key, value) :: rest else entry :: put key value rest

theorem lookup_put_self (key : Text) (value : α) (entries : List (Text × α)) :
    (put key value entries).lookup key = some value := by
  induction entries with
  | nil => simp [put]
  | cons entry rest ih =>
    obtain ⟨candidate, old⟩ := entry
    rw [put]
    by_cases h : candidate = key
    · rw [if_pos h, List.lookup_cons_self]
    · have hbeq : (key == candidate) = false := beq_eq_false_iff_ne.mpr fun heq => h heq.symm
      rw [if_neg h, List.lookup_cons, hbeq, ih]

theorem lookup_put_of_ne {key other : Text} (h : other ≠ key) (value : α)
    (entries : List (Text × α)) : (put key value entries).lookup other = entries.lookup other := by
  have hkey : (other == key) = false := beq_eq_false_iff_ne.mpr h
  induction entries with
  | nil => simp [put, List.lookup_cons, hkey]
  | cons entry rest ih =>
    obtain ⟨candidate, old⟩ := entry
    rw [put]
    by_cases hcandidate : candidate = key
    · rw [if_pos hcandidate, List.lookup_cons, List.lookup_cons, hcandidate, hkey]
    · rw [if_neg hcandidate, List.lookup_cons, List.lookup_cons, ih]

/-- The map with one key set. -/
def insert (map : OrderedMap α) (key : Text) (value : α) : OrderedMap α :=
  ⟨put key value map.entries⟩

/-- The value of a key. -/
def get? (map : OrderedMap α) (key : Text) : Option α := map.entries.lookup key

theorem get?_insert_self (map : OrderedMap α) (key : Text) (value : α) :
    (map.insert key value).get? key = some value :=
  lookup_put_self key value map.entries

theorem get?_insert_of_ne (map : OrderedMap α) {key other : Text} (h : other ≠ key) (value : α) :
    (map.insert key value).get? other = map.get? other :=
  lookup_put_of_ne h value map.entries

/-- The keys, in order. -/
def keys (map : OrderedMap α) : List Text := map.entries.map (·.1)

/-- The values, in the order of their keys. -/
def values (map : OrderedMap α) : List α := map.entries.map (·.2)

/-- The number of keys. -/
def size (map : OrderedMap α) : Nat := map.entries.length

/-- Whether two maps have the same keys and give them the same values, in
    whatever order. -/
def sameEntries [DecidableEq α] (a b : OrderedMap α) : Bool :=
  a.size == b.size && a.entries.all fun entry => b.get? entry.1 == some entry.2

end OrderedMap

end TypedTriples
