import Mathlib
import TypedTriples.Command.Files

/-!
# What operations on files leave

Only an entry of its own gives a place octets. Writing changes those of the one
place that is written, and creating a file at a path empties the place that the
path leads to, whatever it held. A path that was opened leads to a place where
something stands.

Main results:
* `Files.contents_eq_ok_iff`: when a place has octets.
* `Files.contents_write_self`, `Files.contents_write_of_ne`: octets after writing.
* `Files.exists_contents_of_open?`, `Files.eq_write_of_create?`: opening and creating.
-/

namespace TypedTriples.Files

variable {files : Files} {place other : Place} {octets content : Octets}

/-! ## Octets of a place -/

theorem find?_of_isGiven (h : place.isGiven = true) : files.find? place = some .directory := by
  unfold find?
  rw [if_pos h]

theorem find?_eq_file_iff :
    files.find? place = some (.file octets) ↔
      place.isGiven = false ∧ files.entries.lookup place = some (.file octets) := by
  unfold find?
  cases place.isGiven with
  | true => simp
  | false =>
    cases files.entries.lookup place with
    | some entry => simp
    | none => simp

theorem contents_eq_ok_iff :
    files.contents place = .ok octets ↔ files.find? place = some (.file octets) := by
  unfold contents
  cases files.find? place with
  | none => simp
  | some entry => cases entry <;> simp

/-! ## Writing -/

theorem lookup_filter_of_ne (h : other ≠ place) (entries : List (Place × FileEntry)) :
    (entries.filter fun entry => entry.1 != place).lookup other = entries.lookup other := by
  induction entries with
  | nil => rfl
  | cons entry entries ih =>
    obtain ⟨at_, found⟩ := entry
    by_cases hplace : at_ = place
    · have hother : (other == at_) = false := by simp [hplace, h]
      rw [List.filter_cons_of_neg (by simp [hplace]), ih, List.lookup_cons, hother]
    · rw [List.filter_cons_of_pos (by simp [hplace]), List.lookup_cons, List.lookup_cons, ih]

theorem contents_write_self (h : place.isGiven = false) :
    (files.write place content).contents place = .ok content := by
  rw [contents_eq_ok_iff, find?_eq_file_iff]
  simp [h, write]

theorem contents_write_of_ne (h : other ≠ place) :
    (files.write place content).contents other = .ok octets ↔
      files.contents other = .ok octets := by
  have hother : (other == place) = false := by simp [h]
  simp only [contents_eq_ok_iff, find?_eq_file_iff, write, List.lookup_cons, hother,
    lookup_filter_of_ne h]

/-! ## Opening and creating -/

theorem exists_find?_of_step {start : Place} {name : Text} (h : files.step start name = .ok place) :
    ∃ entry, files.find? place = some entry := by
  unfold step at h
  split at h
  · cases h
  · cases h
  · split at h
    · cases h
    · split at h
      · cases h
      · rename_i hfound
        cases h
        exact Option.ne_none_iff_exists'.mp (by simpa using hfound)

/-- Something stands where steps lead that start where something stands. -/
theorem exists_find?_of_foldlM_step {steps : List Text} {start : Place}
    (hstart : ∃ entry, files.find? start = some entry)
    (h : steps.foldlM files.step start = .ok place) :
    ∃ entry, files.find? place = some entry := by
  induction steps generalizing start with
  | nil =>
    cases h
    exact hstart
  | cons name steps ih =>
    rw [List.foldlM_cons] at h
    cases hstep : files.step start name with
    | error fault =>
      rw [hstep] at h
      cases h
    | ok next =>
      rw [hstep] at h
      exact ih (exists_find?_of_step hstep) h

theorem exists_find?_of_open? {path : Text} (h : files.open? path = .ok place) :
    ∃ entry, files.find? place = some entry := by
  have horigin : (Place.origin path).isGiven = true := rfl
  unfold open? follow at h
  cases hchecked : checked path with
  | error fault =>
    rw [hchecked] at h
    cases h
  | ok path' =>
    rw [hchecked] at h
    exact exists_find?_of_foldlM_step ⟨_, find?_of_isGiven horigin⟩ h

theorem find?_ne_directory_of_placeIn {directory : Place} {name : Text} {slash : Bool}
    (h : files.placeIn directory name slash = .ok place) :
    files.find? place ≠ some .directory := by
  unfold placeIn at h
  split at h
  · cases h
  · cases h
  · split at h
    · cases h
    · split at h
      · cases h
      · split at h
        · cases h
        · rename_i hfree
          cases h
          exact hfree

/-- A file created at a path is empty; all other entries stay. The path leads
    to no directory. -/
theorem eq_write_of_create? {path : Text} {files' : Files}
    (h : files.create? path = .ok (files', place)) :
    files' = files.write place [] ∧ files.find? place ≠ some .directory := by
  unfold create? at h
  cases hchecked : checked path with
  | error fault =>
    rw [hchecked] at h
    cases h
  | ok path' =>
    rw [hchecked] at h
    simp only [bind, Except.bind] at h
    split at h
    · cases h
    · split at h
      · cases h
      · split at h
        · cases h
        · rename_i hplace
          cases h
          exact ⟨rfl, find?_ne_directory_of_placeIn hplace⟩

theorem isGiven_eq_false_of_find?_ne (h : files.find? place ≠ some .directory) :
    place.isGiven = false :=
  Bool.eq_false_of_not_eq_true fun hgiven => h (find?_of_isGiven hgiven)

/-- A path that was opened leads to a file, if not to a directory. -/
theorem exists_contents_of_open? {path : Text} (h : files.open? path = .ok place)
    (hfree : files.find? place ≠ some .directory) :
    ∃ octets, files.contents place = .ok octets := by
  obtain ⟨entry, hentry⟩ := exists_find?_of_open? h
  cases entry with
  | file octets => exact ⟨octets, contents_eq_ok_iff.mpr hentry⟩
  | directory => exact absurd hentry hfree

end TypedTriples.Files
