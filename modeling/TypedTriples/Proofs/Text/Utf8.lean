import Mathlib
import TypedTriples.Command.Files

/-!
# Text in UTF-8

The octets of a text stand for it again. An ASCII character occurs in a text
exactly when its octet occurs among those of the text, since the octets of
other characters are 128 or more: line ends can be looked for in either.

Main results:
* `Text.ofUtf8?_toUtf8`: octets written can be read.
* `Text.ofUtf8?_eq_some_iff`: which octets can be read.
* `Text.mem_toUtf8_iff`: ASCII characters and their octets.
-/

namespace TypedTriples.Text

@[simp] theorem toUtf8_nil : toUtf8 [] = [] := rfl

theorem toUtf8_append (t u : Text) : toUtf8 (t ++ u) = toUtf8 t ++ toUtf8 u := List.flatMap_append

/-- **The octets of a text stand for it.** -/
theorem ofUtf8?_toUtf8 (t : Text) : ofUtf8? t.toUtf8 = some t := by
  have hoctets : (⟨t.toUtf8.toArray⟩ : ByteArray) = List.utf8Encode t :=
    ByteArray.ext (List.data_toByteArray).symm
  rw [ofUtf8?, hoctets, List.utf8Decode?_utf8Encode, Option.map_some]

/-- **Octets stand for a text exactly if they are its own.** -/
theorem ofUtf8?_eq_some_iff {octets : Octets} {t : Text} :
    ofUtf8? octets = some t ↔ octets = t.toUtf8 := by
  constructor
  · intro h
    obtain ⟨chars, hdecode, rfl⟩ := Option.map_eq_some_iff.mp h
    have hvalid : (ByteArray.mk octets.toArray).IsValidUTF8 :=
      ByteArray.isSome_utf8Decode?_iff.mp (by rw [hdecode]; rfl)
    obtain ⟨u, hu⟩ := hvalid
    have hoctets : octets = toUtf8 u := by
      have hdata := congrArg (fun bytes => bytes.data.toList) hu
      simpa [toUtf8, List.utf8Encode, List.data_toByteArray] using hdata
    rw [hoctets, ofUtf8?_toUtf8] at h
    obtain rfl := Option.some.inj h
    exact hoctets
  · rintro rfl
    exact ofUtf8?_toUtf8 t

/-! ## ASCII characters -/

/-- The octet of an ASCII character. -/
def octet (c : Char) : UInt8 := UInt8.ofNat c.toNat

theorem utf8EncodeChar_of_lt {c : Char} (h : c.toNat < 128) :
    String.utf8EncodeChar c = [octet c] := by
  have hle : c.val.toNat ≤ 127 := Nat.le_of_lt_succ h
  unfold String.utf8EncodeChar
  rw [if_pos hle]
  rfl

/-- The octets of a character outside ASCII are not those of ASCII. -/
theorem le_of_mem_utf8EncodeChar {c : Char} (h : 128 ≤ c.toNat) {b : UInt8}
    (hb : b ∈ String.utf8EncodeChar c) : 128 ≤ b.toNat := by
  have hlt : ¬ c.val.toNat ≤ 127 := Nat.not_le_of_lt h
  unfold String.utf8EncodeChar at hb
  simp only [hlt, if_false] at hb
  split at hb
  · simp only [List.mem_cons, List.not_mem_nil, or_false] at hb
    rcases hb with rfl | rfl <;> rw [UInt8.toNat_ofNat'] <;> omega
  · split at hb
    · simp only [List.mem_cons, List.not_mem_nil, or_false] at hb
      rcases hb with rfl | rfl | rfl <;> rw [UInt8.toNat_ofNat'] <;> omega
    · simp only [List.mem_cons, List.not_mem_nil, or_false] at hb
      rcases hb with rfl | rfl | rfl | rfl <;> rw [UInt8.toNat_ofNat'] <;> omega

theorem toNat_octet {c : Char} (h : c.toNat < 128) : (octet c).toNat = c.toNat := by
  rw [octet, UInt8.toNat_ofNat']
  omega

theorem mem_utf8EncodeChar_iff {c d : Char} (h : c.toNat < 128) :
    octet c ∈ String.utf8EncodeChar d ↔ c = d := by
  by_cases hd : d.toNat < 128
  · rw [utf8EncodeChar_of_lt hd, List.mem_singleton]
    constructor
    · intro hoctet
      have hnat := congrArg UInt8.toNat hoctet
      rw [toNat_octet h, toNat_octet hd] at hnat
      exact Char.toNat_inj.mp hnat
    · rintro rfl
      rfl
  · constructor
    · intro hmem
      have hle := le_of_mem_utf8EncodeChar (by omega) hmem
      rw [toNat_octet h] at hle
      omega
    · rintro rfl
      exact absurd h hd

/-- **An ASCII character occurs where its octet does.** -/
theorem mem_toUtf8_iff {c : Char} (h : c.toNat < 128) {t : Text} : octet c ∈ t.toUtf8 ↔ c ∈ t := by
  rw [toUtf8, List.mem_flatMap]
  constructor
  · rintro ⟨d, hd, hmem⟩
    rwa [(mem_utf8EncodeChar_iff h).mp hmem]
  · intro hc
    exact ⟨c, hc, (mem_utf8EncodeChar_iff h).mpr rfl⟩

/-- The octet of an ASCII character stands for it behind other octets. -/
theorem ofUtf8?_append_octet {c : Char} (h : c.toNat < 128) (octets : Octets) :
    ofUtf8? (octets ++ [octet c]) = (ofUtf8? octets).map (· ++ [c]) := by
  have hoctet (d : Char) : toUtf8 [d] = String.utf8EncodeChar d := List.flatMap_singleton _ d
  refine Option.ext fun t => ?_
  simp only [Option.map_eq_some_iff, ofUtf8?_eq_some_iff]
  constructor
  · intro heq
    rcases List.eq_nil_or_concat t with rfl | ⟨u, d, rfl⟩
    · simp at heq
    · rw [List.concat_eq_append, toUtf8_append, hoctet] at heq
      -- The last octet is one of the last character, which is then the ASCII one.
      have hlast := congrArg List.getLast? heq
      rw [List.getLast?_concat, List.getLast?_append_of_ne_nil _ String.utf8EncodeChar_ne_nil]
        at hlast
      obtain rfl := (mem_utf8EncodeChar_iff h).mp (List.mem_of_getLast? hlast.symm)
      rw [utf8EncodeChar_of_lt h] at heq
      exact ⟨u, List.append_cancel_right heq, List.concat_eq_append.symm⟩
  · rintro ⟨u, rfl, rfl⟩
    rw [toUtf8_append, hoctet, utf8EncodeChar_of_lt h]

end TypedTriples.Text
