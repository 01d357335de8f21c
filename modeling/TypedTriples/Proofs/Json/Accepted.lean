import Mathlib
import TypedTriples.Proofs.Json.Grammar
import TypedTriples.Proofs.Text.Numeral

/-!
# The reader accepts the grammar and nothing else

What the reader finds in a text, the text spells. Together with the converse this
makes the reader a decision procedure for the grammar: a text has a value exactly
if it spells one between blanks. So blanks at the end of a text do not matter.

Main results:
* `Json.Reader.units?_sound`, `Json.Reader.number?_sound`: strings and numbers.
* `Json.Reader.finds`: what is found with a number of steps is spelled.
* `Json.read?_eq_some_iff`: the texts that have a value.
* `Json.read?_append_spaces`: blanks at the end of a text.
-/

namespace TypedTriples.Json

open Directive (IsRun stops_cons stops_dropWhile)

namespace Reader

variable {t rest : Text}

/-! ## Blanks and words -/

theorem exists_spaces (t : Text) : ∃ blanks, IsSpaces blanks ∧ t = blanks ++ skipSpace t :=
  ⟨t.takeWhile isSpace, fun _ hc => isSpace_iff.mp (List.mem_takeWhile_imp hc),
    List.takeWhile_append_dropWhile.symm⟩

theorem word?_sound {value : Json} (h : word? t = some (value, rest)) :
    ∃ word, (word, value) ∈ words ∧ t = word ++ rest := by
  have hpart {word : Text} {found : Json} (hmem : (word, found) ∈ words)
      (h : (Text.stripPrefix? word t).map (fun rest => (found, rest)) = some (value, rest)) :
      ∃ word, (word, value) ∈ words ∧ t = word ++ rest := by
    obtain ⟨rest', hstrip, heq⟩ := Option.map_eq_some_iff.mp h
    obtain ⟨rfl, rfl⟩ := Prod.mk.inj heq
    exact ⟨word, hmem, Text.stripPrefix?_eq_some_iff.mp hstrip⟩
  unfold word? at h
  rcases (Option.orElse_eq_some _ _ _).mp h with h | ⟨-, h⟩
  · exact hpart (by simp [words]) h
  · rcases (Option.orElse_eq_some _ _ _).mp h with h | ⟨-, h⟩
    · exact hpart (by simp [words]) h
    · exact hpart (by simp [words]) h

/-! ## Numbers -/

theorem digits?_sound {digits : Text} (h : digits? t = some (digits, rest)) :
    t = digits ++ rest ∧ IsRun Char.isDigit digits := by
  unfold digits? at h
  split at h
  · cases h
  · rename_i hne
    obtain ⟨rfl, rfl⟩ := Prod.mk.inj (Option.some.inj h)
    exact ⟨List.takeWhile_append_dropWhile.symm, hne, fun c hc => List.mem_takeWhile_imp hc⟩

theorem whole?_sound {whole : Text} (h : whole? t = some (whole, rest)) :
    t = whole ++ rest ∧ IsWhole whole := by
  unfold whole? at h
  split at h
  · obtain ⟨rfl, rfl⟩ := Prod.mk.inj (Option.some.inj h)
    exact ⟨rfl, .zero⟩
  · rename_i hzero
    obtain ⟨rfl, hrun⟩ := digits?_sound h
    refine ⟨rfl, .digits hrun ?_⟩
    intro hhead
    cases whole with
    | nil => cases hhead
    | cons c whole =>
      cases hhead
      exact hzero _ rfl

theorem fraction?_sound {fraction : Text} (h : fraction? t = some (fraction, rest)) :
    t = fraction ++ rest ∧ IsFraction fraction := by
  unfold fraction? at h
  split at h
  · obtain ⟨⟨digits, after⟩, hdigits, heq⟩ := Option.map_eq_some_iff.mp h
    obtain ⟨rfl, rfl⟩ := Prod.mk.inj heq
    obtain ⟨rfl, hrun⟩ := digits?_sound hdigits
    exact ⟨rfl, .digits hrun⟩
  · obtain ⟨rfl, rfl⟩ := Prod.mk.inj (Option.some.inj h)
    exact ⟨rfl, .none⟩

theorem exponent?_sound {exponent : Text} (h : exponent? t = some (exponent, rest)) :
    t = exponent ++ rest ∧ IsExponent exponent := by
  unfold exponent? at h
  split at h
  · split at h
    · rename_i c _ hletter
      have hletter' : c ∈ ['e', 'E'] := by simpa using hletter
      split at h
      all_goals
        obtain ⟨⟨digits, after⟩, hdigits, heq⟩ := Option.map_eq_some_iff.mp h
        obtain ⟨rfl, rfl⟩ := Prod.mk.inj heq
        obtain ⟨rfl, hrun⟩ := digits?_sound hdigits
      · exact ⟨rfl, .signed hletter' (by simp) hrun⟩
      · exact ⟨rfl, .signed hletter' (by simp) hrun⟩
      · exact ⟨rfl, .digits hletter' hrun⟩
    · obtain ⟨rfl, rfl⟩ := Prod.mk.inj (Option.some.inj h)
      exact ⟨rfl, .none⟩
  · obtain ⟨rfl, rfl⟩ := Prod.mk.inj (Option.some.inj h)
    exact ⟨rfl, .none⟩

theorem magnitude?_sound {spelling : Text} (h : magnitude? t = some (spelling, rest)) :
    t = spelling ++ rest ∧ IsMagnitude spelling := by
  unfold magnitude? at h
  obtain ⟨⟨whole, t'⟩, hwhole, h⟩ := Option.bind_eq_some_iff.mp h
  obtain ⟨⟨fraction, t''⟩, hfraction, h⟩ := Option.bind_eq_some_iff.mp h
  obtain ⟨⟨exponent, t'''⟩, hexponent, h⟩ := Option.bind_eq_some_iff.mp h
  obtain ⟨rfl, rfl⟩ := Prod.mk.inj (Option.some.inj h)
  obtain ⟨rfl, hwhole'⟩ := whole?_sound hwhole
  obtain ⟨rfl, hfraction'⟩ := fraction?_sound hfraction
  obtain ⟨rfl, hexponent'⟩ := exponent?_sound hexponent
  exact ⟨by simp only [List.append_assoc], .parts hwhole' hfraction' hexponent'⟩

theorem number?_sound {spelling : Text} (h : number? t = some (spelling, rest)) :
    t = spelling ++ rest ∧ IsNumber spelling := by
  unfold number? at h
  split at h
  · obtain ⟨⟨magnitude, after⟩, hmagnitude, heq⟩ := Option.map_eq_some_iff.mp h
    obtain ⟨rfl, rfl⟩ := Prod.mk.inj heq
    obtain ⟨rfl, hmagnitude'⟩ := magnitude?_sound hmagnitude
    exact ⟨rfl, .negative hmagnitude'⟩
  · obtain ⟨rfl, hmagnitude⟩ := magnitude?_sound h
    exact ⟨rfl, .positive hmagnitude⟩

/-! ## Strings -/

theorem mem_hexDigits_of_hexValue? {digit : Char} {value : Nat} (h : hexValue? digit = some value) :
    (digit, value) ∈ hexDigits := by
  have hall : ∀ n < 103, ∀ value ∈ hexValue? (Char.ofNat n), (Char.ofNat n, value) ∈ hexDigits := by
    decide
  have hlt : digit.toNat < 103 := by
    by_contra hge
    have hdigit : digit.isDigit = false := by
      by_contra hdigit
      have hbounds := Text.isDigit_bounds (by simpa using hdigit)
      omega
    have hnone : hexValue? digit = none := by
      simp [hexValue?, hdigit, Char.le_def, UInt32.le_iff_toNat_le]
      rw [if_neg (by omega), if_neg (by omega)]
    rw [hnone] at h
    cases h
  have hmem := hall digit.toNat hlt value
  rw [Char.ofNat_toNat] at hmem
  exact hmem h

theorem mem_letters_of_escaped? {letter c : Char} (h : escaped? letter = some c) :
    (letter, c) ∈ letters := by
  unfold escaped? at h
  split at h
  all_goals cases h
  all_goals decide

theorem hex4?_sound {a b c d : Char} {unit : Nat} (h : hex4? a b c d = some unit) :
    SpellsUnit unit ['\\', 'u', a, b, c, d] := by
  unfold hex4? at h
  obtain ⟨w, ha, h⟩ := Option.bind_eq_some_iff.mp h
  obtain ⟨x, hb, h⟩ := Option.bind_eq_some_iff.mp h
  obtain ⟨y, hc, h⟩ := Option.bind_eq_some_iff.mp h
  obtain ⟨z, hd, h⟩ := Option.bind_eq_some_iff.mp h
  obtain rfl := Option.some.inj h
  exact .code (mem_hexDigits_of_hexValue? ha) (mem_hexDigits_of_hexValue? hb)
    (mem_hexDigits_of_hexValue? hc) (mem_hexDigits_of_hexValue? hd)

/-- What is read as the units of a string is spelled up to the closing quote. -/
theorem units?_sound {units : List Nat} (h : units? t = some (units, rest)) :
    ∃ spelling, SpellsUnits units spelling ∧ t = spelling ++ '"' :: rest := by
  induction t using units?.induct generalizing units with
  | case1 after =>
    rw [units?] at h
    obtain ⟨rfl, rfl⟩ := Prod.mk.inj (Option.some.inj h)
    exact ⟨[], .nil, rfl⟩
  | case2 a b c d after ih =>
    rw [units?] at h
    obtain ⟨unit, hunit, h⟩ := Option.bind_eq_some_iff.mp h
    obtain ⟨⟨others, rest'⟩, hothers, h⟩ := Option.bind_eq_some_iff.mp h
    obtain ⟨rfl, rfl⟩ := Prod.mk.inj (Option.some.inj h)
    obtain ⟨spelling, hspelling, rfl⟩ := ih hothers
    exact ⟨_, .cons (hex4?_sound hunit) hspelling, rfl⟩
  | case3 letter after hne ih =>
    rw [units?] at h
    · obtain ⟨c, hc, h⟩ := Option.bind_eq_some_iff.mp h
      obtain ⟨⟨others, rest'⟩, hothers, h⟩ := Option.bind_eq_some_iff.mp h
      obtain ⟨rfl, rfl⟩ := Prod.mk.inj (Option.some.inj h)
      obtain ⟨spelling, hspelling, rfl⟩ := ih hothers
      exact ⟨_, .cons (.letter (mem_letters_of_escaped? hc)) hspelling, rfl⟩
    · exact hne
  | case4 c after hquote hcode hletter ih =>
    rw [units?] at h
    · obtain ⟨_, hguard, h⟩ := Option.bind_eq_some_iff.mp h
      obtain ⟨⟨others, rest'⟩, hothers, h⟩ := Option.bind_eq_some_iff.mp h
      obtain ⟨rfl, rfl⟩ := Prod.mk.inj (Option.some.inj h)
      obtain ⟨spelling, hspelling, rfl⟩ := ih hothers
      have hraw := (Option.guard_eq_some' _).mp hguard
      exact ⟨_, .cons (.raw hraw.1 hquote hraw.2) hspelling, rfl⟩
    · exact hquote
    · exact hcode
    · exact hletter
  | case5 =>
    rw [units?] at h
    cases h

theorem string?_sound {text : Option Text} (h : string? t = some (text, rest)) :
    ∃ units spelling, SpellsUnits units spelling ∧ t = spelling ++ '"' :: rest ∧
      text = textOfUnits? units := by
  unfold string? at h
  obtain ⟨⟨units, rest'⟩, hunits, heq⟩ := Option.map_eq_some_iff.mp h
  obtain ⟨rfl, rfl⟩ := Prod.mk.inj heq
  obtain ⟨spelling, hspelling, ht⟩ := units?_sound hunits
  exact ⟨units, spelling, hspelling, ht, rfl⟩

/-! ## All values -/

/-- What the reader finds with a number of steps is spelled in the text. -/
structure Finds (fuel : Nat) : Prop where
  value {value : Json} {t rest : Text} : value? fuel t = some (value, rest) →
    ∃ blanks spelling, IsSpaces blanks ∧ Spells value spelling ∧ t = blanks ++ spelling ++ rest
  items {items : List Json} {t rest : Text} : items? fuel t = some (items, rest) →
    ∃ spelling, SpellsItems items spelling ∧ t = spelling ++ ']' :: rest
  members {members : List (Option Text × Json)} {t rest : Text} :
    members? fuel t = some (members, rest) →
    ∃ spelling, SpellsMembers members spelling ∧ t = spelling ++ '\x7d' :: rest

variable {fuel : Nat}

theorem string_sound {value : Json} (h : value? (fuel + 1) ('"' :: t) = some (value, rest)) :
    ∃ spelling, Spells value ('"' :: spelling ++ ['"']) ∧ t = spelling ++ '"' :: rest := by
  rw [value?, skipSpace_cons rfl] at h
  obtain ⟨⟨text, rest'⟩, hstring, heq⟩ := Option.map_eq_some_iff.mp h
  obtain ⟨rfl, rfl⟩ := Prod.mk.inj heq
  obtain ⟨units, spelling, hunits, rfl, rfl⟩ := string?_sound hstring
  exact ⟨spelling, .string hunits, rfl⟩

theorem Finds.array (ih : Finds fuel) {value : Json}
    (h : value? (fuel + 1) ('[' :: t) = some (value, rest)) :
    ∃ spelling, Spells value ('[' :: spelling ++ [']']) ∧ t = spelling ++ ']' :: rest := by
  obtain ⟨blanks, hblanks, ht⟩ := exists_spaces t
  rw [value?, skipSpace_cons rfl] at h
  simp only at h
  split at h
  · rename_i u hu
    obtain ⟨rfl, rfl⟩ := Prod.mk.inj (Option.some.inj h)
    exact ⟨blanks, .noItems hblanks, by rw [← hu, ← ht]⟩
  · obtain ⟨⟨items, rest'⟩, hitems, heq⟩ := Option.map_eq_some_iff.mp h
    obtain ⟨rfl, rfl⟩ := Prod.mk.inj heq
    rw [← items?_append_spaces hblanks, ← ht] at hitems
    obtain ⟨spelling, hspelling, rfl⟩ := ih.items hitems
    exact ⟨spelling, .array hspelling, rfl⟩

theorem Finds.object (ih : Finds fuel) {value : Json}
    (h : value? (fuel + 1) ('\x7b' :: t) = some (value, rest)) :
    ∃ spelling, Spells value ('\x7b' :: spelling ++ ['\x7d']) ∧ t = spelling ++ '\x7d' :: rest := by
  obtain ⟨blanks, hblanks, ht⟩ := exists_spaces t
  rw [value?, skipSpace_cons rfl] at h
  simp only at h
  split at h
  · rename_i u hu
    obtain ⟨rfl, rfl⟩ := Prod.mk.inj (Option.some.inj h)
    exact ⟨blanks, .noMembers hblanks, by rw [← hu, ← ht]⟩
  · obtain ⟨⟨members, rest'⟩, hmembers, heq⟩ := Option.map_eq_some_iff.mp h
    obtain ⟨rfl, rfl⟩ := Prod.mk.inj heq
    rw [← members?_append_spaces hblanks, ← ht] at hmembers
    obtain ⟨spelling, hspelling, rfl⟩ := ih.members hmembers
    exact ⟨spelling, .object hspelling, rfl⟩

theorem Finds.value_succ (ih : Finds fuel) {value : Json}
    (h : value? (fuel + 1) t = some (value, rest)) :
    ∃ blanks spelling, IsSpaces blanks ∧ Spells value spelling ∧
      t = blanks ++ spelling ++ rest := by
  obtain ⟨blanks, hblanks, ht⟩ := exists_spaces t
  have hstops := stops_dropWhile isSpace t
  rw [ht, value?_append_spaces hblanks] at h
  rw [ht]
  unfold skipSpace at h ⊢
  generalize t.dropWhile isSpace = u at h hstops
  cases u with
  | nil => cases h
  | cons c u =>
    have hspace : isSpace c = false := stops_cons.mp hstops
    by_cases hc : c ∈ ['"', '[', '\x7b']
    · -- Quotes, brackets and braces end where the value ends.
      simp only [List.mem_cons, List.not_mem_nil, or_false] at hc
      rcases hc with rfl | rfl | rfl
      · obtain ⟨spelling, hspelling, rfl⟩ := string_sound h
        exact ⟨blanks, _, hblanks, hspelling, by simp⟩
      · obtain ⟨spelling, hspelling, rfl⟩ := ih.array h
        exact ⟨blanks, _, hblanks, hspelling, by simp⟩
      · obtain ⟨spelling, hspelling, rfl⟩ := ih.object h
        exact ⟨blanks, _, hblanks, hspelling, by simp⟩
    · rw [value?_plain hspace hc] at h
      rcases (Option.orElse_eq_some _ _ _).mp h with hword | ⟨-, hplain⟩
      · obtain ⟨word, hmem, hu⟩ := word?_sound hword
        exact ⟨blanks, word, hblanks, .word hmem, by simp [hu]⟩
      · obtain ⟨⟨spelling, rest'⟩, hnumber, heq⟩ := Option.map_eq_some_iff.mp hplain
        obtain ⟨rfl, rfl⟩ := Prod.mk.inj heq
        obtain ⟨hu, hspelling⟩ := number?_sound hnumber
        exact ⟨blanks, spelling, hblanks, .number hspelling, by simp [hu]⟩

theorem Finds.items_succ (ih : Finds fuel) {items : List Json}
    (h : items? (fuel + 1) t = some (items, rest)) :
    ∃ spelling, SpellsItems items spelling ∧ t = spelling ++ ']' :: rest := by
  rw [items?] at h
  obtain ⟨⟨item, after⟩, hitem, hnext⟩ := Option.bind_eq_some_iff.mp h
  obtain ⟨blanks, spelling, hblanks, hspelling, rfl⟩ := ih.value hitem
  obtain ⟨between, hbetween, hafter⟩ := exists_spaces after
  simp only at hnext
  split at hnext
  · rename_i u hu
    obtain ⟨rfl, rfl⟩ := Prod.mk.inj (Option.some.inj hnext)
    rw [hu] at hafter
    exact ⟨_, .last hblanks hspelling hbetween, by simp [hafter]⟩
  · rename_i u hu
    obtain ⟨⟨others, rest'⟩, hothers, hnext⟩ := Option.bind_eq_some_iff.mp hnext
    obtain ⟨rfl, rfl⟩ := Prod.mk.inj (Option.some.inj hnext)
    obtain ⟨spelling', hspelling', rfl⟩ := ih.items hothers
    rw [hu] at hafter
    exact ⟨_, .cons hblanks hspelling hbetween hspelling', by simp [hafter]⟩
  · cases hnext

theorem Finds.members_succ (ih : Finds fuel) {members : List (Option Text × Json)}
    (h : members? (fuel + 1) t = some (members, rest)) :
    ∃ spelling, SpellsMembers members spelling ∧ t = spelling ++ '\x7d' :: rest := by
  obtain ⟨before, hbefore, ht⟩ := exists_spaces t
  rw [members?] at h
  split at h
  · rename_i u hu
    obtain ⟨⟨name, t₁⟩, hname, hcolon⟩ := Option.bind_eq_some_iff.mp h
    obtain ⟨units, quoted, hunits, rfl, rfl⟩ := string?_sound hname
    obtain ⟨middle, hmiddle, ht₁⟩ := exists_spaces t₁
    simp only at hcolon
    split at hcolon
    · rename_i v hv
      obtain ⟨_, hrest, hcolon⟩ := Option.bind_eq_some_iff.mp hcolon
      obtain rfl := Option.some.inj hrest
      obtain ⟨⟨value, t₂⟩, hvalue, hnext⟩ := Option.bind_eq_some_iff.mp hcolon
      obtain ⟨between, spelling, hbetween, hspelling, rfl⟩ := ih.value hvalue
      obtain ⟨after, hafter, ht₂⟩ := exists_spaces t₂
      have hmember := SpellsMember.parts hbefore hunits hmiddle hbetween hspelling hafter
      rw [hu] at ht
      rw [hv] at ht₁
      simp only at hnext
      split at hnext
      · rename_i w hw
        obtain ⟨rfl, rfl⟩ := Prod.mk.inj (Option.some.inj hnext)
        rw [hw] at ht₂
        exact ⟨_, .last hmember, by simp [ht, ht₁, ht₂]⟩
      · rename_i w hw
        obtain ⟨⟨others, rest'⟩, hothers, hnext⟩ := Option.bind_eq_some_iff.mp hnext
        obtain ⟨rfl, rfl⟩ := Prod.mk.inj (Option.some.inj hnext)
        obtain ⟨spelling', hspelling', rfl⟩ := ih.members hothers
        rw [hw] at ht₂
        exact ⟨_, .cons hmember hspelling', by simp [ht, ht₁, ht₂]⟩
      · cases hnext
    · cases hcolon
  · cases h

/-- **What the reader finds is spelled in the text.** The induction is on the steps. -/
theorem finds (fuel : Nat) : Finds fuel := by
  induction fuel with
  | zero => refine ⟨fun h => ?_, fun h => ?_, fun h => ?_⟩ <;> cases h
  | succ fuel ih => exact ⟨ih.value_succ, ih.items_succ, ih.members_succ⟩

end Reader

/-! ## How spellings end -/

theorem isSpace_getLast?_of_isRun {digits : Text} (h : IsRun Char.isDigit digits) (before : Text) :
    ∀ c ∈ (before ++ digits).getLast?, Reader.isSpace c = false := by
  intro c hc
  rw [List.getLast?_append_of_ne_nil _ h.1] at hc
  have hdigit := h.2 c (List.mem_of_getLast? hc)
  by_contra hspace
  rw [Bool.not_eq_false, Reader.isSpace_iff] at hspace
  rcases hspace with rfl | rfl | rfl | rfl <;> cases hdigit

theorem IsMagnitude.exists_append {t : Text} (h : IsMagnitude t) :
    ∃ before digits, t = before ++ digits ∧ IsRun Char.isDigit digits := by
  cases h with
  | @parts whole fraction exponent hwhole hfraction hexponent =>
    cases hexponent with
    | @digits letter t hletter hrun => exact ⟨whole ++ fraction ++ [letter], t, by simp, hrun⟩
    | @signed letter sign t hletter hsign hrun =>
      exact ⟨whole ++ fraction ++ [letter, sign], t, by simp, hrun⟩
    | none =>
      cases hfraction with
      | @digits t hrun => exact ⟨whole ++ ['.'], t, by simp, hrun⟩
      | none =>
        cases hwhole with
        | zero => exact ⟨[], ['0'], rfl, by simp [IsRun]⟩
        | digits hrun => exact ⟨[], whole, by simp, hrun⟩

theorem isSpace_getLast?_of_spells {value : Json} {t : Text} (h : Spells value t) :
    ∀ c ∈ t.getLast?, Reader.isSpace c = false := by
  cases h with
  | word hword =>
    have hall : ∀ entry ∈ words, ∀ c ∈ entry.1.getLast?, Reader.isSpace c = false := by
      simp [words, Reader.isSpace]
    exact hall _ hword
  | number hnumber =>
    cases hnumber with
    | positive hmagnitude =>
      obtain ⟨before, digits, rfl, hrun⟩ := hmagnitude.exists_append
      exact isSpace_getLast?_of_isRun hrun before
    | negative hmagnitude =>
      obtain ⟨before, digits, rfl, hrun⟩ := hmagnitude.exists_append
      exact isSpace_getLast?_of_isRun hrun ('-' :: before)
  | string | noItems | array | noMembers | object =>
    intro c hc
    rw [List.getLast?_concat] at hc
    cases hc
    rfl

/-! ## Whole texts -/

/-- **The texts that have a value are those that spell one**, with any blanks around
    it. -/
theorem read?_eq_some_iff {t : Text} {value : Json} :
    read? t = some value ↔ ∃ before spelling after, IsSpaces before ∧ Spells value spelling ∧
      IsSpaces after ∧ t = before ++ spelling ++ after := by
  constructor
  · intro h
    unfold read? at h
    split at h
    · rename_i found after hread
      split at h
      · rename_i hall
        obtain rfl := Option.some.inj h
        obtain ⟨blanks, spelling, hblanks, hspelling, ht⟩ := (Reader.finds _).value hread
        exact ⟨blanks, spelling, after, hblanks, hspelling,
          fun c hc => Reader.isSpace_iff.mp (List.all_eq_true.mp hall c hc), ht⟩
      · cases h
    · cases h
  · rintro ⟨before, spelling, after, hbefore, hspelling, hafter, rfl⟩
    exact read?_of_spells hbefore hspelling hafter

/-- A spelling that reaches into blanks ends in front of them. -/
theorem exists_of_append_eq {value : Json} {before spelling after t blanks : Text}
    (h : Spells value spelling) (hblanks : IsSpaces blanks)
    (heq : t ++ blanks = before ++ spelling ++ after) :
    ∃ after', t = before ++ spelling ++ after' ∧ after = after' ++ blanks := by
  rcases List.append_eq_append_iff.mp heq with ⟨between, hspelled, rfl⟩ | ⟨after', ht, hafter⟩
  · rcases List.eq_nil_or_concat between with rfl | ⟨start, c, rfl⟩
    · exact ⟨[], by simpa using hspelled.symm, rfl⟩
    · -- The last character of the spelling would be a blank.
      obtain ⟨first, u, hcons, -, -⟩ := Reader.exists_cons_of_spells h
      have hlast : c ∈ spelling.getLast? := by
        have hlast' := congrArg List.getLast? hspelled
        rw [List.getLast?_append_of_ne_nil _ (by simp [hcons])] at hlast'
        rw [hlast', List.concat_eq_append, ← List.append_assoc, List.getLast?_concat]
        rfl
      have hspace := hblanks c (by simp)
      rw [← Reader.isSpace_iff, isSpace_getLast?_of_spells h c hlast] at hspace
      cases hspace
  · exact ⟨after', ht, hafter⟩

/-- **Blanks at the end of a text do not matter.** -/
theorem read?_append_spaces {blanks : Text} (h : IsSpaces blanks) (t : Text) :
    read? (t ++ blanks) = read? t := by
  refine Option.ext fun value => ?_
  rw [read?_eq_some_iff, read?_eq_some_iff]
  constructor
  · rintro ⟨before, spelling, after, hbefore, hspelling, hafter, heq⟩
    obtain ⟨after', rfl, rfl⟩ := exists_of_append_eq hspelling h heq
    exact ⟨before, spelling, after', hbefore, hspelling,
      fun c hc => hafter c (List.mem_append_left _ hc), rfl⟩
  · rintro ⟨before, spelling, after, hbefore, hspelling, hafter, rfl⟩
    refine ⟨before, spelling, after ++ blanks, hbefore, hspelling, fun c hc => ?_, by simp⟩
    exact (List.mem_append.mp hc).elim (hafter c) (h c)

end TypedTriples.Json
