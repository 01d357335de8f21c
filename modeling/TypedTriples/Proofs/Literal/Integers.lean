import Mathlib
import TypedTriples.Proofs.Literal.Enhanced
import TypedTriples.Proofs.Number.Integer

/-!
# Literals of integers

The kind of integers writes the digits that a value starts with as they are, so
that its literals are canonical forms of their datatype exactly for the values
whose digits are the ASCII ones. For these the literal depends on the integer
alone; digits of another script give the same integer another literal.

Main definitions:
* `Literal.IsCanonicalInteger`: the canonical forms of integers.
* `Literal.integerNumeral`: the canonical form of an integer.

Main results:
* `isCanonicalInteger_integerText_iff`: the values with canonical forms.
* `integerText_eq_integerNumeral`: what they are.
* `Ruleset.enhance_isCanonicalInteger_iff`: the literals that are canonical.
-/

namespace TypedTriples

open Directive (IsRun)
open Number (StartsWithInteger canonicalDigits digitsValue integerText minusSign signed)
open Text (isDecimalDigit)

namespace Literal

/-! ## Specification -/

/-- The canonical forms of integers: `0`, and digits from `0` to `9` that do not
    start with `0`, with a minus sign or without one. -/
inductive IsCanonicalInteger : Text → Prop
  | zero : IsCanonicalInteger ['0']
  | digits {first : Char} {rest : Text} (negative : Bool) (hfirst : first.isDigit = true)
      (hne : first ≠ '0') (hrest : ∀ c ∈ rest, c.isDigit = true) :
      IsCanonicalInteger (minusSign negative ++ first :: rest)

/-- The canonical form of an integer. -/
def integerNumeral (z : ℤ) : Text := minusSign (z < 0) ++ Text.ofNat z.natAbs

/-! ## Canonical forms -/

theorem IsCanonicalInteger.isDigit_of_mem {t : Text} (h : IsCanonicalInteger t) {c : Char}
    (hc : c ∈ t) : c.isDigit = true ∨ c = '-' := by
  cases h with
  | zero =>
    rw [List.mem_singleton.mp hc]
    exact .inl rfl
  | @digits first rest negative hfirst _ hrest =>
    rcases List.mem_append.mp hc with hc | hc
    · cases negative
      · cases hc
      · exact .inr (List.mem_singleton.mp hc)
    · rcases List.mem_cons.mp hc with rfl | hc
      · exact .inl hfirst
      · exact .inl (hrest c hc)

theorem head?_dropWhile_zero_ne (digits : Text) :
    (digits.dropWhile (· == '0')).head? ≠ some '0' := by
  intro h
  have hhead := List.head?_dropWhile_not (· == '0') digits
  rw [h] at hhead
  simp at hhead

theorem digits_of_dropWhile_zero {digits rest : Text} {first : Char}
    (h : ∀ c ∈ digits, c.isDigit = true) (hkept : digits.dropWhile (· == '0') = first :: rest) :
    first ≠ '0' ∧ ∀ c ∈ first :: rest, c.isDigit = true := by
  have hhead := head?_dropWhile_zero_ne digits
  rw [hkept] at hhead
  exact ⟨fun hfirst => hhead (congrArg some hfirst),
    fun c hc => h c ((List.dropWhile_sublist _).mem (hkept ▸ hc))⟩

theorem isCanonicalInteger_canonicalDigits {digits : Text} (h : ∀ c ∈ digits, c.isDigit = true)
    (negative : Bool) : IsCanonicalInteger (canonicalDigits negative digits) := by
  cases hkept : digits.dropWhile (· == '0') with
  | nil =>
    rw [Number.canonicalDigits_of_eq_nil hkept]
    exact .zero
  | cons first rest =>
    obtain ⟨hfirst, hall⟩ := digits_of_dropWhile_zero h hkept
    obtain ⟨hdigit, hrest⟩ := List.forall_mem_cons.mp hall
    rw [Number.canonicalDigits_of_ne_nil (by simp [hkept]), hkept]
    exact .digits negative hdigit hfirst hrest

/-- A digit of another script is kept and spoils the form. -/
theorem isDigit_of_isCanonicalInteger {digits : Text} (hdigits : IsRun isDecimalDigit digits)
    {negative : Bool} (h : IsCanonicalInteger (canonicalDigits negative digits)) {c : Char}
    (hc : c ∈ digits) : c.isDigit = true := by
  rw [← @List.takeWhile_append_dropWhile _ (· == '0') digits] at hc
  rcases List.mem_append.mp hc with hzero | hkept
  · obtain rfl : c = '0' := by simpa using List.mem_takeWhile_imp hzero
    rfl
  · rw [Number.canonicalDigits_of_ne_nil (List.ne_nil_of_mem hkept)] at h
    rcases h.isDigit_of_mem (List.mem_append_right _ hkept) with hdigit | rfl
    · exact hdigit
    · exact absurd (hdigits.2 _ ((List.dropWhile_sublist _).mem hkept)) (by decide)

/-- **The values with canonical forms** are those that start with ASCII digits or
    with no integer at all. -/
theorem isCanonicalInteger_integerText_iff (value : Text) :
    IsCanonicalInteger (integerText value) ↔
      ∀ negative digits, StartsWithInteger value negative digits → ∀ c ∈ digits, c.isDigit = true := by
  constructor
  · intro h negative digits hstarts c hc
    rw [Number.integerText_of_startsWithInteger hstarts] at h
    exact isDigit_of_isCanonicalInteger hstarts.isRun h hc
  · intro h
    by_cases hstarts : ∃ negative digits, StartsWithInteger value negative digits
    · obtain ⟨negative, digits, hstarts⟩ := hstarts
      rw [Number.integerText_of_startsWithInteger hstarts]
      exact isCanonicalInteger_canonicalDigits (h negative digits hstarts) negative
    · rw [Number.integerText_of_not_startsWithInteger fun negative digits h' =>
        hstarts ⟨negative, digits, h'⟩]
      exact .zero

/-! ## The form of an integer -/

theorem toNat_pos {first : Char} {rest : Text} (hfirst : first.isDigit = true) (hne : first ≠ '0') :
    0 < Text.toNat (first :: rest) := by
  have hbounds := Text.isDigit_bounds hfirst
  have hdigit : first.toNat ≠ 48 := fun h => hne (Char.toNat_inj.mp h)
  have hpos : 0 < 10 ^ rest.length * (first.toNat - 48) :=
    Nat.mul_pos (Nat.pow_pos (by decide)) (by omega)
  rw [Text.toNat_cons]
  omega

/-- With ASCII digits, the written form is the canonical form of the integer. -/
theorem integerText_eq_integerNumeral {value digits : Text} {negative : Bool}
    (hstarts : StartsWithInteger value negative digits) (h : ∀ c ∈ digits, c.isDigit = true) :
    integerText value = integerNumeral (signed negative (digitsValue digits)) := by
  rw [Number.integerText_of_startsWithInteger hstarts, ← Number.digitsValue_dropWhile_zero]
  cases hkept : digits.dropWhile (· == '0') with
  | nil =>
    rw [Number.canonicalDigits_of_eq_nil hkept]
    cases negative <;> rfl
  | cons first rest =>
    obtain ⟨hfirst, hall⟩ := digits_of_dropWhile_zero h hkept
    have hpos : 0 < Text.toNat (first :: rest) :=
      toNat_pos (hall first List.mem_cons_self) hfirst
    have hnumeral := Text.ofNat_toNat (List.cons_ne_nil first rest) hall (by simpa using hfirst)
    rw [Number.canonicalDigits_of_ne_nil (by simp [hkept]), hkept,
      Number.digitsValue_of_isDigit hall, integerNumeral]
    cases negative with
    | false => simp [signed, minusSign, hnumeral]
    | true => simp [signed, minusSign, hnumeral, hpos]

end Literal

/-! ## Statements -/

namespace Ruleset

variable {rules : Ruleset} {record : Triple}

theorem enhance_of_resolve_eq_integer (hkind : rules.resolve record.predicate = .integer) :
    ∃ statement, rules.enhance record = .ok statement ∧
      statement.object = Literal.typed .integer (integerText record.object) :=
  exists_enhance_of_term hkind rfl

/-- **Which literals of integers are canonical.** A record whose predicate has
    integers always has a statement. Its literal is canonical exactly if the
    digits that the object starts with are all ASCII ones, or if there are none;
    with ASCII digits it is the canonical form of the integer, so that objects
    with the same integer have the same literal. -/
theorem enhance_isCanonicalInteger_iff (hkind : rules.resolve record.predicate = .integer) :
    ∃ statement lexical, rules.enhance record = .ok statement ∧
      statement.object = Literal.typed .integer lexical ∧
      (Literal.IsCanonicalInteger lexical ↔
        ∀ negative digits, StartsWithInteger record.object negative digits →
          ∀ c ∈ digits, c.isDigit = true) ∧
      ∀ negative digits, StartsWithInteger record.object negative digits →
        (∀ c ∈ digits, c.isDigit = true) →
          lexical = Literal.integerNumeral (signed negative (digitsValue digits)) := by
  obtain ⟨statement, hok, hobject⟩ := enhance_of_resolve_eq_integer hkind
  exact ⟨statement, _, hok, hobject, Literal.isCanonicalInteger_integerText_iff record.object,
    fun _ _ hstarts hdigits => Literal.integerText_eq_integerNumeral hstarts hdigits⟩

/-- A negative integer with zeros in front and text behind. -/
theorem enhance_isCanonicalInteger_iff_apples :
    ∃ statement, (ofText "ex:p integer".toList).enhance
        ⟨"ex:a".toList, "ex:p".toList, " -0042 apples".toList⟩ = .ok statement ∧
      statement.object = Literal.typed .integer "-42".toList := by
  have hkind : (ofText "ex:p integer".toList).resolve "ex:p".toList = .integer := by
    cbv
  have hvalue : " -0042 apples".toList =
      " ".toList ++ ("-".toList ++ "0042".toList ++ " apples".toList) := by decide
  have hstarts : StartsWithInteger " -0042 apples".toList true "0042".toList := by
    rw [hvalue]
    exact .intro (by decide) .minus ⟨by decide, List.all_eq_true.mp (by decide +kernel)⟩
      (Directive.stops_cons.mpr (by decide +kernel))
  obtain ⟨statement, lexical, hok, hobject, -, hnumeral⟩ :=
    @enhance_isCanonicalInteger_iff _
      ⟨"ex:a".toList, "ex:p".toList, " -0042 apples".toList⟩ hkind
  have hform : Literal.integerNumeral (signed true (digitsValue "0042".toList)) = "-42".toList := by
    decide +kernel
  rw [hnumeral _ _ hstarts (List.all_eq_true.mp (by decide)), hform] at hobject
  exact ⟨statement, hok, hobject⟩

/-- A digit three that is not the ASCII one is written as it is: the literal is not
    canonical, and it is not the one for the ASCII digit. -/
theorem enhance_digit_of_another_script :
    (ofText "ex:p integer".toList).resolve "ex:p".toList = .integer ∧
      digitsValue "\u0663".toList = digitsValue "3".toList ∧
      ∃ statement statement',
        (ofText "ex:p integer".toList).enhance
          ⟨"ex:a".toList, "ex:p".toList, "\u0663".toList⟩ = .ok statement ∧
        (ofText "ex:p integer".toList).enhance
          ⟨"ex:a".toList, "ex:p".toList, "3".toList⟩ = .ok statement' ∧
        (¬ ∃ lexical, statement.object = Literal.typed .integer lexical ∧
          Literal.IsCanonicalInteger lexical) ∧
        statement.object ≠ statement'.object := by
  have hkind : (ofText "ex:p integer".toList).resolve "ex:p".toList = .integer := by
    cbv
  obtain ⟨statement, hok, hobject⟩ :=
    @enhance_of_resolve_eq_integer _ ⟨"ex:a".toList, "ex:p".toList, "\u0663".toList⟩ hkind
  obtain ⟨statement', hok', hobject'⟩ :=
    @enhance_of_resolve_eq_integer _ ⟨"ex:a".toList, "ex:p".toList, "3".toList⟩ hkind
  have hform : integerText "\u0663".toList = "\u0663".toList := by decide +kernel
  have hform' : integerText "3".toList = "3".toList := by decide +kernel
  simp only [hform] at hobject
  simp only [hform'] at hobject'
  refine ⟨hkind, by decide +kernel, statement, statement', hok, hok', ?_, ?_⟩
  · rintro ⟨lexical, hlexical, hcanonical⟩
    obtain rfl := Literal.typed_inj (hobject.symm.trans hlexical)
    rcases hcanonical.isDigit_of_mem List.mem_cons_self with hdigit | hminus
    · exact absurd hdigit (by decide)
    · exact absurd hminus (by decide)
  · rw [hobject, hobject']
    exact fun h => absurd (Literal.typed_inj h) (by decide)

end Ruleset

end TypedTriples
