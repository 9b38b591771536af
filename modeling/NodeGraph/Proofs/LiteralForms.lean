import NodeGraph.Lowering.Literal
import NodeGraph.Proofs.NumberTexts
import NodeGraph.Proofs.WholeNumbers

/-!
# The form of literals

The type of a literal in generated code is told by its form: digits alone are an integer, and digits
with a point or an exponent are a float (`IntegerText`, `PointText`, `ExponentText`). A text of the
one form is not of the other.

`literal_form` says that a visual literal is always an integer, the number truncated and kept in the
range of 64 bits, and that a control literal of a finite number is always a float, which reads back
as the number. It has a point below `10^15` and an exponent from there on.

Three ways of writing share the control literals. What has to be seen of each is that no bare
integer comes out: a number with a fraction has no whole number in its interval, so the digits of
its shortest decimal go on behind the point (`exponent_shortest_neg`); and the exponent of a large
number has no sign, since its shortest decimal is not below one (`leadingPower_shortest_nonneg`).
-/

namespace NodeGraph

open Document

/-! ### Forms -/

/-- Decimal digits, one or more. -/
structure Digits (ds : List Char) : Prop where
  some : ds ≠ []
  all : ∀ c ∈ ds, c.isDigit = true

/-- The texts of integers, and what they denote: a minus sign or none, and digits. -/
inductive IntegerText : List Char → ℤ → Prop where
  | plain {ds : List Char} : Digits ds → IntegerText ds (naturalOf ds)
  | minus {ds : List Char} : Digits ds → IntegerText ('-' :: ds) (-naturalOf ds)

/-- Digits on both sides of a point, and what they denote. -/
inductive PointText : List Char → ℚ → Prop where
  | mk {whole fraction : List Char} : Digits whole → Digits fraction →
    PointText (whole ++ '.' :: fraction) (naturalOf (whole ++ fraction) / 10 ^ fraction.length)

/-- Digits, with or without a point among them, and a power of ten, and what they denote. -/
inductive ExponentText : List Char → ℚ → Prop where
  | whole {whole power : List Char} : Digits whole → Digits power →
    ExponentText (whole ++ 'e' :: power) (naturalOf whole * 10 ^ naturalOf power)
  | point {mantissa power : List Char} {q : ℚ} : PointText mantissa q → Digits power →
    ExponentText (mantissa ++ 'e' :: power) (q * 10 ^ naturalOf power)

/-- A text with a minus sign in front of it, or without. -/
def signed (negative : Bool) (text : List Char) : List Char :=
  if negative then '-' :: text else text

theorem IntegerText.isDigit {text : List Char} {i : ℤ} (h : IntegerText text i) :
    ∀ c ∈ text, c.isDigit = true ∨ c = '-' := by
  cases h with
  | plain digits => exact fun c hc => .inl (digits.all c hc)
  | minus digits =>
    intro c hc
    rcases List.mem_cons.mp hc with rfl | hc
    · exact .inr rfl
    · exact .inl (digits.all c hc)

/-- A text with a character that is neither a digit nor a minus sign is no integer. -/
theorem not_integerText {text : List Char} {c : Char} (hc : c ∈ text) (other : c.isDigit = false)
    (notMinus : c ≠ '-') (negative : Bool) (i : ℤ) : ¬ IntegerText (signed negative text) i := by
  intro integer
  have mem : c ∈ signed negative text := by
    unfold signed
    split
    · exact List.mem_cons_of_mem _ hc
    · exact hc
  rcases integer.isDigit c mem with digit | minus
  · exact Bool.false_ne_true (other.symm.trans digit)
  · exact notMinus minus

theorem PointText.not_integerText {text : List Char} {q : ℚ} (h : PointText text q)
    (negative : Bool) (i : ℤ) : ¬ IntegerText (signed negative text) i := by
  obtain ⟨whole, fraction⟩ := h
  exact NodeGraph.not_integerText (c := '.') (by simp) rfl (by decide) negative i

theorem ExponentText.not_integerText {text : List Char} {q : ℚ} (h : ExponentText text q)
    (negative : Bool) (i : ℤ) : ¬ IntegerText (signed negative text) i := by
  have mark : 'e' ∈ text := by cases h <;> simp
  exact NodeGraph.not_integerText mark rfl (by decide) negative i

/-! ### Written digits -/

theorem digits_toDigits (n : ℕ) : Digits (Nat.toDigits 10 n) :=
  ⟨Nat.toDigits_ne_nil, isDigit_of_mem_toDigits⟩

theorem integerText_toString (i : ℤ) : IntegerText (toString i).toList i := by
  have digits (n : ℕ) : (Nat.repr n).toList = Nat.toDigits 10 n := Nat.toList_repr
  rw [Int.toString_eq_repr, Int.repr_eq_if]
  split
  · have form := IntegerText.plain (digits_toDigits i.toNat)
    rw [naturalOf_toDigits, Int.toNat_of_nonneg ‹_›] at form
    rwa [digits]
  · have form := IntegerText.minus (digits_toDigits (-i).toNat)
    rw [naturalOf_toDigits, Int.toNat_of_nonneg (by omega), neg_neg] at form
    rw [String.toList_append, digits]
    exact form

theorem pointText_of_pointDigits {d : Decimal} {whole fraction : List Char}
    (h : PointDigits d whole fraction) : PointText (whole ++ '.' :: fraction) d.value := by
  rw [← h.exact, zpow_neg, zpow_natCast, ← div_eq_mul_inv]
  exact .mk ⟨h.some, h.digits⟩ ⟨h.some', h.digits'⟩

/-- A decimal that is not below one, with an exponent. -/
theorem exponentText_scientificText {d : Decimal} (h : 0 ≤ leadingPower d) :
    ExponentText (Binary64.scientificText "" (decimalDigits d) (leadingPower d)).toList
      d.value := by
  obtain ⟨power, hpower⟩ := Int.eq_ofNat_of_zero_le h
  obtain ⟨c, cs, digits⟩ := List.exists_cons_of_ne_nil (decimalDigits_ne_nil d)
  have all := isDigit_of_mem_decimalDigits (d := d)
  have value := naturalOf_decimalDigits d
  have written : (toString power).toList = Nat.toDigits 10 power := by
    rw [Nat.toString_eq_ofList_toDigits, String.toList_ofList]
  have place : d.exponent = power - cs.length := by
    rw [leadingPower, digits, List.length_cons] at hpower
    omega
  rw [digits] at all value
  obtain ⟨first, others⟩ := List.forall_mem_cons.mp all
  have lead : Digits [c] := ⟨by simp, by simpa using first⟩
  have unsigned : ¬ (power : ℤ) < 0 := by omega
  simp only [Binary64.scientificText, digits, hpower, if_neg unsigned, String.toList_append]
  rw [Decimal.value, place, zpow_sub₀ (by norm_num), zpow_natCast, zpow_natCast, ← value]
  by_cases single : cs = []
  · have form := ExponentText.whole lead (digits_toDigits power)
    rw [naturalOf_toDigits] at form
    simpa [single, written] using form
  · have form := ExponentText.point (.mk lead ⟨single, others⟩) (digits_toDigits power)
    rw [naturalOf_toDigits, div_mul_eq_mul_div, mul_div_assoc] at form
    simpa [single, written] using form

/-- A decimal whose first digit stands behind the point is below one. -/
theorem value_lt_one {d : Decimal} (h : leadingPower d < 0) : d.value < 1 := by
  have digits : (d.digits : ℚ) < 10 ^ (decimalDigits d).length := by
    exact_mod_cast Decimal.lt_pow_digitCount d.digits
  have place : (decimalDigits d).length + d.exponent ≤ 0 := by
    unfold leadingPower at h
    omega
  calc d.value
    _ < 10 ^ (decimalDigits d).length * (10 : ℚ) ^ d.exponent :=
      mul_lt_mul_of_pos_right digits (zpow_pos (by norm_num) _)
    _ = (10 : ℚ) ^ ((decimalDigits d).length + d.exponent) := by
      rw [zpow_add₀ (by norm_num), zpow_natCast]
    _ ≤ 1 := zpow_le_one_of_nonpos₀ (by norm_num) place

/-! ### Whole numbers and intervals -/

namespace Binary64

variable {v : Binary64}

/-- A number is in its own interval. -/
theorem around_self (v : Binary64) : v.Around (4 * v.units) := by
  by_cases zero : v.units = 0
  · have value : (Decimal.mk 0 0).value = 0 := by simp [Decimal.value]
    have around := shortest_around .up v
    rw [shortest, if_pos zero, value, zero_mul] at around
    rwa [zero, Nat.cast_zero, mul_zero]
  · exact around_of_lt (by exact_mod_cast lowerEnd_lt zero) (by exact_mod_cast lt_upperEnd v)

/-- Only a whole number has a whole number in its interval: where numbers have fractions, the whole
numbers are among them. -/
theorem dvd_units_of_around {n : ℕ} (h : v.Around (n * (4 * one))) : one ∣ v.units := by
  obtain ⟨place, power⟩ : ∃ n : ℕ, one = 2 ^ n := ⟨1074, one_eq⟩
  rcases Nat.le_total place v.scale with large | small
  · rw [units, power]
    exact (Nat.pow_dvd_pow 2 large).mul_left _
  · obtain ⟨k, hk⟩ := Nat.exists_eq_add_of_le small
    have ones : one = 2 ^ k * 2 ^ v.scale := by rw [power, hk, Nat.pow_add, Nat.mul_comm]
    have point : n * (4 * one) = 4 * (n * 2 ^ k) * 2 ^ v.scale := by
      rw [ones]
      ring
    have gap : 0 < 2 ^ v.scale := Nat.pow_pos (by decide)
    have lower : v.lowerEnd ≤ n * (4 * one) := by exact_mod_cast h.le.1
    have upper : n * (4 * one) ≤ v.upperEnd := by exact_mod_cast h.le.2
    rw [point, lowerEnd_eq] at lower
    rw [point, upperEnd_eq] at upper
    have quarters := lowerQuarters_le v
    have same : v.significand = n * 2 ^ k := by
      have := Nat.le_of_mul_le_mul_right lower gap
      have := Nat.le_of_mul_le_mul_right upper gap
      omega
    refine ⟨n, ?_⟩
    rw [units, same, ones, Nat.pow_eq]
    ring

/-- The shortest decimal of a number with a fraction has digits behind the point. -/
theorem exponent_shortest_neg (tie : Tie) (h : ¬ one ∣ v.units) :
    (v.shortest tie).exponent < 0 := by
  by_contra notNegative
  obtain ⟨e, he⟩ := Int.eq_ofNat_of_zero_le (not_lt.mp notNegative)
  have around := shortest_around tie v
  rw [Decimal.value, he, zpow_natCast] at around
  refine h (dvd_units_of_around (n := (v.shortest tie).digits * 10 ^ e) ?_)
  push_cast
  exact around

theorem two_mul_units_le_lowerEnd (v : Binary64) : 2 * v.units ≤ v.lowerEnd := by
  have := lowerQuarters_le v
  rw [lowerEnd_eq, units, Nat.pow_eq, ← Nat.mul_assoc]
  exact Nat.mul_le_mul_right _ (by omega)

/-- The shortest decimal of a number that is two or more is not below one. -/
theorem leadingPower_shortest_nonneg (tie : Tie) (h : 2 ≤ v.magnitude) :
    0 ≤ leadingPower (v.shortest tie) := by
  by_contra below
  have value := value_lt_one (not_le.mp below)
  have lower : (2 * v.units : ℚ) ≤ (v.shortest tie).value * (4 * one) :=
    le_trans (by exact_mod_cast two_mul_units_le_lowerEnd v) (shortest_around tie v).le.1
  have pos : (0 : ℚ) < one := Nat.cast_pos.mpr one_pos
  rw [magnitude_eq, le_div_iff₀ pos] at h
  generalize (one : ℚ) = unit at h lower pos
  nlinarith

end Binary64

/-! ### Control literals -/

/-- A text is the sign of a number and then a text of a form, and denotes a magnitude that reads
back as the number. -/
def Binary64.WrittenIn (form : List Char → ℚ → Prop) (v : Binary64) (text : String) : Prop :=
  ∃ digits q, text.toList = signed v.isNegative digits ∧ form digits q ∧
    v.Around (q * (4 * Binary64.one))

theorem toList_sign_append (negative : Bool) (text : String) :
    ((if negative then "-" else "") ++ text).toList = signed negative text.toList := by
  unfold signed
  split <;> simp

/-- The digits of a whole number and `.0` denote the number. -/
theorem pointText_whole (n : ℕ) : PointText (toString n ++ ".0").toList n := by
  have zero : Digits ['0'] := ⟨by simp, by simp⟩
  have form := PointText.mk (digits_toDigits n) zero
  have tens := naturalOf_append_zeros (Nat.toDigits 10 n) 1
  rw [naturalOf_toDigits, pow_one, List.replicate_one] at tens
  rw [tens] at form
  rw [String.toList_append, Nat.toString_eq_ofList_toDigits, String.toList_ofList]
  simpa using form

section

variable {v : Binary64} (finite : v.isFinite = true)

include finite

theorem magnitudeAtLeast_iff (n : ℕ) :
    v.magnitudeAtLeast n = true ↔ (n : ℚ) ≤ |v.value| := by
  have pos : (0 : ℚ) < Binary64.one := Nat.cast_pos.mpr Binary64.one_pos
  rw [Binary64.magnitudeAtLeast, if_pos finite, decide_eq_true_iff, v.abs_value, v.magnitude_eq,
    le_div_iff₀ pos, ← Nat.cast_mul, Nat.cast_le]

theorem isWhole_iff : v.isWhole = true ↔ Binary64.one ∣ v.units := by
  rw [Binary64.isWhole, finite, Bool.true_and, beq_iff_eq, Nat.dvd_iff_mod_eq_zero]

/-- From `10^15` on, a control literal has an exponent. -/
theorem writtenIn_exponentText (large : 10 ^ 15 ≤ |v.value|) :
    v.WrittenIn ExponentText (Literal.controlText v) := by
  have guard : v.magnitudeAtLeast (Nat.pow 10 15) = true := by
    rw [magnitudeAtLeast_iff finite]
    exact_mod_cast large
  have notBelow : 2 ≤ v.magnitude := by
    rw [← v.abs_value]
    linarith
  refine ⟨_, _, ?_,
    exponentText_scientificText (Binary64.leadingPower_shortest_nonneg .up notBelow),
    Binary64.shortest_around .up v⟩
  rw [Literal.controlText, if_pos guard, toList_write finite]
  rfl

/-- Below `10^15`, it is the whole numbers that are written with `.0`. -/
theorem controlText_of_lt (small : |v.value| < 10 ^ 15) :
    Literal.controlText v =
      if v.isWhole then (if v.isNegative then "-" else "") ++ toString v.whole ++ ".0"
      else Listing.number.write v := by
  have guard : ¬ v.magnitudeAtLeast (Nat.pow 10 15) = true := by
    rw [magnitudeAtLeast_iff finite, not_le]
    exact_mod_cast small
  rw [Literal.controlText, if_neg guard]

/-- Below `10^15`, a control literal has a point and no exponent. -/
theorem writtenIn_pointText (small : |v.value| < 10 ^ 15) :
    v.WrittenIn PointText (Literal.controlText v) := by
  rw [controlText_of_lt finite small]
  split
  · rename_i whole
    refine ⟨_, _, ?_, pointText_whole v.whole, ?_⟩
    · rw [String.append_assoc, toList_sign_append]
    · have units : v.whole * Binary64.one = v.units :=
        Nat.div_mul_cancel ((isWhole_iff finite).mp whole)
      have around := v.around_self
      rw [← units, Nat.cast_mul, mul_left_comm] at around
      exact around
  · rename_i broken
    have fraction : (v.shortest .up).exponent < 0 :=
      Binary64.exponent_shortest_neg .up ((isWhole_iff finite).not.mp broken)
    obtain ⟨before, after, digits, written⟩ :=
      exists_pointDigits shortest_exponent "" (.inr fraction)
    refine ⟨_, _, ?_, pointText_of_pointDigits digits, Binary64.shortest_around .up v⟩
    rw [toList_write finite, ← written]
    rfl

/-- A whole number below `10^15` is written with all its digits. -/
theorem controlText_of_value_eq {n : ℤ} (h : v.value = n) (small : |n| < 10 ^ 15) :
    Literal.controlText v = (if v.isNegative then "-" else "") ++ toString n.natAbs ++ ".0" := by
  have pos : (0 : ℚ) < Binary64.one := Nat.cast_pos.mpr Binary64.one_pos
  have size : |v.value| = n.natAbs := by rw [h, Nat.cast_natAbs, Int.cast_abs]
  have units : v.units = n.natAbs * Binary64.one := by
    have same := v.abs_value
    rw [size, v.magnitude_eq, eq_div_iff pos.ne', ← Nat.cast_mul, Nat.cast_inj] at same
    exact same.symm
  have whole : v.isWhole = true := (isWhole_iff finite).mpr (units ▸ Nat.dvd_mul_left _ _)
  have digits : v.whole = n.natAbs := by
    rw [Binary64.whole, units, Nat.mul_div_cancel _ Binary64.one_pos]
  have bound : |v.value| < 10 ^ 15 := by
    rw [h]
    exact_mod_cast small
  rw [controlText_of_lt finite bound, if_pos whole, digits]

end

/-- **Literals have the form of their domain.** A visual literal is an integer, with a minus sign
when it is negative: the number truncated toward zero and kept in the range of 64 bits. A control
literal of a finite number is a float, with a minus sign when the sign bit is set, and reads back as
the number; it has a point and no exponent below `10^15`, and an exponent from there on, so it is
never a bare integer. A whole number below `10^15` is written with all its digits and `.0`. -/
theorem literal_form (v : Binary64) :
    IntegerText (Literal.text ⟨.visual, v⟩).toList (v.int64 towardZero) ∧
    (v.isFinite = true →
      (|v.value| < 10 ^ 15 → v.WrittenIn PointText (Literal.text ⟨.control, v⟩)) ∧
      (10 ^ 15 ≤ |v.value| → v.WrittenIn ExponentText (Literal.text ⟨.control, v⟩)) ∧
      (∀ i, ¬ IntegerText (Literal.text ⟨.control, v⟩).toList i) ∧
      ∀ n : ℤ, v.value = n → |n| < 10 ^ 15 →
        Literal.text ⟨.control, v⟩ =
          (if v.isNegative then "-" else "") ++ toString n.natAbs ++ ".0") := by
  refine ⟨?_, fun finite => ⟨writtenIn_pointText finite, writtenIn_exponentText finite, ?_,
    fun n => controlText_of_value_eq finite⟩⟩
  · rw [← v.truncate_eq]
    exact integerText_toString v.truncate
  · intro i
    rcases lt_or_ge |v.value| (10 ^ 15) with small | large
    · obtain ⟨digits, q, text, form, -⟩ := writtenIn_pointText finite small
      exact text ▸ form.not_integerText _ i
    · obtain ⟨digits, q, text, form, -⟩ := writtenIn_exponentText finite large
      exact text ▸ form.not_integerText _ i

/-- The least whole number that is written with a point. -/
def leastPoint : Binary64 := ⟨0xC30C6BF52633FFF8⟩

theorem literal_form_leastPoint :
    leastPoint.isFinite = true ∧ leastPoint.value = (-999999999999999 : ℤ) ∧
      Literal.text ⟨.control, leastPoint⟩ = "-999999999999999.0" := by
  have value : leastPoint.value = (-999999999999999 : ℤ) := by
    have sign : leastPoint.isNegative = true := by decide
    have exponent : leastPoint.exponent = 1072 := by decide
    have fraction : leastPoint.fraction = 3496400372629496 := by decide
    rw [Binary64.value, if_pos sign, Binary64.magnitude, exponent, fraction]
    norm_num
  obtain ⟨-, -, -, whole⟩ := (literal_form leastPoint).2 (by decide)
  exact ⟨by decide, value, (whole _ value (by decide)).trans (by decide)⟩

end NodeGraph
