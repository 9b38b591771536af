import NodeGraph.Proofs.Numerals
import NodeGraph.Proofs.Shortest

/-!
# The text of a number tells the number

The value that the reader gives to a number is rounded, but the parts it takes a number apart into
are exact: they are read back with their sign (`reads_signedParts`), and stand for a rational number
(`NumberText.exact`). The text of a finite number is made of parts that stand for its shortest
decimal (`exists_parts`), in each of the ways in which digits are set out.

So finite numbers with the same text are the same, and a text that is followed by more is told apart
from it (`numberText_unique`). What is not finite has one text, which is no number.
-/

namespace NodeGraph

/-- What the text of a number tells of it: the number, if it is finite, and otherwise nothing but
that it is not. -/
def Binary64.written (v : Binary64) : Binary64 := if v.isFinite then v else nan

namespace Document

/-! ### Parts with their sign -/

namespace NumberText

/-- The text of the parts. -/
def text (t : NumberText) : List Char :=
  if t.negative then '-' :: t.magnitudeText else t.magnitudeText

/-- The rational number that the parts after the sign stand for. -/
def exact (t : NumberText) : ℚ :=
  naturalOf (t.whole ++ t.fraction) *
    (10 : ℚ) ^ ((if t.exponentNegative then -(naturalOf t.exponent : Int)
      else naturalOf t.exponent) - t.fraction.length)

end NumberText

/-- The parts of a number with its sign. -/
def signedParts : Reader NumberText
  | '-' :: rest => numberParts .endInValue true rest
  | text => numberParts .endInValue false text

/-- A number is read back from its parts as they are written. -/
theorem reads_signedParts {t : NumberText} (proper : t.Proper) : Reads signedParts t.text t := by
  obtain ⟨c, cs, whole⟩ := List.exists_cons_of_ne_nil proper.some
  have digit : c.isDigit = true := proper.whole c (whole ▸ List.mem_cons_self)
  have ne (d : Char) (h : d.isDigit = false) : c ≠ d := by
    rintro rfl
    exact Bool.false_ne_true (h.symm.trans digit)
  have magnitude : t.magnitudeText = c :: (cs ++ (t.fractionText ++ t.exponentText)) := by
    rw [NumberText.magnitudeText, whole, List.cons_append]
  have read {rest : List Char} (ended : Ended rest) :=
    numberParts_magnitudeText proper .endInValue ended
  unfold NumberText.text
  split
  · rename_i negative
    rw [negative] at read
    exact ⟨⟨'-', _, rfl, rfl, by decide⟩, fun rest ended => read ended⟩
  · rename_i positive
    rw [Bool.not_eq_true] at positive
    rw [positive, magnitude] at read
    rw [magnitude]
    refine ⟨⟨c, _, rfl, isBlank_of_isDigit digit, ne _ rfl⟩, fun rest ended => ?_⟩
    rw [← read ended, List.cons_append, signedParts]
    exact fun _ e => ne '-' rfl (List.cons.inj e).1

/-! ### Digits as they are set out -/

/-- The digits of a decimal number. -/
def decimalDigits (d : Decimal) : List Char := Nat.toDigits 10 d.digits

/-- The power of ten of the first digit of a decimal number. -/
def leadingPower (d : Decimal) : Int := d.exponent + (decimalDigits d).length - 1

/-- The parts of a number of a sign that stand for a decimal number and are written as a text. -/
structure NumberText.Spells (t : NumberText) (negative : Bool) (d : Decimal) (text : String) :
    Prop where
  proper : t.Proper
  sign : t.negative = negative
  exact : t.exact = d.value
  text : text.toList = t.magnitudeText

theorem decimalDigits_ne_nil (d : Decimal) : decimalDigits d ≠ [] := Nat.toDigits_ne_nil

theorem isDigit_of_mem_decimalDigits {d : Decimal} : ∀ c ∈ decimalDigits d, c.isDigit = true :=
  isDigit_of_mem_toDigits

theorem naturalOf_toDigits (n : Nat) : naturalOf (Nat.toDigits 10 n) = n := by
  rw [naturalOf_eq, Nat.ofDigitChars_ten_toDigits]

theorem naturalOf_decimalDigits (d : Decimal) : naturalOf (decimalDigits d) = d.digits :=
  naturalOf_toDigits d.digits

/-- Only zero starts with a zero. -/
theorem digits_of_head?_eq {d : Decimal} (h : (decimalDigits d).head? = some '0') :
    d.digits = 0 := by
  by_contra more
  exact head?_toDigits (Nat.pos_of_ne_zero more) h

theorem naturalOf_append_zeros (ds : List Char) (n : Nat) :
    naturalOf (ds ++ List.replicate n '0') = 10 ^ n * naturalOf ds := by
  rw [naturalOf_eq, Nat.ofDigitChars_append, Nat.ofDigitChars_replicate_zero, naturalOf_eq]

theorem naturalOf_zeros_append (n : Nat) (ds : List Char) :
    naturalOf (List.replicate n '0' ++ ds) = naturalOf ds := by
  rw [naturalOf_eq, Nat.ofDigitChars_append, Nat.ofDigitChars_replicate_zero, naturalOf_eq,
    Nat.mul_zero]

theorem isDigit_of_mem_zeros {n : Nat} : ∀ c ∈ List.replicate n '0', c.isDigit = true := by
  intro c hc
  rw [List.eq_of_mem_replicate hc]
  rfl

/-- Digits on both sides of a point that stand for a decimal number. -/
structure PointDigits (d : Decimal) (whole fraction : List Char) : Prop where
  some : whole ≠ []
  lead : whole.head? = .some '0' → whole = ['0']
  digits : ∀ c ∈ whole, c.isDigit = true
  some' : fraction ≠ []
  digits' : ∀ c ∈ fraction, c.isDigit = true
  exact : naturalOf (whole ++ fraction) * (10 : ℚ) ^ (-(fraction.length : Int)) = d.value

/-- A decimal below one: zeros stand between the point and the digits. -/
theorem pointDigits_below {d : Decimal} (h : leadingPower d < 0) :
    PointDigits d ['0']
      (List.replicate ((-leadingPower d).toNat - 1) '0' ++ decimalDigits d) := by
  refine ⟨by simp, fun _ => rfl, by simp, by simp [decimalDigits_ne_nil], ?_, ?_⟩
  · exact List.forall_mem_append.mpr ⟨isDigit_of_mem_zeros, isDigit_of_mem_decimalDigits⟩
  · have digits := naturalOf_zeros_append ((-leadingPower d).toNat - 1 + 1) (decimalDigits d)
    rw [List.replicate_succ, naturalOf_decimalDigits] at digits
    rw [Decimal.value, ← digits]
    congr 2
    rw [List.length_append, List.length_replicate]
    unfold leadingPower at h ⊢
    omega

/-- A whole decimal: zeros fill the places up to the point. -/
theorem pointDigits_whole {d : Decimal} (zero : d.digits = 0 → d.exponent = 0)
    (notNegative : 0 ≤ leadingPower d)
    (short : (decimalDigits d).length ≤ (leadingPower d).toNat + 1) :
    PointDigits d (decimalDigits d ++
      List.replicate ((leadingPower d).toNat + 1 - (decimalDigits d).length) '0') ['0'] := by
  have fill : (((leadingPower d).toNat + 1 - (decimalDigits d).length : Nat) : Int) =
      d.exponent := by
    unfold leadingPower at *
    omega
  generalize (leadingPower d).toNat + 1 - (decimalDigits d).length = n at fill
  refine ⟨by simp [decimalDigits_ne_nil], ?_, ?_, by simp, by simp, ?_⟩
  · rw [List.head?_append_of_ne_nil _ (decimalDigits_ne_nil d)]
    intro first
    have none := zero (digits_of_head?_eq first)
    obtain rfl : n = 0 := by omega
    rw [List.replicate_zero, List.append_nil]
    exact toDigits_of_head?_eq first
  · exact List.forall_mem_append.mpr ⟨isDigit_of_mem_decimalDigits, isDigit_of_mem_zeros⟩
  · have digits := naturalOf_append_zeros (decimalDigits d) (n + 1)
    rw [List.replicate_succ', ← List.append_assoc, naturalOf_decimalDigits] at digits
    have place : (10 : ℚ) ^ (-((['0'].length : Nat) : Int)) = 1 / 10 := by norm_num
    rw [digits, Decimal.value, ← fill, zpow_natCast, place]
    push_cast
    ring

/-- A decimal with digits on both sides of the point. -/
theorem pointDigits_mixed {d : Decimal} (notNegative : 0 ≤ leadingPower d)
    (long : (leadingPower d).toNat + 1 < (decimalDigits d).length) :
    PointDigits d ((decimalDigits d).take ((leadingPower d).toNat + 1))
      ((decimalDigits d).drop ((leadingPower d).toNat + 1)) := by
  refine ⟨by simp [decimalDigits_ne_nil], ?_,
    fun c hc => isDigit_of_mem_decimalDigits c (List.mem_of_mem_take hc), ?_,
    fun c hc => isDigit_of_mem_decimalDigits c (List.mem_of_mem_drop hc), ?_⟩
  · intro first
    rw [List.head?_take, if_neg (by omega)] at first
    have single := congrArg List.length (toDigits_of_head?_eq first)
    have : (decimalDigits d).length = 1 := single
    omega
  · rw [Ne, List.drop_eq_nil_iff]
    omega
  · rw [List.take_append_drop, naturalOf_decimalDigits, Decimal.value]
    congr 2
    rw [List.length_drop]
    unfold leadingPower at *
    omega

/-- Digits that are set out positionally have a point among them, if a whole number shows one too or
the decimal is not whole. -/
theorem exists_pointDigits {d : Decimal} (zero : d.digits = 0 → d.exponent = 0)
    (wholeSuffix : String) (h : wholeSuffix = ".0" ∨ d.exponent < 0) :
    ∃ whole fraction, PointDigits d whole fraction ∧
      (Binary64.positionalText wholeSuffix (decimalDigits d) (leadingPower d)).toList =
        whole ++ '.' :: fraction := by
  unfold Binary64.positionalText
  split
  · refine ⟨_, _, pointDigits_below ‹_›, ?_⟩
    rw [String.toList_append]
    simp
  · rename_i notNegative
    simp only
    split
    · rename_i short
      have suffix : wholeSuffix = ".0" := by
        refine h.resolve_right fun negative => ?_
        unfold leadingPower at notNegative short
        omega
      refine ⟨_, _, pointDigits_whole zero (not_lt.mp notNegative) short, ?_⟩
      rw [String.toList_append, suffix]
      simp
    · rename_i long
      refine ⟨_, _, pointDigits_mixed (not_lt.mp notNegative) (not_le.mp long), ?_⟩
      rw [String.toList_append, String.toList_append]
      simp

/-- Digits on both sides of a point, and no exponent. -/
theorem spells_point {d : Decimal} {whole fraction : List Char} (h : PointDigits d whole fraction)
    (negative : Bool) {text : String} (written : text.toList = whole ++ '.' :: fraction) :
    (NumberText.mk negative whole fraction true false []).Spells negative d text := by
  refine ⟨⟨h.some, h.lead, h.digits, h.digits', fun _ h => (List.not_mem_nil h).elim,
    by simp [h.some'], fun _ => rfl⟩, rfl, ?_, ?_⟩
  · rw [← h.exact]
    simp [NumberText.exact, naturalOf]
  · rw [written]
    simp [NumberText.magnitudeText, NumberText.fractionText, NumberText.exponentText, h.some']

/-- A decimal with an exponent. -/
theorem exists_scientific (negative : Bool) (d : Decimal) :
    ∃ t : NumberText, t.Spells negative d
      (Binary64.scientificText "+" (decimalDigits d) (leadingPower d)) := by
  obtain ⟨c, cs, digits⟩ := List.exists_cons_of_ne_nil (decimalDigits_ne_nil d)
  have all := isDigit_of_mem_decimalDigits (d := d)
  have value := naturalOf_decimalDigits d
  have power : (if leadingPower d < 0 then -((leadingPower d).natAbs : Int)
      else (leadingPower d).natAbs) - cs.length = d.exponent := by
    unfold leadingPower
    rw [digits, List.length_cons]
    split <;> omega
  rw [digits] at all value ⊢
  obtain ⟨first, others⟩ := List.forall_mem_cons.mp all
  refine ⟨⟨negative, [c], cs, true, decide (leadingPower d < 0),
    Nat.toDigits 10 (leadingPower d).natAbs⟩, ?_, rfl, ?_, ?_⟩
  · exact ⟨by simp, by simp, by simpa using first, others, isDigit_of_mem_toDigits, by simp,
      fun none => absurd none Nat.toDigits_ne_nil⟩
  · simp only [NumberText.exact, List.singleton_append, value, naturalOf_toDigits,
      decide_eq_true_eq, power]
    rfl
  · have exponent : (toString (leadingPower d).natAbs).toList =
        Nat.toDigits 10 (leadingPower d).natAbs := by
      rw [Nat.toString_eq_ofList_toDigits, String.toList_ofList]
    have sign : (if leadingPower d < 0 then "-" else "+").toList =
        [if decide (leadingPower d < 0) = true then '-' else '+'] := by
      by_cases h : leadingPower d < 0 <;> simp [h]
    have point : (if (c :: cs).length ≤ 1 then "" else ".").toList ++ cs =
        if cs = [] then [] else '.' :: cs := by
      cases cs <;> simp
    simp only [Binary64.scientificText, NumberText.magnitudeText, NumberText.fractionText,
      NumberText.exponentText, String.toList_append, exponent, sign, ← point,
      if_neg Nat.toDigits_ne_nil]
    simp

/-- The shortest decimal of zero is written without an exponent. -/
theorem shortest_exponent {v : Binary64} {tie : Binary64.Tie} (h : (v.shortest tie).digits = 0) :
    (v.shortest tie).exponent = 0 := by
  rw [Binary64.shortest_of_digits_eq h]

theorem toList_write {layout : Binary64.Layout} {v : Binary64} (h : v.isFinite = true) :
    (layout.write v).toList = if v.isNegative then '-' :: (layout.writeMagnitude v).toList
      else (layout.writeMagnitude v).toList := by
  have notNaN : v.isNaN = false := by
    simp only [Binary64.isFinite, bne_iff_ne] at h
    simp [Binary64.isNaN, h]
  rw [Binary64.Layout.write, if_neg (by simp [notNaN]), if_pos h]
  split
  · rw [String.toList_append]
    rfl
  · rfl

/-- The text of a finite number is made of parts that stand for its shortest decimal. -/
theorem exists_parts {v : Binary64} (h : v.isFinite = true) :
    ∃ t : NumberText, t.Proper ∧ t.negative = v.isNegative ∧
      t.exact = (v.shortest .even).value ∧ numberText v = t.text := by
  have magnitude : ∃ t : NumberText,
      t.Spells v.isNegative (v.shortest .even) (numberLayout.writeMagnitude v) := by
    unfold Binary64.Layout.writeMagnitude
    simp only
    split
    · obtain ⟨whole, fraction, digits, written⟩ :=
        exists_pointDigits shortest_exponent ".0" (.inl rfl)
      exact ⟨_, spells_point digits _ written⟩
    · exact exists_scientific _ _
  obtain ⟨t, proper, sign, exact, text⟩ := magnitude
  refine ⟨t, proper, sign, exact, ?_⟩
  rw [numberText, toList_write h, NumberText.text, sign, text]

/-! ### Numbers -/

theorem numberText_of_not_finite {v : Binary64} (h : v.isFinite = false) :
    numberText v = ['n', 'u', 'l', 'l'] := by
  unfold numberText Binary64.Layout.write
  simp only [h, Bool.false_eq_true, if_false, numberLayout, ite_self]
  rfl

/-- No finite number is written as what is not finite. -/
theorem numberText_append_ne {v w : Binary64} (hv : v.isFinite = true) (hw : w.isFinite = false)
    {rest rest' : List Char} (ended : Ended rest) :
    numberText v ++ rest ≠ numberText w ++ rest' := by
  intro e
  obtain ⟨t, proper, -, -, text⟩ := exists_parts hv
  have read := (reads_signedParts proper).read rest ended
  rw [← text, e, numberText_of_not_finite hw] at read
  cases read

theorem opens_numberText (v : Binary64) : Opens (numberText v) := by
  by_cases h : v.isFinite = true
  · obtain ⟨t, proper, -, -, text⟩ := exists_parts h
    exact text ▸ (reads_signedParts proper).opens
  · rw [numberText_of_not_finite (Bool.eq_false_of_not_eq_true h)]
    exact ⟨'n', _, rfl, rfl, by decide⟩

/-- The text of a number tells the number, if it is finite, and what follows it. -/
theorem numberText_unique {v w : Binary64} {rest rest' : List Char} (ended : Ended rest)
    (ended' : Ended rest') (e : numberText v ++ rest = numberText w ++ rest') :
    v.written = w.written ∧ rest = rest' := by
  unfold Binary64.written
  cases hv : v.isFinite <;> cases hw : w.isFinite
  · rw [numberText_of_not_finite hv, numberText_of_not_finite hw] at e
    exact ⟨rfl, List.append_cancel_left e⟩
  · exact absurd e.symm (numberText_append_ne hw hv ended')
  · exact absurd e (numberText_append_ne hv hw ended)
  · obtain ⟨t, proper, sign, exact, text⟩ := exists_parts hv
    obtain ⟨t', proper', sign', exact', text'⟩ := exists_parts hw
    rw [text, text'] at e
    obtain ⟨rfl, rest⟩ :=
      (reads_signedParts proper).unique (reads_signedParts proper') ended ended' e
    exact ⟨Binary64.eq_of_shortest (sign.symm.trans sign') (exact.symm.trans exact'), rest⟩

end Document

end NodeGraph
