import Mathlib.Algebra.Order.Field.Rat
import Mathlib.Tactic.FieldSimp
import Mathlib.Tactic.Linarith
import Mathlib.Tactic.Ring
import NodeGraph.Binary64.Shortest

/-!
# The shortest decimal tells a number

Every number is the nearest one to the reals of an interval (`Around`). Two intervals have no point
in common: where they meet, the end belongs to the one whose significand is even. So a decimal in
the interval of a number tells its magnitude (`Around.unique`).

The search for the shortest decimal ends: the points of the grid of seventeen digits stand so close
that one of the two around the number is in its interval (`exists_onGrid`). So the shortest decimal
is always in the interval of its number (`shortest_around`), and numbers of one sign with the same
shortest decimal are the same (`eq_of_shortest`).
-/

namespace NodeGraph

/-! ### Decimals -/

namespace Decimal

/-- The rational number that a decimal stands for. -/
def value (d : Decimal) : ℚ := d.digits * (10 : ℚ) ^ d.exponent

theorem value_trimWithin (fuel digits : Nat) (exponent : Int) :
    (trimWithin fuel digits exponent).value = (Decimal.mk digits exponent).value := by
  induction fuel generalizing digits exponent with
  | zero => rfl
  | succ fuel ih =>
    rw [trimWithin]
    split
    · rename_i h
      obtain ⟨-, last⟩ : digits ≠ 0 ∧ digits % 10 = 0 := by simpa using h
      have tens : (digits : ℚ) = (digits / 10 : Nat) * 10 := by
        exact_mod_cast (Nat.div_mul_cancel (Nat.dvd_of_mod_eq_zero last)).symm
      rw [ih]
      simp only [value]
      rw [zpow_add_one₀ (by norm_num), tens]
      ring
    · rfl

theorem value_trim (d : Decimal) : d.trim.value = d.value := value_trimWithin _ _ _

theorem lt_pow_digitCount (n : Nat) : n < 10 ^ digitCount n :=
  (Nat.length_toDigits_le_iff (by decide) Nat.length_toDigits_pos).mp (Nat.le_refl _)

theorem pow_digitCount_le {n : Nat} (h : 0 < n) : 10 ^ (digitCount n - 1) ≤ n := by
  by_cases one : digitCount n = 1
  · rw [one]
    exact h
  · have more : 0 < digitCount n - 1 := by
      have : 0 < digitCount n := Nat.length_toDigits_pos
      omega
    by_contra less
    have := (Nat.length_toDigits_le_iff (by decide) more).mpr (Nat.lt_of_not_le less)
    have : digitCount n ≤ digitCount n - 1 := this
    omega

end Decimal

namespace Binary64

variable {v w : Binary64}

/-! ### Significands and scales -/

theorem one_pos : 0 < one := by decide +kernel

theorem significand_lt (v : Binary64) : v.significand < 2 * fractionSpan := by
  have : v.fraction < fractionSpan := Nat.mod_lt _ (by decide)
  unfold significand
  split <;> omega

theorem fractionSpan_le_significand (h : 0 < v.scale) : fractionSpan ≤ v.significand := by
  have : v.exponent ≠ 0 := by
    intro zero
    simp [scale, zero] at h
  rw [significand, if_neg this]
  omega

theorem significand_pos (h : v.units ≠ 0) : 0 < v.significand :=
  Nat.pos_of_ne_zero fun zero => h (by rw [units, zero, Nat.zero_mul])

/-- The sign, the scale and the significand are all there is to a number. -/
theorem eq_of_significand (sign : v.isNegative = w.isNegative) (scale : v.scale = w.scale)
    (significand : v.significand = w.significand) : v = w := by
  have small (u : Binary64) : u.fraction < fractionSpan := Nat.mod_lt _ (by decide)
  have exponent : v.exponent = w.exponent := by
    have := small v
    have := small w
    unfold Binary64.scale at scale
    unfold Binary64.significand at significand
    split at significand <;> split at significand <;> omega
  have fraction : v.fraction = w.fraction := by
    unfold Binary64.significand at significand
    rw [exponent] at significand
    split at significand <;> omega
  have word : v.bits.toNat = w.bits.toNat := by
    have := v.bits.toNat_lt
    have := w.bits.toNat_lt
    simp only [isNegative, decide_eq_decide] at sign
    simp only [Binary64.exponent, Binary64.fraction] at exponent fraction
    rw [show fractionSpan = 4503599627370496 by decide] at exponent fraction
    rw [show signSpan = 9223372036854775808 by decide] at sign
    omega
  cases v
  cases w
  exact congrArg Binary64.mk (UInt64.toNat_inj.mp word)

/-! ### Intervals -/

/-- A rational number, in quarter units, that reads back as a number: it is inside the interval of
the number, or on an end of it and the significand is even. -/
def Around (v : Binary64) (q : ℚ) : Prop :=
  if v.significand % 2 = 0 then (v.lowerEnd : ℚ) ≤ q ∧ q ≤ v.upperEnd
  else (v.lowerEnd : ℚ) < q ∧ q < v.upperEnd

theorem around_of_lt {q : ℚ} (lower : (v.lowerEnd : ℚ) < q) (upper : q < v.upperEnd) :
    v.Around q := by
  unfold Around
  split
  · exact ⟨lower.le, upper.le⟩
  · exact ⟨lower, upper⟩

theorem Around.le {q : ℚ} (h : v.Around q) : (v.lowerEnd : ℚ) ≤ q ∧ q ≤ v.upperEnd := by
  unfold Around at h
  split at h
  · exact h
  · exact ⟨h.1.le, h.2.le⟩

theorem Around.lt {q : ℚ} (h : v.Around q) (odd : v.significand % 2 ≠ 0) :
    (v.lowerEnd : ℚ) < q ∧ q < v.upperEnd := by
  rwa [Around, if_neg odd] at h

theorem readsBack_iff {num den : Nat} (h : 0 < den) :
    v.readsBack num den = true ↔ v.Around (num / den) := by
  have pos : (0 : ℚ) < den := by exact_mod_cast h
  unfold readsBack Around
  split <;> rw [decide_eq_true_iff]
  · rw [le_div_iff₀ pos, div_le_iff₀ pos]
    norm_cast
  · rw [lt_div_iff₀ pos, div_lt_iff₀ pos]
    norm_cast

/-- How far the lower end is from the number, in quarters of the gap above it. -/
def lowerQuarters (v : Binary64) : Nat :=
  if v.significand = fractionSpan ∧ 0 < v.scale then 1 else 2

theorem lowerQuarters_le (v : Binary64) : v.lowerQuarters ≤ 2 := by
  unfold lowerQuarters
  split <;> omega

theorem lowerEnd_eq (v : Binary64) :
    v.lowerEnd = (4 * v.significand - v.lowerQuarters) * 2 ^ v.scale := by
  rw [Nat.sub_mul]
  simp only [lowerEnd, lowerQuarters, units, Nat.pow_eq, Nat.mul_assoc]
  split <;> simp

theorem upperEnd_eq (v : Binary64) : v.upperEnd = (4 * v.significand + 2) * 2 ^ v.scale := by
  simp only [upperEnd, units, Nat.pow_eq]
  ring

theorem lowerEnd_lt (h : v.units ≠ 0) : v.lowerEnd < 4 * v.units := by
  have gap : 0 < Nat.pow 2 v.scale := Nat.pow_pos (by decide)
  unfold lowerEnd
  simp only
  split <;> omega

theorem lt_upperEnd (v : Binary64) : 4 * v.units < v.upperEnd :=
  Nat.lt_add_of_pos_right (Nat.mul_pos (by decide) (Nat.pow_pos (by decide)))

theorem lowerEnd_pos (h : v.units ≠ 0) : 0 < v.lowerEnd := by
  have := significand_pos h
  have := lowerQuarters_le v
  rw [lowerEnd_eq]
  exact Nat.mul_pos (by omega) (Nat.pow_pos (by decide))

theorem upperEnd_eq_lowerEnd_add (h : v.units ≠ 0) :
    v.upperEnd = v.lowerEnd + (2 + v.lowerQuarters) * 2 ^ v.scale := by
  have := significand_pos h
  have := lowerQuarters_le v
  rw [upperEnd_eq, lowerEnd_eq, ← Nat.add_mul]
  congr 1
  omega

/-- One interval ends before the other, or where it starts; and the end they share is not in
both. -/
def Apart (v w : Binary64) : Prop :=
  v.upperEnd ≤ w.lowerEnd ∧
    (v.significand % 2 = 0 → w.significand % 2 = 0 → v.upperEnd < w.lowerEnd)

theorem Apart.not_around {q : ℚ} (h : Apart v w) (hv : v.Around q) (hw : w.Around q) : False := by
  have le : (v.upperEnd : ℚ) ≤ w.lowerEnd := by exact_mod_cast h.1
  by_cases ev : v.significand % 2 = 0
  · by_cases ew : w.significand % 2 = 0
    · have lt : (v.upperEnd : ℚ) < w.lowerEnd := by exact_mod_cast h.2 ev ew
      linarith [hv.le.2, hw.le.1]
    · linarith [hv.le.2, (hw.lt ew).1]
  · linarith [(hv.lt ev).2, hw.le.1]

theorem apart_of_significand_lt (scale : v.scale = w.scale)
    (less : v.significand < w.significand) : Apart v w := by
  have := lowerQuarters_le w
  rw [Apart, upperEnd_eq, lowerEnd_eq, scale]
  refine ⟨Nat.mul_le_mul_right _ (by omega), fun ev ew => ?_⟩
  exact Nat.mul_lt_mul_of_pos_right (by omega) (Nat.pow_pos (by decide))

/-- On a greater scale the gaps are at least twice as wide. -/
theorem apart_of_scale_lt (less : v.scale < w.scale) : Apart v w := by
  have span : fractionSpan = 4503599627370496 := by decide
  have small := significand_lt v
  have large := fractionSpan_le_significand (Nat.zero_lt_of_lt less)
  have coefficients : 4 * v.significand + 2 ≤ (4 * w.significand - w.lowerQuarters) * 2 ∧
      (v.significand % 2 = 0 →
        4 * v.significand + 2 < (4 * w.significand - w.lowerQuarters) * 2) := by
    unfold lowerQuarters
    split <;> omega
  have gaps : 2 * 2 ^ v.scale ≤ 2 ^ w.scale := by
    rw [Nat.mul_comm, ← Nat.pow_succ]
    exact Nat.pow_le_pow_right (by decide) less
  have lower := Nat.mul_le_mul_left (4 * w.significand - w.lowerQuarters) gaps
  rw [← Nat.mul_assoc] at lower
  rw [Apart, upperEnd_eq, lowerEnd_eq]
  refine ⟨(Nat.mul_le_mul_right _ coefficients.1).trans lower, fun ev _ => ?_⟩
  exact (Nat.mul_lt_mul_of_pos_right (coefficients.2 ev) (Nat.pow_pos (by decide))).trans_le lower

/-- A rational number reads back as one magnitude. -/
theorem Around.unique {q : ℚ} (hv : v.Around q) (hw : w.Around q) :
    v.scale = w.scale ∧ v.significand = w.significand := by
  have scale : v.scale = w.scale := by
    rcases Nat.lt_trichotomy v.scale w.scale with less | same | more
    · exact ((apart_of_scale_lt less).not_around hv hw).elim
    · exact same
    · exact ((apart_of_scale_lt more).not_around hw hv).elim
  refine ⟨scale, ?_⟩
  rcases Nat.lt_trichotomy v.significand w.significand with less | same | more
  · exact ((apart_of_significand_lt scale less).not_around hv hw).elim
  · exact same
  · exact ((apart_of_significand_lt scale.symm more).not_around hw hv).elim

/-! ### Grids -/

theorem ten_zpow (e : Int) : (10 : ℚ) ^ e = 10 ^ e.toNat / 10 ^ (-e).toNat := by
  rw [← zpow_natCast, ← zpow_natCast, ← zpow_sub₀ (by norm_num)]
  congr 1
  omega

/-- The value of a point of a grid, in quarter units. -/
theorem grid_eq_div (n : Nat) (e : Int) :
    (Decimal.mk n e).value * (4 * one) =
      (n * (Nat.pow 10 e.toNat * (4 * one)) : Nat) / (Nat.pow 10 (-e).toNat : Nat) := by
  simp only [Decimal.value, ten_zpow, Nat.pow_eq]
  push_cast
  ring

theorem readsBack_grid (n : Nat) (e : Int) :
    v.readsBack (n * (Nat.pow 10 e.toNat * (4 * one))) (Nat.pow 10 (-e).toNat) = true ↔
      v.Around ((Decimal.mk n e).value * (4 * one)) := by
  have pos : 0 < Nat.pow 10 (-e).toNat := Nat.pow_pos (by decide)
  rw [readsBack_iff pos, grid_eq_div]

theorem onGrid?_around {tie : Tie} {e : Int} {d : Decimal} (h : v.onGrid? tie e = some d) :
    v.Around (d.value * (4 * one)) := by
  have grid (n : Nat) := readsBack_grid (v := v) n e
  unfold onGrid? at h
  generalize Nat.pow 10 e.toNat * (4 * one) = step at h grid
  generalize Nat.pow 10 (-e).toNat = den at h grid
  have either (upper : Bool) (n m : Nat) (hn : v.readsBack (n * step) den = true)
      (hm : v.readsBack (m * step) den = true) :
      v.readsBack ((if upper = true then n else m) * step) den = true := by
    cases upper
    · exact hm
    · exact hn
  simp only at h
  split at h
  · rename_i below above
    rw [← Option.some.inj h]
    exact (grid _).mp (either _ _ _ above below)
  · rename_i below _
    rw [← Option.some.inj h]
    exact (grid _).mp below
  · rename_i _ above
    rw [← Option.some.inj h]
    exact (grid _).mp above
  · cases h

/-- Where a grid gives nothing, neither of the points on the two sides of the number reads back. -/
theorem onGrid?_eq_none {tie : Tie} {e : Int} (h : v.onGrid? tie e = none) :
    ∃ n : Nat, (Decimal.mk n e).value * (4 * one) ≤ 4 * v.units ∧
      4 * v.units < (Decimal.mk (n + 1) e).value * (4 * one) ∧
      ¬ v.Around ((Decimal.mk n e).value * (4 * one)) ∧
      ¬ v.Around ((Decimal.mk (n + 1) e).value * (4 * one)) := by
  have grid (n : Nat) := readsBack_grid (v := v) n e
  have value (n : Nat) := grid_eq_div n e
  have pos : 0 < Nat.pow 10 e.toNat * (4 * one) :=
    Nat.mul_pos (Nat.pow_pos (by decide)) (Nat.mul_pos (by decide) one_pos)
  have pos' : (0 : ℚ) < (Nat.pow 10 (-e).toNat : Nat) :=
    Nat.cast_pos.mpr (Nat.pow_pos (by decide))
  unfold onGrid? at h
  generalize Nat.pow 10 e.toNat * (4 * one) = step at h grid value pos
  generalize Nat.pow 10 (-e).toNat = den at h grid value pos'
  have next := Nat.lt_mul_of_div_lt (Nat.lt_succ_self (4 * v.units * den / step)) pos
  refine ⟨4 * v.units * den / step, ?_, ?_, ?_⟩
  · rw [value, div_le_iff₀ pos']
    exact_mod_cast Nat.div_mul_le_self (4 * v.units * den) step
  · rw [value, lt_div_iff₀ pos']
    exact_mod_cast next
  · rw [← grid, ← grid]
    clear grid value
    simp only at h
    split at h
    all_goals simp_all

/-- The first digit of a number stands for no more than the number. -/
theorem leadingExponent_le (h : v.units ≠ 0) : (10 : ℚ) ^ v.leadingExponent * one ≤ v.units := by
  unfold leadingExponent
  split
  · rename_i large
    have whole : 0 < v.whole := Nat.div_pos large one_pos
    have digits : 0 < Decimal.digitCount v.whole := Nat.length_toDigits_pos
    have count : (Decimal.digitCount v.whole : Int) - 1 =
        ((Decimal.digitCount v.whole - 1 : Nat) : Int) := by omega
    have bound : 10 ^ (Decimal.digitCount v.whole - 1) * one ≤ v.units :=
      (Nat.mul_le_mul_right _ (Decimal.pow_digitCount_le whole)).trans (Nat.div_mul_le_self _ _)
    rw [count, zpow_natCast]
    exact_mod_cast bound
  · have bound := Decimal.lt_pow_digitCount ((one - 1) / v.units)
    rw [Nat.div_lt_iff_lt_mul (Nat.pos_of_ne_zero h)] at bound
    have bound' : one ≤ v.units * 10 ^ Decimal.digitCount ((one - 1) / v.units) := by
      rw [Nat.mul_comm]
      omega
    rw [zpow_neg, zpow_natCast, inv_mul_le_iff₀ (by positivity), mul_comm]
    exact_mod_cast bound'

/-- A grid that gives nothing steps over the whole interval. -/
theorem upperEnd_le_of_onGrid?_eq_none {tie : Tie} {e : Int} (notZero : v.units ≠ 0)
    (h : v.onGrid? tie e = none) : (v.upperEnd : ℚ) ≤ v.lowerEnd + (10 : ℚ) ^ e * (4 * one) := by
  obtain ⟨n, below, above, notBelow, notAbove⟩ := onGrid?_eq_none h
  have lower : (v.lowerEnd : ℚ) < 4 * v.units := by exact_mod_cast lowerEnd_lt notZero
  have upper : (4 * v.units : ℚ) < v.upperEnd := by exact_mod_cast lt_upperEnd v
  have start : (Decimal.mk n e).value * (4 * one) ≤ v.lowerEnd := by
    by_contra inside
    exact notBelow (around_of_lt (not_le.mp inside) (by linarith))
  have stop : v.upperEnd ≤ (Decimal.mk (n + 1) e).value * (4 * one) := by
    by_contra inside
    exact notAbove (around_of_lt (by linarith) (not_le.mp inside))
  have next : (Decimal.mk (n + 1) e).value = (Decimal.mk n e).value + (10 : ℚ) ^ e := by
    simp only [Decimal.value, Nat.cast_succ]
    ring
  rw [next] at stop
  linarith

/-- The interval is wider than a step of the grid of seventeen digits. -/
theorem step_lt_interval (h : v.units ≠ 0) :
    v.lowerEnd + (10 : ℚ) ^ (v.leadingExponent - 16) * (4 * one) < v.upperEnd := by
  have step : (10 : ℚ) ^ (v.leadingExponent - 16) * (4 * one) * 10 ^ 16 ≤
      4 * (v.significand * 2 ^ v.scale) := by
    have units : (v.units : ℚ) = v.significand * 2 ^ v.scale := by simp [Binary64.units]
    have := leadingExponent_le h
    rw [← units, zpow_sub₀ (by norm_num)]
    field_simp
    linarith
  have width : (v.upperEnd : ℚ) = v.lowerEnd + (2 + v.lowerQuarters) * 2 ^ v.scale := by
    exact_mod_cast upperEnd_eq_lowerEnd_add h
  have gap : (0 : ℚ) < 2 ^ v.scale := by positivity
  rw [width]
  generalize (10 : ℚ) ^ (v.leadingExponent - 16) * (4 * one) = size at step ⊢
  -- The interval of a power of two is narrower, but no number of its scale is smaller.
  by_cases power : v.significand = fractionSpan ∧ 0 < v.scale
  · rw [lowerQuarters, if_pos power]
    rw [power.1] at step
    norm_num [fractionSpan] at step ⊢
    linarith
  · rw [lowerQuarters, if_neg power]
    have small : (v.significand : ℚ) * 2 ^ v.scale ≤ 9007199254740992 * 2 ^ v.scale :=
      mul_le_mul_of_nonneg_right (by exact_mod_cast (significand_lt v).le) gap.le
    norm_num at step ⊢
    linarith

/-- Seventeen digits suffice. -/
theorem exists_onGrid (tie : Tie) (h : v.units ≠ 0) :
    ∃ d, v.onGrid? tie (v.leadingExponent - 16) = some d := by
  refine Option.ne_none_iff_exists'.mp fun none => ?_
  exact absurd (upperEnd_le_of_onGrid?_eq_none h none) (not_le.mpr (step_lt_interval h))

/-- **The shortest decimal of a number reads back as the number.** -/
theorem shortest_around (tie : Tie) (v : Binary64) :
    v.Around ((v.shortest tie).value * (4 * one)) := by
  unfold shortest
  split
  · rename_i zero
    have none : v.significand = 0 := by
      rcases Nat.mul_eq_zero.mp zero with none | none
      · exact none
      · exact absurd none (Nat.pow_pos (by decide)).ne'
    have value : (Decimal.mk 0 0).value = 0 := by simp [Decimal.value]
    rw [Around, none, if_pos rfl, lowerEnd_eq, none, value, zero_mul]
    simp
  · rename_i notZero
    split
    · rename_i d found
      obtain ⟨k, -, found⟩ := List.exists_of_findSome?_eq_some found
      rw [Decimal.value_trim]
      exact onGrid?_around found
    · rename_i none
      obtain ⟨d, found⟩ := exists_onGrid tie notZero
      have missing := List.findSome?_eq_none_iff.mp none 16 (by decide)
      exact nomatch found.symm.trans missing

/-- Only zero has no digits but zero. -/
theorem shortest_of_digits_eq {tie : Tie} (h : (v.shortest tie).digits = 0) :
    v.shortest tie = ⟨0, 0⟩ := by
  by_cases zero : v.units = 0
  · rw [shortest, if_pos zero]
  · have around := (shortest_around tie v).le.1
    rw [Decimal.value, h, Nat.cast_zero, zero_mul, zero_mul] at around
    exact absurd around (not_le.mpr (by exact_mod_cast lowerEnd_pos zero))

/-- Numbers of one sign with the same shortest decimal are the same. -/
theorem eq_of_shortest {tie : Tie} (sign : v.isNegative = w.isNegative)
    (shortest : (v.shortest tie).value = (w.shortest tie).value) : v = w := by
  obtain ⟨scale, significand⟩ :=
    (shortest_around tie v).unique (shortest ▸ shortest_around tie w)
  exact eq_of_significand sign scale significand

end Binary64

end NodeGraph
