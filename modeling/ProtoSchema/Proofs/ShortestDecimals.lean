import Mathlib.Algebra.Order.Field.Power
import ProtoSchema.Number.Shortest
import ProtoSchema.Proofs.Rounding

/-!
The shortest decimals of binary numbers round to these numbers. The decimals with seventeen digits lie closer
together than the ends of any interval of rounding, so a decimal inside the interval is always found.
-/
namespace ProtoSchema

namespace Numeral

theorem lt_pow_length (n : Nat) : n < 10 ^ length n := by
  fun_induction length n with
  | case1 n small => omega
  | case2 n large ih =>
      rw [Nat.pow_succ]
      omega

theorem length_pos (n : Nat) : 0 < length n := by
  unfold length
  split <;> omega

theorem pow_length_le {n : Nat} (positive : 0 < n) : 10 ^ (length n - 1) ≤ n := by
  fun_induction length n with
  | case1 n small => exact positive
  | case2 n large ih =>
      have fewer := ih (by omega)
      have split : length (n / 10) + 1 - 1 = (length (n / 10) - 1) + 1 := by
        have := length_pos (n / 10)
        omega
      rw [split, Nat.pow_succ]
      omega

end Numeral

namespace Decimal

/-- The number that a decimal denotes. -/
def toRat (decimal : Decimal) : ℚ := decimal.coefficient * 10 ^ decimal.exponent

theorem toRat_trimmed (coefficient : Nat) (exponent : Int) :
    (trimmed coefficient exponent).toRat = coefficient * 10 ^ exponent := by
  fun_induction trimmed coefficient exponent with
  | case1 coefficient exponent zero ih =>
      have tens : coefficient = coefficient / 10 * 10 := by omega
      have whole : (coefficient : ℚ) = (coefficient / 10 : ℕ) * 10 := by exact_mod_cast tens
      rw [ih, zpow_add_one₀ (by norm_num), whole]
      ring
  | case2 coefficient exponent done => rfl

end Decimal

namespace Decimal.Interval

open Binary64

variable {rank up down coefficient : Nat} {tie : Tie}

theorem denominator_pos : 0 < denominator := by
  rw [denominator]
  exact Nat.mul_pos Nat.two_pos unitsPerOne_pos

theorem holds_iff (positive : 0 < down) :
    (ofRank rank).holds up down coefficient = true ↔ Nearest (coefficient * up / down) rank := by
  have whole : (unitsPerOne : ℚ) ≠ 0 := by exact_mod_cast unitsPerOne_pos.ne'
  have value : (coefficient * up / down : ℚ) =
      (coefficient * up * unitsPerOne : ℕ) / down / unitsPerOne := by
    push_cast
    field_simp
  have point : coefficient * up * denominator = 2 * (coefficient * up * unitsPerOne) := by
    rw [denominator]
    ring
  rw [value, nearest_ratio_iff positive]
  simp only [holds, ofRank, point, decide_eq_true_eq, significand_mod_two]
  split <;> simp only [Bool.and_eq_true, decide_eq_true_eq]

/-! ## Points on a grid -/

theorem holds_of_nearestPoint? {interval : Interval}
    (found : interval.nearestPoint? tie up down = some coefficient) :
    interval.holds up down coefficient = true := by
  simp only [nearestPoint?] at found
  split at found
  · rename_i below above
    split at found
    · cases found
      exact below
    · cases found
      exact above
  · rename_i below _
    cases found
    exact below
  · rename_i _ above
    cases found
    exact above
  · cases found

section

variable {interval : Interval}

theorem holds_beside (below : Nat) (under : interval.low * down ≤ interval.middle * down)
    (above : interval.middle * down < interval.high * down)
    (fine : interval.low * down + up * denominator < interval.high * down)
    (before : up * denominator * below ≤ interval.middle * down)
    (behind : interval.middle * down < up * denominator * below + up * denominator) :
    interval.holds up down below = true ∨ interval.holds up down (below + 1) = true := by
  have first : below * up * denominator = up * denominator * below := by ring
  have second : (below + 1) * up * denominator = up * denominator * below + up * denominator := by ring
  simp only [holds, first, second]
  generalize up * denominator * below = point at *
  generalize up * denominator = step at *
  split <;> simp only [Bool.and_eq_true, decide_eq_true_eq] <;> omega

/-- A grid that is finer than the interval has a point in it beside the middle. -/
theorem exists_nearestPoint? (tie : Tie)
    (ordered : interval.low ≤ interval.middle ∧ interval.middle < interval.high)
    (positive : 0 < up) (given : 0 < down)
    (fine : interval.low * down + up * denominator < interval.high * down) :
    ∃ coefficient, interval.nearestPoint? tie up down = some coefficient := by
  have split := Nat.div_add_mod (interval.middle * down) (up * denominator)
  have short := Nat.mod_lt (interval.middle * down) (Nat.mul_pos positive denominator_pos)
  have inside := holds_beside (interval.middle * down / (up * denominator))
    (Nat.mul_le_mul_right down ordered.1) (Nat.mul_lt_mul_of_pos_right ordered.2 given) fine (by omega)
    (by omega)
  simp only [nearestPoint?]
  generalize interval.middle * down / (up * denominator) = below at *
  split
  · split <;> exact ⟨_, rfl⟩
  · exact ⟨_, rfl⟩
  · exact ⟨_, rfl⟩
  · rename_i outside beyond
    rw [outside, beyond] at inside
    simp at inside

end

theorem ordered_ofRank (rank : Nat) :
    (ofRank rank).low ≤ (ofRank rank).middle ∧ (ofRank rank).middle < (ofRank rank).high := by
  have below := units_strictMono.monotone (Nat.sub_le rank 1)
  have above := units_strictMono (Nat.lt_add_one rank)
  simp only [ofRank]
  omega

/-! ## Seventeen digits -/

/-- An interval is wide in proportion to its middle. -/
theorem middle_lt_width (positive : 0 < rank) :
    (ofRank rank).low * 10 ^ 16 + (ofRank rank).middle < (ofRank rank).high * 10 ^ 16 := by
  obtain ⟨previous, rfl⟩ := Nat.exists_eq_succ_of_ne_zero positive.ne'
  simp only [Nat.succ_eq_add_one, ofRank, Nat.add_sub_cancel]
  obtain ⟨short, -⟩ := significand_bounds (previous + 1)
  have middle := units_eq (previous + 1)
  have next := units_succ (previous + 1)
  have last := units_succ previous
  rw [binadeSize_eq] at short
  rcases scale_succ_cases previous with ⟨level, -⟩ | ⟨level, leading, -⟩
  · have bound : units (previous + 1) < 2 ^ scale previous * (2 * 0x10000000000000) := by
      rw [middle, level, Nat.mul_comm]
      exact Nat.mul_lt_mul_of_pos_left short (Nat.two_pow_pos _)
    rw [level] at next
    omega
  · have bound : units (previous + 1) = 2 ^ scale previous * (2 * 0x10000000000000) := by
      rw [middle, level, leading, binadeSize_eq, Nat.pow_succ]
      ring
    have place := Nat.two_pow_pos (scale previous)
    rw [level, Nat.pow_succ] at next
    omega

theorem magnitude_eq (interval : Interval) {shift : Nat} (is : 324 = shift) :
    interval.magnitude = (Numeral.length (interval.middle * 10 ^ shift / denominator) : Int) - 324 := by
  unfold magnitude
  rw [is, Nat.pow_eq]

/-- The leading digit of the middle is looked for on a scale that is fine enough for the least magnitude. -/
theorem exists_leading (positive : 0 < rank) :
    ∃ length shift : Nat, shift = 324 ∧ (ofRank rank).magnitude = (length + 1 : ℕ) - 324 ∧
      10 ^ length * denominator ≤ (ofRank rank).middle * 10 ^ shift := by
  obtain ⟨shift, is, wide⟩ : ∃ shift : Nat, 324 = shift ∧ denominator ≤ 2 * Nat.pow 10 shift :=
    ⟨324, rfl, by decide +kernel⟩
  rw [Nat.pow_eq] at wide
  have least := units_strictMono positive
  have middle : denominator ≤ (ofRank rank).middle * 10 ^ shift := by
    refine wide.trans (Nat.mul_le_mul_right _ ?_)
    simp only [ofRank]
    omega
  have filled : 0 < (ofRank rank).middle * 10 ^ shift / denominator := Nat.div_pos middle denominator_pos
  have counted := Numeral.length_pos ((ofRank rank).middle * 10 ^ shift / denominator)
  refine ⟨Numeral.length ((ofRank rank).middle * 10 ^ shift / denominator) - 1, shift, is.symm, ?_, ?_⟩
  · rw [Nat.sub_add_cancel counted]
    exact magnitude_eq _ is
  · exact (Nat.le_div_iff_mul_le denominator_pos).1 (Numeral.pow_length_le filled)

/-- The points of the grid of an exponent, as decimals. -/
theorem nearest_of_withDigits? {count : Nat} {decimal : Decimal}
    (found : (ofRank rank).withDigits? tie count = some decimal) : Nearest decimal.toRat rank := by
  obtain ⟨coefficient, point, rfl⟩ := Option.map_eq_some_iff.1 found
  rw [toRat_trimmed]
  generalize (ofRank rank).magnitude - count = exponent at *
  cases exponent with
  | ofNat e =>
      have inside := (holds_iff Nat.one_pos).1 (holds_of_nearestPoint? point)
      rw [Nat.pow_eq] at inside
      push_cast at inside
      rwa [div_one] at inside
  | negSucc e =>
      have inside := (holds_iff (Nat.pow_pos (by decide))).1 (holds_of_nearestPoint? point)
      push_cast at inside
      rwa [mul_one] at inside

theorem exists_withDigits?_seventeen (tie : Tie) (positive : 0 < rank) :
    ∃ decimal, (ofRank rank).withDigits? tie 17 = some decimal := by
  obtain ⟨length, shift, is, placed, leading⟩ := exists_leading positive
  have wide := middle_lt_width positive
  have ordered := ordered_ofRank rank
  have exponent : (ofRank rank).magnitude - (17 : ℕ) = length - (shift + 16 : ℕ) := by
    rw [placed]
    omega
  simp only [withDigits?, exponent, Option.map_eq_some_iff]
  generalize (ofRank rank) = interval at *
  by_cases whole : shift + 16 ≤ length
  · obtain ⟨e, rfl⟩ := Nat.exists_eq_add_of_le whole
    have kind : ((shift + 16 + e : ℕ) : Int) - (shift + 16 : ℕ) = .ofNat e := by
      push_cast
      simp
    have fine : 10 ^ 16 * (10 ^ e * denominator) ≤ interval.middle := by
      refine Nat.le_of_mul_le_mul_right ?_ (Nat.pow_pos (by decide) : 0 < 10 ^ shift)
      calc 10 ^ 16 * (10 ^ e * denominator) * 10 ^ shift = 10 ^ (shift + 16 + e) * denominator := by ring
        _ ≤ interval.middle * 10 ^ shift := leading
    obtain ⟨coefficient, point⟩ := exists_nearestPoint? tie ordered (Nat.pow_pos (by decide) : 0 < 10 ^ e)
      Nat.one_pos (by omega)
    rw [kind]
    exact ⟨_, coefficient, point, rfl⟩
  · obtain ⟨e, total⟩ := Nat.exists_eq_add_of_le (Nat.lt_of_not_le whole)
    have kind : (length : Int) - (shift + 16 : ℕ) = .negSucc e := by
      rw [Int.negSucc_eq]
      omega
    have fine : 10 ^ 16 * denominator ≤ interval.middle * 10 ^ (e + 1) := by
      refine Nat.le_of_mul_le_mul_right ?_ (Nat.pow_pos (by decide) : 0 < 10 ^ length)
      calc 10 ^ 16 * denominator * 10 ^ length = 10 ^ length * denominator * 10 ^ 16 := by ring
        _ ≤ interval.middle * 10 ^ shift * 10 ^ 16 := Nat.mul_le_mul_right _ leading
        _ = interval.middle * 10 ^ (length + 1 + e) := by rw [mul_assoc, ← pow_add, total]
        _ = interval.middle * 10 ^ (e + 1) * 10 ^ length := by ring
    have wider := Nat.mul_lt_mul_of_pos_right wide (Nat.pow_pos (by decide) : 0 < 10 ^ (e + 1))
    rw [Nat.add_mul, Nat.mul_right_comm, Nat.mul_right_comm interval.high] at wider
    obtain ⟨coefficient, point⟩ := exists_nearestPoint? tie ordered Nat.one_pos
      (Nat.pow_pos (by decide) : 0 < 10 ^ (e + 1)) (by omega)
    rw [kind]
    exact ⟨_, coefficient, point, rfl⟩

end Decimal.Interval

namespace Decimal

open Binary64

/-- The shortest decimal of a magnitude rounds to this magnitude. -/
theorem nearest_shortest (tie : Tie) (rank : Nat) : Nearest (shortest tie rank).toRat rank := by
  unfold shortest
  by_cases least : rank = 0
  · rw [if_pos least, least]
    have nothing : magnitude 0 = 0 := by simp [magnitude, units_eq, significand]
    have exact := nearest_magnitude 0
    rw [nothing] at exact
    simpa [toRat] using exact
  · rw [if_neg least]
    obtain ⟨last, seventeen⟩ := Interval.exists_withDigits?_seventeen tie (Nat.pos_of_ne_zero least)
    have found : ((List.range 17).findSome? fun n =>
        (Interval.ofRank rank).withDigits? tie (n + 1)).isSome := by
      rw [List.findSome?_isSome_iff]
      exact ⟨16, by simp, by rw [seventeen]; rfl⟩
    obtain ⟨decimal, first⟩ := Option.isSome_iff_exists.1 found
    rw [first]
    obtain ⟨n, -, digits⟩ := List.exists_of_findSome?_eq_some first
    exact Interval.nearest_of_withDigits? digits

end Decimal

end ProtoSchema
