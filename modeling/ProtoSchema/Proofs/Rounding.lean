import Mathlib.Algebra.Order.Field.Basic
import Mathlib.Data.Rat.Cast.Order
import Mathlib.Order.Monotone.Basic
import Mathlib.Tactic.FieldSimp
import Mathlib.Tactic.Linarith
import Mathlib.Tactic.Positivity
import Mathlib.Tactic.Ring
import ProtoSchema.Number.Binary64

/-!
Rounding to binary numbers. Around every magnitude lie the rationals that round to it, from halfway below
to halfway above; the two ends belong to it if its significand is even. These intervals have no point in
common, and the nearest rank of a ratio is the one in whose interval the ratio lies.
-/
namespace ProtoSchema.Binary64

/-! ## Magnitudes by rank -/

theorem binadeSize_eq : binadeSize = 0x10000000000000 := rfl

theorem unitsPerOne_pos : 0 < unitsPerOne := by
  rw [unitsPerOne, Nat.shiftLeft_eq]
  positivity

variable {rank : Nat}

theorem units_eq (rank : Nat) : units rank = significand rank * 2 ^ scale rank :=
  Nat.shiftLeft_eq _ _

/-- A significand has its leading bit, unless the magnitude is among the smallest. -/
theorem significand_bounds (rank : Nat) :
    significand rank < 2 * binadeSize ∧ (scale rank = 0 ∨ binadeSize ≤ significand rank) := by
  simp only [significand, scale, binadeSize_eq]
  omega

theorem significand_mod_two (rank : Nat) : significand rank % 2 = rank % 2 := by
  simp only [significand, scale, binadeSize_eq]
  omega

theorem scale_succ_cases (rank : Nat) :
    scale (rank + 1) = scale rank ∧ significand (rank + 1) = significand rank + 1 ∨
      scale (rank + 1) = scale rank + 1 ∧ significand (rank + 1) = binadeSize ∧
        significand rank + 1 = 2 * binadeSize := by
  simp only [significand, scale, binadeSize_eq]
  omega

/-- From one rank to the next it is one step of the last place, also into the next power of two. -/
theorem units_succ (rank : Nat) : units (rank + 1) = units rank + 2 ^ scale rank := by
  rw [units_eq, units_eq, ← Nat.succ_mul]
  rcases scale_succ_cases rank with ⟨level, next⟩ | ⟨level, next, last⟩
  · rw [level, next]
  · rw [level, next, Nat.succ_eq_add_one, last, Nat.pow_succ]
    ring

theorem units_strictMono : StrictMono units :=
  strictMono_nat_of_lt_succ fun rank => by
    rw [units_succ]
    exact Nat.lt_add_of_pos_right (Nat.two_pow_pos _)

/-- The magnitude of a rank. -/
def magnitude (rank : Nat) : ℚ := units rank / unitsPerOne

theorem magnitude_strictMono : StrictMono magnitude := by
  intro one two before
  have least : (0 : ℚ) < unitsPerOne := by exact_mod_cast unitsPerOne_pos
  exact div_lt_div_of_pos_right (by exact_mod_cast units_strictMono before) least

theorem magnitude_nonneg (rank : Nat) : 0 ≤ magnitude rank := by
  unfold magnitude
  positivity

/-! ## The interval of a rank -/

/-- The magnitude of the rank is the nearest to the rational, and the one of even significand where it lies
halfway between two. -/
def Nearest (value : ℚ) (rank : Nat) : Prop :=
  if rank % 2 = 0 then
    magnitude (rank - 1) + magnitude rank ≤ 2 * value ∧ 2 * value ≤ magnitude rank + magnitude (rank + 1)
  else
    magnitude (rank - 1) + magnitude rank < 2 * value ∧ 2 * value < magnitude rank + magnitude (rank + 1)

theorem Nearest.low {value : ℚ} (nearest : Nearest value rank) :
    magnitude (rank - 1) + magnitude rank ≤ 2 * value := by
  unfold Nearest at nearest
  split at nearest
  · exact nearest.1
  · exact nearest.1.le

theorem Nearest.high {value : ℚ} (nearest : Nearest value rank) :
    2 * value ≤ magnitude rank + magnitude (rank + 1) := by
  unfold Nearest at nearest
  split at nearest
  · exact nearest.2
  · exact nearest.2.le

theorem nearest_magnitude (rank : Nat) : Nearest (magnitude rank) rank := by
  have above : magnitude rank < magnitude (rank + 1) := magnitude_strictMono (Nat.lt_succ_self rank)
  unfold Nearest
  split
  · have below : magnitude (rank - 1) ≤ magnitude rank :=
      magnitude_strictMono.monotone (Nat.sub_le rank 1)
    constructor <;> linarith
  · have below : magnitude (rank - 1) < magnitude rank := magnitude_strictMono (by omega)
    constructor <;> linarith

/-- Of two intervals the lower one ends where the other starts or before, and no end belongs to both. -/
theorem not_nearest_of_lt {value : ℚ} {other : Nat} (nearest : Nearest value rank) (before : rank < other) :
    ¬ Nearest value other := by
  intro further
  have first : magnitude rank ≤ magnitude (other - 1) := magnitude_strictMono.monotone (by omega)
  have second : magnitude (rank + 1) ≤ magnitude other := magnitude_strictMono.monotone (by omega)
  have low := further.low
  have high := nearest.high
  by_cases adjacent : other = rank + 1
  · subst adjacent
    unfold Nearest at nearest further
    split at nearest <;> split at further
    · omega
    · linarith [further.1]
    · linarith [nearest.2]
    · omega
  · have apart : magnitude (rank + 1) < magnitude other := magnitude_strictMono (by omega)
    linarith

theorem Nearest.unique {value : ℚ} {other : Nat} (one : Nearest value rank) (two : Nearest value other) :
    rank = other := by
  rcases Nat.lt_trichotomy rank other with before | same | behind
  · exact absurd two (not_nearest_of_lt one before)
  · exact same
  · exact absurd one (not_nearest_of_lt two behind)

theorem nearest_ratio_iff {numerator denominator : Nat} (positive : 0 < denominator) :
    Nearest (numerator / denominator / unitsPerOne) rank ↔
      if rank % 2 = 0 then
        (units (rank - 1) + units rank) * denominator ≤ 2 * numerator ∧
          2 * numerator ≤ (units rank + units (rank + 1)) * denominator
      else
        (units (rank - 1) + units rank) * denominator < 2 * numerator ∧
          2 * numerator < (units rank + units (rank + 1)) * denominator := by
  have whole : (0 : ℚ) < unitsPerOne := by exact_mod_cast unitsPerOne_pos
  have parts : (0 : ℚ) < denominator := by exact_mod_cast positive
  have shape : ∀ one two : Nat, (magnitude one + magnitude two) * (denominator * unitsPerOne) =
      ((units one + units two) * denominator : ℕ) := by
    intro one two
    unfold magnitude
    push_cast
    field_simp
  have point : 2 * (numerator / denominator / unitsPerOne : ℚ) * (denominator * unitsPerOne) =
      (2 * numerator : ℕ) := by
    push_cast
    field_simp
  have product : (0 : ℚ) < denominator * unitsPerOne := mul_pos parts whole
  unfold Nearest
  split
  · rw [← mul_le_mul_iff_left₀ product, ← mul_le_mul_iff_left₀ (b := 2 * _) product, shape, shape, point,
      Nat.cast_le, Nat.cast_le]
  · rw [← mul_lt_mul_iff_left₀ product, ← mul_lt_mul_iff_left₀ (b := 2 * _) product, shape, shape, point,
      Nat.cast_lt, Nat.cast_lt]

/-! ## The nearest rank -/

theorem scale_add {level below : Nat} (fits : below < 2 * binadeSize)
    (leads : level = 0 ∨ binadeSize ≤ below) :
    scale (level * binadeSize + below) = level ∧ significand (level * binadeSize + below) = below := by
  simp only [significand, scale, binadeSize_eq] at *
  omega

/-- The last place of a quotient is chosen so that the digits in front of it fill a significand. -/
theorem quotient_bounds (quotient : Nat) :
    quotient / 2 ^ (quotient.log2 - 52) < 2 * binadeSize ∧
      (quotient.log2 - 52 = 0 ∨ binadeSize ≤ quotient / 2 ^ (quotient.log2 - 52)) := by
  have size : binadeSize = 2 ^ 52 := rfl
  constructor
  · rw [Nat.div_lt_iff_lt_mul (Nat.two_pow_pos _), size, ← Nat.pow_succ', ← Nat.pow_add]
    exact Nat.lt_of_lt_of_le Nat.lt_log2_self (Nat.pow_le_pow_right (by decide) (by omega))
  · by_cases small : quotient.log2 - 52 = 0
    · exact .inl small
    · right
      have nonzero : quotient ≠ 0 := by
        intro zero
        simp [zero] at small
      rw [Nat.le_div_iff_mul_le (Nat.two_pow_pos _), size, ← Nat.pow_add]
      have exponent : 52 + (quotient.log2 - 52) = quotient.log2 := by omega
      rw [exponent]
      exact Nat.log2_self_le nonzero

section

variable {numerator denominator step excess : Nat} (positive : 0 < denominator)
  (next : units (rank + 1) * denominator = units rank * denominator + step)
  (split : units rank * denominator + excess = numerator)

include positive next split

theorem nearest_below (closer : 2 * excess < step ∨ 2 * excess = step ∧ rank % 2 = 0) :
    Nearest (numerator / denominator / unitsPerOne) rank := by
  rw [nearest_ratio_iff positive]
  simp only [Nat.add_mul]
  have low : units (rank - 1) * denominator ≤ units rank * denominator :=
    Nat.mul_le_mul_right _ (units_strictMono.monotone (Nat.sub_le rank 1))
  by_cases even : rank % 2 = 0
  · rw [if_pos even]
    omega
  · rw [if_neg even]
    have lower : units (rank - 1) * denominator < units rank * denominator :=
      Nat.mul_lt_mul_of_pos_right (units_strictMono (by omega)) positive
    omega

theorem nearest_above (short : excess < step)
    (farther : step < 2 * excess ∨ 2 * excess = step ∧ rank % 2 = 1) :
    Nearest (numerator / denominator / unitsPerOne) (rank + 1) := by
  rw [nearest_ratio_iff positive]
  simp only [Nat.add_mul, Nat.add_sub_cancel]
  have high : units (rank + 1) * denominator < units (rank + 1 + 1) * denominator :=
    Nat.mul_lt_mul_of_pos_right (units_strictMono (Nat.lt_succ_self _)) positive
  by_cases even : (rank + 1) % 2 = 0
  · rw [if_pos even]
    omega
  · rw [if_neg even]
    omega

end

theorem nearest_nearestRank {numerator denominator : Nat} (positive : 0 < denominator) :
    Nearest (numerator / denominator / unitsPerOne) (nearestRank numerator denominator) := by
  simp only [nearestRank, Nat.shiftLeft_eq]
  obtain ⟨fits, leads⟩ := quotient_bounds (numerator / denominator)
  rw [Nat.div_div_eq_div_mul] at fits leads
  generalize (numerator / denominator).log2 - 52 = level at *
  have stepPositive : 0 < denominator * 2 ^ level := Nat.mul_pos positive (Nat.two_pow_pos level)
  have whole := Nat.div_add_mod numerator (denominator * 2 ^ level)
  have short := Nat.mod_lt numerator stepPositive
  generalize numerator / (denominator * 2 ^ level) = below at *
  generalize numerator % (denominator * 2 ^ level) = excess at *
  obtain ⟨scaled, digits⟩ := scale_add fits leads
  have base : units (level * binadeSize + below) * denominator = denominator * 2 ^ level * below := by
    rw [units_eq, scaled, digits]
    ring
  have next : units (level * binadeSize + below + 1) * denominator =
      units (level * binadeSize + below) * denominator + denominator * 2 ^ level := by
    rw [units_succ, scaled, Nat.add_mul, Nat.mul_comm (2 ^ level)]
  have parity : (level * binadeSize + below) % 2 = below % 2 := by
    rw [binadeSize_eq]
    omega
  rw [← base] at whole
  split <;> rename_i direction
  · exact nearest_below positive next whole (by omega)
  · rw [← Nat.add_assoc]
    exact nearest_above positive next whole short (by omega)

/-- The rank that a ratio is rounded to is the one in whose interval the ratio lies. -/
theorem nearestRank_of_nearest {numerator denominator : Nat} (positive : 0 < denominator)
    (nearest : Nearest (numerator / denominator) rank) :
    nearestRank (numerator * unitsPerOne) denominator = rank := by
  have whole : (unitsPerOne : ℚ) ≠ 0 := by exact_mod_cast unitsPerOne_pos.ne'
  have rounded : Nearest ((numerator * unitsPerOne : ℕ) / denominator / unitsPerOne) _ :=
    nearest_nearestRank positive
  have value : ((numerator * unitsPerOne : ℕ) / denominator / unitsPerOne : ℚ) = numerator / denominator := by
    push_cast
    field_simp
  rw [value] at rounded
  exact rounded.unique nearest

end ProtoSchema.Binary64
