import ProtoSchema.Number.Literal
import ProtoSchema.Proofs.Numerals
import ProtoSchema.Proofs.ShortestDecimals

/-!
Written numbers are read back. A decimal that rounds to a magnitude is read as this magnitude, and however a
style spells it, the literal denotes the decimal.
-/
namespace ProtoSchema

namespace Binary64

variable {coefficient rank : Nat} {exponent : Int}

/-! ## Decimals -/

theorem mul_zpow_lt (coefficient : Nat) (exponent : Int) :
    (coefficient * 10 ^ exponent : ℚ) < 10 ^ (Numeral.length coefficient + exponent) := by
  have bound : (coefficient : ℚ) < 10 ^ Numeral.length coefficient := by
    exact_mod_cast Numeral.lt_pow_length coefficient
  rw [zpow_add₀ (by norm_num), zpow_natCast]
  exact mul_lt_mul_of_pos_right bound (by positivity)

theorem zpow_le_mul (positive : 0 < coefficient) :
    (10 : ℚ) ^ (Numeral.length coefficient - 1 + exponent) ≤ coefficient * 10 ^ exponent := by
  have bound : (10 : ℚ) ^ (Numeral.length coefficient - 1) ≤ coefficient := by
    exact_mod_cast Numeral.pow_length_le positive
  have counted := Numeral.length_pos coefficient
  have place : (Numeral.length coefficient - 1 : Int) = (Numeral.length coefficient - 1 : ℕ) := by omega
  rw [zpow_add₀ (by norm_num), place, zpow_natCast]
  exact mul_le_mul_of_nonneg_right bound (by positivity)

theorem magnitude_zero : magnitude 0 = 0 := by simp [magnitude, units_eq, significand]

/-- Nothing below half the least magnitude rounds to another magnitude than zero. -/
theorem Nearest.zero_of_small {value : ℚ} (nearest : Nearest value rank) (small : 2 * value * unitsPerOne < 1) :
    rank = 0 := by
  by_contra other
  have least : 1 ≤ rank := Nat.pos_of_ne_zero other
  have unit : (1 : ℚ) / unitsPerOne ≤ magnitude rank := by
    have bound := magnitude_strictMono.monotone least
    simpa [magnitude, units_eq, significand, scale, binadeSize_eq] using bound
  have low := nearest.low
  have previous := magnitude_nonneg (rank - 1)
  have one : (0 : ℚ) < unitsPerOne := by exact_mod_cast unitsPerOne_pos
  rw [div_le_iff₀ one] at unit
  have bound : magnitude rank * unitsPerOne ≤ 2 * value * unitsPerOne :=
    mul_le_mul_of_nonneg_right (by linarith) one.le
  linarith

/-- What rounds to a finite magnitude stays below the magnitude behind the last one. -/
theorem Nearest.le_limit {value : ℚ} (nearest : Nearest value rank) (fits : rank < rankCount) :
    value ≤ magnitude rankCount := by
  have high := nearest.high
  have last := magnitude_strictMono.monotone (Nat.succ_le_of_lt fits)
  have before := magnitude_strictMono fits
  simp only [Nat.succ_eq_add_one] at last
  linarith

theorem ofRank_of_lt (negative : Bool) (fits : rank < rankCount) :
    ofRank negative rank = .finite negative ⟨rank, fits⟩ := dif_pos fits

theorem ofRatio_of_nearest (negative : Bool) {numerator denominator : Nat} (fits : rank < rankCount)
    (positive : 0 < denominator) (nearest : Nearest (numerator / denominator) rank) :
    ofRatio negative numerator denominator = .finite negative ⟨rank, fits⟩ := by
  rw [ofRatio, nearestRank_of_nearest positive nearest, ofRank_of_lt negative fits]

/-- Where the leading digit stands too far behind the point, the decimal is next to zero. -/
theorem small_of_length (low : coefficient = 0 ∨ Numeral.length coefficient + exponent < -330) :
    2 * (coefficient * 10 ^ exponent : ℚ) * unitsPerOne < 1 := by
  rcases low with rfl | low
  · simp
  · obtain ⟨limit, is, fine⟩ : ∃ limit : Nat, limit = 331 ∧ 2 * unitsPerOne < Nat.pow 10 limit :=
      ⟨331, rfl, by decide +kernel⟩
    have place : (10 : ℚ) ^ (Numeral.length coefficient + exponent) ≤ 10 ^ (-(limit : Int)) :=
      zpow_le_zpow_right₀ (by norm_num) (by omega)
    have value := (mul_zpow_lt coefficient exponent).trans_le place
    rw [zpow_neg, zpow_natCast, ← one_div, lt_div_iff₀ (by positivity)] at value
    calc 2 * (coefficient * 10 ^ exponent : ℚ) * unitsPerOne
        = coefficient * 10 ^ exponent * (2 * unitsPerOne : ℕ) := by
          push_cast
          ring
      _ ≤ coefficient * 10 ^ exponent * 10 ^ limit := by
          refine mul_le_mul_of_nonneg_left ?_ (by positivity)
          exact_mod_cast fine.le
      _ < 1 := value

theorem large_of_length (positive : 0 < coefficient) (high : 310 < Numeral.length coefficient + exponent) :
    magnitude rankCount < coefficient * 10 ^ exponent := by
  obtain ⟨limit, is, fine⟩ : ∃ limit : Nat, limit = 310 ∧
      units rankCount < unitsPerOne * Nat.pow 10 limit := ⟨310, rfl, by decide +kernel⟩
  have place : (10 : ℚ) ^ (limit : Int) ≤ 10 ^ (Numeral.length coefficient - 1 + exponent) :=
    zpow_le_zpow_right₀ (by norm_num) (by omega)
  have one : (0 : ℚ) < unitsPerOne := by exact_mod_cast unitsPerOne_pos
  have bound : magnitude rankCount < 10 ^ limit := by
    rw [magnitude, div_lt_iff₀' one]
    exact_mod_cast fine
  rw [zpow_natCast] at place
  exact bound.trans_le (place.trans (zpow_le_mul positive))

/-- A decimal is read as the magnitude that it rounds to. -/
theorem ofDecimal_of_nearest (negative : Bool) (fits : rank < rankCount)
    (nearest : Nearest (coefficient * 10 ^ exponent) rank) :
    ofDecimal negative coefficient exponent = .finite negative ⟨rank, fits⟩ := by
  simp only [ofDecimal]
  split
  · rename_i low
    have least : rank = 0 := nearest.zero_of_small (small_of_length low)
    subst least
    exact ofRank_of_lt negative fits
  · rename_i low
    rw [not_or] at low
    split
    · rename_i high
      have beyond := large_of_length (Nat.pos_of_ne_zero low.1) high
      exact absurd (nearest.le_limit fits) (not_le.2 beyond)
    · cases exponent with
      | ofNat e =>
          refine ofRatio_of_nearest negative fits Nat.one_pos ?_
          rw [Nat.pow_eq]
          push_cast
          rwa [div_one]
      | negSucc e =>
          refine ofRatio_of_nearest negative fits (Nat.pow_pos (by decide)) ?_
          rw [Nat.pow_eq]
          push_cast
          rwa [zpow_negSucc, ← div_eq_mul_inv] at nearest

end Binary64

/-! ## Spelled decimals -/

namespace Numeral

theorem value_append_zeros (digits : List Char) (count : Nat) :
    value (digits ++ List.replicate count '0') = value digits * 10 ^ count := by
  induction count with
  | zero => simp
  | succ count ih =>
      rw [List.replicate_succ', ← List.append_assoc, value, List.foldl_append, ← value, ih]
      simp only [List.foldl_cons, List.foldl_nil, digitValue]
      rw [Nat.pow_succ]
      simp
      ring

theorem value_zeros_append (count : Nat) (digits : List Char) :
    value (List.replicate count '0' ++ digits) = value digits := by
  induction count with
  | zero => simp
  | succ count ih =>
      rw [List.replicate_succ, List.cons_append, value, List.foldl_cons]
      exact ih

end Numeral

namespace Decimal

/-- The text is a literal that denotes the decimal. -/
def WrittenAs (decimal : Decimal) (text : List Char) : Prop :=
  ∃ (whole fraction tail : List Char) (exponent : Int),
    text = whole ++ (if fraction = [] then tail else '.' :: (fraction ++ tail)) ∧ whole ≠ [] ∧
      (∀ c ∈ whole ++ fraction, Numeral.isDigit c = true) ∧ Binary64.Ends tail exponent ∧
      (Numeral.value (whole ++ fraction) * 10 ^ (exponent - fraction.length) : ℚ) = decimal.toRat

theorem WrittenAs.ofLiteral? {decimal : Decimal} {text : List Char} (written : decimal.WrittenAs text)
    (negative : Bool) {rank : Nat} (fits : rank < Binary64.rankCount)
    (nearest : Binary64.Nearest decimal.toRat rank) :
    Binary64.ofLiteral? ((if negative then ['-'] else []) ++ text) =
      some (.finite negative ⟨rank, fits⟩) := by
  obtain ⟨whole, fraction, tail, exponent, rfl, started, numeric, ends, value⟩ := written
  rw [← value] at nearest
  rw [Binary64.ofLiteral?_of_digits negative started numeric ends,
    Binary64.ofDecimal_of_nearest negative fits nearest]

section

variable {decimal : Decimal} {numeral : List Char} (numeric : ∀ c ∈ numeral, Numeral.isDigit c = true)
  (started : numeral ≠ []) (value : Numeral.value numeral = decimal.coefficient)

include numeric started value

theorem writtenAs_whole {count : Nat} (places : decimal.exponent = count) (pointed : Bool) :
    decimal.WrittenAs
      (numeral ++ List.replicate count '0' ++ (if pointed then ['.', '0'] else [])) := by
  have filled : ∀ c ∈ numeral ++ List.replicate count '0', Numeral.isDigit c = true := by
    intro c member
    rcases List.mem_append.1 member with digit | zero
    · exact numeric c digit
    · exact List.eq_of_mem_replicate zero ▸ rfl
  have total : (Numeral.value (numeral ++ List.replicate count '0') : ℚ) = decimal.toRat := by
    rw [Numeral.value_append_zeros, value, toRat, places, zpow_natCast]
    push_cast
    rfl
  cases pointed with
  | false =>
      refine ⟨numeral ++ List.replicate count '0', [], [], 0, by simp, by simp [started], by simpa using filled,
        .inl ⟨rfl, rfl⟩, ?_⟩
      simpa using total
  | true =>
      refine ⟨numeral ++ List.replicate count '0', ['0'], [], 0, by simp, by simp [started], ?_,
        .inl ⟨rfl, rfl⟩, ?_⟩
      · intro c member
        rcases List.mem_append.1 member with digit | zero
        · exact filled c digit
        · exact List.mem_singleton.1 zero ▸ rfl
      · have last := Numeral.value_append_zeros (numeral ++ List.replicate count '0') 1
        rw [List.replicate_one, pow_one] at last
        rw [last, ← total]
        push_cast
        simp

omit started in
theorem writtenAs_pointed {place : Nat} (behind : 0 < place) (before : place < numeral.length)
    (places : decimal.exponent = place - numeral.length) :
    decimal.WrittenAs (numeral.take place ++ '.' :: numeral.drop place) := by
  have fraction : numeral.drop place ≠ [] := List.ne_nil_of_length_pos (by simp; omega)
  have whole : numeral.take place ≠ [] := List.ne_nil_of_length_pos (by simp; omega)
  refine ⟨numeral.take place, numeral.drop place, [], 0, by simp [fraction], whole, ?_, .inl ⟨rfl, rfl⟩, ?_⟩
  · rwa [List.take_append_drop]
  · rw [List.take_append_drop, value, List.length_drop, toRat, places]
    congr 2
    omega

theorem writtenAs_behind {count : Nat} (places : decimal.exponent = -(count + numeral.length : ℕ)) :
    decimal.WrittenAs ('0' :: '.' :: (List.replicate count '0' ++ numeral)) := by
  have fraction : List.replicate count '0' ++ numeral ≠ [] := by simp [started]
  refine ⟨['0'], List.replicate count '0' ++ numeral, [], 0, by simp [started], by simp, ?_,
    .inl ⟨rfl, rfl⟩, ?_⟩
  · intro c member
    rw [List.singleton_append, List.mem_cons, List.mem_append] at member
    rcases member with rfl | zero | digit
    · rfl
    · exact List.eq_of_mem_replicate zero ▸ rfl
    · exact numeric c digit
  · have zeros := Numeral.value_zeros_append (count + 1) numeral
    rw [List.replicate_succ] at zeros
    rw [List.singleton_append, ← List.cons_append, zeros, value, toRat, places, List.length_append,
      List.length_replicate]
    congr 2
    omega

end

theorem writtenAs_scientific {decimal : Decimal} {first : Char} {rest power : List Char}
    (numeric : ∀ c ∈ first :: rest, Numeral.isDigit c = true)
    (value : Numeral.value (first :: rest) = decimal.coefficient)
    {scientific : Int} (read : Numeral.integer? power = some scientific)
    (places : scientific = decimal.exponent + rest.length) :
    decimal.WrittenAs (first :: (if rest = [] then 'e' :: power else '.' :: (rest ++ 'e' :: power))) := by
  refine ⟨[first], rest, 'e' :: power, _, rfl, by simp, numeric, .inr ⟨power, rfl, read⟩, ?_⟩
  rw [List.singleton_append, value, places, add_sub_cancel_right, toRat]

end Decimal

namespace DecimalStyle

variable (style : DecimalStyle) (decimal : Decimal)

theorem integer?_signed (plus : Bool) (exponent : Int) :
    Numeral.integer? ((if plus && 0 < exponent then "+" else "") ++ Numeral.integerText exponent).toList =
      some exponent := by
  by_cases marked : (plus && decide (0 < exponent)) = true
  · rw [if_pos marked]
    obtain ⟨-, positive⟩ : plus = true ∧ 0 < exponent := by simpa using marked
    obtain ⟨n, rfl⟩ := Int.eq_ofNat_of_zero_le positive.le
    have text : ("+" ++ Numeral.integerText n).toList = '+' :: Numeral.digits n := by
      rw [String.toList_append]
      exact congrArg ('+' :: ·) (Numeral.toList_text n)
    rw [text, Numeral.integer?, Numeral.ofDigits?_digits]
    rfl
  · rw [if_neg marked, String.empty_append]
    exact Numeral.integer?_integerText exponent

/-- Whatever the style, the text of a decimal is a literal that denotes it. -/
theorem writtenAs_magnitudeText : decimal.WrittenAs (style.magnitudeText decimal).toList := by
  have numeric : ∀ c ∈ Numeral.digits decimal.coefficient, Numeral.isDigit c = true := fun c =>
    Numeral.isDigit_of_mem_digits
  have started := Numeral.digits_ne_nil decimal.coefficient
  have value := Numeral.value_digits decimal.coefficient
  have counted : 0 < (Numeral.digits decimal.coefficient).length := List.length_pos_of_ne_nil started
  unfold magnitudeText
  dsimp only
  generalize Numeral.digits decimal.coefficient = numeral at *
  split
  · split
    · rename_i whole
      have padded : decimal.exponent = ((numeral.length + decimal.exponent).toNat - numeral.length : Nat) := by
        omega
      have written := Decimal.writtenAs_whole numeric started value padded style.pointZero
      rw [String.toList_append, String.toList_ofList]
      cases pointed : style.pointZero with
      | false =>
          rw [pointed] at written
          exact written
      | true =>
          rw [pointed] at written
          exact written
    · split
      · rename_i low inside
        rw [String.toList_ofList]
        exact Decimal.writtenAs_pointed numeric value (by omega) (by omega) (by omega)
      · rename_i low inside
        rw [String.toList_ofList]
        exact Decimal.writtenAs_behind numeric started value (by omega)
  · obtain ⟨first, rest, rfl⟩ := List.exists_cons_of_ne_nil started
    have written := Decimal.writtenAs_scientific numeric value
      (integer?_signed style.plusSign ((first :: rest).length + decimal.exponent - 1))
      (by rw [List.length_cons]; omega)
    cases rest with
    | nil => simpa using written
    | cons second further => simpa using written

/-- The text of a finite number is read as this number, whatever the style. -/
theorem ofLiteral?_text? (negative : Bool) (rank : Fin Binary64.rankCount) :
    ∃ text, style.text? (.finite negative rank) = some text ∧
      Binary64.ofLiteral? text.toList = some (.finite negative rank) := by
  refine ⟨_, rfl, ?_⟩
  have written := (style.writtenAs_magnitudeText (Decimal.shortest style.tie rank)).ofLiteral? negative
    rank.isLt (Decimal.nearest_shortest style.tie rank)
  rw [String.toList_append]
  cases negative with
  | true => exact written
  | false => exact written

/-- Where whole numbers get a point, each text has a point or the mark of an exponent. -/
theorem exists_mark_of_text? (pointed : style.pointZero = true) {number : Binary64} {text : String}
    (spelled : style.text? number = some text) : ∃ c ∈ text.toList, c = '.' ∨ c = 'e' := by
  have marked : ∀ decimal, ∃ c ∈ (style.magnitudeText decimal).toList, c = '.' ∨ c = 'e' := by
    intro decimal
    simp only [magnitudeText, pointed]
    split
    · split
      · exact ⟨'.', by simp, .inl rfl⟩
      · split
        · exact ⟨'.', by simp, .inl rfl⟩
        · exact ⟨'.', by simp, .inl rfl⟩
    · exact ⟨'e', by simp, .inr rfl⟩
  cases number with
  | finite negative rank =>
      cases spelled
      obtain ⟨c, member, mark⟩ := marked (Decimal.shortest style.tie rank)
      exact ⟨c, by simp [member], mark⟩
  | infinite negative => cases spelled
  | undefined => cases spelled

end DecimalStyle

namespace Numeral

/-- An integer is read from signs and digits alone. -/
theorem integer?_eq_none_of_mem {cs : List Char} {c : Char} (member : c ∈ cs)
    (mark : c = '.' ∨ c = 'e') : integer? cs = none := by
  have other : isDigit c = false ∧ c ≠ '-' ∧ c ≠ '+' := by
    rcases mark with rfl | rfl <;> decide
  have unread : ∀ {rest : List Char}, c ∈ rest → ofDigits? rest = none := by
    intro rest inside
    have partly : rest.all isDigit = false := List.all_eq_false.2 ⟨c, inside, by simp [other.1]⟩
    simp [ofDigits?, partly]
  unfold integer?
  split
  · rename_i rest
    rw [unread (List.mem_of_ne_of_mem other.2.1 member)]
    rfl
  · rename_i rest
    rw [unread (List.mem_of_ne_of_mem other.2.2 member)]
    rfl
  · rw [unread member]
    rfl

end Numeral

end ProtoSchema
