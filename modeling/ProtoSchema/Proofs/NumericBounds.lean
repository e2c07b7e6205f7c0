import ProtoSchema.Proofs.Entries
import ProtoSchema.Proofs.NumberReading
import ProtoSchema.Schema.Encode
import ProtoSchema.Schema.WellKnown
import ProtoSchema.Yaml.Writer

/-!
Numeric bounds in documents. A bound that is a whole number of 64 bits, signed or unsigned, is printed as this
integer, the two powers of two that a greatest integer is rounded to as that integer, and any other one as a
decimal that reads back to it. So the order of bounds is the order of the printed numbers.
-/
namespace ProtoSchema

namespace Binary64

variable {number : Binary64} {rank : Nat}

/-- The number that a finite float is; the others are taken for zero. -/
def toRat : Binary64 → ℚ
  | .finite negative rank => if negative then -magnitude rank else magnitude rank
  | _ => 0

/-! ## Whole numbers -/

theorem magnitude_eq_natCast_iff {n : Nat} : magnitude rank = n ↔ units rank = unitsPerOne * n := by
  have one : (unitsPerOne : ℚ) ≠ 0 := by exact_mod_cast unitsPerOne_pos.ne'
  rw [magnitude, div_eq_iff one, mul_comm]
  exact_mod_cast Iff.rfl

theorem units_mod_eq_zero_iff : units rank % unitsPerOne = 0 ↔ ∃ n : Nat, magnitude rank = n := by
  simp only [magnitude_eq_natCast_iff]
  exact Nat.dvd_iff_mod_eq_zero.symm

theorem toInt?_eq_some_iff (finite : number.isFinite = true) {n : ℤ} :
    number.toInt? = some n ↔ number.toRat = n := by
  cases number with
  | finite negative rank =>
      simp only [toInt?, toRat]
      split
      · rename_i whole
        obtain ⟨m, is⟩ := units_mod_eq_zero_iff.1 whole
        have quotient : units rank / unitsPerOne = m := by
          rw [magnitude_eq_natCast_iff.1 is, Nat.mul_div_cancel_left m unitsPerOne_pos]
        rw [quotient, is, Option.some_inj]
        split
        · exact_mod_cast Iff.rfl
        · exact_mod_cast Iff.rfl
      · rename_i broken
        have missing : none ≠ some n := (Option.some_ne_none n).symm
        refine iff_of_false missing fun is => broken (units_mod_eq_zero_iff.2 ⟨n.natAbs, ?_⟩)
        have positive := magnitude_nonneg rank
        have absolute : |magnitude rank| = |(n : ℚ)| := by
          rw [← is]
          split <;> simp
        rw [abs_of_nonneg positive] at absolute
        rw [absolute, Nat.cast_natAbs, Int.cast_abs]
  | infinite negative => cases finite
  | undefined => cases finite

/-- From 2 ^ 52 on, every magnitude is a whole number. -/
theorem units_mod_of_large (large : 0x10000000000000 ≤ magnitude rank) : units rank % unitsPerOne = 0 := by
  have one : unitsPerOne = 1 <<< 1074 := rfl
  generalize 1074 = place at one
  rw [Nat.one_shiftLeft] at one
  have unit : (0 : ℚ) < unitsPerOne := by exact_mod_cast unitsPerOne_pos
  rw [magnitude, le_div_iff₀ unit] at large
  have least : 0x10000000000000 * unitsPerOne ≤ units rank := by exact_mod_cast large
  obtain ⟨short, -⟩ := significand_bounds rank
  have fine : place ≤ scale rank := by
    by_contra coarse
    have step : 2 ^ (scale rank + 1) ≤ 2 ^ place := Nat.pow_le_pow_right Nat.two_pos (by omega)
    have bound : significand rank * 2 ^ scale rank < 2 * binadeSize * 2 ^ scale rank :=
      Nat.mul_lt_mul_of_pos_right short (Nat.two_pow_pos _)
    rw [units_eq, one] at least
    rw [binadeSize_eq] at bound
    rw [Nat.pow_succ] at step
    omega
  rw [units_eq, one]
  exact Nat.mod_eq_zero_of_dvd ((Nat.pow_dvd_pow 2 fine).mul_left _)

theorem toRat_le_magnitude (negative : Bool) (rank : Fin rankCount) :
    (finite negative rank).toRat ≤ magnitude rank := by
  have positive := magnitude_nonneg rank
  simp only [toRat]
  split
  · linarith
  · exact le_rfl

/-- A float that is below a large whole number is below it by one at least. -/
theorem toRat_le_pred (finite : number.isFinite = true) {n : ℤ} (large : 0x10000000000001 ≤ n)
    (below : number.toRat < n) : number.toRat ≤ n - 1 := by
  cases is : number.toInt? with
  | some m =>
      rw [toInt?_eq_some_iff finite] at is
      rw [is] at below ⊢
      have integral : m < n := by exact_mod_cast below
      exact_mod_cast Int.le_sub_one_of_lt integral
  | none =>
      have coarse : (0x10000000000001 : ℚ) ≤ n := by exact_mod_cast large
      cases number with
      | finite negative rank =>
          have small : magnitude rank < 0x10000000000000 := by
            by_contra whole
            simp only [toInt?, units_mod_of_large (not_lt.1 whole)] at is
            cases is
          have bound := toRat_le_magnitude negative rank
          linarith
      | infinite negative => cases finite
      | undefined => cases finite

/-! ## Comparisons and casts -/

/-- The place of a float in ascending order. Both zeros have the same one, what is undefined has none. -/
def order? : Binary64 → Option Int
  | .finite negative rank => some (if negative then -rank else rank)
  | .infinite negative => some (if negative then -rankCount else rankCount)
  | .undefined => none

/-- A comparison of floats; it fails wherever a side is undefined. -/
def compares (holds : Int → Int → Bool) (left right : Binary64) : Bool :=
  (left.order?.bind fun one => right.order?.map fun two => holds one two).getD false

def equals : Binary64 → Binary64 → Bool := compares (· == ·)

def atMost : Binary64 → Binary64 → Bool := compares (· ≤ ·)

def below : Binary64 → Binary64 → Bool := compares (· < ·)

/-- The cast to an integer type: towards zero, and to the nearer end where the type ends before. -/
def cast (least greatest : Int) : Binary64 → Int
  | .finite negative rank =>
    let magnitude : Int := (units rank / unitsPerOne : Nat)
    max least (min greatest (if negative then -magnitude else magnitude))
  | .infinite negative => if negative then least else greatest
  | .undefined => 0

theorem magnitude_eq_zero_iff : magnitude rank = 0 ↔ rank = 0 := by
  rw [← magnitude_zero]
  exact magnitude_strictMono.injective.eq_iff

theorem signed_le_iff {one two : Bool} {first second : Nat} :
    (if one then -(first : ℤ) else first) ≤ (if two then -(second : ℤ) else second) ↔
      (if one then -magnitude first else magnitude first) ≤
        (if two then -magnitude second else magnitude second) := by
  have least := magnitude_nonneg first
  have other := magnitude_nonneg second
  cases one <;> cases two <;> simp only [Bool.false_eq_true, if_true, if_false]
  · rw [magnitude_strictMono.le_iff_le, Int.ofNat_le]
  · have zeros : magnitude first ≤ -magnitude second ↔ magnitude first = 0 ∧ magnitude second = 0 := by
      constructor
      · intro under
        constructor <;> linarith
      · rintro ⟨none, nothing⟩
        simp [none, nothing]
    rw [zeros, magnitude_eq_zero_iff, magnitude_eq_zero_iff]
    omega
  · exact iff_of_true (by omega) (by linarith)
  · rw [neg_le_neg_iff, neg_le_neg_iff, magnitude_strictMono.le_iff_le, Int.ofNat_le]

variable {left right : Binary64}

/-- Finite floats are in the order of the numbers that they are. -/
theorem exists_order? (finite : left.isFinite = true) (other : right.isFinite = true) :
    ∃ one two, left.order? = some one ∧ right.order? = some two ∧ (one ≤ two ↔ left.toRat ≤ right.toRat) ∧
      (two ≤ one ↔ right.toRat ≤ left.toRat) := by
  cases left <;> cases right <;> try trivial
  exact ⟨_, _, rfl, rfl, signed_le_iff, signed_le_iff⟩

theorem equals_iff (finite : left.isFinite = true) (other : right.isFinite = true) :
    left.equals right = true ↔ left.toRat = right.toRat := by
  obtain ⟨one, two, first, second, under, above⟩ := exists_order? finite other
  have same : left.toRat = right.toRat ↔ one = two := by
    rw [le_antisymm_iff, ← under, ← above, ← le_antisymm_iff]
  simp [equals, compares, first, second, same]

theorem atMost_iff (finite : left.isFinite = true) (other : right.isFinite = true) :
    left.atMost right = true ↔ left.toRat ≤ right.toRat := by
  obtain ⟨one, two, first, second, under, -⟩ := exists_order? finite other
  simp [atMost, compares, first, second, under]

theorem below_iff (finite : left.isFinite = true) (other : right.isFinite = true) :
    left.below right = true ↔ left.toRat < right.toRat := by
  obtain ⟨one, two, first, second, -, above⟩ := exists_order? finite other
  have less : left.toRat < right.toRat ↔ one < two := by rw [← not_le, ← above, not_le]
  simp [below, compares, first, second, less]

theorem cast_of_toInt? {n : ℤ} (whole : number.toInt? = some n) (least greatest : ℤ) :
    number.cast least greatest = max least (min greatest n) := by
  cases number with
  | finite negative rank =>
      simp only [toInt?] at whole
      split at whole
      · rw [cast, Option.some.inj whole]
      · cases whole
  | infinite negative => cases whole
  | undefined => cases whole

/-! ## The ends of the integer types -/

theorem toRat_of_units {negative : Bool} {rank : Fin rankCount} {n : Nat}
    (whole : units rank = unitsPerOne * n) :
    (finite negative rank).toRat = if negative then -(n : ℚ) else n := by
  rw [toRat, magnitude_eq_natCast_iff.2 whole]

/-- The least signed integer of 64 bits is a float, the greatest is rounded to the power of two above it. -/
theorem ofInt_signed :
    (ofInt (-0x8000000000000000)).isFinite = true ∧
      (ofInt (-0x8000000000000000)).toRat = (-0x8000000000000000 : ℤ) ∧
      (ofInt 0x7FFFFFFFFFFFFFFF).isFinite = true ∧
      (ofInt 0x7FFFFFFFFFFFFFFF).toRat = (0x8000000000000000 : ℤ) := by
  have ends : ∃ rank : Fin rankCount, units rank = unitsPerOne * 0x8000000000000000 ∧
      ofInt (-0x8000000000000000) = finite true rank ∧ ofInt 0x7FFFFFFFFFFFFFFF = finite false rank :=
    ⟨⟨1086 * binadeSize, by decide⟩, by decide +kernel, by decide +kernel, by decide +kernel⟩
  obtain ⟨rank, whole, low, high⟩ := ends
  rw [low, high, toRat_of_units whole, toRat_of_units whole]
  exact ⟨rfl, rfl, rfl, rfl⟩

theorem ofInt_unsigned :
    zero.isFinite = true ∧ zero.toRat = (0 : ℤ) ∧
      (ofInt 0xFFFFFFFFFFFFFFFF).isFinite = true ∧
      (ofInt 0xFFFFFFFFFFFFFFFF).toRat = (0x10000000000000000 : ℤ) := by
  have ends : ∃ rank : Fin rankCount, units rank = unitsPerOne * 0x10000000000000000 ∧
      ofInt 0xFFFFFFFFFFFFFFFF = finite false rank :=
    ⟨⟨1087 * binadeSize, by decide⟩, by decide +kernel, by decide +kernel⟩
  obtain ⟨rank, whole, high⟩ := ends
  have nothing : zero = finite false ⟨0, by decide⟩ := ofRank_of_lt false (by decide)
  rw [high, nothing, toRat_of_units whole, toRat]
  exact ⟨rfl, magnitude_zero, rfl, rfl⟩

end Binary64

namespace Schema

open Binary64

/-- The cases as the comparisons and casts of floating-point numbers decide them. -/
def boundJsonByCasts (bound : Binary64) : Json :=
  if bound.equals (ofInt 0x7FFFFFFFFFFFFFFF) then .integer 0x7FFFFFFFFFFFFFFF
  else if bound.toInt?.isSome && (ofInt (-0x8000000000000000)).atMost bound &&
      bound.below (ofInt 0x7FFFFFFFFFFFFFFF) then
    .integer (bound.cast (-0x8000000000000000) 0x7FFFFFFFFFFFFFFF)
  else if bound.toInt?.isSome && zero.atMost bound && bound.atMost (ofInt 0xFFFFFFFFFFFFFFFF) then
    .integer (bound.cast 0 0xFFFFFFFFFFFFFFFF)
  else .ofBinary64 bound

/-- How a finite bound is printed, by the number that it is. -/
inductive Printed (bound : Binary64) : Json → Prop
  | whole (n : ℤ) (value : bound.toRat = n) (low : -0x8000000000000000 ≤ n) (high : n < 0x10000000000000000)
      (other : n ≠ 0x8000000000000000) : Printed bound (.integer n)
  | signedEnd (value : bound.toRat = (0x8000000000000000 : ℤ)) : Printed bound (.integer 0x7FFFFFFFFFFFFFFF)
  | unsignedEnd (value : bound.toRat = (0x10000000000000000 : ℤ)) : Printed bound (.integer 0xFFFFFFFFFFFFFFFF)
  | float (other : ∀ n : ℤ, bound.toRat = n → n < -0x8000000000000000 ∨ 0x10000000000000000 < n) :
      Printed bound (.decimal bound)

variable {bound : Binary64} (finite : bound.isFinite = true)

include finite

theorem printed_boundJson : Printed bound (boundJson bound) := by
  unfold boundJson
  split
  · rename_i n is
    rw [toInt?_eq_some_iff finite] at is
    split
    · rename_i last
      exact .signedEnd (by rw [is, last])
    · rename_i other
      split
      · rename_i range
        exact .whole n is range.1 (by omega) other
      · rename_i outside
        split
        · rename_i last
          exact .unsignedEnd (by rw [is, last])
        · rename_i further
          rw [Json.ofBinary64, if_pos finite]
          refine .float fun m value => ?_
          have same : n = m := by exact_mod_cast is.symm.trans value
          omega
  · rename_i broken
    rw [Json.ofBinary64, if_pos finite]
    refine .float fun m value => ?_
    rw [(toInt?_eq_some_iff finite).2 value] at broken
    cases broken

/-- Negative zero is the integer zero. -/
example : (boundJson (.finite true ⟨0, by decide⟩)).compact = "0" := by decide +kernel

/-- The conversions decide as the exact numbers do. -/
theorem boundJsonByCasts_eq : boundJsonByCasts bound = boundJson bound := by
  obtain ⟨lowFinite, low, highFinite, high⟩ := ofInt_signed
  obtain ⟨zeroFinite, nothing, lastFinite, last⟩ := ofInt_unsigned
  have isHigh := equals_iff finite highFinite
  have fromLow := atMost_iff lowFinite finite
  have belowHigh := below_iff finite highFinite
  have fromZero := atMost_iff zeroFinite finite
  have toLast := atMost_iff finite lastFinite
  rw [high] at isHigh belowHigh
  rw [low] at fromLow
  rw [nothing] at fromZero
  rw [last] at toLast
  simp only [boundJsonByCasts, boundJson, Bool.and_eq_true, isHigh, fromLow, belowHigh, fromZero, toLast]
  cases is : bound.toInt? with
  | none =>
      have broken : bound.toRat ≠ (0x8000000000000000 : ℤ) := fun value => by
        rw [(toInt?_eq_some_iff finite).2 value] at is
        cases is
      rw [if_neg broken]
      simp
  | some n =>
      rw [cast_of_toInt? is, cast_of_toInt? is, (toInt?_eq_some_iff finite).1 is]
      simp only [Int.cast_inj, Int.cast_le, Int.cast_lt, Option.isSome_some, true_and]
      by_cases middle : n = 0x8000000000000000
      · rw [if_pos middle, if_pos middle]
      · rw [if_neg middle, if_neg middle]
        by_cases signed : -0x8000000000000000 ≤ n ∧ n < 0x8000000000000000
        · rw [if_pos signed, if_pos (by omega), Json.integer.injEq]
          omega
        · rw [if_neg signed]
          by_cases unsigned : 0 ≤ n ∧ n ≤ 0x10000000000000000
          · rw [if_pos unsigned]
            split
            · rw [Json.integer.injEq]
              omega
            · rw [if_pos (by omega), Json.integer.injEq]
              omega
          · rw [if_neg unsigned, if_neg (by omega), if_neg (by omega)]

end Schema

/-! ## Written numbers -/

/-- The number that a text denotes: a numeral is the integer that it spells, another literal the float nearest to
what it spells. -/
def readNumber? (text : String) : Option ℚ :=
  match Numeral.integer? text.toList with
  | some n => some n
  | none => (Binary64.ofLiteral? text.toList).map Binary64.toRat

theorem readNumber?_integerText (n : ℤ) : readNumber? (Numeral.integerText n) = some (n : ℚ) := by
  rw [readNumber?, Numeral.integer?_integerText]

theorem exists_readNumber?_text? {style : DecimalStyle} (pointed : style.pointZero = true) {number : Binary64}
    (finite : number.isFinite = true) :
    ∃ text, style.text? number = some text ∧ readNumber? text = some number.toRat := by
  cases number with
  | finite negative rank =>
      obtain ⟨text, spelled, read⟩ := style.ofLiteral?_text? negative rank
      obtain ⟨c, member, mark⟩ := style.exists_mark_of_text? pointed spelled
      refine ⟨text, spelled, ?_⟩
      rw [readNumber?, Numeral.integer?_eq_none_of_mem member mark, read, Option.map_some]
  | infinite negative => cases finite
  | undefined => cases finite

namespace Json

/-- The value is written as a number, in each format as a text that denotes it. -/
structure IsNumber (json : Json) (number : ℚ) : Prop where
  compact : readNumber? json.compact = some number
  indented : ∀ depth, readNumber? (json.indented depth) = some number
  yaml : ∀ indentation, ∃ text, Yaml.inline indentation json = text ++ "\n" ∧ readNumber? text = some number

theorem isNumber_integer (n : ℤ) : IsNumber (.integer n) n where
  compact := readNumber?_integerText n
  indented _ := readNumber?_integerText n
  yaml _ := ⟨_, rfl, readNumber?_integerText n⟩

theorem isNumber_decimal {number : Binary64} (finite : number.isFinite = true) :
    IsNumber (.decimal number) number.toRat := by
  obtain ⟨text, spelled, read⟩ := exists_readNumber?_text? (rfl : numberStyle.pointZero = true) finite
  obtain ⟨other, likewise, also⟩ := exists_readNumber?_text? (rfl : Yaml.numberStyle.pointZero = true) finite
  have compact : readNumber? (Json.decimal number).compact = some number.toRat := by
    rw [Json.compact, decimalText, spelled, Option.getD_some, read]
  refine ⟨compact, fun _ => compact, fun indentation => ⟨other, ?_, also⟩⟩
  rw [Yaml.inline, likewise, Option.getD_some]

end Json

namespace Schema

open Binary64

/-- What is written in front of the schemas below is found under its key. -/
theorem lookup_toJson_of_mem {schema : Schema} {key : String} {json : Json}
    (member : (key, json) ∈ leadingKeywords schema.toKeywords) :
    ∃ entries, schema.toJson = .object entries ∧ entries.lookup key = some json := by
  obtain ⟨own, items, properties, additional, oneOf, anyOf, allOf, negated⟩ := schema
  obtain ⟨behind, written⟩ : ∃ behind,
      toJson ⟨own, items, properties, additional, oneOf, anyOf, allOf, negated⟩ =
        .object (leadingKeywords own ++ behind) := by
    rw [toJson]
    simp only [List.append_assoc]
    exact ⟨_, rfl⟩
  have unique : (Entries.names (leadingKeywords own)).Nodup := (names_leadingKeywords own).nodup (by decide)
  refine ⟨_, written, ?_⟩
  rw [List.lookup_append, Entries.lookup_of_nodup unique member, Option.some_or]

theorem Printed.range {bound : Binary64} {n : ℤ} (printed : Printed bound (.integer n)) :
    -0x8000000000000000 ≤ n ∧ n < 0x10000000000000000 := by
  cases printed with
  | whole _ _ low high _ => exact ⟨low, high⟩
  | signedEnd _ => decide
  | unsignedEnd _ => decide

/-- The number that stands for a bound in a document: for two powers of two the integer below. -/
def printedNumber (bound : ℚ) : ℚ :=
  if bound = (0x8000000000000000 : ℤ) then (0x7FFFFFFFFFFFFFFF : ℤ)
  else if bound = (0x10000000000000000 : ℤ) then (0xFFFFFFFFFFFFFFFF : ℤ)
  else bound

theorem printedNumber_eq {bound : ℚ} (signed : bound ≠ (0x8000000000000000 : ℤ))
    (unsigned : bound ≠ (0x10000000000000000 : ℤ)) : printedNumber bound = bound := by
  rw [printedNumber, if_neg signed, if_neg unsigned]

theorem Printed.isNumber {bound : Binary64} {json : Json} (printed : Printed bound json)
    (finite : bound.isFinite = true) : json.IsNumber (printedNumber bound.toRat) := by
  cases printed with
  | whole n value low high other =>
      rw [value, printedNumber_eq (by rwa [Ne, Int.cast_inj]) (by rw [Ne, Int.cast_inj]; omega)]
      exact Json.isNumber_integer n
  | signedEnd value =>
      rw [value, printedNumber, if_pos rfl]
      exact Json.isNumber_integer _
  | unsignedEnd value =>
      rw [value, printedNumber, if_neg (by rw [Int.cast_inj]; decide), if_pos rfl]
      exact Json.isNumber_integer _
  | float other =>
      have signed : bound.toRat ≠ (0x8000000000000000 : ℤ) := fun value => by
        have outside := other _ value
        omega
      have unsigned : bound.toRat ≠ (0x10000000000000000 : ℤ) := fun value => by
        have outside := other _ value
        omega
      rw [printedNumber_eq signed unsigned]
      exact Json.isNumber_decimal finite

theorem printedNumber_le (bound : ℚ) : printedNumber bound ≤ bound := by
  unfold printedNumber
  split
  · rename_i signed
    rw [signed, Int.cast_le]
    decide
  · split
    · rename_i unsigned
      rw [unsigned, Int.cast_le]
      decide
    · exact le_rfl

theorem printedNumber_mono {lower upper : Binary64} (finite : lower.isFinite = true)
    (ordered : lower.toRat ≤ upper.toRat) : printedNumber lower.toRat ≤ printedNumber upper.toRat := by
  rcases ordered.eq_or_lt with same | below
  · rw [same]
  · refine (printedNumber_le lower.toRat).trans ?_
    -- no float lies strictly between the power of two and the integer printed for it
    unfold printedNumber
    split
    · rename_i signed
      rw [signed] at below
      exact (toRat_le_pred finite (by decide) below).trans_eq (by norm_num)
    · split
      · rename_i unsigned
        rw [unsigned] at below
        exact (toRat_le_pred finite (by decide) below).trans_eq (by norm_num)
      · exact ordered

/-- A finite bound is printed exactly, but for the two powers of two that stand for a greatest integer. -/
structure PrintedExactly (bound : Binary64) : Prop where
  printed : Printed bound (boundJson bound)
  converted : boundJsonByCasts bound = boundJson bound
  range : ∀ n, boundJson bound = .integer n → -0x8000000000000000 ≤ n ∧ n < 0x10000000000000000
  written : (boundJson bound).IsNumber (printedNumber bound.toRat)
  carried : ∀ (schema : Schema) (key : String), (key, some bound) ∈ bounds schema.toKeywords →
    ∃ entries, schema.toJson = .object entries ∧ entries.lookup key = some (boundJson bound)

theorem printedExactly_of_isFinite {bound : Binary64} (finite : bound.isFinite = true) :
    PrintedExactly bound where
  printed := printed_boundJson finite
  converted := boundJsonByCasts_eq finite
  range n is := by
    have printed := printed_boundJson finite
    rw [is] at printed
    exact printed.range
  written := (printed_boundJson finite).isNumber finite
  carried _ _ member := lookup_toJson_of_mem (mem_leadingKeywords_of_mem_bounds member)

/-- Bounds are printed exactly and in their order. -/
theorem bounds_printed_in_order {lower upper : Binary64} (finite : lower.isFinite = true)
    (other : upper.isFinite = true) (ordered : lower.toRat ≤ upper.toRat) :
    PrintedExactly lower ∧ PrintedExactly upper ∧
      printedNumber lower.toRat ≤ printedNumber upper.toRat :=
  ⟨printedExactly_of_isFinite finite, printedExactly_of_isFinite other, printedNumber_mono finite ordered⟩

/-- The bounds of a wrapper of signed integers are printed as the ends of their range. -/
theorem bounds_printed_in_order_int64 :
    ∃ schema ∈ Catalog.wellKnown.lookup "google.protobuf.Int64Value", ∃ lower upper,
      schema.minimum = some lower ∧ schema.maximum = some upper ∧ PrintedExactly lower ∧ PrintedExactly upper ∧
        printedNumber lower.toRat ≤ printedNumber upper.toRat ∧
        boundJson lower = .integer (-0x8000000000000000) ∧ boundJson upper = .integer 0x7FFFFFFFFFFFFFFF := by
  obtain ⟨lowFinite, low, highFinite, high⟩ := ofInt_signed
  have ordered : (ofInt (-0x8000000000000000)).toRat ≤ (ofInt 0x7FFFFFFFFFFFFFFF).toRat := by
    rw [low, high, Int.cast_le]
    decide
  obtain ⟨lower, upper, below⟩ := bounds_printed_in_order lowFinite highFinite ordered
  refine ⟨_, rfl, _, _, rfl, rfl, lower, upper, below, ?_, ?_⟩
  · rw [boundJson, (toInt?_eq_some_iff lowFinite).2 low]
    rfl
  · rw [boundJson, (toInt?_eq_some_iff highFinite).2 high]
    rfl

end Schema

end ProtoSchema
