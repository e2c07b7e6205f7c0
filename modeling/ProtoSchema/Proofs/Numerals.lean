import Mathlib.Tactic.IntervalCases
import ProtoSchema.Number.Numeral

/-!
Numerals are read back: the digits of a number denote it, and so does its text with a sign.
-/
namespace ProtoSchema.Numeral

theorem isDigit_digitChar {digit : Nat} (bound : digit < 10) : isDigit (digitChar digit) = true := by
  interval_cases digit <;> decide

theorem digitValue_digitChar {digit : Nat} (bound : digit < 10) : digitValue (digitChar digit) = digit := by
  interval_cases digit <;> decide

theorem isDigit_of_mem_digits {n : Nat} {c : Char} (member : c ∈ digits n) : isDigit c = true := by
  fun_induction digits n with
  | case1 n small => exact List.mem_singleton.1 member ▸ isDigit_digitChar small
  | case2 n large ih =>
      rcases List.mem_append.1 member with earlier | last
      · exact ih earlier
      · exact List.mem_singleton.1 last ▸ isDigit_digitChar (Nat.mod_lt n (by omega))

theorem digits_ne_nil (n : Nat) : digits n ≠ [] := by
  unfold digits
  split <;> simp

theorem value_digits (n : Nat) : value (digits n) = n := by
  fun_induction digits n with
  | case1 n small => simpa [value] using digitValue_digitChar small
  | case2 n large ih =>
      have last : digitValue (digitChar (n % 10)) = n % 10 := digitValue_digitChar (Nat.mod_lt n (by omega))
      rw [value, List.foldl_append, ← value, ih]
      simp only [List.foldl_cons, List.foldl_nil, last]
      omega

theorem ofDigits?_digits (n : Nat) : ofDigits? (digits n) = some n := by
  have nonempty : (digits n).isEmpty = false := by simpa using digits_ne_nil n
  have numeric : (digits n).all isDigit = true := List.all_eq_true.2 fun _ => isDigit_of_mem_digits
  simp only [ofDigits?, nonempty, numeric, value_digits]
  rfl

theorem digits_ne_cons {n : Nat} {c : Char} {rest : List Char} (other : isDigit c = false) :
    digits n ≠ c :: rest := by
  intro same
  have digit : isDigit c = true := isDigit_of_mem_digits (same ▸ List.mem_cons_self)
  rw [other] at digit
  cases digit

theorem natural?_digits (n : Nat) : natural? (digits n) = some n := by
  unfold natural?
  split
  · rename_i signed
    exact absurd signed (digits_ne_cons rfl)
  · exact ofDigits?_digits n

theorem integer?_digits (n : Nat) : integer? (digits n) = some (n : Int) := by
  unfold integer?
  split
  · rename_i signed
    exact absurd signed (digits_ne_cons rfl)
  · rename_i signed
    exact absurd signed (digits_ne_cons rfl)
  · rw [ofDigits?_digits]
    rfl

theorem toList_text (n : Nat) : (text n).toList = digits n := String.toList_ofList

theorem toList_integerText_negSucc (n : Nat) :
    (integerText (.negSucc n)).toList = '-' :: digits (n + 1) := by
  rw [integerText, String.toList_append, toList_text]
  rfl

theorem integer?_integerText (n : Int) : integer? (integerText n).toList = some n := by
  cases n with
  | ofNat n =>
      rw [integerText, toList_text]
      exact integer?_digits n
  | negSucc n =>
      rw [toList_integerText_negSucc, integer?, ofDigits?_digits]
      rfl

end ProtoSchema.Numeral
