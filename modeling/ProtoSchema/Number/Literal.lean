import ProtoSchema.Number.Binary64
import ProtoSchema.Number.Numeral

/-!
Floating-point literals: an optional sign, then `inf`, `infinity` or `nan` in any letter case, or
digits with an optional point and an optional exponent, at least one digit standing beside the
point.
-/
namespace ProtoSchema.Binary64

/-- The number nearest to `± coefficient * 10 ^ exponent`. The place of the leading digit settles
the answer where it lies far outside the range of the format. -/
def ofDecimal (negative : Bool) (coefficient : Nat) (exponent : Int) : Binary64 :=
  let magnitude := Numeral.length coefficient + exponent
  if coefficient = 0 ∨ magnitude < -330 then ofRank negative 0
  else if 310 < magnitude then .infinite negative
  else match exponent with
    | .ofNat e => ofRatio negative (coefficient * Nat.pow 10 e) 1
    | .negSucc e => ofRatio negative coefficient (Nat.pow 10 (e + 1))

private def lowerCase (cs : List Char) : List Char := cs.map Char.toLower

private def digitsAndRest (cs : List Char) : List Char × List Char :=
  (cs.takeWhile Numeral.isDigit, cs.dropWhile Numeral.isDigit)

/-- The exponent part that ends a literal; nothing at all stands for exponent zero. -/
private def exponent? : List Char → Option Int
  | [] => some 0
  | e :: cs => if e = 'e' ∨ e = 'E' then Numeral.integer? cs else none

private def unsigned? (negative : Bool) (cs : List Char) : Option Binary64 :=
  if lowerCase cs = "inf".toList ∨ lowerCase cs = "infinity".toList then some (.infinite negative)
  else if lowerCase cs = "nan".toList then some .undefined
  else
    let (whole, afterWhole) := digitsAndRest cs
    let (fraction, afterFraction) := match afterWhole with
      | '.' :: rest => digitsAndRest rest
      | rest => ([], rest)
    if whole.isEmpty && fraction.isEmpty then none
    else (exponent? afterFraction).map fun exponent =>
      ofDecimal negative (Numeral.value (whole ++ fraction)) (exponent - fraction.length)

def ofLiteral? : List Char → Option Binary64
  | '-' :: cs => unsigned? true cs
  | '+' :: cs => unsigned? false cs
  | cs => unsigned? false cs

/-! ## Literals of digits -/

private theorem not_isDigit_of_letter {c : Char} (letter : 'a' ≤ c) :
    Numeral.isDigit c = false := by
  have high : ¬ c ≤ '9' := fun low => absurd (Char.le_trans letter low) (by decide)
  simp [Numeral.isDigit, high]

private theorem toLower_of_isDigit {c : Char} (digit : Numeral.isDigit c = true) :
    c.toLower = c := by
  simp only [Numeral.isDigit, Bool.and_eq_true, decide_eq_true_eq] at digit
  have low : ¬ (c.val ≥ 'A'.val ∧ c.val ≤ 'Z'.val) := fun capital =>
    absurd (Char.le_trans (show 'A' ≤ c from capital.1) digit.2) (by decide)
  exact dif_neg low

/-- No name of a number starts with a digit. -/
private theorem lowerCase_ne_name {first : Char} (digit : Numeral.isDigit first = true)
    (cs : List Char) :
    lowerCase (first :: cs) ≠ "inf".toList ∧ lowerCase (first :: cs) ≠ "infinity".toList ∧
      lowerCase (first :: cs) ≠ "nan".toList := by
  have head : ∀ (letter : Char) (word : List Char), 'a' ≤ letter →
      lowerCase (first :: cs) ≠ letter :: word := by
    intro letter word letterly same
    have leading : first.toLower = letter := (List.cons.inj same).1
    rw [toLower_of_isDigit digit] at leading
    rw [leading, not_isDigit_of_letter letterly] at digit
    cases digit
  exact ⟨head 'i' _ (by decide), head 'i' _ (by decide), head 'n' _ (by decide)⟩

private theorem digitsAndRest_append {digits rest : List Char}
    (numeric : ∀ c ∈ digits, Numeral.isDigit c = true)
    (ended : ∀ c ∈ rest.head?, Numeral.isDigit c = false) :
    digitsAndRest (digits ++ rest) = (digits, rest) := by
  have stops : rest.takeWhile Numeral.isDigit = [] ∧ rest.dropWhile Numeral.isDigit = rest := by
    cases rest with
    | nil => exact ⟨rfl, rfl⟩
    | cons c cs => simp [ended c rfl]
  rw [digitsAndRest, List.takeWhile_append_of_pos numeric, List.dropWhile_append_of_pos numeric,
    stops.1, stops.2, List.append_nil]

/-- What ends a literal behind its digits: nothing, or the mark of an exponent and the exponent. -/
def Ends (tail : List Char) (exponent : Int) : Prop :=
  tail = [] ∧ exponent = 0 ∨
    ∃ power, tail = 'e' :: power ∧ Numeral.integer? power = some exponent

private theorem Ends.exponent? {tail : List Char} {exponent : Int} (ends : Ends tail exponent) :
    Binary64.exponent? tail = some exponent := by
  rcases ends with ⟨rfl, rfl⟩ | ⟨power, rfl, read⟩
  · rfl
  · simpa [Binary64.exponent?] using read

private theorem Ends.head {tail : List Char} {exponent : Int} (ends : Ends tail exponent) :
    ∀ c ∈ tail.head?, c = 'e' := by
  rcases ends with ⟨rfl, -⟩ | ⟨power, rfl, -⟩
  · intro c member
    cases member
  · intro c member
    exact (Option.some.inj member).symm

private theorem unsigned?_of_digits (negative : Bool) {first : Char} {cs fraction tail : List Char}
    {exponent : Int} (numeric : ∀ c ∈ first :: cs ++ fraction, Numeral.isDigit c = true)
    (ends : Ends tail exponent) :
    unsigned? negative
        (first :: cs ++ (if fraction = [] then tail else '.' :: (fraction ++ tail))) =
      some (ofDecimal negative (Numeral.value (first :: cs ++ fraction))
        (exponent - fraction.length)) := by
  have leading : Numeral.isDigit first = true := numeric first (by simp)
  have whole : ∀ c ∈ first :: cs, Numeral.isDigit c = true := fun c member =>
    numeric c (List.mem_append_left _ member)
  have ended : ∀ c ∈ tail.head?, Numeral.isDigit c = false := fun c member =>
    ends.head c member ▸ rfl
  have split : ∀ rest, (∀ c ∈ rest.head?, Numeral.isDigit c = false) →
      digitsAndRest (first :: (cs ++ rest)) = (first :: cs, rest) := fun rest =>
    digitsAndRest_append whole
  have names := lowerCase_ne_name leading
  simp only [unsigned?, List.cons_append]
  rw [if_neg (not_or.2 ⟨(names _).1, (names _).2.1⟩), if_neg (names _).2.2]
  by_cases pointed : fraction = []
  · subst pointed
    rw [if_pos rfl, split tail ended]
    cases tail with
    | nil => simp [ends.exponent?]
    | cons mark power =>
        have marks : mark = 'e' := ends.head mark rfl
        subst marks
        simp [ends.exponent?]
  · have point : ∀ c ∈ ('.' :: (fraction ++ tail)).head?, Numeral.isDigit c = false := by
      simp [Numeral.isDigit]
    rw [if_neg pointed, split _ point]
    have digits : ∀ c ∈ fraction, Numeral.isDigit c = true := fun c member =>
      numeric c (List.mem_append_right _ member)
    simp [digitsAndRest_append digits ended, ends.exponent?]

/-- A sign, digits, a point with digits behind it unless there are none, and an exponent. -/
theorem ofLiteral?_of_digits (negative : Bool) {whole fraction tail : List Char} {exponent : Int}
    (started : whole ≠ []) (numeric : ∀ c ∈ whole ++ fraction, Numeral.isDigit c = true)
    (ends : Ends tail exponent) :
    ofLiteral? ((if negative then ['-'] else []) ++
        (whole ++ (if fraction = [] then tail else '.' :: (fraction ++ tail)))) =
      some (ofDecimal negative (Numeral.value (whole ++ fraction))
        (exponent - fraction.length)) := by
  obtain ⟨first, cs, rfl⟩ := List.exists_cons_of_ne_nil started
  have read := unsigned?_of_digits negative numeric ends
  cases negative with
  | true => exact read
  | false =>
      have leading : Numeral.isDigit first = true := numeric first (by simp)
      rw [if_neg Bool.false_ne_true, List.nil_append, ← read]
      simp only [List.cons_append]
      unfold ofLiteral?
      split
      · rename_i minus
        rw [(List.cons.inj minus).1] at leading
        cases leading
      · rename_i plus
        rw [(List.cons.inj plus).1] at leading
        cases leading
      · rfl

end ProtoSchema.Binary64
