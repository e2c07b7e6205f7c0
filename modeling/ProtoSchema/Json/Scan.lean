import ProtoSchema.Json.Fault

/-!
The smallest parts of JSON text, over bytes: blanks, words, numbers, quoted text, and whole values
that are passed over unread. Each scan answers with what is left of its input, which is never longer
than the input.
-/
namespace ProtoSchema.Json

abbrev Bytes := List UInt8

namespace Byte

def quote : UInt8 := 0x22
def backslash : UInt8 := 0x5C
def comma : UInt8 := 0x2C
def colon : UInt8 := 0x3A
def minus : UInt8 := 0x2D
def plus : UInt8 := 0x2B
def point : UInt8 := 0x2E
def openBracket : UInt8 := 0x5B
def closeBracket : UInt8 := 0x5D
def openBrace : UInt8 := 0x7B
def closeBrace : UInt8 := 0x7D

def isBlank (byte : UInt8) : Bool := byte == 0x20 || byte == 0x0A || byte == 0x09 || byte == 0x0D
def isDigit (byte : UInt8) : Bool := 0x30 ≤ byte && byte ≤ 0x39
def isExponentMark (byte : UInt8) : Bool := byte == 0x65 || byte == 0x45

def hexValue? (byte : UInt8) : Option Nat :=
  if isDigit byte then some (byte.toNat - 0x30)
  else if 0x61 ≤ byte && byte ≤ 0x66 then some (byte.toNat - 0x57)
  else if 0x41 ≤ byte && byte ≤ 0x46 then some (byte.toNat - 0x37)
  else none

end Byte

/-- What is left of an input after a part of it. -/
abbrev Rest (input : Bytes) := { rest : Bytes // rest.length ≤ input.length }

/-- A value read from an input, and the strictly shorter text behind it. -/
structure Read (input : Bytes) (α : Type) where
  value : α
  rest : Bytes
  shorter : rest.length < input.length

namespace Rest

def widen {input rest : Bytes} (left : Rest rest) (bound : rest.length < input.length) :
    Rest input := ⟨left.1, Nat.le_of_lt (Nat.lt_of_le_of_lt left.2 bound)⟩

/-- A later point, seen from the start of the text. -/
def trans {input : Bytes} (left : Rest input) (last : Rest left.1) : Rest input :=
  ⟨last.1, Nat.le_trans last.2 left.2⟩

def reading {input rest : Bytes} {α : Type} (left : Rest rest) (value : α)
    (bound : rest.length < input.length) : Read input α :=
  ⟨value, left.1, Nat.lt_of_le_of_lt left.2 bound⟩

end Rest

namespace Read

variable {α β : Type}

def map {input : Bytes} (f : α → β) (read : Read input α) : Read input β :=
  ⟨f read.value, read.rest, read.shorter⟩

def widen {input rest : Bytes} (read : Read rest α) (bound : rest.length < input.length) :
    Read input α := ⟨read.value, read.rest, Nat.lt_trans read.shorter bound⟩

def toRest {input : Bytes} (read : Read input α) : Rest input :=
  ⟨read.rest, Nat.le_of_lt read.shorter⟩

/-- What is left of the text behind the first byte of a value. -/
def afterFirst {input : Bytes} {first : UInt8} (read : Read (first :: input) α) : Rest input :=
  ⟨read.rest, Nat.le_of_lt_succ read.shorter⟩

end Read

def skipBlanks (input : Bytes) : Bytes := input.dropWhile Byte.isBlank

theorem skipBlanks_length_le (input : Bytes) : (skipBlanks input).length ≤ input.length :=
  (List.dropWhile_sublist Byte.isBlank).length_le

theorem length_lt_of_skipBlanks {input rest : Bytes} {byte : UInt8}
    (found : skipBlanks input = byte :: rest) : rest.length < input.length := by
  have bound := skipBlanks_length_le input
  rw [found] at bound
  exact bound

/-- The remaining letters of a word whose first letter has been seen. -/
def word : (letters : Bytes) → (input : Bytes) → Except Fault (Rest input)
  | [], input => .ok ⟨input, Nat.le_refl _⟩
  | _ :: _, [] => .error .endBeforeValue
  | letter :: letters, byte :: rest =>
    if byte = letter then
      (word letters rest).map fun left => ⟨left.1, Nat.le_succ_of_le left.2⟩
    else .error .wordMisspelled

def restOfNull : Bytes := [0x75, 0x6C, 0x6C]
def restOfTrue : Bytes := [0x72, 0x75, 0x65]
def restOfFalse : Bytes := [0x61, 0x6C, 0x73, 0x65]

/-! ## Quoted text -/

private def hexCode? (a b c d : UInt8) : Option Nat := do
  let a ← Byte.hexValue? a
  let b ← Byte.hexValue? b
  let c ← Byte.hexValue? c
  let d ← Byte.hexValue? d
  return ((a * 16 + b) * 16 + c) * 16 + d

private def escapedByte? (letter : UInt8) : Option UInt8 :=
  if letter = Byte.quote then some Byte.quote
  else if letter = Byte.backslash then some Byte.backslash
  else if letter = 0x2F then some 0x2F
  else if letter = 0x62 then some 0x08
  else if letter = 0x66 then some 0x0C
  else if letter = 0x6E then some 0x0A
  else if letter = 0x72 then some 0x0D
  else if letter = 0x74 then some 0x09
  else none

/-- What stands behind a backslash: the bytes it denotes. A code between 0xD800 and 0xDBFF has to be
followed at once by the escape of a code between 0xDC00 and 0xDFFF. -/
def escapeSequence : (input : Bytes) → Except Fault (Bytes × Rest input)
  | [] => .error .endInsideText
  | letter :: rest =>
    if letter = 0x75 then
      match rest with
      | a :: b :: c :: d :: rest =>
        match hexCode? a b c d with
        | none => .error .invalidEscape
        | some code =>
          if 0xDC00 ≤ code ∧ code ≤ 0xDFFF then .error .loneSurrogate
          else if code < 0xD800 ∨ 0xDBFF < code then
            .ok (String.utf8EncodeChar (Char.ofNat code), ⟨rest, by simp; omega⟩)
          else match rest with
            | [] => .error .endInsideText
            | mark :: rest =>
              if mark ≠ Byte.backslash then .error .surrogateCutShort
              else match rest with
                | [] => .error .endInsideText
                | letter :: rest =>
                  if letter ≠ 0x75 then .error .surrogateCutShort
                  else match rest with
                    | e :: f :: g :: h :: rest =>
                      match hexCode? e f g h with
                      | none => .error .invalidEscape
                      | some low =>
                        if low < 0xDC00 ∨ 0xDFFF < low then .error .loneSurrogate
                        else
                          let code := (code - 0xD800) * 0x400 + (low - 0xDC00) + 0x10000
                          .ok (String.utf8EncodeChar (Char.ofNat code), ⟨rest, by simp; omega⟩)
                    | _ => .error .endInsideText
      | _ => .error .endInsideText
    else match escapedByte? letter with
      | some byte => .ok ([byte], ⟨rest, by simp⟩)
      | none => .error .invalidEscape

/-- The bytes up to the closing quote, in front of those already `gathered` in reverse. -/
def quotedBytes (gathered : Bytes) (input : Bytes) : Except Fault (Bytes × Rest input) :=
  match input with
  | [] => .error .endInsideText
  | byte :: rest =>
    if byte = Byte.quote then .ok (gathered.reverse, ⟨rest, by simp⟩)
    else if byte = Byte.backslash then
      match escapeSequence rest with
      | .error fault => .error fault
      | .ok (bytes, left) =>
        (quotedBytes (bytes.reverse ++ gathered) left.1).map fun (all, last) =>
          (all, ⟨last.1, by have := left.2; have := last.2; simp; omega⟩)
    else if byte < 0x20 then .error .controlCharacter
    else
      (quotedBytes (byte :: gathered) rest).map fun (all, last) =>
        (all, ⟨last.1, Nat.le_succ_of_le last.2⟩)
termination_by input.length
decreasing_by
  · have := left.2; simp; omega
  · simp

def quotedText (input : Bytes) : Except Fault (String × Rest input) :=
  match quotedBytes [] input with
  | .error fault => .error fault
  | .ok (bytes, left) =>
    match String.fromUTF8? ⟨bytes.toArray⟩ with
    | some string => .ok (string, left)
    | none => .error .invalidEncoding

/-- Pass over quoted text: escapes are told apart, but neither their codes nor the encoding are
checked. -/
def skipQuoted : (input : Bytes) → Except Fault (Rest input)
  | [] => .error .endInsideText
  | byte :: rest =>
    if byte = Byte.quote then .ok ⟨rest, by simp⟩
    else if byte = Byte.backslash then
      match rest with
      | [] => .error .endInsideText
      | letter :: rest =>
        if letter = 0x75 then
          match rest with
          | a :: b :: c :: d :: rest =>
            if (hexCode? a b c d).isNone then .error .invalidEscape
            else (skipQuoted rest).map fun left => ⟨left.1, by have := left.2; simp; omega⟩
          | _ => .error .endInsideText
        else if (escapedByte? letter).isNone then .error .invalidEscape
        else (skipQuoted rest).map fun left => ⟨left.1, by have := left.2; simp; omega⟩
    else if byte < 0x20 then .error .controlCharacter
    else (skipQuoted rest).map fun left => ⟨left.1, Nat.le_succ_of_le left.2⟩

/-! ## Numbers -/

inductive Number where
  | integer (value : Int)
  | decimal (value : Binary64)
deriving DecidableEq

def Number.toJson : Number → Json
  | .integer value => .integer value
  | .decimal value => .decimal value

def Number.unexpected : Number → Unexpected
  | .integer value => .integer value
  | .decimal value => .decimal value

def leadingDigits (input : Bytes) : List Nat :=
  (input.takeWhile Byte.isDigit).map fun byte => byte.toNat - 0x30

def skipDigits (input : Bytes) : Bytes := input.dropWhile Byte.isDigit

theorem skipDigits_length_le (input : Bytes) : (skipDigits input).length ≤ input.length :=
  (List.dropWhile_sublist Byte.isDigit).length_le

theorem length_lt_of_skipDigits {input rest : Bytes} {byte : UInt8}
    (found : skipDigits input = byte :: rest) : rest.length < input.length := by
  have bound := skipDigits_length_le input
  rw [found] at bound
  exact bound

/-- Append digits to a coefficient as long as it stays below 2 ^ 64; the second number counts the
digits from the first one that no longer fits. -/
def absorb (coefficient : Nat) : List Nat → Nat × Nat
  | [] => (coefficient, 0)
  | digit :: digits =>
    if UInt64.size ≤ coefficient * 10 + digit then (coefficient, digits.length + 1)
    else absorb (coefficient * 10 + digit) digits

private def rankOf (n : Nat) : Nat := Binary64.nearestRank (n * Binary64.unitsPerOne) 1

/-- Divide by a power of ten, at most 10 ^ 308 at a time, rounding after each division. -/
def divideByPower (rank power : Nat) : Nat :=
  if power ≤ 308 then Binary64.quotientRank rank (rankOf (Nat.pow 10 power))
  else if rank = 0 then 0
  else divideByPower (Binary64.quotientRank rank (rankOf (Nat.pow 10 308))) (power - 308)
termination_by power

/-- `coefficient * 10 ^ exponent`, where coefficient, power and result are each rounded in turn. -/
def scaled (coefficient : Nat) (exponent : Int) : Except Fault Nat :=
  let start := rankOf coefficient
  match exponent with
  | .ofNat power =>
    if power ≤ 308 then
      let rank := Binary64.productRank start (rankOf (Nat.pow 10 power))
      if rank < Binary64.rankCount then .ok rank else .error .numberOutOfRange
    else if start = 0 then .ok 0 else .error .numberOutOfRange
  | .negSucc power => .ok (divideByPower start (power + 1))

private def exponentSign (input : Bytes) : Bool × Bytes :=
  match input with
  | byte :: rest =>
    if byte = Byte.plus then (false, rest)
    else if byte = Byte.minus then (true, rest) else (false, input)
  | [] => (false, [])

private theorem exponentSign_length_le (input : Bytes) :
    (exponentSign input).2.length ≤ input.length := by
  unfold exponentSign
  split
  · split
    · simp
    · split <;> simp
  · simp

/-- The exponent behind its mark, applied to a coefficient whose own exponent is `start`. -/
private def withExponent (negative : Bool) (coefficient : Nat) (start : Int) (input : Bytes) :
    Except Fault (Number × Rest input) :=
  let signed := exponentSign input
  match signed.2 with
  | [] => .error .endBeforeValue
  | byte :: _ =>
    if !Byte.isDigit byte then .error .invalidNumber
    else
      let exponent : Nat := (leadingDigits signed.2).foldl (fun total digit => 10 * total + digit) 0
      let left : Rest input := ⟨skipDigits signed.2,
        Nat.le_trans (skipDigits_length_le _) (exponentSign_length_le input)⟩
      if 2147483647 < exponent then
        if coefficient ≠ 0 ∧ !signed.1 then .error .numberOutOfRange
        else .ok (.decimal (Binary64.ofRank negative 0), left)
      else
        let power : Int := if signed.1 then start - exponent else start + exponent
        (scaled coefficient power).map fun rank =>
          (.decimal (Binary64.ofRank negative rank), left)

/-- The digits behind a decimal point, and an exponent if there is one. -/
private def withFraction (negative : Bool) (coefficient : Nat) (start : Int) (input : Bytes) :
    Except Fault (Number × Rest input) :=
  let digits := leadingDigits input
  let (coefficient, dropped) := absorb coefficient digits
  let exponent := start - (digits.length - dropped : Nat)
  match h : skipDigits input with
  | [] =>
    if digits.isEmpty then .error .endBeforeValue
    else (scaled coefficient exponent).map fun rank =>
      (.decimal (Binary64.ofRank negative rank), ⟨[], Nat.zero_le _⟩)
  | byte :: rest =>
    have bound := length_lt_of_skipDigits h
    if digits.isEmpty then .error .invalidNumber
    else if Byte.isExponentMark byte then
      (withExponent negative coefficient exponent rest).map fun (number, left) =>
        (number, left.widen bound)
    else (scaled coefficient exponent).map fun rank =>
      (.decimal (Binary64.ofRank negative rank), ⟨byte :: rest, bound⟩)

/-- A whole number without point or exponent. Below zero it stays whole down to -2 ^ 63, above zero
up to 2 ^ 64; minus zero and larger numbers are floating-point numbers. -/
private def whole (negative : Bool) (coefficient dropped : Nat) : Except Fault Number :=
  if dropped = 0 ∧ !negative then .ok (.integer coefficient)
  else if dropped = 0 ∧ 0 < coefficient ∧ coefficient ≤ 0x8000000000000000 then
    .ok (.integer (-coefficient))
  else (scaled coefficient dropped).map fun rank => .decimal (Binary64.ofRank negative rank)

def number (negative : Bool) (input : Bytes) : Except Fault (Read input Number) :=
  match input with
  | [] => .error .endBeforeValue
  | first :: behind =>
    let digits := leadingDigits (first :: behind)
    if !Byte.isDigit first then .error .invalidNumber
    else if first = 0x30 ∧ 1 < digits.length then .error .invalidNumber
    else
      let (coefficient, dropped) := absorb 0 digits
      match h : skipDigits behind with
      | [] => (whole negative coefficient dropped).map fun number => ⟨number, [], by simp⟩
      | byte :: rest =>
        have bound := Nat.lt_succ_of_lt (length_lt_of_skipDigits h)
        if byte = Byte.point then
          (withFraction negative coefficient dropped rest).map fun (number, left) =>
            left.reading number bound
        else if Byte.isExponentMark byte then
          (withExponent negative coefficient dropped rest).map fun (number, left) =>
            left.reading number bound
        else (whole negative coefficient dropped).map fun number =>
          ⟨number, byte :: rest, Nat.succ_lt_succ (length_lt_of_skipDigits h)⟩

/-! ## Values passed over -/

private def skipExponent (input : Bytes) : Except Fault (Rest input) :=
  let signed := exponentSign input
  match signed.2 with
  | [] => .error .invalidNumber
  | byte :: _ =>
    if Byte.isDigit byte then
      .ok ⟨skipDigits signed.2,
        Nat.le_trans (skipDigits_length_le _) (exponentSign_length_le input)⟩
    else .error .invalidNumber

private def skipFraction (input : Bytes) : Except Fault (Rest input) :=
  if (leadingDigits input).isEmpty then .error .invalidNumber
  else match h : skipDigits input with
    | [] => .ok ⟨[], Nat.zero_le _⟩
    | byte :: rest =>
      have bound := length_lt_of_skipDigits h
      if Byte.isExponentMark byte then
        (skipExponent rest).map (·.widen bound)
      else .ok ⟨byte :: rest, bound⟩

/-- Pass over a number whose sign has been read, checking its shape only. -/
def skipNumber (input : Bytes) : Except Fault (Read input Unit) :=
  match input with
  | [] => .error .invalidNumber
  | first :: behind =>
    if !Byte.isDigit first then .error .invalidNumber
    else if first = 0x30 ∧ 1 < (leadingDigits (first :: behind)).length then .error .invalidNumber
    else
      match h : skipDigits behind with
      | [] => .ok ⟨(), [], by simp⟩
      | byte :: rest =>
        have bound := Nat.lt_succ_of_lt (length_lt_of_skipDigits h)
        if byte = Byte.point then
          (skipFraction rest).map (·.reading () bound)
        else if Byte.isExponentMark byte then
          (skipExponent rest).map (·.reading () bound)
        else .ok ⟨(), byte :: rest, Nat.succ_lt_succ (length_lt_of_skipDigits h)⟩

/-- A composite value that has been opened and not yet closed. -/
inductive Bracket where
  | array
  | object
deriving DecidableEq

private def skipKey (input : Bytes) : Except Fault (Read input Unit) :=
  match h : skipBlanks input with
  | [] => .error .endInsideObject
  | byte :: rest =>
    have bound := length_lt_of_skipBlanks h
    if byte ≠ Byte.quote then .error .keyNotText
    else match skipQuoted rest with
      | .error fault => .error fault
      | .ok left =>
        match h : skipBlanks left.1 with
        | [] => .error .endInsideObject
        | byte :: rest =>
          have closer := length_lt_of_skipBlanks h
          if byte = Byte.colon then .ok ⟨(), rest, by have := left.2; omega⟩
          else .error .colonMissing

/-- Where a walk over an unread value stands. -/
inductive Phase where
  /-- A value comes next. -/
  | value
  /-- The innermost bracket has just been opened. -/
  | opened
  /-- A value has just ended. -/
  | ended
deriving DecidableEq

def Phase.weight : Phase → Nat
  | .opened => 1
  | _ => 0

private def skipScalar (byte : UInt8) (rest : Bytes) : Except Fault (Rest rest) :=
  if byte = 0x6E then word restOfNull rest
  else if byte = 0x74 then word restOfTrue rest
  else if byte = 0x66 then word restOfFalse rest
  else if byte = Byte.quote then skipQuoted rest
  else if byte = Byte.minus then
    (skipNumber rest).map Read.toRest
  else if Byte.isDigit byte then
    (skipNumber (byte :: rest)).map Read.afterFirst
  else .error .valueMissing

def Bracket.closes (bracket : Bracket) (byte : UInt8) : Bool :=
  match bracket with
  | .array => byte == Byte.closeBracket
  | .object => byte == Byte.closeBrace

def Bracket.endFault : Bracket → Fault
  | .array => .endInsideArray
  | .object => .endInsideObject

/-- Neither a comma nor the closing bracket follows a value. -/
def Bracket.separatorFault : Bracket → Fault
  | .array => .arraySeparatorMissing
  | .object => .objectSeparatorMissing

/-- Pass over what has to precede the next value inside a bracket: nothing, or a key with its
colon. -/
private def skipToValue (bracket : Bracket) (input : Bytes) : Except Fault (Rest input) :=
  match bracket with
  | .array => .ok ⟨input, Nat.le_refl _⟩
  | .object => (skipKey input).map Read.toRest

/-- Pass over the rest of a value inside the brackets that are still open. -/
def skipFrom (phase : Phase) (brackets : List Bracket) (input : Bytes) :
    Except Fault (Rest input) :=
  match phase, brackets with
  | .value, brackets =>
    match h : skipBlanks input with
    | [] => .error .endBeforeValue
    | byte :: rest =>
      have bound := length_lt_of_skipBlanks h
      if byte = Byte.openBracket then
        (skipFrom .opened (.array :: brackets) rest).map (·.widen bound)
      else if byte = Byte.openBrace then
        (skipFrom .opened (.object :: brackets) rest).map (·.widen bound)
      else match skipScalar byte rest with
        | .error fault => .error fault
        | .ok left =>
          (skipFrom .ended brackets left.1).map fun last => (left.trans last).widen bound
  | .opened, [] => .ok ⟨input, Nat.le_refl _⟩
  | .opened, bracket :: brackets =>
    match h : skipBlanks input with
    | [] => .error bracket.endFault
    | byte :: rest =>
      have bound := length_lt_of_skipBlanks h
      if bracket.closes byte then
        (skipFrom .ended brackets rest).map (·.widen bound)
      else match skipToValue bracket input with
        | .error fault => .error fault
        | .ok left =>
          (skipFrom .value (bracket :: brackets) left.1).map left.trans
  | .ended, [] => .ok ⟨input, Nat.le_refl _⟩
  | .ended, bracket :: brackets =>
    match h : skipBlanks input with
    | [] => .error bracket.endFault
    | byte :: rest =>
      have bound := length_lt_of_skipBlanks h
      if byte = Byte.comma then
        match skipToValue bracket rest with
        | .error fault => .error fault
        | .ok left =>
          (skipFrom .value (bracket :: brackets) left.1).map fun last =>
            (left.trans last).widen bound
      else if bracket.closes byte then
        (skipFrom .ended brackets rest).map (·.widen bound)
      else .error bracket.separatorFault
termination_by (input.length, phase.weight)
decreasing_by
  all_goals first
    | exact Prod.Lex.left _ _ bound
    | exact Prod.Lex.left _ _ (Nat.lt_of_le_of_lt left.2 bound)
    | exact Prod.lex_def.2 ((Nat.lt_or_eq_of_le left.2).imp id fun same =>
        ⟨same, by simp [Phase.weight]⟩)

def skipValue (input : Bytes) : Except Fault (Rest input) := skipFrom .value [] input

end ProtoSchema.Json
