/-!
Decimal numerals: the digits of a natural number, and the numbers that a run of digits denotes.
A numeral written by `Numeral.digits` has no leading zero, and `Numeral.value` reads it back.
-/
namespace ProtoSchema.Numeral

def digitChar (digit : Nat) : Char := Char.ofNat (48 + digit)

def isDigit (c : Char) : Bool := '0' ≤ c && c ≤ '9'

def digitValue (c : Char) : Nat := c.toNat - 48

/-- The shortest numeral of a natural number, most significant digit first. -/
def digits (n : Nat) : List Char :=
  if n < 10 then [digitChar n] else digits (n / 10) ++ [digitChar (n % 10)]

def value (numeral : List Char) : Nat :=
  numeral.foldl (fun total c => 10 * total + digitValue c) 0

def length (n : Nat) : Nat :=
  if n < 10 then 1 else length (n / 10) + 1

def text (n : Nat) : String := String.ofList (digits n)

def integerText (n : Int) : String :=
  match n with
  | .ofNat n => text n
  | .negSucc n => "-" ++ text (n + 1)

/-- A non-empty run of digits and nothing else. -/
def ofDigits? (cs : List Char) : Option Nat :=
  if cs.isEmpty || !cs.all isDigit then none else some (value cs)

/-- A natural number, a plus sign in front allowed. -/
def natural? : List Char → Option Nat
  | '+' :: cs => ofDigits? cs
  | cs => ofDigits? cs

/-- An integer, either sign in front allowed. -/
def integer? : List Char → Option Int
  | '-' :: cs => (ofDigits? cs).map fun n => -(n : Int)
  | '+' :: cs => (ofDigits? cs).map fun n => (n : Int)
  | cs => (ofDigits? cs).map fun n => (n : Int)

end ProtoSchema.Numeral
