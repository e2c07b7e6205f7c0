/-!
Binary floating-point numbers of 64 bits, as exact values.

The finite magnitudes are numbered in ascending order: `rank` 0 is zero, `rank` 1 the least positive
number, and so on. Every finite magnitude is a whole number of `Binary64.units` of size 2 ^ -1074,
so comparing and rounding is arithmetic on natural numbers.
-/
namespace ProtoSchema

/-- How many magnitudes share one binary exponent. -/
def Binary64.binadeSize : Nat := 1 <<< 52

/-- How many finite magnitudes there are. -/
def Binary64.rankCount : Nat := 2047 * Binary64.binadeSize

inductive Binary64 where
  | finite (negative : Bool) (rank : Fin Binary64.rankCount)
  | infinite (negative : Bool)
  | undefined
deriving DecidableEq

namespace Binary64

/-- The binary exponent of the last place of a magnitude, counted from 2 ^ -1074. -/
def scale (rank : Nat) : Nat := rank / binadeSize - 1

def significand (rank : Nat) : Nat := rank - scale rank * binadeSize

def unitsPerOne : Nat := 1 <<< 1074

/-- The magnitude of a rank as a multiple of 2 ^ -1074. -/
def units (rank : Nat) : Nat := significand rank <<< scale rank

/-- The rank whose magnitude is nearest to `numerator / denominator` units, a tie going to the even
significand. Carrying out of a significand moves to the next power of two by itself. -/
def nearestRank (numerator denominator : Nat) : Nat :=
  let scale := (numerator / denominator).log2 - 52
  let step := denominator <<< scale
  let below := numerator / step
  let excess := 2 * (numerator % step)
  let rounded := if excess < step ∨ (excess = step ∧ below % 2 = 0) then below else below + 1
  scale * binadeSize + rounded

def ofRank (negative : Bool) (rank : Nat) : Binary64 :=
  if h : rank < rankCount then .finite negative ⟨rank, h⟩ else .infinite negative

/-- The number nearest to `± numerator / denominator`. -/
def ofRatio (negative : Bool) (numerator denominator : Nat) : Binary64 :=
  ofRank negative (nearestRank (numerator * unitsPerOne) denominator)

def ofNat (n : Nat) : Binary64 := ofRatio false n 1

def ofInt (n : Int) : Binary64 := ofRatio (n < 0) n.natAbs 1

def zero : Binary64 := ofRank false 0

def negate : Binary64 → Binary64
  | .finite negative rank => .finite (!negative) rank
  | .infinite negative => .infinite (!negative)
  | .undefined => .undefined

def isFinite : Binary64 → Bool
  | .finite _ _ => true
  | _ => false

def toInt? : Binary64 → Option Int
  | .finite negative rank =>
    if units rank % unitsPerOne = 0 then
      let magnitude : Int := (units rank / unitsPerOne : Nat)
      some (if negative then -magnitude else magnitude)
    else none
  | _ => none

def bits : Binary64 → Nat
  | .finite negative rank => (if negative then 1 <<< 63 else 0) + rank
  | .infinite negative => (if negative then 1 <<< 63 else 0) + rankCount
  | .undefined => rankCount + binadeSize / 2

def productRank (left right : Nat) : Nat := nearestRank (units left * units right) unitsPerOne

def quotientRank (left right : Nat) : Nat := nearestRank (units left * unitsPerOne) (units right)

end Binary64

end ProtoSchema
