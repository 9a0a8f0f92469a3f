/-! The numbers of IEEE 754 binary64 without NaN: a sign, and the place of a size among all sizes.
-/
namespace RespStore

/-- How many numbers share an exponent and a sign. -/
def Binary64.binade : Nat := Nat.pow 2 52

structure Binary64 where
  negative : Bool
  /-- The exponent and fraction fields, read as one integer. -/
  magnitude : Nat
  magnitude_le : magnitude ≤ 2047 * Binary64.binade
  deriving DecidableEq, Repr

namespace Binary64

def infiniteMagnitude : Nat := 2047 * binade

/-- How many of the least positive number make up 1. -/
def unitsInOne : Nat := Nat.pow 2 1074

def signedZero (negative : Bool) : Binary64 := ⟨negative, 0, Nat.zero_le _⟩

def zero : Binary64 := signedZero false

def infinity (negative : Bool) : Binary64 := ⟨negative, infiniteMagnitude, Nat.le_refl _⟩

instance : Inhabited Binary64 := ⟨zero⟩

def ofMagnitude (negative : Bool) (magnitude : Nat) : Binary64 :=
  ⟨negative, min magnitude infiniteMagnitude, Nat.min_le_right _ _⟩

def isFinite (x : Binary64) : Bool := x.magnitude < infiniteMagnitude

/-- The place of a number in numeric order. Both zeros have the place 0. -/
def place (x : Binary64) : Int := if x.negative then -x.magnitude else x.magnitude

instance : LT Binary64 := ⟨fun x y => x.place < y.place⟩

instance : LE Binary64 := ⟨fun x y => x.place ≤ y.place⟩

instance (x y : Binary64) : Decidable (x < y) := inferInstanceAs (Decidable (x.place < y.place))

instance (x y : Binary64) : Decidable (x ≤ y) := inferInstanceAs (Decidable (x.place ≤ y.place))

/-- The place of a number in the order that tells all numbers apart: the negative zero comes right
before the positive one. -/
def totalPlace (x : Binary64) : Int := if x.negative then -(x.magnitude + 1) else x.magnitude

/-- Both zeros become the positive one. -/
def normalZero (x : Binary64) : Binary64 := if x.magnitude = 0 then zero else x

/-- The size of a finite number as a multiple of the least positive one, 2⁻¹⁰⁷⁴. -/
def unitsOfMagnitude (magnitude : Nat) : Nat :=
  if magnitude < binade then magnitude
  else (binade + magnitude % binade) * Nat.pow 2 (magnitude / binade - 1)

def units (x : Binary64) : Int :=
  if x.negative then -unitsOfMagnitude x.magnitude else unitsOfMagnitude x.magnitude

/-- The integer nearest to `num / den`, at a midpoint the even one. -/
def nearestEven (num den : Nat) : Nat :=
  let q := num / den
  let r := num % den
  if den < 2 * r ∨ (den = 2 * r ∧ q % 2 = 1) then q + 1 else q

/-- The magnitude nearest to `num / den` units. A significand that is rounded up to 2⁵³ carries
into the exponent field, as it has to. -/
def magnitudeOfUnits (num den : Nat) : Nat :=
  let k := (num / den).log2 - 52
  k * binade + nearestEven num (den * Nat.pow 2 k)

/-- The number nearest to `num / den`; sizes past the largest finite one are infinite. -/
def ofRatio (negative : Bool) (num den : Nat) : Binary64 :=
  ofMagnitude negative (magnitudeOfUnits (num * unitsInOne) den)

def ofInt (n : Int) : Binary64 := ofRatio (n < 0) n.natAbs 1

/-- The sum of two finite numbers, if it is finite too. An exact zero is negative only if both
numbers are. -/
def addFinite? (x y : Binary64) : Option Binary64 :=
  if x.isFinite && y.isFinite then
    let sum := x.units + y.units
    let rounded :=
      if sum = 0 then signedZero (x.negative && y.negative)
      else ofMagnitude (sum < 0) (magnitudeOfUnits sum.natAbs 1)
    if rounded.isFinite then some rounded else none
  else none

/-- A non-negative number in nanoseconds when it counts seconds, to the nearest, at a midpoint the
even one. -/
def toNanoseconds (x : Binary64) : Nat :=
  nearestEven (unitsOfMagnitude x.magnitude * 1000000000) unitsInOne

end Binary64
end RespStore
