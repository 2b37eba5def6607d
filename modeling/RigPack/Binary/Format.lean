import RigPack.Binary.Power

/-!
# Binary floating point numbers

A number of a binary interchange format is its bit pattern: a sign, an exponent field and a
fraction.  `Number.view` reads the pattern as `significand · 2 ^ exponent`, and `Number.ofRatio`
goes the other way, to the number nearest to an exact quotient, where a tie goes to the even
significand.  All arithmetic is exact and on natural numbers.

## Strategy

Counted upwards from zero, the magnitudes of a format are the patterns of exponent field and
fraction themselves.  So rounding yields a pattern by one formula: the pattern of the unit it
rounded to, plus the rounded significand.  The formula also carries a significand that rounded up
to the next power of two into the exponent field, and past the last finite pattern lies infinity.
-/

namespace RigPack.Binary

/-- A binary interchange format, by the sizes of its two fields. -/
structure Format where
  fractionBits : Nat
  exponentBits : Nat

namespace Format

/-- The format of 32 bits. -/
def single : Format := ⟨23, 8⟩

/-- The format of 64 bits. -/
def double : Format := ⟨52, 11⟩

/-- The size of a pattern, with the sign. -/
def width (f : Format) : Nat :=
  1 + f.exponentBits + f.fractionBits

/-- The exponent of the unit in which the numbers next to zero count. -/
def leastExponent (f : Format) : Int :=
  2 - twoTo (f.exponentBits - 1) - f.fractionBits

/-- The pattern of positive infinity. -/
def infinity (f : Format) : Nat :=
  (twoTo f.exponentBits - 1) * twoTo f.fractionBits

end Format

/-- A number of the format `f`, by its bit pattern. -/
structure Number (f : Format) where
  bits : BitVec f.width
  deriving DecidableEq

/-- A number of 32 bits. -/
abbrev Single := Number .single

/-- A number of 64 bits. -/
abbrev Double := Number .double

/-- What a bit pattern stands for; the finite ones are `± significand · 2 ^ exponent`. -/
inductive View
  | finite (negative : Bool) (significand : Nat) (exponent : Int)
  | infinite (negative : Bool)
  | notANumber
  deriving DecidableEq

/-- A quotient rounded to the nearest natural number, a tie to the even one. -/
def roundQuotient (num den : Nat) : Nat :=
  let quotient := num / den
  let rest := 2 * (num % den)
  if rest < den then quotient
  else if den < rest then quotient + 1
  else quotient + quotient % 2

/-- The greatest `e` with `2 ^ e ≤ num / den`. -/
def floorLog2 (num den : Nat) : Int :=
  let guess : Int := (Nat.log2 num : Int) - Nat.log2 den
  if den * twoTo guess.toNat ≤ num * twoTo (-guess).toNat then guess else guess - 1

/-- The pattern, without sign, of the number of `f` nearest to `num / den`. -/
def Format.roundMagnitude (f : Format) (num den : Nat) : Nat :=
  if num = 0 then 0
  else
    let unit := max (floorLog2 num den - f.fractionBits) f.leastExponent
    let significand := roundQuotient (num * twoTo (-unit).toNat) (den * twoTo unit.toNat)
    min ((unit - f.leastExponent).toNat * twoTo f.fractionBits + significand) f.infinity

namespace Number

variable {f : Format}

/-- The sign bit. -/
def negative (x : Number f) : Bool :=
  decide (twoTo (f.width - 1) ≤ x.bits.toNat)

/-- The pattern without its sign. -/
def magnitude (x : Number f) : Nat :=
  x.bits.toNat % twoTo (f.width - 1)

/-- The number of a sign and a pattern without sign. -/
def ofMagnitude (negative : Bool) (magnitude : Nat) : Number f :=
  ⟨BitVec.ofNat f.width ((if negative then twoTo (f.width - 1) else 0) + magnitude)⟩

/-- What the number stands for. -/
def view (x : Number f) : View :=
  let field := x.magnitude / twoTo f.fractionBits
  let fraction := x.magnitude % twoTo f.fractionBits
  if field = twoTo f.exponentBits - 1 then
    if fraction = 0 then .infinite x.negative else .notANumber
  else if field = 0 then .finite x.negative fraction f.leastExponent
  else .finite x.negative (twoTo f.fractionBits + fraction) (f.leastExponent + field - 1)

/-- The number nearest to `± num / den`. -/
def ofRatio (negative : Bool) (num den : Nat) : Number f :=
  ofMagnitude negative (f.roundMagnitude num den)

/-- The number nearest to an integer. -/
def ofInt (n : Int) : Number f :=
  ofRatio (decide (n < 0)) n.natAbs 1

/--
The number nearest to `± digits · 10 ^ exponent`.  The exponent is compared with the reach of the
format first, so an absurd one costs no arithmetic.
-/
def ofDecimal (negative : Bool) (digits : Nat) (exponent : Int) : Number f :=
  let reach : Int := twoTo f.exponentBits
  let top := exponent + (Nat.log2 digits : Int)
  if digits = 0 ∨ top < -reach then ofMagnitude negative 0
  else if reach < exponent then ofMagnitude negative f.infinity
  else ofRatio negative (digits * tenTo exponent.toNat) (tenTo (-exponent).toNat)

/-- The number of another format nearest to `x`. -/
def convert (g : Format) (x : Number f) : Number g :=
  match x.view with
  | .finite negative significand exponent =>
    ofRatio negative (significand * twoTo exponent.toNat) (twoTo (-exponent).toNat)
  | .infinite negative => ofMagnitude negative g.infinity
  | .notANumber => ofMagnitude false (g.infinity + twoTo (g.fractionBits - 1))

/-- Whether the number is plus or minus zero. -/
def isZero (x : Number f) : Bool :=
  x.magnitude = 0

/-- Whether the number is neither infinite nor the mark of a failed computation. -/
def isFinite (x : Number f) : Bool :=
  match x.view with
  | .finite .. => true
  | _ => false

end Number

example : (Number.ofDecimal false 1 (-1) : Double).bits.toNat = 0x3FB999999999999A := by decide
example : (Number.ofInt 16777217 : Single) = Number.ofInt 16777216 := by decide
example : (Number.ofDecimal true 1 (-400) : Double).view = .finite true 0 (-1074) := by
  decide +kernel
example : (Number.ofDecimal false 34 37 : Single).view = .finite false 16763294 104 := by decide
example : (Number.ofDecimal false 35 37 : Single).view = .infinite false := by decide

end RigPack.Binary
