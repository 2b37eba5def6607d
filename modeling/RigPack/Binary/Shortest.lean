import RigPack.Binary.Format

/-!
# The shortest decimal of a binary number

Among the decimals that round to a given number, `shortest` picks one of fewest digits, and of
those the nearest.

## Strategy

The reals that round to `m · 2 ^ q` form an interval around it: half a unit to each side, or a
quarter below where the numbers get twice as dense, with its ends if `m` is even.  A decimal of the
grid `10 ^ k` lies in the interval only if one of the number's two neighbours on that grid does.
So the search goes from coarse grids to fine ones and stops at the first grid with a hit.  Counted
in quarter units, all comparisons are between natural numbers.
-/

namespace RigPack.Binary

/-- The decimal `digits · 10 ^ exponent`. -/
structure Decimal where
  digits : Nat
  exponent : Int
  deriving DecidableEq

/-- Where a number goes that lies halfway between two decimals of the coarsest grid. -/
inductive Tie
  | up
  | even

/-- Which of the neighbours `d` and `d + 1` is taken, given the distances to both. -/
def Tie.pick (tie : Tie) (d toLower toUpper : Nat) : Nat :=
  if toLower < toUpper then d
  else if toUpper < toLower then d + 1
  else
    match tie with
    | .up => d + 1
    | .even => d + d % 2

/-- The interval of the reals that round to `significand · 2 ^ exponent`, in quarter units. -/
structure Basin where
  low : Nat
  middle : Nat
  high : Nat
  closed : Bool

/-- The interval of `significand · 2 ^ exponent` in the format `f`. -/
def Basin.of (f : Format) (significand : Nat) (exponent : Int) : Basin where
  low :=
    if significand = twoTo f.fractionBits ∧ f.leastExponent < exponent then 4 * significand - 1
    else 4 * significand - 2
  middle := 4 * significand
  high := 4 * significand + 2
  closed := significand % 2 = 0

/-- The interval with every bound times `factor`. -/
def Basin.times (basin : Basin) (factor : Nat) : Basin where
  low := basin.low * factor
  middle := basin.middle * factor
  high := basin.high * factor
  closed := basin.closed

/-- Whether `x` lies in the interval. -/
def Basin.has (basin : Basin) (x : Nat) : Bool :=
  if basin.closed then basin.low ≤ x && x ≤ basin.high else basin.low < x && x < basin.high

/-- The multiple of `step` in the interval that is nearest to its middle, if it holds any. -/
def Basin.nearest? (basin : Basin) (tie : Tie) (step : Nat) : Option Nat :=
  let d := basin.middle / step
  let lower := d * step
  let upper := (d + 1) * step
  match basin.has lower, basin.has upper with
  | true, true => some (tie.pick d (basin.middle - lower) (upper - basin.middle))
  | true, false => some d
  | false, true => some (d + 1)
  | false, false => none

/-- The decimal of the grid `10 ^ k` that rounds to `significand · 2 ^ exponent`, if any. -/
def onGrid? (f : Format) (tie : Tie) (significand : Nat) (exponent k : Int) : Option Nat :=
  let basin := Basin.of f significand exponent
  let unit := exponent - 2
  (basin.times (twoTo unit.toNat * tenTo (-k).toNat)).nearest? tie
    (twoTo (-unit).toNat * tenTo k.toNat)

/-- The first hit on the grids `10 ^ k`, `10 ^ (k - 1)`, … -/
def firstHit (f : Format) (tie : Tie) (significand : Nat) (exponent : Int) : Nat → Int → Decimal
  | 0, k => ⟨0, k⟩
  | grids + 1, k =>
    match onGrid? f tie significand exponent k with
    | some digits => ⟨digits, k⟩
    | none => firstHit f tie significand exponent grids (k - 1)

/--
The shortest decimal that rounds to `significand · 2 ^ exponent`.  The search starts at a grid
coarser than the number, by an estimate of its logarithm, and no format with up to 64 bits needs
more than 20 grids from there.
-/
def shortest (f : Format) (tie : Tie) (significand : Nat) (exponent : Int) : Decimal :=
  let binary := (Nat.log2 significand : Int) + exponent + 1
  firstHit f tie significand exponent 20 (binary * 30103 / 100000 + 1)

example : shortest .double .even 5404319552844595 (-54) = ⟨3, -1⟩ := by decide +kernel
example : shortest .double .even 1 (-1074) = ⟨5, -324⟩ := by decide +kernel
example : shortest .single .up 16777215 104 = ⟨34028235, 31⟩ := by decide +kernel
example : shortest .single .up 8388609 (-2) = ⟨20971523, -1⟩ := by decide +kernel

end RigPack.Binary
