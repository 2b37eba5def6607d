/-!
# Digits

Numbers written with the digits of a base.  Beyond nine the digits are letters, of either case.
-/

namespace RigPack.Text

/-- The value of a digit in a base of up to sixteen. -/
def digit? (base : Nat) (c : Char) : Option Nat :=
  let n :=
    if '0' ≤ c ∧ c ≤ '9' then c.toNat - '0'.toNat
    else if 'a' ≤ c ∧ c ≤ 'f' then c.toNat - 'a'.toNat + 10
    else if 'A' ≤ c ∧ c ≤ 'F' then c.toNat - 'A'.toNat + 10
    else 16
  if n < base then some n else none

/-- The value of a decimal digit. -/
def digitValue (c : Char) : Nat :=
  c.toNat - '0'.toNat

/-- The number that digits spell. -/
def ofDigits (base : Nat) (digits : List Nat) : Nat :=
  digits.foldl (fun n d => base * n + d) 0

/-- The number that a text of one or more decimal digits spells. -/
def decimal? : List Char → Option Nat
  | [] => none
  | cs => (cs.mapM (digit? 10)).map (ofDigits 10)

/-- The number that a text of decimal digits spells, behind a sign if there is one. -/
def signedDecimal? : List Char → Option Int
  | '-' :: cs => (decimal? cs).map fun n => -(n : Int)
  | '+' :: cs => (decimal? cs).map Int.ofNat
  | cs => (decimal? cs).map Int.ofNat

example : decimal? ['0', '4', '2'] = some 42 ∧ decimal? ['1', 'f'] = none := by decide
example : signedDecimal? ['-', '7'] = some (-7) ∧ signedDecimal? ['+'] = none := by decide

end RigPack.Text
