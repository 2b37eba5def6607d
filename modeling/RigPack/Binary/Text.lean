import RigPack.Binary.Shortest

/-!
# The text of a binary number

Two formats are written: the game reads 32 bit numbers that are spelled out in full, and JSON
texts hold 64 bit numbers with a point or an exponent.  Both use the shortest decimal; a `Style`
holds the decisions in which they differ.
-/

namespace RigPack.Binary

/-- The decisions of a number format, apart from the digits. -/
structure Style where
  /-- Where a number halfway between two shortest decimals goes. -/
  tie : Tie
  /-- Whether a number whose point stands behind that many digits is written without exponent. -/
  positional : Int → Bool
  /-- What follows a whole number. -/
  wholeMark : String

/-- Numbers in commands: no exponent ever, and no point behind whole numbers. -/
def Style.command : Style where
  tie := .up
  positional _ := true
  wholeMark := ""

/-- Numbers in JSON texts: an exponent from `10 ^ 16` on and below `10 ^ -5`, else a point. -/
def Style.json : Style where
  tie := .even
  positional point := -5 < point && point ≤ 16
  wholeMark := ".0"

/-- The digits of a decimal, as characters. -/
def Decimal.chars (d : Decimal) : List Char :=
  Nat.toDigits 10 d.digits

/-- The number of digits in front of the point; zero or less if the first is a decimal place. -/
def Decimal.point (d : Decimal) : Int :=
  d.chars.length + d.exponent

/-- A decimal without exponent. -/
def Decimal.positional (wholeMark : String) (d : Decimal) : List Char :=
  if 0 ≤ d.exponent then
    d.chars ++ List.replicate d.exponent.toNat '0' ++ wholeMark.toList
  else if 0 < d.point then
    d.chars.take d.point.toNat ++ '.' :: d.chars.drop d.point.toNat
  else
    '0' :: '.' :: List.replicate (-d.point).toNat '0' ++ d.chars

/-- A decimal with one digit in front of the point and a signed exponent. -/
def Decimal.scientific (d : Decimal) : List Char :=
  let power := d.point - 1
  let sign := if power < 0 then '-' else '+'
  let places := d.chars.drop 1
  d.chars.take 1 ++ (if places.isEmpty then [] else '.' :: places)
    ++ 'e' :: sign :: Nat.toDigits 10 power.natAbs

/-- A decimal in the given style. -/
def Decimal.text (style : Style) (d : Decimal) : List Char :=
  if style.positional d.point then d.positional style.wholeMark else d.scientific

/-- A number in the given style. -/
def Number.chars {f : Format} (style : Style) (x : Number f) : List Char :=
  match x.view with
  | .finite negative significand exponent =>
    let decimal :=
      if significand = 0 then ⟨0, 0⟩ else shortest f style.tie significand exponent
    (if negative then ['-'] else []) ++ decimal.text style
  | .infinite negative => (if negative then ['-'] else []) ++ ['i', 'n', 'f']
  | .notANumber => ['N', 'a', 'N']

/-- A number in the given style, as text. -/
def Number.text {f : Format} (style : Style) (x : Number f) : String :=
  String.ofList (x.chars style)

example : (Number.ofDecimal false 1 (-45) : Single).text .command
    = "0.000000000000000000000000000000000000000000001" := by decide +kernel
example : (Number.ofDecimal true 0 0 : Double).text .json = "-0.0" := by decide +kernel
example : (Number.ofDecimal false 12345678901234567 4 : Double).text .json
    = "1.2345678901234567e+20" := by decide +kernel
example : (Number.ofDecimal false 1 (-5) : Double).text .json = "0.00001" := by decide +kernel
example : (Number.ofDecimal false 1 (-6) : Double).text .json = "1e-6" := by decide +kernel
example : (Number.ofInt 1000 : Double).text .json = "1000.0" := by decide +kernel

end RigPack.Binary
