import RigPack.Toml.Basic
import RigPack.Toml.Text
import RigPack.Binary.Format

/-!
# Numbers, dates and words in TOML

The values that no brackets and no quotes delimit.  Underscores may stand between two digits of a
number.
-/

namespace RigPack.Toml

/-! ## Digits -/

/-- Digits of a base with single underscores between them, as their values. -/
def readDigits (base : Nat) : List Char → Option (List Nat × List Char)
  | [] => none
  | c :: rest =>
    match Text.digit? base c, rest with
    | none, _ => none
    | some d, '_' :: rest => (readDigits base rest).map fun (digits, rest) => (d :: digits, rest)
    | some d, rest =>
      if rest.head?.any fun next => (Text.digit? base next).isSome then
        (readDigits base rest).map fun (digits, rest) => (d :: digits, rest)
      else some ([d], rest)

/-- A sign in front of a number, and whether it is a minus. -/
def readSign : List Char → Bool × List Char
  | '-' :: rest => (true, rest)
  | '+' :: rest => (false, rest)
  | cs => (false, cs)

/-- Decimal digits of a whole number, of which a leading zero is the only one. -/
def readWhole (cs : List Char) : Option (List Nat × List Char) :=
  match cs with
  | '0' :: rest => some ([0], rest)
  | _ => readDigits 10 cs

/-- A number within 64 bits as an integer value. -/
def integer? (n : Int) : Option Toml :=
  if Int64.minValue.toInt ≤ n ∧ n ≤ Int64.maxValue.toInt then some (.integer n) else none

/-- A natural number behind its mark of a base, as an integer value. -/
def readInBase (base : Nat) (cs : List Char) : Option (Toml × List Char) := do
  let (digits, rest) ← readDigits base cs
  let value ← integer? (Text.ofDigits base digits)
  return (value, rest)

/-- An integer. -/
def readInteger (cs : List Char) : Option (Toml × List Char) :=
  match cs with
  | '0' :: 'x' :: rest => readInBase 16 rest
  | '0' :: 'o' :: rest => readInBase 8 rest
  | '0' :: 'b' :: rest => readInBase 2 rest
  | _ => do
    let (negative, rest) := readSign cs
    let (digits, rest) ← readWhole rest
    let n : Int := Text.ofDigits 10 digits
    let value ← integer? (if negative then -n else n)
    return (value, rest)

/-! ## Floating point numbers -/

/-- The exponent of a number, if there is one. -/
def readPower (cs : List Char) : Option (Option Int × List Char) :=
  match cs with
  | c :: rest =>
    if c = 'e' ∨ c = 'E' then do
      let (negative, rest) := readSign rest
      let (digits, rest) ← readDigits 10 rest
      let n : Int := Text.ofDigits 10 digits
      return (some (if negative then -n else n), rest)
    else some (none, cs)
  | [] => some (none, cs)

/-- A number with decimal places or an exponent; one that rounds to infinity is refused. -/
def readReal (cs : List Char) : Option (Toml × List Char) := do
  let (negative, rest) := readSign cs
  let (whole, rest) ← readWhole rest
  let (places, rest) ←
    match rest with
    | '.' :: rest => readDigits 10 rest
    | _ => some ([], rest)
  let (power, rest) ← readPower rest
  if places.isEmpty ∧ power.isNone then none
  else
    let x : Binary.Double :=
      .ofDecimal negative (Text.ofDigits 10 (whole ++ places)) (power.getD 0 - places.length)
    if !negative ∧ !x.isFinite then none else some (.real, rest)

/-- A word at the front of a text. -/
def readWord (word : String) (value : Toml) (cs : List Char) : Option (Toml × List Char) :=
  if word.toList.isPrefixOf cs then some (value, cs.drop word.length) else none

/-- Infinity, or what is no number. -/
def readSpecial (cs : List Char) : Option (Toml × List Char) :=
  let (_, rest) := readSign cs
  (readWord "inf" .real rest).or (readWord "nan" .real rest)

/-! ## Dates and times -/

/-- A number of exactly that many decimal digits, in a range. -/
def readField (length low high : Nat) (cs : List Char) : Option (Nat × List Char) := do
  let digits ← (cs.take length).mapM (Text.digit? 10)
  let n := Text.ofDigits 10 digits
  if digits.length = length ∧ low ≤ n ∧ n ≤ high then return (n, cs.drop length) else none

/-- The text behind a character that has to be there. -/
def behind (c : Char) (cs : List Char) : Option (List Char) :=
  if cs.head? = some c then some cs.tail else none

/-- The number of days of a month. -/
def daysOf (year month : Nat) : Nat :=
  if month = 2 then
    if year % 4 = 0 ∧ (year % 100 ≠ 0 ∨ year % 400 = 0) then 29 else 28
  else if month ∈ [4, 6, 9, 11] then 30
  else 31

/-- A day of the calendar. -/
def readDay (cs : List Char) : Option (List Char) := do
  let (year, rest) ← readField 4 0 9999 cs
  let rest ← behind '-' rest
  let (month, rest) ← readField 2 1 12 rest
  let rest ← behind '-' rest
  let (_, rest) ← readField 2 1 (daysOf year month) rest
  return rest

/-- A time of day. -/
def readClock (cs : List Char) : Option (List Char) := do
  let (_, rest) ← readField 2 0 23 cs
  let rest ← behind ':' rest
  let (_, rest) ← readField 2 0 59 rest
  let rest ← behind ':' rest
  let (_, rest) ← readField 2 0 60 rest
  match rest with
  | '.' :: places =>
    let length := (places.takeWhile Char.isDigit).length
    if length = 0 then none else some (places.drop length)
  | _ => return rest

/-- How far a time is from that of the zero meridian, if the text goes on with it. -/
def readOffset (cs : List Char) : Option (List Char) :=
  match cs with
  | [] => some cs
  | c :: rest =>
    if c = 'Z' ∨ c = 'z' then some rest
    else if c = '+' ∨ c = '-' then do
      let (_, rest) ← readField 2 0 23 rest
      let rest ← behind ':' rest
      let (_, rest) ← readField 2 0 59 rest
      return rest
    else some cs

/-- A date, a time or both. -/
def readDate (cs : List Char) : Option (Toml × List Char) :=
  match readDay cs with
  | none => (readClock cs).map fun rest => (.date, rest)
  | some rest =>
    match rest with
    | c :: time =>
      if c = 'T' ∨ c = 't' ∨ c = ' ' then
        match readClock time with
        | some rest => (readOffset rest).map fun rest => (.date, rest)
        | none => some (.date, c :: time)
      else some (.date, rest)
    | [] => some (.date, [])

/-! ## All of them -/

/-- A value without brackets. -/
def readScalar (cs : List Char) : Option (Toml × List Char) :=
  match cs with
  | [] => none
  | c :: _ =>
    if c = '"' ∨ c = '\'' then (readString c cs).map fun (s, rest) => (.string s, rest)
    else if c = 't' then readWord "true" (.bool true) cs
    else if c = 'f' then readWord "false" (.bool false) cs
    else (((readDate cs).or (readReal cs)).or (readSpecial cs)).or (readInteger cs)

example : (readScalar "1_000 #".toList).map (·.2) = some " #".toList := by decide +kernel
example : (readScalar "1979-02-29".toList).map (·.2) = some "-02-29".toList := by decide +kernel
example : (readScalar "1.e3".toList).map (·.2) = some ".e3".toList := by decide +kernel

end RigPack.Toml
