import RigPack.Json.Grammar
import RigPack.Text.Digits

/-!
# Reading JSON texts

`Draft.read` reads a text into a draft.  Each reader takes the characters that are left and gives
what it read with the characters behind it, or without any if the text broke off.

## Strategy

The readers of values, items and members call each other on ever shorter texts.  They count down a
number of steps that the length of the text bounds, so that they are total by their form; `read`
starts them with enough steps.
-/

namespace RigPack.Json

/-- The characters that may stand between the parts of a JSON text. -/
def isSpace (c : Char) : Bool :=
  c = ' ' || c = '\n' || c = '\t' || c = '\r'

/-- The text behind the blanks at its front. -/
def skipSpace (cs : List Char) : List Char :=
  cs.dropWhile isSpace

/-- The number `n` with further digits as far as 64 bits hold it, and the digits left over. -/
def extendDigits (n : Nat) : List Char → Nat × List Char
  | [] => (n, [])
  | c :: cs =>
    if UInt64.size ≤ 10 * n + Text.digitValue c then (n, c :: cs)
    else extendDigits (10 * n + Text.digitValue c) cs

namespace Draft

/-! ## Strings -/

/-- The four hexadecimal digits of an escape; a text with less than four bytes is cut short. -/
def readUnit (cs : List Char) : Except Fault (Nat × List Char) :=
  if (String.ofList (cs.take 4)).utf8ByteSize < 4 then .error .cutShort
  else
    match (cs.take 4).mapM (Text.digit? 16) with
    | some digits =>
      if digits.length = 4 then .ok (Text.ofDigits 16 digits, cs.drop 4) else .error .malformed
    | none => .error .malformed

/-- What an escape stands for. -/
inductive Escape
  | char (c : Char) (rest : List Char)
  | halfPair (rest : List Char)
  | fault (fault : Fault)

/-- An escape by number, with the second half of a surrogate pair. -/
def readNumberedEscape (cs : List Char) : Escape :=
  match readUnit cs with
  | .error fault => .fault fault
  | .ok (unit, rest) =>
    if 0xDC00 ≤ unit ∧ unit ≤ 0xDFFF then .halfPair rest
    else if 0xD800 ≤ unit ∧ unit ≤ 0xDBFF then
      match rest with
      | [] => .fault .cutShort
      | ['\\'] => .fault .cutShort
      | '\\' :: 'u' :: rest' =>
        match readUnit rest' with
        | .error fault => .fault fault
        | .ok (low, rest'') =>
          if 0xDC00 ≤ low ∧ low ≤ 0xDFFF then
            .char (Char.ofNat (0x10000 + (unit - 0xD800) * 0x400 + (low - 0xDC00))) rest''
          else .halfPair rest
      | _ => .halfPair rest
    else .char (Char.ofNat unit) rest

/-- An escape, behind its backslash. -/
def readEscape : List Char → Escape
  | [] => .fault .cutShort
  | 'u' :: rest => readNumberedEscape rest
  | '"' :: rest => .char '"' rest
  | '\\' :: rest => .char '\\' rest
  | '/' :: rest => .char '/' rest
  | 'b' :: rest => .char '\x08' rest
  | 'f' :: rest => .char '\x0c' rest
  | 'n' :: rest => .char '\n' rest
  | 'r' :: rest => .char '\r' rest
  | 't' :: rest => .char '\t' rest
  | _ :: _ => .fault .malformed

/--
A string behind its opening quote, in at most `steps` characters and escapes.  `read` holds the
characters read so far, the last one first.
-/
def readTextFrom (steps : Nat) (read : List Char) (halfPair : Bool) (cs : List Char) :
    Text × Option (List Char) :=
  match steps, cs with
  | 0, _ => (.unfinished .cutShort halfPair, none)
  | _, [] => (.unfinished .cutShort halfPair, none)
  | _, '"' :: rest =>
    (if halfPair then .halfPair else .whole (String.ofList read.reverse), some rest)
  | steps + 1, '\\' :: rest =>
    match readEscape rest with
    | .char c rest => readTextFrom steps (c :: read) halfPair rest
    | .halfPair rest => readTextFrom steps read true rest
    | .fault fault => (.unfinished fault halfPair, none)
  | steps + 1, c :: rest =>
    if c.toNat < 0x20 then (.unfinished .malformed halfPair, none)
    else readTextFrom steps (c :: read) halfPair rest

/-- A string behind its opening quote. -/
def readText (cs : List Char) : Text × Option (List Char) :=
  readTextFrom (cs.length + 1) [] false cs

/-! ## Numbers and words -/

/-- One digit or more at the front of a text. -/
def readDigits (cs : List Char) : Except Fault (List Char × List Char) :=
  match cs.span Char.isDigit with
  | ([], []) => .error .cutShort
  | ([], _) => .error .malformed
  | (digits, rest) => .ok (digits, rest)

/-- The whole part of a number: a lone zero, or digits that start with another one. -/
def readWholePart (cs : List Char) : Except Fault (List Char × List Char) :=
  match cs with
  | '0' :: rest => if (rest.head?.map Char.isDigit).getD false then .error .malformed
    else .ok (['0'], rest)
  | _ => readDigits cs

/-- The decimal places of a number, if a point follows. -/
def readPlaces (cs : List Char) : Except Fault (List Char × List Char) :=
  match cs with
  | '.' :: rest => readDigits rest
  | _ => .ok ([], cs)

/-- The exponent of a number, if one follows. -/
def readExponent (cs : List Char) : Except Fault (Option Int × List Char) :=
  let signed (negative : Bool) (cs : List Char) : Except Fault (Option Int × List Char) := do
    let (digits, rest) ← readDigits cs
    let power : Int := Text.ofDigits 10 (digits.map Text.digitValue)
    return (some (if negative then -power else power), rest)
  match cs with
  | e :: rest =>
    if e = 'e' ∨ e = 'E' then
      match rest with
      | '-' :: rest => signed true rest
      | '+' :: rest => signed false rest
      | _ => signed false rest
    else .ok (none, cs)
  | [] => .ok (none, cs)

/-- The literal with the given parts.  A digit that is not held counts only in the whole part. -/
def literalOf (negative : Bool) (whole places : List Char) (power : Option Int) : Literal :=
  let (digits, lost) := extendDigits 0 whole
  let (digits, lostPlaces) := extendDigits digits places
  { negative
    digits
    exponent := power.getD 0 + lost.length - (places.length - lostPlaces.length : Nat)
    plain := lost.isEmpty && places.isEmpty && power.isNone }

/-- A number. -/
def readLiteral (cs : List Char) : Except Fault (Literal × List Char) := do
  let (negative, cs) :=
    match cs with
    | '-' :: rest => (true, rest)
    | _ => (false, cs)
  let (whole, rest) ← readWholePart cs
  let (places, rest) ← readPlaces rest
  let (power, rest) ← readExponent rest
  return (literalOf negative whole places power, rest)

/-- The rest of a word that has to follow its first character. -/
def readWord (value : Draft) : List Char → List Char → Draft × Option (List Char)
  | [], cs => (value, some cs)
  | _ :: _, [] => (.broken .cutShort true, none)
  | expected :: word, c :: cs =>
    if c = expected then readWord value word cs else (.broken .malformed true, none)

/-! ## Values -/

mutual

/-- A value, in at most `steps` calls. -/
def readValue (steps : Nat) (cs : List Char) : Draft × Option (List Char) :=
  match steps, skipSpace cs with
  | 0, _ => (.broken .cutShort false, none)
  | _, [] => (.broken .cutShort false, none)
  | _, 'n' :: rest => readWord .null "ull".toList rest
  | _, 't' :: rest => readWord (.bool true) "rue".toList rest
  | _, 'f' :: rest => readWord (.bool false) "alse".toList rest
  | _, '"' :: rest =>
    let (t, rest?) := readText rest
    (.text t, rest?)
  | steps + 1, '[' :: rest =>
    let (items, ending, rest?) := readItems steps true rest
    (.array items ending, rest?)
  | steps + 1, '\x7b' :: rest =>
    let (members, ending, rest?) := readMembers steps true rest
    (.object members ending, rest?)
  | _, c :: rest =>
    if c = '-' ∨ c.isDigit then
      match readLiteral (c :: rest) with
      | .ok (literal, rest) => (.number literal, some rest)
      | .error fault => (.broken fault true, none)
    else (.broken .malformed true, none)

/-- The items of an array up to its closing bracket; `first` says that none stands in front. -/
def readItems (steps : Nat) (first : Bool) (cs : List Char) :
    List Draft × Ending × Option (List Char) :=
  match steps with
  | 0 => ([], .lacking .cutShort, none)
  | steps + 1 =>
    match skipSpace cs with
    | [] => ([], .lacking .cutShort, none)
    | c :: rest =>
      if c = ']' then ([], .closed, some rest)
      else if first then readItem steps (c :: rest)
      else if c = ',' then
        match skipSpace rest with
        | ']' :: _ => ([.broken .malformed false], .inside, none)
        | rest => readItem steps rest
      else ([], .lacking .malformed, none)

/-- An item of an array, and the items behind it. -/
def readItem (steps : Nat) (cs : List Char) : List Draft × Ending × Option (List Char) :=
  match steps with
  | 0 => ([], .lacking .cutShort, none)
  | steps + 1 =>
    match readValue steps cs with
    | (item, none) => ([item], .inside, none)
    | (item, some rest) =>
      let (items, ending, rest?) := readItems steps false rest
      (item :: items, ending, rest?)

/-- The members of an object up to its closing brace; `first` says that none stands in front. -/
def readMembers (steps : Nat) (first : Bool) (cs : List Char) :
    List (Draft × Draft) × Ending × Option (List Char) :=
  match steps with
  | 0 => ([], .lacking .cutShort, none)
  | steps + 1 =>
    match skipSpace cs with
    | [] => ([], .lacking .cutShort, none)
    | c :: rest =>
      if c = '\x7d' then ([], .closed, some rest)
      else if first then readMember steps (c :: rest)
      else if c = ',' then readMember steps rest
      else ([], .lacking .malformed, none)

/-- A member of an object, and the members behind it. -/
def readMember (steps : Nat) (cs : List Char) :
    List (Draft × Draft) × Ending × Option (List Char) :=
  match steps with
  | 0 => ([], .lacking .cutShort, none)
  | steps + 1 =>
    match readValue steps cs with
    | (name, none) => ([(name, .broken .cutShort false)], .inside, none)
    | (name, some rest) =>
      match skipSpace rest with
      | [] => ([(name, .broken .cutShort false)], .inside, none)
      | c :: rest =>
        if c = ':' then
          match readValue steps rest with
          | (value, none) => ([(name, value)], .inside, none)
          | (value, some rest) =>
            let (members, ending, rest?) := readMembers steps false rest
            ((name, value) :: members, ending, rest?)
        else ([(name, .broken .malformed false)], .inside, none)

end

/-- The draft of a text, and whether nothing but blanks follows its value. -/
def read (s : String) : Draft × Bool :=
  let cs := s.toList
  match readValue (4 * cs.length + 4) cs with
  | (draft, none) => (draft, false)
  | (draft, some rest) => (draft, (skipSpace rest).isEmpty)

end Draft

instance : Grammar where
  read := Draft.read
  number? := Literal.number?
  single := Number.single

end RigPack.Json
