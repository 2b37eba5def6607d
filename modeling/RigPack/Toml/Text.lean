import RigPack.Text.Digits

/-!
# Strings and keys in TOML

A TOML string stands between double quotes, with escapes, or between single quotes, without.  Three
quotes of a kind open a string of several lines.  `Quote.read` reads all four forms.
-/

namespace RigPack.Toml

/-- The line break at the front of a text, as the number of its characters; zero if none. -/
def lineBreak : List Char → Nat
  | '\n' :: _ => 1
  | '\r' :: '\n' :: _ => 2
  | _ => 0

/-- Whether a character stands for a blank within a line. -/
def isGap (c : Char) : Bool :=
  c = ' ' || c = '\t'

/-- The text behind the blanks at its front. -/
def skipGap (cs : List Char) : List Char :=
  cs.dropWhile isGap

/-- Whether a character may stand in a comment or, unless it has a meaning there, in a string. -/
def isPlain (c : Char) : Bool :=
  c = '\t' || (0x20 ≤ c.toNat && c ≠ '\x7f')

/-- The character of a number, if there is one. -/
def charOf? (n : Nat) : Option Char :=
  if n < 0xD800 ∨ (0xDFFF < n ∧ n < 0x110000) then some (Char.ofNat n) else none

/-- What an escape stands for, behind its backslash, and the number of characters it takes. -/
def escape? : List Char → Option (Char × Nat)
  | [] => none
  | c :: rest =>
    let numbered (length : Nat) : Option (Char × Nat) := do
      let digits ← (rest.take length).mapM (Text.digit? 16)
      if digits.length = length then
        let char ← charOf? (Text.ofDigits 16 digits)
        return (char, length + 1)
      else none
    if c = 'u' then numbered 4
    else if c = 'U' then numbered 8
    else if c = 'b' then some ('\x08', 1)
    else if c = 't' then some ('\t', 1)
    else if c = 'n' then some ('\n', 1)
    else if c = 'f' then some ('\x0c', 1)
    else if c = 'r' then some ('\r', 1)
    else if c = '"' then some ('"', 1)
    else if c = '\\' then some ('\\', 1)
    else none

/-- The number of blanks and line breaks at the front of a text. -/
def blankLength : List Char → Nat
  | [] => 0
  | c :: rest =>
    if isGap c ∨ c = '\n' then 1 + blankLength rest
    else
      match c, rest with
      | '\r', '\n' :: rest => 2 + blankLength rest
      | _, _ => 0

/-- The blanks that a backslash at the end of a line hides; zero if it stands elsewhere. -/
def hiddenLength (cs : List Char) : Nat :=
  if lineBreak (skipGap cs) = 0 then 0 else blankLength cs

/-- How a string is written. -/
structure Quote where
  /-- The quote around the string; double quotes allow escapes. -/
  mark : Char
  /-- Whether three quotes stand on each side. -/
  tripled : Bool
  deriving DecidableEq

namespace Quote

/-- What a string starts with, and the number of characters read of it. -/
abbrev Step := List Char × Nat

/--
The characters that the front of a string stands for, with the length of their spelling.  Nothing
is given for a front that no string has.
-/
def step? (quote : Quote) : List Char → Option Step
  | [] => none
  | c :: rest =>
    if c = '\\' ∧ quote.mark = '"' then
      if quote.tripled ∧ 0 < hiddenLength rest then some ([], hiddenLength rest)
      else (escape? rest).map fun (char, length) => ([char], length)
    else if isPlain c then some ([c], 0)
    else if quote.tripled ∧ 0 < lineBreak (c :: rest) then
      some (['\n'], lineBreak (c :: rest) - 1)
    else none

/-- How many quotes in a row stand at the front of a text. -/
def runLength (quote : Quote) (cs : List Char) : Nat :=
  (cs.takeWhile (· = quote.mark)).length

/--
The string up to its end, and the text behind.  Of up to five quotes that end a string of several
lines, the last three are its end.
-/
def readBody (quote : Quote) : List Char → Option (List Char × List Char)
  | [] => none
  | c :: rest =>
    if c = quote.mark then
      if !quote.tripled then some ([], rest)
      else
        let run := 1 + quote.runLength rest
        if run < 3 then do
          let (s, behind) ← readBody quote (rest.drop (run - 1))
          return (List.replicate run quote.mark ++ s, behind)
        else
          let kept := min (run - 3) 2
          some (List.replicate kept quote.mark, rest.drop (kept + 2))
    else do
      let (s, length) ← quote.step? (c :: rest)
      let (s', behind) ← readBody quote (rest.drop length)
      return (s ++ s', behind)
termination_by cs => cs.length
decreasing_by all_goals simp only [List.length_drop, List.length_cons]; omega

end Quote

/-- A string on one line, behind its first quote. -/
def readLineString (mark : Char) (cs : List Char) : Option (String × List Char) :=
  (Quote.readBody ⟨mark, false⟩ cs).map fun (s, rest) => (String.ofList s, rest)

/-- A string in any form; a line break behind three quotes is no part of it. -/
def readString (mark : Char) (cs : List Char) : Option (String × List Char) :=
  match cs with
  | a :: b :: c :: rest =>
    if a = mark ∧ b = mark ∧ c = mark then
      (Quote.readBody ⟨mark, true⟩ (rest.drop (lineBreak rest))).map
        fun (s, rest) => (String.ofList s, rest)
    else if a = mark then readLineString mark (b :: c :: rest)
    else none
  | a :: rest => if a = mark then readLineString mark rest else none
  | [] => none

/-! ## Keys -/

/-- The characters of a key without quotes. -/
def isKeyChar (c : Char) : Bool :=
  c.isAlphanum || c = '_' || c = '-'

/-- One part of a key. -/
def readKeyPart (cs : List Char) : Option (String × List Char) :=
  match cs with
  | '"' :: rest => readLineString '"' rest
  | '\'' :: rest => readLineString '\'' rest
  | _ =>
    let name := cs.takeWhile isKeyChar
    if name.isEmpty then none else some (String.ofList name, cs.drop name.length)

/-- The parts of a key, divided by dots, in at most `steps` parts. -/
def readKeyParts (steps : Nat) (cs : List Char) : Option (List String × List Char) :=
  match steps with
  | 0 => none
  | steps + 1 => do
    let (part, rest) ← readKeyPart (skipGap cs)
    match skipGap rest with
    | '.' :: rest => do
      let (parts, rest) ← readKeyParts steps rest
      return (part :: parts, rest)
    | rest => return ([part], rest)

/-- The most parts that a key may have. -/
def maxKeyParts : Nat := 79

/-- A key. -/
def readKey (cs : List Char) : Option (List String × List Char) :=
  readKeyParts maxKeyParts cs

end RigPack.Toml
