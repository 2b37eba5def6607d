import RigPack.Toml.Basic
import RigPack.Toml.Text

/-!
# Writing TOML documents

A string is written in the plainest form that fits: between double quotes if nothing in it needs an
escape, else between single quotes, else between three quotes of a kind, and only if none of these
can hold it with escapes.  Documents are written of what settings are made of: tables of strings and
natural numbers, each under a header of its own.
-/

namespace RigPack.Toml

/-- Whether a character can only be written by an escape: a control other than tab and line feed. -/
def isControl (c : Char) : Bool :=
  !isPlain c && c ≠ '\n'

/-- The length of the longest run of a character. -/
def longestRun (mark : Char) : (run longest : Nat) → List Char → Nat
  | _, longest, [] => longest
  | run, longest, c :: cs =>
    if c = mark then longestRun mark (run + 1) (max longest (run + 1)) cs
    else longestRun mark 0 longest cs

/-- The form of a string. -/
def formOf (cs : List Char) : Quote :=
  let hasControl := cs.any isControl
  let hasBreak := cs.contains '\n'
  let hasBackslash := cs.contains '\\'
  let doubles := longestRun '"' 0 0 cs
  let singles := longestRun '\'' 0 0 cs
  if !hasControl && !hasBackslash && doubles = 0 && !hasBreak then ⟨'"', false⟩
  else if !hasControl && singles = 0 && !hasBreak then ⟨'\'', false⟩
  else if !hasControl && !hasBackslash && doubles ≤ 2 then ⟨'"', true⟩
  else if !hasControl && singles ≤ 2 then ⟨'\'', true⟩
  else ⟨'"', hasBreak⟩

/-- A hexadecimal digit. -/
def hexDigit (n : Nat) : Char :=
  if n < 10 then Char.ofNat ('0'.toNat + n) else Char.ofNat ('A'.toNat + (n - 10))

/-- The escape of a character by its number. -/
def numberedEscape (n : Nat) : List Char :=
  ['\\', 'u', hexDigit (n / 4096 % 16), hexDigit (n / 256 % 16), hexDigit (n / 16 % 16),
    hexDigit (n % 16)]

/-- The spelling of a character other than a quote where escapes are allowed. -/
def escaped (tripled : Bool) (c : Char) : List Char :=
  if c = '\x08' then ['\\', 'b']
  else if c = '\t' then ['\\', 't']
  else if c = '\n' then if tripled then ['\n'] else ['\\', 'n']
  else if c = '\x0c' then ['\\', 'f']
  else if c = '\r' then ['\\', 'r']
  else if c = '\\' then ['\\', '\\']
  else if isControl c then numberedEscape c.toNat
  else [c]

/--
A string between double quotes.  `run` counts the quotes in front that were written as they are; no
more than `most` of them may follow each other.
-/
def escapedChars (tripled : Bool) (most run : Nat) : List Char → List Char
  | [] => []
  | c :: cs =>
    if c = '"' then
      if run < most then '"' :: escapedChars tripled most (run + 1) cs
      else '\\' :: '"' :: escapedChars tripled most 0 cs
    else escaped tripled c ++ escapedChars tripled most 0 cs

/-- A string in its quotes. -/
def quotedChars (cs : List Char) : List Char :=
  let quote := formOf cs
  let marks := List.replicate (if quote.tripled then 3 else 1) quote.mark
  let opening := if quote.tripled && cs.contains '\n' then ['\n'] else []
  let body :=
    if quote.mark = '"' then escapedChars quote.tripled (if quote.tripled then 2 else 0) 0 cs
    else cs
  marks ++ opening ++ body ++ marks

/-- A string as a TOML value. -/
def quoted (s : String) : String :=
  String.ofList (quotedChars s.toList)

example : quoted "it's \"both\"" = "\"\"\"it's \"both\"\"\"\"" := by decide +kernel
example : quoted "a\\b" = "'a\\b'" ∧ quoted "\x07" = "\"\\u0007\"" := by decide +kernel
example : quoted "a\nb" = "\"\"\"\na\nb\"\"\"" := by decide +kernel

/-! ## Tables -/

/-- A key that needs no quotes. -/
def bareKey? (key : String) : Option String :=
  if key.toList ≠ [] ∧ key.toList.all isKeyChar then some key else none

/-- The line of an entry. -/
def writePair? (entry : String × Toml) : Option String := do
  let key ← bareKey? entry.1
  match entry.2 with
  | .string s => return key ++ " = " ++ quoted s ++ "\n"
  | .integer (.ofNat n) => return key ++ " = " ++ toString n ++ "\n"
  | _ => none

/-- The lines of a table below its header. -/
def writeSection? (entry : String × Toml) : Option String := do
  let name ← bareKey? entry.1
  match entry.2 with
  | .table entries =>
    let lines ← entries.mapM writePair?
    return "[" ++ name ++ "]\n" ++ String.join lines
  | _ => none

/-- The document of several tables, an empty line between two of them. -/
def write? (table : Table) : Option String := do
  let sections ← table.mapM writeSection?
  return "\n".intercalate sections

end RigPack.Toml
