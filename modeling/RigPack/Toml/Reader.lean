import RigPack.Toml.Scalar
import RigPack.Toml.Tables

/-!
# Reading TOML documents

`Toml.read?` gives the entries of a document, or nothing if it is malformed.  Where it is malformed
does not matter to those who read settings.
-/

namespace RigPack.Toml

/-! ## Values -/

/-- The text behind a comment. -/
def skipComment (cs : List Char) : List Char :=
  cs.dropWhile isPlain

/-- The text behind the blanks, line breaks and comments at its front, in at most `steps` parts. -/
def skipSpace (steps : Nat) (cs : List Char) : List Char :=
  match steps with
  | 0 => cs
  | steps + 1 =>
    match cs.drop (blankLength cs) with
    | '#' :: rest => skipSpace steps (skipComment rest)
    | rest => rest

/-- How many arrays and tables a value may nest. -/
def maxDepth : Nat := 79

mutual

/-- A value that nests at most `depth` arrays and tables, in at most `steps` calls. -/
def readValue (steps depth : Nat) (cs : List Char) : Option (Toml × List Char) :=
  match steps with
  | 0 => none
  | steps + 1 =>
    match cs, depth with
    | '[' :: _, 0 => none
    | '\x7b' :: _, 0 => none
    | '[' :: rest, depth + 1 => do
      let (items, rest) ← readItems steps depth rest
      return (.array items, rest)
    | '\x7b' :: rest, depth + 1 =>
      match skipGap rest with
      | '\x7d' :: rest => some (.table [], rest)
      | rest => do
        let (pairs, rest) ← readPairs steps depth rest
        let value ← ofPairs pairs
        return (value, rest)
    | _, _ => readScalar cs

/-- The items of an array up to its closing bracket; the last one may have a comma behind it. -/
def readItems (steps depth : Nat) (cs : List Char) : Option (List Toml × List Char) :=
  match steps with
  | 0 => none
  | steps + 1 =>
    match skipSpace cs.length cs with
    | ']' :: rest => some ([], rest)
    | front => do
      let (item, rest) ← readValue steps depth front
      match skipSpace rest.length rest with
      | ']' :: rest => return ([item], rest)
      | ',' :: rest => do
        let (items, rest) ← readItems steps depth rest
        return (item :: items, rest)
      | _ => none

/-- The keys and values of a table in braces, up to the closing one. -/
def readPairs (steps depth : Nat) (cs : List Char) :
    Option (List (List String × String × Toml) × List Char) :=
  match steps with
  | 0 => none
  | steps + 1 => do
    let (key, rest) ← readKey cs
    let name ← key.getLast?
    let rest ← behind '=' rest
    let (value, rest) ← readValue steps depth (skipGap rest)
    let pair := (key.dropLast, name, value)
    match skipGap rest with
    | '\x7d' :: rest => return ([pair], rest)
    | ',' :: rest => do
      let (pairs, rest) ← readPairs steps depth rest
      return (pair :: pairs, rest)
    | _ => none

end

/-! ## Lines -/

/-- The text behind the end of a line, in front of which only blanks and a comment may stand. -/
def readLineEnd (cs : List Char) : Option (List Char) :=
  let rest :=
    match skipGap cs with
    | '#' :: rest => skipComment rest
    | rest => rest
  if rest.isEmpty then some []
  else if lineBreak rest = 0 then none
  else some (rest.drop (lineBreak rest))

/-- A header with what it does to the document, behind its first bracket. -/
def readHeader (draft : Draft) (cs : List Char) : Option (Draft × List Char) :=
  match cs with
  | '[' :: rest => do
    let (key, rest) ← readKey rest
    let rest ← behind ']' rest
    let rest ← behind ']' rest
    let draft ← draft.openListed key
    return (draft, rest)
  | _ => do
    let (key, rest) ← readKey cs
    let rest ← behind ']' rest
    let draft ← draft.openTable key
    return (draft, rest)

/-- A key with its value, added to the document. -/
def readPair (draft : Draft) (cs : List Char) : Option (Draft × List Char) := do
  let (key, rest) ← readKey cs
  let name ← key.getLast?
  let rest ← behind '=' rest
  let (value, rest) ← readValue (4 * rest.length + 4) maxDepth (skipGap rest)
  let draft ← draft.addPair key.dropLast name value
  return (draft, rest)

/-- The entries of a document, in at most `steps` lines. -/
def readLines (steps : Nat) (draft : Draft) (cs : List Char) : Option Entries :=
  match steps, skipGap cs with
  | _, [] => draft.close
  | 0, _ => none
  | steps + 1, c :: rest =>
    if c = '#' ∨ c = '\n' ∨ c = '\r' then do
      let rest ← readLineEnd (c :: rest)
      readLines steps draft rest
    else do
      let (draft, rest) ← if c = '[' then readHeader draft rest else readPair draft (c :: rest)
      let rest ← readLineEnd rest
      readLines steps draft rest

/-- The entries of a text.  A byte order mark at its front does not count. -/
def read? (s : String) : Option Table :=
  let cs :=
    match s.toList with
    | '\ufeff' :: rest => rest
    | cs => cs
  (readLines cs.length .start cs).map entriesToToml

example : ((read? "[a.b]\nc = 1\n[a]\nb.d = 2").isNone
    ∧ (read? "a.b = 1\na.c = [2, # two\n]\n[d]").isSome) := by decide +kernel

end RigPack.Toml
