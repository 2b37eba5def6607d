import RigPack.Json.Basic

/-!
# The text of a JSON value

`Json.compact` writes a value on one line without blanks, as chat messages inside commands are;
`Json.pretty` gives every item and field a line of its own, indented by two blanks a level, as
metadata files are.  Both escape the same characters.
-/

namespace RigPack.Json

/-- The spelling of a character inside a string. -/
def escapedChar (c : Char) : List Char :=
  if c = '"' then ['\\', '"']
  else if c = '\\' then ['\\', '\\']
  else if c = '\x08' then ['\\', 'b']
  else if c = '\t' then ['\\', 't']
  else if c = '\n' then ['\\', 'n']
  else if c = '\x0c' then ['\\', 'f']
  else if c = '\r' then ['\\', 'r']
  else if c.toNat < 0x10 then ['\\', 'u', '0', '0', '0'] ++ Nat.toDigits 16 c.toNat
  else if c.toNat < 0x20 then ['\\', 'u', '0', '0'] ++ Nat.toDigits 16 c.toNat
  else [c]

/-- A string in its quotes. -/
def stringChars (s : String) : List Char :=
  '"' :: s.toList.flatMap escapedChar ++ ['"']

/-- A number. -/
def Number.chars : Number → List Char
  | .whole n => (toString n).toList
  | .real x => x.chars .json

mutual

/-- A value on one line. -/
def compactChars : Json → List Char
  | .null => "null".toList
  | .bool b => (if b then "true" else "false").toList
  | .number n => n.chars
  | .string s => stringChars s
  | .array [] => "[]".toList
  | .array (item :: items) => '[' :: compactChars item ++ compactItems items
  | .object [] => "\x7b\x7d".toList
  | .object ((name, value) :: fields) =>
    '\x7b' :: stringChars name ++ ':' :: compactChars value ++ compactFields fields

/-- The items behind the first one, and the end of their array. -/
def compactItems : List Json → List Char
  | [] => [']']
  | item :: items => ',' :: compactChars item ++ compactItems items

/-- The fields behind the first one, and the end of their object. -/
def compactFields : List (String × Json) → List Char
  | [] => ['\x7d']
  | (name, value) :: fields =>
    ',' :: stringChars name ++ ':' :: compactChars value ++ compactFields fields

end

/-- A line break, and the blanks in front of a line of that depth. -/
def newLine (depth : Nat) : List Char :=
  '\n' :: List.replicate (2 * depth) ' '

mutual

/-- A value that starts on a line of the given depth. -/
def prettyChars (depth : Nat) : Json → List Char
  | .null => "null".toList
  | .bool b => (if b then "true" else "false").toList
  | .number n => n.chars
  | .string s => stringChars s
  | .array [] => "[]".toList
  | .array (item :: items) =>
    '[' :: newLine (depth + 1) ++ prettyChars (depth + 1) item ++ prettyItems depth items
  | .object [] => "\x7b\x7d".toList
  | .object ((name, value) :: fields) =>
    '\x7b' :: newLine (depth + 1) ++ stringChars name ++ ": ".toList
      ++ prettyChars (depth + 1) value ++ prettyFields depth fields

/-- The items behind the first one, and the end of their array. -/
def prettyItems (depth : Nat) : List Json → List Char
  | [] => newLine depth ++ [']']
  | item :: items =>
    ',' :: newLine (depth + 1) ++ prettyChars (depth + 1) item ++ prettyItems depth items

/-- The fields behind the first one, and the end of their object. -/
def prettyFields (depth : Nat) : List (String × Json) → List Char
  | [] => newLine depth ++ ['\x7d']
  | (name, value) :: fields =>
    ',' :: newLine (depth + 1) ++ stringChars name ++ ": ".toList
      ++ prettyChars (depth + 1) value ++ prettyFields depth fields

end

/-- A value on one line, without blanks. -/
def compact (value : Json) : String :=
  String.ofList value.compactChars

/-- A value with a line for each item and field. -/
def pretty (value : Json) : String :=
  String.ofList (value.prettyChars 0)

example : (Json.array [.int 1, .object [("a\n", .null)], .array []]).compact
    = "[1,\x7b\"a\\n\":null\x7d,[]]" := by decide
example : (Json.object [("a", .array [.bool true, .string "\x1f"])]).pretty
    = "\x7b\n  \"a\": [\n    true,\n    \"\\u001f\"\n  ]\n\x7d" := by decide

end RigPack.Json
