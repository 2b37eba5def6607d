import RigPack.Text.Invisible

/-!
# Quoted text in messages

A message that quotes a text writes it between double quotes and spells what could not be seen:
the quote and the backslash behind a backslash, the line and tab characters by a letter, the null
character by a zero, and every other invisible character by its number in braces.
-/

namespace RigPack.Text

/-- The spelling of one character inside quotes. -/
def quotedChar (c : Char) : List Char :=
  if c = '"' then ['\\', '"']
  else if c = '\\' then ['\\', '\\']
  else if c = '\n' then ['\\', 'n']
  else if c = '\r' then ['\\', 'r']
  else if c = '\t' then ['\\', 't']
  else if c = '\x00' then ['\\', '0']
  else if isInvisible c then ['\\', 'u', '\x7b'] ++ Nat.toDigits 16 c.toNat ++ ['\x7d']
  else [c]

/-- A text between double quotes, with its invisible characters spelled out. -/
def quoted (s : String) : String :=
  String.ofList ('"' :: s.toList.flatMap quotedChar ++ ['"'])

example : quoted "a\"\n\u200b" = "\"a\\\"\\n\\u\x7b200b\x7d\"" := by decide +kernel

end RigPack.Text
