/-!
# Lines of a text

A line ends at a line feed, and a carriage return directly before that line feed belongs to the
end of the line.  What follows the last line feed is a line of its own unless it is empty.
-/

namespace RigPack.Text

/-- The lines of a list of characters, without their ends. -/
def lineChars : List Char → List (List Char)
  | [] => []
  | '\n' :: rest => [] :: lineChars rest
  | '\r' :: '\n' :: rest => [] :: lineChars rest
  | c :: rest =>
    match lineChars rest with
    | [] => [[c]]
    | line :: lines => (c :: line) :: lines

/-- The lines of a text, without their ends. -/
def lines (s : String) : List String :=
  (lineChars s.toList).map String.ofList

/-- The text of a file that holds the given lines, each closed by a line feed. -/
def unlines (lines : List String) : String :=
  String.join (lines.map (· ++ "\n"))

example : lines "say a\r\n\n  b\rc\r\r\nd" = ["say a", "", "  b\rc\r", "d"] := by decide
example : unlines ["a", "", "b"] = "a\n\nb\n" := by decide

end RigPack.Text
