import RigPack.Text.Pieces

/-!
# Paths

A path is a text whose segments are divided by slashes.  Joining keeps both parts as they are
written: nothing is resolved, and no doubled slash is removed.
-/

namespace RigPack.Path

/-- Whether a path starts at the root. -/
def isAbsolute (path : String) : Bool :=
  path.toList.head? = some '/'

/-- Whether a path ends in a slash. -/
def endsInSlash (path : String) : Bool :=
  path.toList.getLast? = some '/'

/-- A path seen from the folder `base`; an absolute one is itself. -/
def join (base path : String) : String :=
  if isAbsolute path || base.isEmpty then path
  else if endsInSlash base then base ++ path
  else base ++ "/" ++ path

/-- The segments of a path; empty ones do not count. -/
def segments (path : String) : List String :=
  ((Text.pieces '/' path.toList).filter (!·.isEmpty)).map String.ofList

/-- A path in front of its last slash, and the name behind; without slash it is a name only. -/
def splitLast (path : String) : String × String :=
  let cs := path.toList.reverse
  let name := cs.takeWhile (· ≠ '/')
  (String.ofList (cs.drop (name.length + 1)).reverse, String.ofList name.reverse)

/-- The reversed characters of a path without slashes and lone dots at its end. -/
def dropEmptyEnd : List Char → List Char
  | '/' :: [] => ['/']
  | '/' :: cs => dropEmptyEnd cs
  | '.' :: '/' :: [] => ['/']
  | '.' :: '/' :: cs => dropEmptyEnd cs
  | cs => cs

/-- The folder that a path lies in, unless the path is empty or the root. -/
def parent? (path : String) : Option String :=
  let cs := dropEmptyEnd path.toList.reverse
  if cs = [] ∨ cs = ['/'] then none
  else some (String.ofList (dropEmptyEnd (cs.dropWhile (· ≠ '/'))).reverse)

example : join "a/" "b" = "a/b" ∧ join "a" "/b" = "/b" := by decide
example : join "" "b" = "b" ∧ join "a" "" = "a/" := by decide
example : segments "/a//b/" = ["a", "b"] := by decide
example : splitLast "a//b" = ("a/", "b") ∧ splitLast "b" = ("", "b") := by decide
example : parent? "a/./b/" = some "a" ∧ parent? "/b" = some "/" ∧ parent? "b" = some "" := by decide
example : parent? "/." = none ∧ parent? "a/../b" = some "a/.." := by decide

end RigPack.Path
