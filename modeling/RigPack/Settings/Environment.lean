import RigPack.Settings.Fault
import RigPack.Text.Blank
import RigPack.Text.Digits
import RigPack.Text.Pieces

/-!
# The environment

The variables that a process is given, and how one of them gives a number.
-/

namespace RigPack

/-- The variables of a process; of two with one name the first counts. -/
structure Environment where
  entries : List (String × String)

namespace Environment

/-- The variable that a text `name=value` sets.  A name has at least one character. -/
def entry? (cs : List Char) : Option (String × String) :=
  match cs with
  | [] => none
  | first :: rest =>
    let name := first :: rest.takeWhile (· ≠ '=')
    match rest.dropWhile (· ≠ '=') with
    | [] => none
    | _ :: value => some (String.ofList name, String.ofList value)

/-- The environment that a block of texts `name=value` sets, each of which a null closes. -/
def ofBlock (block : String) : Environment :=
  ⟨(Text.pieces '\x00' block.toList).filterMap entry?⟩

example : (ofBlock "A=1\x00B==\x00").entries = [("A", "1"), ("B", "=")] := by decide

/-- The value of a variable. -/
def get? (env : Environment) (name : String) : Option String :=
  env.entries.lookup name

/-! ## Numbers -/

/-- Adds digits to a number of 32 bits.  A character that is no digit is noticed before the size. -/
def addDigits (n : Nat) : List Char → Except NumberFault Nat
  | [] => .ok n
  | c :: cs =>
    if !c.isDigit then .error .invalidDigit
    else
      let n := 10 * n + Text.digitValue c
      if UInt32.size ≤ n then .error .tooLarge else addDigits n cs

/-- The number of 32 bits that a text spells; a plus sign may stand in front. -/
def parseWord (cs : List Char) : Except NumberFault UInt32 :=
  match cs with
  | [] => .error .empty
  | ['+'] => .error .invalidDigit
  | '+' :: digits => (addDigits 0 digits).map UInt32.ofNat
  | digits => (addDigits 0 digits).map UInt32.ofNat

/-- The value of a variable as a number. -/
def number (variableName value : String) : Except ConfigFault UInt32 :=
  match parseWord (Text.trim value).toList with
  | .ok n => .ok n
  | .error fault => .error (.notANumber variableName value fault)

end Environment

end RigPack
