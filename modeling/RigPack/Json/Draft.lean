import RigPack.Json.Basic
import RigPack.Binary.Arithmetic

/-!
# JSON texts as far as they can be read

A reader that works from left to right meets a wrong type in front of a missing bracket that
stands behind it.  To say which fault comes first, a text is read into a `Draft`: the tree of all
that stands in front of the first place where the text breaks off, with a mark at that place.  What
a draft means is decided later, by whoever walks it from left to right.

A draft keeps numbers as they are spelled and strings that name half of a surrogate pair, since
both are faults only where their value is asked for.  It also keeps whatever stands in place of a
member's name.
-/

namespace RigPack.Json

/-- Why a text is no JSON text. -/
inductive Fault
  /-- A character stands where it cannot stand, or the value has no meaning. -/
  | malformed
  /-- The text ends inside a value. -/
  | cutShort
  deriving DecidableEq

/-- A number as it is spelled: `± digits · 10 ^ exponent`, as far as 64 bits hold its digits. -/
structure Literal where
  negative : Bool
  digits : Nat
  exponent : Int
  /-- Spelled without a point and without an exponent, and with all digits held. -/
  plain : Bool
  deriving DecidableEq

/-- A string as far as it can be read. -/
inductive Draft.Text
  | whole (s : String)
  /-- A string that ends well but names half of a surrogate pair. -/
  | halfPair
  /-- A string that breaks off; `spoiled` if half of a surrogate pair stands in front. -/
  | unfinished (fault : Fault) (spoiled : Bool)

/-- How a list of items or fields ends. -/
inductive Draft.Ending
  | closed
  /-- The text breaks off inside the last item. -/
  | inside
  /-- The text breaks off where a separator or the closing bracket should stand. -/
  | lacking (fault : Fault)

/-- A JSON text as far as it can be read. -/
inductive Draft
  | null
  | bool (b : Bool)
  | number (literal : Literal)
  | text (t : Draft.Text)
  | array (items : List Draft) (ending : Draft.Ending)
  | object (members : List (Draft × Draft)) (ending : Draft.Ending)
  /-- No value: the text breaks off here, behind the first character of a value or in front. -/
  | broken (fault : Fault) (started : Bool)
  deriving Inhabited

/-- The greatest power of ten that scales a number in one step. -/
def greatestPower : Nat := 308

/-- A power of ten as a floating point number. -/
def powerOfTen (power : Nat) : Binary.Double :=
  .ofDecimal false 1 power

/--
A number scaled by a power of ten, in steps that each round; nothing if it gets too large.  Two
steps down make zero of every number whose digits 64 bits hold.
-/
def scaled? (x : Binary.Double) (exponent : Int) : Option Binary.Double :=
  if x.isZero then some x
  else if greatestPower < exponent then none
  else if 0 ≤ exponent then
    let y := x.product (powerOfTen exponent.toNat)
    if y.isFinite then some y else none
  else if -(greatestPower : Int) ≤ exponent then
    some (x.quotient (powerOfTen (-exponent).toNat))
  else if -2 * (greatestPower : Int) ≤ exponent then
    some ((x.quotient (powerOfTen greatestPower)).quotient
      (powerOfTen (-exponent - greatestPower).toNat))
  else some (.ofInt 0)

/--
The number a literal names; nothing if it is beyond the 64 bit floating point numbers.  The digits
of one that is not whole are rounded first, and the scaled number is rounded again.
-/
def Literal.number? (literal : Literal) : Option Number :=
  let real : Option Number :=
    (scaled? (.ofInt literal.digits) literal.exponent).map fun x =>
      .real (if literal.negative then .ofMagnitude true x.magnitude else x)
  if !literal.plain then real
  else if !literal.negative then some (.whole literal.digits)
  else if literal.digits = 0 ∨ -(literal.digits : Int) < Int64.minValue.toInt then real
  else some (.whole (-literal.digits))

/--
The number of 32 bits nearest to a number of a document.  A whole number is rounded once; any other
literal names a 64 bit number first, which is rounded again.
-/
def Number.single : Number → Binary.Single
  | .whole n => .ofInt n
  | .real x => x.convert .single

namespace Draft

/-- The string, where its value is asked for. -/
def Text.read : Text → Except Fault String
  | .whole s => .ok s
  | .halfPair => .error .malformed
  | .unfinished fault spoiled => .error (if spoiled then .malformed else fault)

/-- The fault of a string whose value nobody asks for. -/
def Text.skip : Text → Except Fault Unit
  | .unfinished fault _ => .error fault
  | _ => .ok ()

/-- The fault at the end of a list whose items are all read. -/
def Ending.check : Ending → Except Fault Unit
  | .closed => .ok ()
  | .inside => .error .malformed
  | .lacking fault => .error fault

/-- The name of a member, which has to be a string. -/
def name : Draft → Except Fault String
  | .text t => t.read
  | .broken fault false => .error fault
  | _ => .error .malformed

/-- The first fault of a name that nobody asks for. -/
def skipName : Draft → Except Fault Unit
  | .text t => t.skip
  | .broken fault false => .error fault
  | _ => .error .malformed

mutual

/-- The first fault of a draft whose value nobody asks for. -/
def skip : Draft → Except Fault Unit
  | .text t => t.skip
  | .array items ending => do
    skipItems items
    ending.check
  | .object members ending => do
    skipMembers members
    ending.check
  | .broken fault _ => .error fault
  | _ => .ok ()

/-- The first fault of a list of items. -/
def skipItems : List Draft → Except Fault Unit
  | [] => .ok ()
  | item :: items => do
    item.skip
    skipItems items

/-- The first fault of a list of members. -/
def skipMembers : List (Draft × Draft) → Except Fault Unit
  | [] => .ok ()
  | (name, value) :: members => do
    name.skipName
    value.skip
    skipMembers members

end

end Draft

end RigPack.Json
