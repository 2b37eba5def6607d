import RigPack.Binary.Format

/-!
# Products and quotients of binary numbers

Each operation computes the exact result and rounds it once.  A result that no number stands for,
such as zero times infinity, is the mark of a failed computation.
-/

namespace RigPack.Binary.Number

variable {f : Format}

/-- The mark of a failed computation. -/
def notANumber : Number f :=
  ofMagnitude false (f.infinity + twoTo (f.fractionBits - 1))

/-- Infinity with a sign. -/
def infinite (negative : Bool) : Number f :=
  ofMagnitude negative f.infinity

/-- The product of two numbers. -/
def product (x y : Number f) : Number f :=
  match x.view, y.view with
  | .finite s m e, .finite t n k =>
    ofRatio (s != t) (m * n * twoTo (e + k).toNat) (twoTo (-(e + k)).toNat)
  | .infinite s, .infinite t => infinite (s != t)
  | .infinite s, .finite t n _ => if n = 0 then notANumber else infinite (s != t)
  | .finite s m _, .infinite t => if m = 0 then notANumber else infinite (s != t)
  | _, _ => notANumber

/-- The quotient of two numbers. -/
def quotient (x y : Number f) : Number f :=
  match x.view, y.view with
  | .finite s m e, .finite t n k =>
    if n = 0 then if m = 0 then notANumber else infinite (s != t)
    else ofRatio (s != t) (m * twoTo (e - k).toNat) (n * twoTo (k - e).toNat)
  | .infinite s, .finite t _ _ => infinite (s != t)
  | .finite s _ _, .infinite t => ofMagnitude (s != t) 0
  | _, _ => notANumber

example : (product (ofInt 3) (ofInt (-7)) : Single) = ofInt (-21) := by decide +kernel
example : (quotient (ofInt 1) (ofInt 3) : Single).bits.toNat = 0x3EAAAAAB := by decide +kernel
example : (quotient (ofInt 1) (ofInt 0) : Single) = infinite false := by decide +kernel

end RigPack.Binary.Number
