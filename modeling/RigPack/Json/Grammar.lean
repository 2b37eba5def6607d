import RigPack.Json.Draft

/-!
# What documents are read with

Which draft a text is read into, and which number stands for a literal, is not up to a program that
only says what its documents hold.  A `Grammar` is all that the decoders of documents rely on there;
nothing is said of how a grammar comes to its answers, nor that it keeps to any rule.
-/

namespace RigPack.Json

/-- What documents are read with. -/
class Grammar where
  /-- The draft of a text, and whether nothing but blanks follows its value. -/
  read : String → Draft × Bool
  /-- The number that a literal names, if it names one. -/
  number? : Literal → Option Number
  /-- The number of 32 bits that stands for a number. -/
  single : Number → Binary.Single

end RigPack.Json
