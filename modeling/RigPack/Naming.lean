import RigPack.RangeTree.Basic

/-!
# Names of what an export generates

Generated functions refer to each other by name only.  A `Location` is such a name: a namespace and
a path in it.  All names of one export derive from the project's namespace: what players call lies
in that namespace itself, the rest in an internal one that lists sort to their end.
-/

namespace RigPack

/-- The name of a resource: a namespace, and the segments of a path. -/
structure Location where
  space : String
  path : List String
  deriving DecidableEq

/-- The text of a location in a command. -/
def Location.text (location : Location) : String :=
  location.space ++ ":" ++ "/".intercalate location.path

/-! ## The functions of a timeline -/

/-- The function of a branch. -/
def branchUnit (min max : Nat) : String :=
  "branch_" ++ toString min ++ "_" ++ toString max

/-- The function of a frame, run by the root. -/
def leafUnit (index : Nat) : String :=
  "leaf_" ++ toString index

/-- The function of a frame that every bone runs. -/
def boneUnit (index : Nat) : String :=
  "leaf_" ++ toString index ++ "_as_bone"

/-- The function that holds a frame's own commands. -/
def commandsUnit (index : Nat) : String :=
  "leaf_" ++ toString index ++ "_commands"

/-- The function by which a node of a timeline is entered. -/
def RangeTree.unit {α : Type} : RangeTree α → String
  | .leaf index _ => leafUnit index
  | .branch min max _ => branchUnit min max

/-! ## The names of an export -/

/-- The tag of an entity that was summoned and is not set up yet. -/
def freshTag : String :=
  "aj.new"

/-- The file that records the namespace of an exported pack. -/
def metadataFile : String :=
  "animated_java.mcmeta"

/-- The names that derive from a project's namespace. -/
structure Naming where
  space : String
  deriving DecidableEq

namespace Naming

/-- The namespace of the functions that players do not call. -/
def internal (names : Naming) : String :=
  "zzz_" ++ names.space ++ "_internal"

/-- A function that players call. -/
def publicFunction (names : Naming) (path : List String) : Location :=
  ⟨names.space, path⟩

/-- A function that only generated functions call. -/
def internalFunction (names : Naming) (path : List String) : Location :=
  ⟨names.internal, path⟩

/-- A list of functions, or of entity types, that the pack defines. -/
def group (names : Naming) (name : String) : Location :=
  ⟨names.space, [name]⟩

/-- The list of the entity types that a root can have. -/
def rootType (names : Naming) : Location :=
  names.group "aj_root"

/-- The tag of a root. -/
def rootTag (names : Naming) : String :=
  "aj." ++ names.space ++ ".root"

/-- The tag of a bone. -/
def boneTag (names : Naming) (bone : String) : String :=
  "aj." ++ names.space ++ ".bone." ++ bone

/-- The tag of a root while it plays an animation. -/
def activeTag (names : Naming) (animation : String) : String :=
  "aj." ++ names.space ++ ".animations." ++ animation

/-- The path of an animation's timeline among the internal functions. -/
def timelinePath (animation : String) : List String :=
  ["animations", animation, "tree"]

/-- A function of an animation's timeline. -/
def timelineFunction (names : Naming) (animation unit : String) : Location :=
  names.internalFunction (timelinePath animation ++ [unit])

/-- The function by which a root puts on a variant. -/
def variantAsRoot (names : Naming) (variant : String) : Location :=
  names.internalFunction ["apply_variant", variant ++ "_as_root"]

/-- The function by which a bone puts on a variant. -/
def variantAsBone (names : Naming) (variant : String) : Location :=
  names.internalFunction ["apply_variant", variant ++ "_as_bone"]

end Naming

end RigPack
