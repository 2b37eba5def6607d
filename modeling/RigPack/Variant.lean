import RigPack.Defect

/-!
# Variants

A variant gives the bones of a rig other models.  It affects either the bones it lists or all
others.  A `VariantSet` is the variant list of a project that can be exported: the names differ,
and exactly one variant is the default, the one a freshly summoned rig shows.
-/

namespace RigPack

/-- An alternative look of a rig. -/
structure Variant where
  name : String
  isDefault : Bool
  /-- The ids of the listed bones. -/
  listed : List String
  /-- Whether the listed bones are those that are affected; else they are those left alone. -/
  listIsAffected : Bool
  deriving DecidableEq, Inhabited

/-- Whether the variant changes the model of the bone with that id. -/
def Variant.affects (variant : Variant) (bone : String) : Bool :=
  variant.listed.contains bone == variant.listIsAffected

/-- The first text of a list that occurs for the second time. -/
def firstRepeated? : (seen : List String) → List String → Option String
  | _, [] => none
  | seen, name :: names =>
    if name ∈ seen then some name else firstRepeated? (name :: seen) names

theorem firstRepeated?_eq_none_iff {seen names : List String} :
    firstRepeated? seen names = none ↔ names.Nodup ∧ ∀ name ∈ names, name ∉ seen := by
  induction names generalizing seen with
  | nil => simp [firstRepeated?]
  | cons name names ih => grind [firstRepeated?]

/-- The positions of the default variants in a list that starts at the given position. -/
def defaultPositions (variants : List Variant) : List Nat :=
  (variants.zipIdx.filter (·.1.isDefault)).map (·.2)

/-- The variants of a project, under distinct names and with one default. -/
structure VariantSet where
  variants : List Variant
  defaultPosition : Nat
  names_nodup : (variants.map (·.name)).Nodup
  defaultPositions_eq : defaultPositions variants = [defaultPosition]

namespace VariantSet

/-- The set of the listed variants; a repeated name is reported before a wrong default. -/
def ofList (variants : List Variant) : Except Defect VariantSet :=
  match repeated : firstRepeated? [] (variants.map (·.name)) with
  | some name => .error (.duplicateVariant name)
  | none =>
    match positions : defaultPositions variants with
    | [] => .error .missingDefaultVariant
    | [position] =>
      .ok ⟨variants, position, (firstRepeated?_eq_none_iff.1 repeated).1, positions⟩
    | _ => .error (.multipleDefaultVariants ((variants.filter (·.isDefault)).map (·.name)))

/-- The variant of a name. -/
def get? (set : VariantSet) (name : String) : Option Variant :=
  set.variants.find? (·.name = name)

end VariantSet

end RigPack
