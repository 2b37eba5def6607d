import Mathlib.Data.List.Forall2
import RigPack.Proofs.Game.Machine

/-!
# Displays and their data

A pack shows a bone by a display, an entity that the game keeps data of.  The data come
into being when the display is summoned, as the command to summon spells them, and
commands merge other data into them.  This file says how data are merged, and what
the machine needs of a game that does so (`Game.Stores`).

Merging goes through compounds: an entry that is merged replaces the one of its key,
unless both hold compounds, which are merged in turn; all other entries stay.

## Main statements

* `Snbt.get?_merge_cons`: an entry of data into which others were merged.
* `World.spawned_summoned`: for any data there is a world of entities with these data.
-/

namespace RigPack

namespace Snbt

/-- The entries of a compound. -/
def entries : Snbt → List (String × Snbt)
  | .compound entries => entries
  | _ => []

/-- The items of a list. -/
def items : Snbt → List Snbt
  | .list items => items
  | _ => []

/-- The text of a string. -/
def string? : Snbt → Option String
  | .string s => some s
  | _ => none

/-- The value of an entry. -/
def get? (data : Snbt) (key : String) : Option Snbt :=
  Table.find? key data.entries

/-- The tags of an entity, by its data. -/
def tags (data : Snbt) : List String :=
  (((data.get? "Tags").map items).getD []).filterMap string?

mutual

/-- Data with others merged into them. -/
def merge (data : Snbt) : Snbt → Snbt
  | .compound others => .compound (mergeEntries data.entries others)
  | other => other

/-- The entries of data with others merged into them, one after the other. -/
def mergeEntries (entries : List (String × Snbt)) : List (String × Snbt) → List (String × Snbt)
  | [] => entries
  | (key, value) :: others =>
    mergeEntries
      (setEntry key (merge ((Table.find? key entries).getD (.compound [])) value) entries) others

end

theorem find?_setEntry (key other : String) (value : Snbt) (entries : List (String × Snbt)) :
    Table.find? other (setEntry key value entries)
      = if other = key then some value else Table.find? other entries := by
  fun_induction setEntry key value entries with
  | case1 => grind [Table.find?]
  | case2 => grind [Table.find?]
  | case3 => grind [Table.find?]

theorem find?_mergeEntries_of_forall_ne {key : String} {others : List (String × Snbt)}
    (h : ∀ other ∈ others, key ≠ other.1) (entries : List (String × Snbt)) :
    Table.find? key (mergeEntries entries others) = Table.find? key entries := by
  induction others generalizing entries with
  | nil => rw [mergeEntries]
  | cons other others ih =>
      obtain ⟨hother, hothers⟩ := List.forall_mem_cons.1 h
      rw [mergeEntries, ih hothers, find?_setEntry, if_neg hother]

/-- An entry that is merged first and not again has its value merged into the one that was there. -/
theorem get?_merge_cons {key : String} {others : List (String × Snbt)}
    (h : ∀ other ∈ others, key ≠ other.1) (data value : Snbt) :
    (data.merge (.compound ((key, value) :: others))).get? key
      = some (merge ((data.get? key).getD (.compound [])) value) := by
  rw [merge, get?, entries, mergeEntries, find?_mergeEntries_of_forall_ne h, find?_setEntry,
    if_pos rfl, get?]

theorem ofTransform_injective : Function.Injective ofTransform := by
  intro t t' h
  have hlist : t.toList = t'.toList :=
    List.map_injective_iff.2 (fun _ _ => Snbt.float.inj) (Snbt.list.inj h)
  cases t
  cases t'
  exact congrArg Transform.mk (Vector.toList_inj.1 hlist)

end Snbt

variable {Entity Rest : Type}

/-! ## Entities that were summoned -/

/-- Whether entities are those that data describe, one each.  The tag of what was just summoned does
not count: it is taken off when the entity is set up. -/
structure World.Spawned (world : World Entity Rest) (selves : List Entity) (items : List Snbt) :
    Prop where
  nodup : selves.Nodup
  tags : List.Forall₂
    (fun self item => ∀ tag, tag ≠ freshTag → world.tags self tag = decide (tag ∈ item.tags))
    selves items

/-- A world of numbered entities that are as data describe them. -/
def World.summoned (items : List Snbt) : World Nat (Nat → Snbt) where
  tags self tag := decide (tag ∈ (items[self]?.getD (.compound [])).tags)
  scores _ := none
  riders _ := []
  rest self := items[self]?.getD (.compound [])

theorem World.spawned_summoned (items : List Snbt) :
    (World.summoned items).Spawned (List.range items.length) items where
  nodup := List.nodup_range
  tags := by
    refine List.forall₂_iff_get.2 ⟨List.length_range, fun i hi hi' tag _ => ?_⟩
    simp [summoned, hi']

/-- The data of the entities that ride on a rig when a pack summons it, as the command to summon
spells them. -/
def Folder.passengers (pack : Folder) (names : Naming) : List Snbt :=
  match pack.function? (names.internalFunction ["summon"]).text with
  | some (.summon _ data :: _) => ((data.get? "Passengers").map Snbt.items).getD []
  | _ => []

/-! ## Commands -/

variable [DecidableEq Entity]

/-- A game keeps the data of entities: to merge data changes those of the entity that does it, and
neither a call nor a test of a tag changes any. -/
structure Game.Stores (game : Game Entity Rest) (data : Rest → Entity → Snbt) : Prop where
  mergeData : ∀ value world self,
    data (game.remainder (.mergeData value) world self)
      = Function.update (data world.rest) self ((data world.rest self).merge value)
  call : ∀ callee world self, data (game.remainder (.call callee) world self) = data world.rest
  ifTagged : ∀ tag command world self,
    data (game.remainder (.execute [.ifTagged tag] command) world self) = data world.rest

/-- A game of numbered entities in which nothing but merging changes data. -/
def Game.merging : Game Nat (Nat → Snbt) where
  executors _ _ self := [self]
  effect _ world _ := world
  remainder command world self :=
    match command with
    | .mergeData value => Function.update world.rest self ((world.rest self).merge value)
    | _ => world.rest

theorem Game.stores_merging : Game.merging.Stores id where
  mergeData _ _ _ := rfl
  call _ _ _ := rfl
  ifTagged _ _ _ _ := rfl

end RigPack
