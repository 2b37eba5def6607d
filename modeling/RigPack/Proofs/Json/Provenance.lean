import RigPack.Json.Decode
import RigPack.Proofs.Success
import RigPack.Proofs.Table

/-!
# Where decoded values come from

A decoder makes values out of nothing but the draft that it walks.  So what it yields has a
place in the document, and this file says which: the items of a list come from the items of
an array, the values of a table and the fields of a record from the members of an object.

## Main statements

* `Decoder.Yields.list`, `Decoder.Yields.table`, `Decoder.yields_record`: what a decoder for
  many values yields, by what the decoders for the single ones do.
* `Decoder.Yields.decode`: what follows for the value of a text.

## Strategy

`Decoder.Yields` fixes the whole draft, of which a decoder walks a part, and asks for a
property of each value that comes out.  A record is changed by one field after the other, so
for it the property is an invariant that holds of the blank record and is kept by all fields.
-/

namespace RigPack.Json

/-! ## Parts of drafts -/

/-- Whether a draft is another one or a value somewhere inside it. -/
inductive Draft.Occurs (part : Draft) : Draft → Prop
  | here : Occurs part part
  | item {items : List Draft} {ending : Draft.Ending} {item : Draft} (hitem : item ∈ items)
    (h : Occurs part item) : Occurs part (.array items ending)
  | member {members : List (Draft × Draft)} {ending : Draft.Ending} {name value : Draft}
    (hmember : (name, value) ∈ members) (h : Occurs part value) :
    Occurs part (.object members ending)

namespace Draft.Occurs

variable {whole : Draft}

theorem trans {inner outer : Draft} (h : inner.Occurs outer) (h' : outer.Occurs whole) :
    inner.Occurs whole := by
  induction h' with
  | here => exact h
  | item hitem _ ih => exact .item hitem ih
  | member hmember _ ih => exact .member hmember ih

theorem of_item {items : List Draft} {ending : Draft.Ending}
    (h : (Draft.array items ending).Occurs whole) {item : Draft} (hitem : item ∈ items) :
    item.Occurs whole :=
  trans (.item hitem .here) h

theorem of_member {members : List (Draft × Draft)} {ending : Draft.Ending}
    (h : (Draft.object members ending).Occurs whole) {member : Draft × Draft}
    (hmember : member ∈ members) : member.2.Occurs whole :=
  trans (.member hmember .here) h

end Draft.Occurs

theorem ofFault_eq_ok {α : Type} {x : Except Fault α} {a : α} :
    ofFault x = .ok a ↔ x = .ok a := by
  cases x <;> simp [ofFault]

theorem Draft.Ending.eq_closed_of_check {ending : Draft.Ending} (h : ending.check = .ok ()) :
    ending = .closed := by
  cases ending with
  | closed => rfl
  | inside => contradiction
  | lacking fault => contradiction

/-- A complaint yields nothing. -/
theorem wrongType_ne_ok [Grammar] {α : Type} {expected : String} {draft : Draft} {a : α} :
    wrongType expected draft ≠ .ok a := by
  cases draft with
  | number literal =>
      unfold wrongType
      dsimp only
      split <;> nofun
  | text t =>
      unfold wrongType
      dsimp only
      split <;> nofun
  | _ => nofun

namespace Decoder

variable {whole : Draft} {α β σ : Type}

/-! ## What decoders yield -/

/-- Whether all values that a decoder makes of parts of a draft have a property. -/
def Yields (whole : Draft) (decoder : Decoder α) (property : α → Prop) : Prop :=
  ∀ draft a, draft.Occurs whole → decoder draft = .ok a → property a

section Many

variable {item : Decoder α} {property : α → Prop} (h : item.Yields whole property)

include h

theorem Yields.map {f : α → β} {property' : β → Prop} (hf : ∀ a, property a → property' (f a)) :
    Yields whole (fun draft => (item draft).map f) property' := by
  intro draft b hoccurs hok
  obtain ⟨a, ha, rfl⟩ := map_eq_ok.1 hok
  exact hf a (h draft a hoccurs ha)

/-- The values of a list come from the items of an array. -/
theorem Yields.list [Grammar] :
    (list item).Yields whole fun values => ∀ a ∈ values, property a := by
  intro draft values hoccurs hok
  unfold Decoder.list at hok
  split at hok
  · simp only [bind_eq_ok, pure_eq_ok] at hok
    obtain ⟨values, hvalues, -, -, rfl⟩ := hok
    intro a ha
    obtain ⟨part, hpart, hmade⟩ := (mem_iff_of_mapM_eq_ok hvalues).1 ha
    exact h part a (hoccurs.of_item hpart) hmade
  · exact absurd hok wrongType_ne_ok

/-- The values of a table come from the members of an object. -/
theorem Yields.table [Grammar] :
    (table item).Yields whole fun table => ∀ key a, table.get? key = some a → property a := by
  intro draft table hoccurs hok
  unfold Decoder.table at hok
  split at hok
  · simp only [bind_eq_ok, pure_eq_ok] at hok
    obtain ⟨entries, hentries, -, -, rfl⟩ := hok
    intro key a ha
    obtain ⟨member, hmember, hmade⟩ :=
      (mem_iff_of_mapM_eq_ok hentries).1 (Table.mem_of_get?_ofList ha)
    simp only [bind_eq_ok, pure_eq_ok] at hmade
    obtain ⟨_, -, value, hvalue, hentry⟩ := hmade
    rw [← (Prod.mk.inj hentry).2]
    exact h _ value (hoccurs.of_member hmember) hvalue
  · exact absurd hok wrongType_ne_ok

end Many

/-! ## Records -/

variable {invariant : σ → Prop}

/-- Whether the changes that a field makes keep an invariant of the record. -/
def Field.Keeps (whole : Draft) (invariant : σ → Prop) (field : Field σ) : Prop :=
  Yields whole field.read fun change => ∀ record, invariant record → invariant (change record)

section Single

variable {item : Decoder α} {property : α → Prop} (h : item.Yields whole property)
  {set : α → σ → σ} (hset : ∀ a record, property a → invariant record → invariant (set a record))

include h hset

theorem Yields.need (name : String) : (Field.need name item set).Keeps whole invariant :=
  h.map fun a ha record => hset a record ha

theorem Yields.may (name : String) : (Field.may name item set).Keeps whole invariant :=
  h.map fun a ha record => hset a record ha

end Single

/-- A field keeps what does not depend on its value. -/
theorem Field.keeps_need (name : String) (item : Decoder α) {set : α → σ → σ}
    (hset : ∀ a record, invariant record → invariant (set a record)) :
    (Field.need name item set).Keeps whole invariant := by
  have hany : item.Yields whole fun _ => True := fun _ _ _ _ => trivial
  exact hany.need (fun a record _ => hset a record) name

theorem Field.keeps_may (name : String) (item : Decoder α) {set : α → σ → σ}
    (hset : ∀ a record, invariant record → invariant (set a record)) :
    (Field.may name item set).Keeps whole invariant := by
  have hany : item.Yields whole fun _ => True := fun _ _ _ _ => trivial
  exact hany.may (fun a record _ => hset a record) name

section Fields

variable {fields : List (Field σ)} (hfields : ∀ field ∈ fields, field.Keeps whole invariant)

include hfields

theorem invariant_members {seen : List String} {record : σ} (hrecord : invariant record)
    {rest : List (Draft × Draft)} (hrest : ∀ member ∈ rest, member.2.Occurs whole)
    {result : List String × σ} (hok : members fields seen record rest = .ok result) :
    invariant result.2 := by
  induction rest generalizing seen record with
  | nil =>
      rw [members] at hok
      obtain rfl := Except.ok.inj hok
      exact hrecord
  | cons member rest ih =>
      obtain ⟨hmember, hrest⟩ := List.forall_mem_cons.1 hrest
      rw [members] at hok
      obtain ⟨key, -, hok⟩ := bind_eq_ok.1 hok
      split at hok
      · -- a member that no field is named by
        obtain ⟨-, -, hok⟩ := bind_eq_ok.1 hok
        exact ih hrecord hrest hok
      · rename_i field hfound
        split at hok
        · contradiction
        · obtain ⟨change, hchange, hok⟩ := bind_eq_ok.1 hok
          have hkeeps := hfields field (List.mem_of_find?_eq_some hfound)
          exact ih (hkeeps _ change hmember hchange record hrecord) hrest hok

theorem invariant_positions {expected : String} {ending : Draft.Ending} {count : ℕ} {record : σ}
    (hrecord : invariant record) {items : List Draft} (hitems : ∀ item ∈ items, item.Occurs whole)
    {result : σ} (hok : positions expected ending count record fields items = .ok result) :
    invariant result := by
  induction fields generalizing count record items with
  | nil =>
      cases items with
      | nil =>
          rw [positions] at hok
          obtain ⟨-, -, hok⟩ := bind_eq_ok.1 hok
          obtain rfl := pure_eq_ok.1 hok
          exact hrecord
      | cons item items => contradiction
  | cons field fields ih =>
      obtain ⟨hfield, hfields⟩ := List.forall_mem_cons.1 hfields
      cases items with
      | nil =>
          rw [positions] at hok
          obtain ⟨-, -, hok⟩ := bind_eq_ok.1 hok
          split at hok
          · contradiction
          · exact ih hfields hrecord hitems hok
      | cons item items =>
          obtain ⟨hitem, hitems⟩ := List.forall_mem_cons.1 hitems
          rw [positions] at hok
          obtain ⟨change, hchange, hok⟩ := bind_eq_ok.1 hok
          exact ih hfields (hfield item change hitem hchange record hrecord) hitems hok

/-- A record has every property that the blank one has and that all fields keep. -/
theorem yields_record [Grammar] (type : String) {blank : σ} (hblank : invariant blank) :
    (record type fields blank).Yields whole invariant := by
  intro draft result hoccurs hok
  unfold record at hok
  split at hok
  · obtain ⟨⟨seen, value⟩, hmembers, hok⟩ := bind_eq_ok.1 hok
    obtain ⟨-, -, hok⟩ := bind_eq_ok.1 hok
    have hvalue := invariant_members hfields hblank
      (fun member hmember => hoccurs.of_member hmember) hmembers
    split at hok
    · contradiction
    · obtain rfl := pure_eq_ok.1 hok
      exact hvalue
  · exact invariant_positions hfields hblank (fun item hitem => hoccurs.of_item hitem) hok
  · exact absurd hok wrongType_ne_ok

end Fields

/-- The value of a text has what its decoder yields. -/
theorem Yields.decode [Grammar] {decoder : Decoder α} {property : α → Prop} {s : String}
    (h : decoder.Yields (Grammar.read s).1 property) {a : α} (hok : Json.decode decoder s = .ok a) :
    property a := by
  unfold Json.decode at hok
  generalize Grammar.read s = read at h hok
  obtain ⟨value, hvalue, hok⟩ := bind_eq_ok.1 hok
  split at hok
  · obtain rfl := pure_eq_ok.1 hok
    exact h _ value .here hvalue
  · contradiction

end Decoder

end RigPack.Json
