import Mathlib.Data.List.Forall2

/-!
# Computations that succeed

A check or a look-up is a computation in `Except`.  The lemmas here take a
successful one apart: a sequence of steps succeeds if every step does
(`bind_eq_ok`), and a list is worked off element by element (`mapM_eq_ok`), so
the results stand beside the elements they come from (`List.Forall₂`).
-/

namespace RigPack

variable {ε α β : Type}

/-- Whether a computation succeeds can be found out by running it. -/
theorem exists_ok_of_isSome {x : Except ε α} (h : x.toOption.isSome = true) :
    ∃ a, x = .ok a := by
  cases x with
  | ok a => exact ⟨a, rfl⟩
  | error e => contradiction

theorem toOption_eq_some {x : Except ε α} {a : α} : x.toOption = some a ↔ x = .ok a := by
  cases x <;> simp [Except.toOption]

/-- A step behind another one succeeds if both do. -/
theorem bind_eq_ok {x : Except ε α} {f : α → Except ε β} {b : β} :
    x >>= f = .ok b ↔ ∃ a, x = .ok a ∧ f a = .ok b := by
  cases x <;> simp [bind, Except.bind]

theorem map_eq_ok {x : Except ε α} {f : α → β} {b : β} :
    x.map f = .ok b ↔ ∃ a, x = .ok a ∧ f a = b := by
  cases x <;> simp [Except.map]

@[simp] theorem pure_eq_ok {a b : α} : (pure a : Except ε α) = .ok b ↔ a = b := by
  simp [pure, Except.pure]

@[simp] theorem throw_bind_ne_ok {e : ε} {f : α → Except ε β} {b : β} :
    (throw e >>= f) ≠ .ok b :=
  nofun

/-- A test that stops the computation is passed if the computation succeeds. -/
theorem test_eq_ok {refuse : Prop} [Decidable refuse] {e : ε} {f : α → Except ε β}
    {x : Except ε β} {b : β} :
    (if refuse then throw e >>= f else x) = .ok b ↔ ¬ refuse ∧ x = .ok b := by
  split <;> simp [*]

theorem mapM_cons_eq_ok {f : α → Except ε β} {a : α} {as : List α} {bs : List β} :
    (a :: as).mapM f = .ok bs ↔ ∃ b rest, f a = .ok b ∧ as.mapM f = .ok rest ∧ bs = b :: rest := by
  simp only [List.mapM_cons, bind_eq_ok, pure_eq_ok]
  constructor
  · rintro ⟨b, hb, rest, hrest, rfl⟩
    exact ⟨b, rest, hb, hrest, rfl⟩
  · rintro ⟨b, rest, hb, hrest, rfl⟩
    exact ⟨b, hb, rest, hrest, rfl⟩

theorem mapM_eq_ok {f : α → Except ε β} {as : List α} {bs : List β} :
    as.mapM f = .ok bs ↔ List.Forall₂ (fun a b => f a = .ok b) as bs := by
  induction as generalizing bs with
  | nil => rw [List.mapM_nil, pure_eq_ok, List.forall₂_nil_left_iff, eq_comm]
  | cons a as ih =>
      rw [mapM_cons_eq_ok]
      constructor
      · rintro ⟨b, rest, hb, hrest, rfl⟩
        exact .cons hb (ih.1 hrest)
      · rintro (_ | ⟨hb, hrest⟩)
        exact ⟨_, _, hb, ih.2 hrest, rfl⟩

theorem exists_left_of_forall₂ {r : α → β → Prop} {as : List α} {bs : List β}
    (h : List.Forall₂ r as bs) {b : β} (hb : b ∈ bs) : ∃ a ∈ as, r a b := by
  induction h with
  | nil => exact absurd hb List.not_mem_nil
  | @cons a b' as bs hr hrest ih =>
      rcases List.mem_cons.1 hb with rfl | hb
      · exact ⟨a, List.mem_cons_self .., hr⟩
      · obtain ⟨a', ha', hr'⟩ := ih hb
        exact ⟨a', .tail _ ha', hr'⟩

theorem exists_right_of_forall₂ {r : α → β → Prop} {as : List α} {bs : List β}
    (h : List.Forall₂ r as bs) {a : α} (ha : a ∈ as) : ∃ b ∈ bs, r a b :=
  exists_left_of_forall₂ (r := fun b a => r a b) h.flip ha

theorem forall₂_comp {γ : Type} {r : α → β → Prop} {s : β → γ → Prop} {t : α → γ → Prop}
    {as : List α} {bs : List β} {cs : List γ} (h : List.Forall₂ r as bs)
    (h' : List.Forall₂ s bs cs) (ht : ∀ {a b c}, r a b → s b c → t a c) :
    List.Forall₂ t as cs := by
  induction h generalizing cs with
  | nil =>
      cases h'
      exact .nil
  | cons hr _ ih =>
      cases h' with
      | cons hs hrest => exact .cons (ht hr hs) (ih hrest)

/-- The results of the steps are those of the elements. -/
theorem mem_iff_of_mapM_eq_ok {f : α → Except ε β} {as : List α} {bs : List β}
    (h : as.mapM f = .ok bs) {b : β} : b ∈ bs ↔ ∃ a ∈ as, f a = .ok b := by
  have hall := mapM_eq_ok.1 h
  constructor
  · exact exists_left_of_forall₂ hall
  · rintro ⟨a, ha, hok⟩
    obtain ⟨b', hb', hok'⟩ := exists_right_of_forall₂ hall ha
    rwa [Except.ok.inj (hok.symm.trans hok')]

theorem map_eq_map_of_forall₂ {γ : Type} {r : α → β → Prop} {as : List α} {bs : List β}
    (h : List.Forall₂ r as bs) {f : α → γ} {g : β → γ} (hr : ∀ {a b}, r a b → f a = g b) :
    bs.map g = as.map f := by
  induction h with
  | nil => rfl
  | cons hab hrest ih => rw [List.map_cons, List.map_cons, ih, hr hab]

end RigPack
