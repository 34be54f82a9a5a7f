import Mathlib.Data.List.Nodup

/-!
Shelves that hold marks under keys. Items under different keys are all on the shelf in the end if
and only if the shelf was never cleared.
-/

namespace HarborBeacon.SizedShelves

variable {α κ μ : Type} [DecidableEq κ] [DecidableEq μ]

structure Shelf (κ μ : Type) where
  held : κ → Option μ
  size : Option Nat

/-- What is read off an item. -/
structure Labels (α κ μ : Type) where
  key : α → κ
  mark : α → μ
  size : α → Nat

variable (labels : Labels α κ μ)

def Shelf.put (shelf : Shelf κ μ) (item : α) : Shelf κ μ where
  held :=
    Function.update
      (if shelf.size.any (· ≠ labels.size item) then fun _ => none else shelf.held)
      (labels.key item) (some (labels.mark item))
  size := some (labels.size item)

def Shelf.add (shelf : Shelf κ μ) (item : α) : Shelf κ μ :=
  if shelf.held (labels.key item) = some (labels.mark item) then shelf else shelf.put labels item

def Shelf.Holds (shelf : Shelf κ μ) (item : α) : Prop :=
  shelf.held (labels.key item) = some (labels.mark item)

variable {labels} {shelf : Shelf κ μ} {items : List α} {n : Nat} {k : κ} {item : α} {rest : List α}
  {first : α}

omit [DecidableEq μ] in
theorem held_put_of_ne (shelf : Shelf κ μ) (hk : k ≠ labels.key item) :
    (shelf.put labels item).held k = none ∨ (shelf.put labels item).held k = shelf.held k := by
  rw [Shelf.put]
  dsimp only
  rw [Function.update_of_ne hk]
  split
  · exact Or.inl rfl
  · exact Or.inr rfl

omit [DecidableEq μ] in
theorem held_put_of_size (hk : k ≠ labels.key item)
    (hsize : shelf.size = none ∨ shelf.size = some (labels.size item)) :
    (shelf.put labels item).held k = shelf.held k := by
  have hkept : ¬ shelf.size.any (· ≠ labels.size item) = true := by
    rcases hsize with hnone | hsome
    · simp [hnone]
    · simp [hsome]
  rw [Shelf.put]
  dsimp only
  rw [Function.update_of_ne hk, if_neg hkept]

omit [DecidableEq μ] in
theorem held_put_of_cleared (hk : k ≠ labels.key item) (hsize : shelf.size = some n)
    (hother : labels.size item ≠ n) :
    (shelf.put labels item).held k = none := by
  have hcleared : shelf.size.any (· ≠ labels.size item) = true := by
    simp [hsize, hother.symm]
  rw [Shelf.put]
  dsimp only
  rw [Function.update_of_ne hk, if_pos hcleared]

theorem holds_add (shelf : Shelf κ μ) (item : α) : (shelf.add labels item).Holds labels item := by
  rw [Shelf.Holds, Shelf.add]
  split
  · rename_i hheld
    exact hheld
  · exact Function.update_self ..

theorem held_foldl_of_none (hnone : shelf.held k = none) (hk : k ∉ items.map labels.key) :
    (items.foldl (Shelf.add labels) shelf).held k = none := by
  induction items generalizing shelf with
  | nil => exact hnone
  | cons item rest ih =>
      rw [List.map_cons, List.mem_cons, not_or] at hk
      refine ih ?_ hk.2
      rw [Shelf.add]
      split
      · exact hnone
      · rcases held_put_of_ne shelf hk.1 with h | h
        · exact h
        · rw [h, hnone]

theorem held_foldl_of_sizes (hsize : shelf.size = some n) (hkeys : (items.map labels.key).Nodup)
    (hsizes : ∀ item ∈ items, ¬ shelf.Holds labels item → labels.size item = n)
    (hk : k ∉ items.map labels.key) :
    (items.foldl (Shelf.add labels) shelf).held k = shelf.held k := by
  induction items generalizing shelf with
  | nil => rfl
  | cons item rest ih =>
      rw [List.map_cons, List.mem_cons, not_or] at hk
      rw [List.map_cons, List.nodup_cons] at hkeys
      rw [List.foldl_cons]
      by_cases hholds : shelf.Holds labels item
      · have hsame : shelf.add labels item = shelf := if_pos hholds
        rw [hsame]
        exact ih hsize hkeys.2 (fun other hother => hsizes other (List.mem_cons_of_mem _ hother))
          hk.2
      · have hput : shelf.add labels item = shelf.put labels item := if_neg hholds
        have hitem := hsizes item List.mem_cons_self hholds
        have hfits : shelf.size = none ∨ shelf.size = some (labels.size item) :=
          Or.inr (hsize.trans (congrArg some hitem.symm))
        rw [hput, ih (congrArg some hitem) hkeys.2 ?_ hk.2, held_put_of_size hk.1 hfits]
        intro other hother hlacks
        refine hsizes other (List.mem_cons_of_mem _ hother) fun hholds' => hlacks ?_
        have hne : labels.key other ≠ labels.key item := fun h =>
          hkeys.1 (h ▸ List.mem_map_of_mem hother)
        rw [Shelf.Holds, held_put_of_size hne hfits]
        exact hholds'

theorem holds_foldl_of_sizes (hsize : shelf.size = some n) (hkeys : (items.map labels.key).Nodup)
    (hsizes : ∀ item ∈ items, ¬ shelf.Holds labels item → labels.size item = n) :
    ∀ item ∈ items, (items.foldl (Shelf.add labels) shelf).Holds labels item := by
  induction items generalizing shelf with
  | nil => exact fun item hitem => absurd hitem List.not_mem_nil
  | cons first rest ih =>
      rw [List.map_cons, List.nodup_cons] at hkeys
      have hrest : ∀ other ∈ rest, ¬ (shelf.add labels first).Holds labels other →
          labels.size other = n := by
        intro other hother hlacks
        refine hsizes other (List.mem_cons_of_mem _ hother) fun hholds => hlacks ?_
        have hne : labels.key other ≠ labels.key first := fun h =>
          hkeys.1 (h ▸ List.mem_map_of_mem hother)
        have hkept : (shelf.add labels first).held (labels.key other) =
            shelf.held (labels.key other) := by
          rw [Shelf.add]
          split
          · rfl
          · rename_i hfirst
            have hsame := hsizes first List.mem_cons_self hfirst
            exact held_put_of_size hne (Or.inr (hsize.trans (congrArg some hsame.symm)))
        exact hkept.trans hholds
      have hnext : (shelf.add labels first).size = some n := by
        rw [Shelf.add]
        split
        · exact hsize
        · rename_i hlacks
          exact congrArg some (hsizes first List.mem_cons_self hlacks)
      intro item hitem
      rw [List.foldl_cons]
      rcases List.mem_cons.mp hitem with rfl | hmem
      · have hkept := held_foldl_of_sizes hnext hkeys.2 hrest hkeys.1
        exact hkept.trans (holds_add shelf item)
      · exact ih hnext hkeys.2 hrest item hmem

theorem sizes_of_held (hsize : shelf.size = some n) (hkeys : (items.map labels.key).Nodup)
    (hk : k ∉ items.map labels.key) (hheld : (items.foldl (Shelf.add labels) shelf).held k ≠ none) :
    ∀ item ∈ items, ¬ shelf.Holds labels item → labels.size item = n := by
  induction items generalizing shelf with
  | nil => exact fun item hitem => absurd hitem List.not_mem_nil
  | cons first rest ih =>
      rw [List.map_cons, List.mem_cons, not_or] at hk
      rw [List.map_cons, List.nodup_cons] at hkeys
      rw [List.foldl_cons] at hheld
      by_cases hholds : shelf.Holds labels first
      · have hsame : shelf.add labels first = shelf := if_pos hholds
        rw [hsame] at hheld
        refine List.forall_mem_cons.mpr ⟨fun hlacks => absurd hholds hlacks, ?_⟩
        exact ih hsize hkeys.2 hk.2 hheld
      · have hput : shelf.add labels first = shelf.put labels first := if_neg hholds
        rw [hput] at hheld
        have hfirst : labels.size first = n := by
          by_contra hother
          exact hheld (held_foldl_of_none (held_put_of_cleared hk.1 hsize hother) hk.2)
        refine List.forall_mem_cons.mpr ⟨fun _ => hfirst, ?_⟩
        intro item hitem hlacks
        refine ih (congrArg some hfirst) hkeys.2 hk.2 hheld item hitem fun hholds' => hlacks ?_
        have hne : labels.key item ≠ labels.key first := fun h =>
          hkeys.1 (h ▸ List.mem_map_of_mem hitem)
        rw [Shelf.Holds, held_put_of_size hne (Or.inr (hsize.trans (congrArg some hfirst.symm)))]
          at hholds'
        exact hholds'

theorem holds_foldl_iff (hkeys : ((first :: rest).map labels.key).Nodup)
    (hsize : (shelf.add labels first).size = some n) :
    (∀ item ∈ first :: rest,
        ((first :: rest).foldl (Shelf.add labels) shelf).Holds labels item) ↔
      ∀ item ∈ rest, ¬ (shelf.add labels first).Holds labels item → labels.size item = n := by
  rw [List.map_cons, List.nodup_cons] at hkeys
  rw [List.foldl_cons]
  constructor
  · intro hall
    refine sizes_of_held hsize hkeys.2 hkeys.1 ?_
    rw [hall first List.mem_cons_self]
    exact Option.some_ne_none _
  · intro hsizes
    refine List.forall_mem_cons.mpr ⟨?_, holds_foldl_of_sizes hsize hkeys.2 hsizes⟩
    exact (held_foldl_of_sizes hsize hkeys.2 hsizes hkeys.1).trans (holds_add shelf first)

theorem holds_foldl_iff_of_fits (hkeys : ((first :: rest).map labels.key).Nodup)
    (hsize : (shelf.add labels first).size = some n)
    (hfits : shelf.Holds labels first ∨ shelf.size = some (labels.size first) ∨
      ∀ k, shelf.held k = none) :
    (∀ item ∈ first :: rest,
        ((first :: rest).foldl (Shelf.add labels) shelf).Holds labels item) ↔
      ∀ item ∈ first :: rest, ¬ shelf.Holds labels item → labels.size item = n := by
  have hfirst : ¬ shelf.Holds labels first → labels.size first = n := by
    intro hlacks
    have hput : shelf.add labels first = shelf.put labels first := if_neg hlacks
    rw [hput] at hsize
    exact Option.some.inj hsize
  have hrest : ∀ item ∈ rest,
      ((shelf.add labels first).Holds labels item ↔ shelf.Holds labels item) := by
    intro item hitem
    rw [List.map_cons, List.nodup_cons] at hkeys
    have hne : labels.key item ≠ labels.key first := fun h =>
      hkeys.1 (h ▸ List.mem_map_of_mem hitem)
    rw [Shelf.add]
    split
    · exact Iff.rfl
    · rename_i hlacks
      have hkept : (shelf.put labels first).held (labels.key item) =
          shelf.held (labels.key item) := by
        rcases hfits with hholds | hsame | hnone
        · exact absurd hholds hlacks
        · exact held_put_of_size hne (Or.inr hsame)
        · rcases held_put_of_ne shelf hne with h | h
          · rw [h, hnone]
          · exact h
      rw [Shelf.Holds, hkept, Shelf.Holds]
  rw [holds_foldl_iff hkeys hsize, List.forall_mem_cons]
  constructor
  · intro h
    exact ⟨hfirst, fun item hitem hlacks => h item hitem (mt (hrest item hitem).mp hlacks)⟩
  · rintro ⟨-, h⟩ item hitem hlacks
    exact h item hitem (mt (hrest item hitem).mpr hlacks)

end HarborBeacon.SizedShelves
