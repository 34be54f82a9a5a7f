import Mathlib.Tactic.Common

/-!
Fallible computations taken apart: what is known of the parts of one that returned a value.
-/

namespace HarborBeacon.Results

variable {ε α β : Type} {f : α → Except ε β} {items : List α}

theorem bind_eq_ok {x : Except ε α} {b : β} (h : (x >>= f) = .ok b) :
    ∃ a, x = .ok a ∧ f a = .ok b := by
  rcases x with error | a
  · cases h
  · exact ⟨a, rfl, h⟩

theorem ok_bind (a : α) (f : α → Except ε β) : (Except.ok a >>= f) = f a := rfl

theorem error_bind (e : ε) (f : α → Except ε β) : (Except.error e >>= f) = .error e := rfl

theorem eq_of_return_eq_ok {a b : α} (h : (return a : Except ε α) = .ok b) : a = b :=
  Except.ok.inj h

theorem mem_of_filterMapM {f : α → Except ε (Option β)} {found : List β}
    (h : items.filterMapM f = .ok found) {item : α} (hitem : item ∈ items) {b : β}
    (hb : f item = .ok (some b)) : b ∈ found := by
  induction items generalizing found with
  | nil => cases hitem
  | cons other items ih =>
      rw [List.filterMapM_cons] at h
      obtain ⟨image, himage, h⟩ := bind_eq_ok h
      rcases List.mem_cons.mp hitem with rfl | hrest
      · obtain rfl := Except.ok.inj (hb.symm.trans himage)
        obtain ⟨rest, -, h⟩ := bind_eq_ok h
        rw [← Except.ok.inj h]
        exact List.mem_cons_self
      · rcases image with _ | c
        · exact ih h hrest
        · obtain ⟨rest, hfound, h⟩ := bind_eq_ok h
          rw [← Except.ok.inj h]
          exact List.mem_cons_of_mem _ (ih hfound hrest)

theorem mapM_congr {f g : α → Except ε β} (h : ∀ item ∈ items, f item = g item) :
    items.mapM f = items.mapM g := by
  induction items with
  | nil => rfl
  | cons item rest ih =>
      rw [List.mapM_cons, List.mapM_cons, h item List.mem_cons_self,
        ih fun other hother => h other (List.mem_cons_of_mem _ hother)]

theorem exists_of_mem_mapM {values : List β} (h : items.mapM f = .ok values) {value : β}
    (hvalue : value ∈ values) :
    ∃ item ∈ items, f item = .ok value := by
  induction items generalizing values with
  | nil =>
      rw [List.mapM_nil] at h
      rw [← Except.ok.inj h] at hvalue
      exact absurd hvalue List.not_mem_nil
  | cons item rest ih =>
      rw [List.mapM_cons] at h
      obtain ⟨first, hfirst, h⟩ := bind_eq_ok h
      obtain ⟨others, hothers, h⟩ := bind_eq_ok h
      rw [← Except.ok.inj h] at hvalue
      rcases List.mem_cons.mp hvalue with rfl | hrest
      · exact ⟨item, List.mem_cons_self, hfirst⟩
      · obtain ⟨found, hfound, hsame⟩ := ih hothers hrest
        exact ⟨found, List.mem_cons_of_mem _ hfound, hsame⟩

end HarborBeacon.Results
