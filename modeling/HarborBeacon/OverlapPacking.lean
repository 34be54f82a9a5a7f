import Mathlib.Algebra.GroupWithZero.Nat
import Mathlib.Data.List.Infix

/-!
Items packed into bins one after another. An item that does not fit into the open bin closes it,
and the next bin begins with items that are carried over from the closed one, so that
neighbouring bins overlap.
-/

namespace HarborBeacon.OverlapPacking

variable {α : Type}

section Overlays

variable (carry : List α → List α)

def overlay : List α → List (List α) → List (List α)
  | _, [] => []
  | carried, part :: parts => (carried ++ part) :: overlay (carry (carried ++ part)) parts

def carriedAfter : List α → List (List α) → List α
  | carried, [] => carried
  | carried, part :: parts => carriedAfter (carry (carried ++ part)) parts

variable {carry}

theorem overlay_append (carried : List α) (parts more : List (List α)) :
    overlay carry carried (parts ++ more) =
      overlay carry carried parts ++ overlay carry (carriedAfter carry carried parts) more := by
  induction parts generalizing carried with
  | nil => rfl
  | cons part parts ih => rw [List.cons_append, overlay, overlay, carriedAfter, ih, List.cons_append]

theorem carriedAfter_append (carried : List α) (parts more : List (List α)) :
    carriedAfter carry carried (parts ++ more) =
      carriedAfter carry (carriedAfter carry carried parts) more := by
  induction parts generalizing carried with
  | nil => rfl
  | cons part parts ih => rw [List.cons_append, carriedAfter, carriedAfter, ih]

end Overlays

section Packing

variable (weight : α → Nat) (capacity : Nat) (carry : List α → List α)

def total (items : List α) : Nat :=
  (items.map weight).sum

structure Bins (α : Type) where
  closed : List (List α) := []
  current : List α := []
  load : Nat := 0

def Bins.add (bins : Bins α) (item : α) : Bins α :=
  if bins.current.isEmpty = false ∧ capacity < bins.load + weight item then
    { closed := bins.closed ++ [bins.current]
      current := carry bins.current ++ [item]
      load := total weight (carry bins.current) + weight item }
  else
    { bins with current := bins.current ++ [item], load := bins.load + weight item }

def Bins.all (bins : Bins α) : List (List α) :=
  bins.closed ++ if bins.current.isEmpty then [] else [bins.current]

structure Packed (bins : Bins α) (items : List α) : Prop where
  load : bins.load = total weight bins.current
  cut : (items = [] ∧ bins.closed = [] ∧ bins.current = []) ∨
    ∃ parts last, (∀ part ∈ parts, part ≠ []) ∧ last ≠ [] ∧ parts.flatten ++ last = items ∧
      bins.closed = overlay carry [] parts ∧ bins.current = carriedAfter carry [] parts ++ last

variable {weight capacity carry} {bins : Bins α} {items : List α} {overlap : Nat}

theorem total_append (a b : List α) : total weight (a ++ b) = total weight a + total weight b := by
  simp [total]

theorem Bins.all_of_nil (h : bins.current = []) : bins.all = bins.closed := by
  rw [Bins.all, h]
  exact List.append_nil _

theorem Bins.all_of_ne_nil (h : bins.current ≠ []) : bins.all = bins.closed ++ [bins.current] := by
  rw [Bins.all, if_neg (by simpa using h)]

theorem packed_nil : Packed weight carry {} ([] : List α) where
  load := rfl
  cut := Or.inl ⟨rfl, rfl, rfl⟩

theorem Packed.add (h : Packed weight carry bins items) (item : α) :
    Packed weight carry (bins.add weight capacity carry item) (items ++ [item]) := by
  rw [Bins.add]
  split
  · rename_i hfull
    refine ⟨?_, Or.inr ?_⟩
    · rw [total_append]
      simp [total]
    · rcases h.cut with ⟨-, -, hempty⟩ | ⟨parts, last, hparts, hlast, hitems, hclosed, hcurrent⟩
      · rw [hempty] at hfull
        exact absurd hfull.1 (by simp)
      · refine ⟨parts ++ [last], [item], ?_, by simp, by simp [hitems], ?_, ?_⟩
        · intro part hpart
          rcases List.mem_append.mp hpart with hold | hnew
          · exact hparts part hold
          · rw [List.mem_singleton.mp hnew]
            exact hlast
        · rw [overlay_append, hclosed, hcurrent]
          rfl
        · rw [carriedAfter_append, hcurrent]
          rfl
  · refine ⟨?_, Or.inr ?_⟩
    · rw [total_append, h.load]
      simp [total]
    · rcases h.cut with
        ⟨rfl, hclosed, hcurrent⟩ | ⟨parts, last, hparts, hlast, rfl, hclosed, hcurrent⟩
      · exact ⟨[], [item], by simp, by simp, rfl, hclosed, by rw [hcurrent]; rfl⟩
      · refine ⟨parts, last ++ [item], hparts, by simp, by simp, hclosed, ?_⟩
        rw [hcurrent, List.append_assoc]

theorem Packed.foldl (h : Packed weight carry bins items) (more : List α) :
    Packed weight carry (more.foldl (Bins.add weight capacity carry) bins) (items ++ more) := by
  induction more generalizing bins items with
  | nil => simpa using h
  | cons item rest ih =>
      rw [List.foldl_cons, List.append_cons]
      exact ih (h.add item)

theorem exists_parts (items : List α) :
    ∃ parts, (∀ part ∈ parts, part ≠ []) ∧ parts.flatten = items ∧
      (items.foldl (Bins.add weight capacity carry) {}).all = overlay carry [] parts := by
  have h : Packed weight carry (items.foldl (Bins.add weight capacity carry) {}) ([] ++ items) :=
    packed_nil.foldl items
  rw [List.nil_append] at h
  rcases h.cut with ⟨hitems, hclosed, hcurrent⟩ | ⟨parts, last, hparts, hlast, hitems, hclosed, hcurrent⟩
  · refine ⟨[], by simp, hitems.symm, ?_⟩
    rw [Bins.all_of_nil hcurrent, hclosed]
    rfl
  · refine ⟨parts ++ [last], ?_, by simpa using hitems, ?_⟩
    · intro part hpart
      rcases List.mem_append.mp hpart with hold | hnew
      · exact hparts part hold
      · rw [List.mem_singleton.mp hnew]
        exact hlast
    · rw [Bins.all_of_ne_nil (by simp [hcurrent, hlast]), overlay_append, hclosed, hcurrent]
      rfl

structure Bounded (weight : α → Nat) (bound : Nat) (bins : Bins α) : Prop where
  load : bins.load = total weight bins.current
  closed : ∀ bin ∈ bins.closed, total weight bin ≤ bound
  current : total weight bins.current ≤ bound

theorem Bounded.add (h : Bounded weight (capacity + overlap) bins)
    (hcarry : total weight (carry bins.current) ≤ overlap) {item : α}
    (hitem : weight item ≤ capacity) :
    Bounded weight (capacity + overlap) (bins.add weight capacity carry item) := by
  rw [Bins.add]
  split
  · refine ⟨by simp [total], ?_, ?_⟩
    · intro bin hbin
      rcases List.mem_append.mp hbin with hold | hnew
      · exact h.closed bin hold
      · rw [List.mem_singleton.mp hnew]
        exact h.current
    · have hsingle : total weight [item] = weight item := by simp [total]
      rw [total_append, hsingle]
      omega
  · rename_i hfits
    have hsingle : total weight [item] = weight item := by simp [total]
    refine ⟨by rw [total_append, h.load, hsingle], h.closed, ?_⟩
    rw [total_append, hsingle, ← h.load]
    rcases hcurrent : bins.current with _ | ⟨first, rest⟩
    · have hload := h.load
      rw [hcurrent] at hload
      have hzero : bins.load = 0 := hload
      omega
    · rw [hcurrent] at hfits
      simp only [List.isEmpty_cons, true_and, not_lt] at hfits
      omega

theorem Bounded.foldl (h : Bounded weight (capacity + overlap) bins)
    (hcarry : ∀ bin, total weight (carry bin) ≤ overlap)
    (hitems : ∀ item ∈ items, weight item ≤ capacity) :
    Bounded weight (capacity + overlap) (items.foldl (Bins.add weight capacity carry) bins) := by
  induction items generalizing bins with
  | nil => exact h
  | cons item rest ih =>
      exact ih (h.add (hcarry _) (hitems item List.mem_cons_self))
        fun other hother => hitems other (List.mem_cons_of_mem _ hother)

theorem total_le_of_mem_all (hcarry : ∀ bin, total weight (carry bin) ≤ overlap)
    (hitems : ∀ item ∈ items, weight item ≤ capacity) {bin : List α}
    (hbin : bin ∈ (items.foldl (Bins.add weight capacity carry) {}).all) :
    total weight bin ≤ capacity + overlap := by
  have hstart : Bounded weight (capacity + overlap) ({} : Bins α) :=
    ⟨rfl, by simp, Nat.zero_le _⟩
  have h := hstart.foldl hcarry hitems
  rcases List.mem_append.mp hbin with hclosed | hcurrent
  · exact h.closed bin hclosed
  · split at hcurrent
    · exact absurd hcurrent (by simp)
    · rw [List.mem_singleton.mp hcurrent]
      exact h.current

end Packing

section Positions

variable {β : Type} {f : α → β} {carry : List α → List α} {parts : List (List α)} {carried : List α}
  {bin : List α}

theorem infix_of_mem_overlay (hcarry : ∀ bin, ((carry bin).map f) <:+ bin.map f)
    {carried before : List α} (hcarried : carried.map f <:+ before.map f)
    (hbin : bin ∈ overlay carry carried parts) :
    bin.map f <:+: (before ++ parts.flatten).map f := by
  induction parts generalizing carried before with
  | nil => exact absurd hbin (by simp [overlay])
  | cons part parts ih =>
      have hnext : (carried ++ part).map f <:+ (before ++ part).map f := by
        obtain ⟨lead, hlead⟩ := hcarried
        refine ⟨lead, ?_⟩
        rw [List.map_append, List.map_append, ← List.append_assoc, hlead]
      rw [List.flatten_cons, ← List.append_assoc]
      rcases List.mem_cons.mp hbin with rfl | hrest
      · refine hnext.isInfix.trans ?_
        exact ((List.prefix_append _ _).map f).isInfix
      · exact ih ((hcarry _).trans hnext) hrest

theorem forall_mem_overlay (hcarry : ∀ bin, ((carry bin).map f) <:+ bin.map f) {p : β → Prop}
    (hcarried : ∀ y ∈ carried.map f, p y) (hparts : ∀ y ∈ parts.flatten.map f, p y)
    (hbin : bin ∈ overlay carry carried parts) : ∀ y ∈ bin.map f, p y := by
  intro y hy
  have hmem := (infix_of_mem_overlay hcarry (List.suffix_refl _) hbin).subset hy
  rw [List.map_append, List.mem_append] at hmem
  exact hmem.elim (hcarried y) (hparts y)

theorem pairwise_overlay (hcarry : ∀ bin, ((carry bin).map f) <:+ bin.map f) {r : β → β → Prop}
    (hrefl : ∀ y, r y y) (hsorted : ((carried ++ parts.flatten).map f).Pairwise r) :
    (overlay carry carried parts).Pairwise fun bin later =>
      ∀ first ∈ bin.head?, ∀ y ∈ later.map f, r (f first) y := by
  induction parts generalizing carried with
  | nil => exact List.Pairwise.nil
  | cons part parts ih =>
      rw [List.flatten_cons, ← List.append_assoc, List.map_append] at hsorted
      have hnext := hcarry (carried ++ part)
      rw [overlay]
      refine List.Pairwise.cons ?_ (ih ?_)
      · intro later hlater first hfirst
        obtain ⟨rest, hbin⟩ := List.head?_eq_some_iff.mp hfirst
        rw [hbin, List.map_cons, List.cons_append, List.pairwise_cons] at hsorted
        refine forall_mem_overlay hcarry ?_ ?_ hlater
        · intro y hy
          have hmem := hnext.subset hy
          rw [hbin, List.map_cons, List.mem_cons] at hmem
          rcases hmem with rfl | hmem
          · exact hrefl _
          · exact hsorted.1 y (List.mem_append_left _ hmem)
        · exact fun y hy => hsorted.1 y (List.mem_append_right _ hy)
      · rw [List.map_append]
        exact hsorted.sublist (hnext.sublist.append (List.Sublist.refl _))

end Positions

end HarborBeacon.OverlapPacking
