import Mathlib.Data.List.Dedup
import Mathlib.Data.List.Perm.Subperm

/-!
Pages by offset. A reader asks for the pages of a list one after another and goes on where the
last page ended, while entries come in at the front of the list and go at its end.
-/

namespace HarborBeacon.OffsetPages

variable {κ : Type}

def page (view : List κ) (cursor limit : Nat) : List κ :=
  (view.drop cursor).take limit

/-- From one view to the next, an entry moves back by `count` places at most, and none that stays
moves ahead of a cursor. -/
structure Grown (Stays : κ → Prop) (count : Nat) (view view' : List κ) : Prop where
  earlier : ∀ j x, view'[j + count]? = some x → view[j]? = some x
  stays : ∀ cursor x, x ∈ view.drop cursor → Stays x → x ∈ view'.drop cursor

/-- A reader follows the pages of a view from a cursor on: what the pages yield, how many entries
come in between the first and the last of them, and whether the last one reaches the end. -/
inductive Follows (Stays : κ → Prop) : List κ → Nat → List κ → Nat → Prop → Prop where
  | last (view : List κ) (cursor limit : Nat) :
      Follows Stays view cursor (page view cursor limit) 0
        (view.length ≤ cursor + (page view cursor limit).length)
  | next {view view' yielded : List κ} {cursor limit count added : Nat} {Done : Prop}
      (hgrown : Grown Stays added view view')
      (hrest : Follows Stays view' (cursor + (page view cursor limit).length) yielded count Done) :
      Follows Stays view cursor (page view cursor limit ++ yielded) (added + count) Done

variable {Stays : κ → Prop} {view view' yielded : List κ} {cursor limit count added : Nat}
  {Done : Prop}

theorem mem_page_or_mem_drop (limit : Nat) {x : κ} (h : x ∈ view.drop cursor) :
    x ∈ page view cursor limit ∨
      x ∈ view.drop (cursor + (page view cursor limit).length) := by
  rw [page]
  rcases Nat.le_total limit (view.drop cursor).length with hlimit | hlimit
  · rw [List.length_take_of_le hlimit, ← List.drop_drop]
    rw [← List.take_append_drop limit (view.drop cursor), List.mem_append] at h
    exact h
  · rw [List.take_of_length_le hlimit]
    exact Or.inl h

theorem grown_refl (Stays : κ → Prop) (view : List κ) : Grown Stays 0 view view where
  earlier _ _ h := h
  stays _ _ h _ := h

theorem Grown.trans {view'' : List κ} (h : Grown Stays count view view')
    (h' : Grown Stays added view' view'') : Grown Stays (count + added) view view'' where
  earlier j x hx := h.earlier j x (h'.earlier (j + count) x (Nat.add_assoc j count added ▸ hx))
  stays cursor x hx hstays := h'.stays cursor x (h.stays cursor x hx hstays) hstays

theorem grown_append (front rest : List κ) {gone : List κ} (hgone : ∀ x ∈ gone, ¬ Stays x) :
    Grown Stays front.length (rest ++ gone) (front ++ rest) := by
  constructor
  · intro j x hx
    rw [List.getElem?_append_right (Nat.le_add_left _ _), Nat.add_sub_cancel] at hx
    rw [List.getElem?_append_left (List.getElem?_eq_some_iff.mp hx).1, hx]
  · intro cursor x hx hstays
    rw [List.drop_append, List.mem_append] at hx
    rcases hx with hrest | hmem
    · rw [List.drop_append, List.mem_append]
      have hsuffix := List.drop_suffix_drop_left rest (Nat.sub_le cursor front.length)
      exact Or.inr (hsuffix.subset hrest)
    · exact absurd hstays (hgone x (List.mem_of_mem_drop hmem))

theorem Follows.mem_yielded (h : Follows Stays view cursor yielded count Done) (hdone : Done)
    {x : κ} (hx : x ∈ view.drop cursor) (hstays : Stays x) : x ∈ yielded := by
  induction h with
  | last view cursor limit =>
      rcases mem_page_or_mem_drop limit hx with hpage | hrest
      · exact hpage
      · rw [List.drop_eq_nil_of_le hdone] at hrest
        cases hrest
  | @next view view' yielded cursor limit count added Done hgrown _ ih =>
      rcases mem_page_or_mem_drop limit hx with hpage | hrest
      · exact List.mem_append_left _ hpage
      · exact List.mem_append_right _ (ih hdone (hgrown.stays _ _ hrest hstays))

theorem exists_mem_page {j : Nat} (hj : cursor ≤ j)
    (hlength : j < cursor + (page view cursor limit).length) :
    ∃ x ∈ page view cursor limit, view[j]? = some x := by
  have hpage : j - cursor < (page view cursor limit).length := by omega
  refine ⟨(page view cursor limit)[j - cursor], List.getElem_mem hpage, ?_⟩
  have hget := List.getElem?_eq_getElem hpage
  rw [← hget]
  rw [page, List.length_take, List.length_drop] at hpage
  rw [page, List.getElem?_take_of_lt (by omega), List.getElem?_drop]
  congr 1
  omega

theorem Follows.exists_mem (h : Follows Stays view cursor yielded count Done) {j : Nat}
    (hj : cursor ≤ j) (hlength : j + count < cursor + yielded.length) :
    ∃ x ∈ yielded, view[j]? = some x := by
  induction h generalizing j with
  | last view cursor limit => exact exists_mem_page hj hlength
  | @next view view' yielded cursor limit count added Done hgrown _ ih =>
      rw [List.length_append] at hlength
      rcases Nat.lt_or_ge j (cursor + (page view cursor limit).length) with hfirst | hlater
      · obtain ⟨x, hx, hget⟩ := exists_mem_page hj hfirst
        exact ⟨x, List.mem_append_left _ hx, hget⟩
      · obtain ⟨x, hx, hget⟩ := ih (j := j + added) (by omega) (by omega)
        exact ⟨x, List.mem_append_right _ hx, hgrown.earlier j x hget⟩

variable [DecidableEq κ]

theorem Follows.length_le (h : Follows Stays view cursor yielded count Done) (hview : view.Nodup) :
    yielded.length ≤ yielded.dedup.length + count := by
  rcases Nat.lt_or_ge count yielded.length with hcount | hcount
  · have hsubset : ((view.drop cursor).take (yielded.length - count)) ⊆ yielded.dedup := by
      intro x hx
      obtain ⟨i, hi, rfl⟩ := List.mem_iff_getElem.mp hx
      rw [List.length_take, List.length_drop] at hi
      obtain ⟨y, hy, hget⟩ := h.exists_mem (j := cursor + i) (by omega) (by omega)
      rw [List.mem_dedup, List.getElem_take, List.getElem_drop]
      rw [List.getElem?_eq_some_iff] at hget
      obtain ⟨_, hget⟩ := hget
      rw [hget]
      exact hy
    have hnodup : ((view.drop cursor).take (yielded.length - count)).Nodup :=
      (hview.sublist (List.drop_sublist _ _)).sublist (List.take_sublist _ _)
    have hle := (List.subperm_of_subset hnodup hsubset).length_le
    obtain ⟨_, _, hlast⟩ := h.exists_mem (j := cursor + (yielded.length - count - 1)) (by omega)
      (by omega)
    have hlength := (List.getElem?_eq_some_iff.mp hlast).1
    rw [List.length_take, List.length_drop] at hle
    omega
  · omega

theorem Follows.nodup (h : Follows Stays view cursor yielded 0 Done) (hview : view.Nodup) :
    yielded.Nodup := by
  have hle := h.length_le hview
  rw [← List.dedup_eq_self]
  exact (List.dedup_sublist yielded).eq_of_length_le hle

end HarborBeacon.OffsetPages
