import HarborBeacon.FilledTables
import Mathlib.Data.List.Basic

/-!
Rows in the order of a key: the first of them up to a number, and the groups of rows with the same
value. The groups of distinct values take the rows apart without loss.
-/

namespace HarborBeacon.GroupedRows

open FilledTables

variable {α κ : Type}

section Leading

variable [LinearOrder κ] {items chosen : List α} {key : α → κ} {β : Type}

/-- The rows with the smallest keys, `n` of them or all there are, in the order of their keys. -/
structure Leading (key : α → κ) (n : Nat) (items chosen : List α) : Prop where
  length_eq : chosen.length = min n items.length
  sorted : (chosen.map key).Pairwise (· ≤ ·)
  ahead : ∃ others, items.Perm (chosen ++ others) ∧
    ∀ row ∈ chosen, ∀ other ∈ others, key row ≤ key other

theorem leading_take_sortOn (key : α → κ) (n : Nat) (items : List α) :
    Leading key n items ((sortOn key items).take n) := by
  have hsorted : ((sortOn key items).map key).Pairwise (· ≤ ·) := sorted_sortOn items
  have hperm : (sortOn key items).Perm items := sortOn_perm items
  constructor
  · rw [List.length_take, hperm.length_eq]
  · rw [List.map_take]
    exact hsorted.sublist (List.take_sublist n _)
  · refine ⟨(sortOn key items).drop n, ?_, ?_⟩
    · rw [List.take_append_drop]
      exact hperm.symm
    · rw [List.pairwise_map, ← List.take_append_drop n (sortOn key items),
        List.pairwise_append] at hsorted
      exact hsorted.2.2

theorem Leading.coarsen [LinearOrder β] {coarse : α → β} {n : Nat} (h : Leading key n items chosen)
    (hcoarse : ∀ a b, key a ≤ key b → coarse a ≤ coarse b) : Leading coarse n items chosen := by
  obtain ⟨hlength, hsorted, others, hperm, hahead⟩ := h
  rw [List.pairwise_map] at hsorted
  refine ⟨hlength, ?_, others, hperm, ?_⟩
  · rw [List.pairwise_map]
    exact hsorted.imp (hcoarse _ _)
  · intro row hrow other hother
    exact hcoarse row other (hahead row hrow other hother)

theorem exists_head?_sortOn (key : α → κ) {items : List α} (hne : items ≠ []) :
    ∃ first ∈ items, (sortOn key items).head? = some first ∧
      ∀ row ∈ items, key first ≤ key row := by
  have hsorted : ((sortOn key items).map key).Pairwise (· ≤ ·) := sorted_sortOn items
  rcases hitems : sortOn key items with _ | ⟨first, rest⟩
  · have hperm : (sortOn key items).Perm items := sortOn_perm items
    rw [hitems] at hperm
    exact absurd hperm.symm.eq_nil hne
  · rw [hitems, List.map_cons, List.pairwise_cons] at hsorted
    have hmem : ∀ row ∈ items, row ∈ first :: rest := fun row hrow =>
      hitems ▸ mem_sortOn.mpr hrow
    refine ⟨first, mem_sortOn.mp (hitems ▸ List.mem_cons_self), rfl, ?_⟩
    intro row hrow
    rcases List.mem_cons.mp (hmem row hrow) with rfl | hlater
    · exact le_rfl
    · exact hsorted.1 _ (List.mem_map_of_mem hlater)

theorem exists_getLast?_sortOn (key : α → κ) {items : List α} (hne : items ≠ []) :
    ∃ last ∈ items, (sortOn key items).getLast? = some last ∧
      ∀ row ∈ items, key row ≤ key last := by
  have hsorted : ((sortOn key items).map key).Pairwise (· ≤ ·) := sorted_sortOn items
  rcases List.eq_nil_or_concat (sortOn key items) with hitems | ⟨rest, last, hitems⟩
  · have hperm : (sortOn key items).Perm items := sortOn_perm items
    rw [hitems] at hperm
    exact absurd hperm.symm.eq_nil hne
  · rw [List.concat_eq_append] at hitems
    rw [hitems, List.map_append, List.pairwise_append] at hsorted
    have hmem : ∀ row ∈ items, row ∈ rest ++ [last] := fun row hrow =>
      hitems ▸ mem_sortOn.mpr hrow
    refine ⟨last, mem_sortOn.mp (hitems ▸ List.mem_append_right rest List.mem_cons_self), ?_, ?_⟩
    · rw [hitems, List.getLast?_concat]
    · intro row hrow
      rcases List.mem_append.mp (hmem row hrow) with hearlier | hlast
      · exact hsorted.2.2 _ (List.mem_map_of_mem hearlier) _ (by simp)
      · exact le_of_eq (congrArg key (List.mem_singleton.mp hlast))

theorem Leading.nodup_map {f : α → β} {n : Nat} (h : Leading key n items chosen)
    (hitems : (items.map f).Nodup) : (chosen.map f).Nodup := by
  obtain ⟨others, hperm, -⟩ := h.ahead
  have hall := (hperm.map f).nodup_iff.mp hitems
  rw [List.map_append] at hall
  exact (List.nodup_append.mp hall).1

end Leading

section Groups

variable [DecidableEq κ]

theorem flatMap_groups_perm {value : α → κ} {values : List κ} (hnodup : values.Nodup)
    {items : List α} (hcovered : ∀ row ∈ items, value row ∈ values) :
    (values.flatMap fun v => items.filter fun row => value row = v).Perm items := by
  induction values generalizing items with
  | nil =>
      have hnil : items = [] := List.eq_nil_iff_forall_not_mem.mpr fun row hrow =>
        absurd (hcovered row hrow) List.not_mem_nil
      simp [hnil]
  | cons v values ih =>
      obtain ⟨hv, hvalues⟩ := List.nodup_cons.mp hnodup
      have hother : ∀ w ∈ values, (items.filter fun row => value row = w) =
          (items.filter fun row => !decide (value row = v)).filter fun row => value row = w := by
        intro w hw
        have hne : w ≠ v := fun heq => hv (heq ▸ hw)
        rw [List.filter_filter]
        apply List.filter_congr
        intro row _
        rcases eq_or_ne (value row) w with heq | hne'
        · simp [heq, hne]
        · simp [hne']
      have hrest : ∀ row ∈ items.filter fun row => !decide (value row = v), value row ∈ values := by
        intro row hrow
        rw [List.mem_filter] at hrow
        exact (List.mem_cons.mp (hcovered row hrow.1)).resolve_left (by simpa using hrow.2)
      rw [List.flatMap_cons, List.flatMap_congr hother]
      exact ((ih hvalues hrest).append_left _).trans (List.filter_append_perm _ items)

end Groups

end HarborBeacon.GroupedRows
