import HarborBeacon.FilledTables
import Mathlib.Data.List.Nodup
import Mathlib.Data.List.Perm.Subperm

/-!
The first rows of sorted ones, and the nearest of some rows. A row is among the first `n` exactly if
fewer than `n` others are ahead of it, and so a selection from other rows loses a row exactly if it
does not hold the row or holds `n` that are ahead of it.
-/

namespace HarborBeacon.TopRows

open FilledTables

variable {α κ : Type} [LinearOrder κ] {key : α → κ} {items : List α} {item : α} {n : Nat}
  {others : List α}

theorem exists_split_sortOn (hkeys : (items.map key).Nodup) (hitem : item ∈ items) :
    ∃ front rest, sortOn key items = front ++ item :: rest ∧
      front.length = items.countP fun other => key other < key item := by
  have hperm : (sortOn key items).Perm items := sortOn_perm items
  obtain ⟨front, rest, hsplit⟩ := List.append_of_mem (hperm.symm.subset hitem)
  have hsorted : ((sortOn key items).map key).Pairwise (· < ·) := by
    have hle : ((sortOn key items).map key).Pairwise (· ≤ ·) := sorted_sortOn items
    have hne : ((sortOn key items).map key).Pairwise (· ≠ ·) := (hperm.map key).nodup_iff.mpr hkeys
    exact (hle.and hne).imp fun hboth => lt_of_le_of_ne hboth.1 hboth.2
  rw [hsplit, List.map_append, List.map_cons, List.pairwise_append, List.pairwise_cons] at hsorted
  obtain ⟨-, ⟨hafter, -⟩, hbefore⟩ := hsorted
  refine ⟨front, rest, hsplit, ?_⟩
  have hfront : ∀ other ∈ front, (decide (key other < key item)) = true := fun other hother =>
    decide_eq_true (hbefore _ (List.mem_map_of_mem hother) _ List.mem_cons_self)
  have hrest : ∀ other ∈ item :: rest, ¬ (decide (key other < key item)) = true := by
    intro other hother
    rw [decide_eq_true_iff, not_lt]
    rcases List.mem_cons.mp hother with rfl | hlater
    · exact le_rfl
    · exact (hafter _ (List.mem_map_of_mem hlater)).le
  rw [← hperm.countP_eq, hsplit, List.countP_append, List.countP_eq_length.mpr hfront,
    List.countP_eq_zero.mpr hrest, Nat.add_zero]

theorem mem_take_sortOn_iff_countP (hkeys : (items.map key).Nodup) (hitem : item ∈ items) :
    item ∈ (sortOn key items).take n ↔ (items.countP fun other => key other < key item) < n := by
  obtain ⟨front, rest, hsplit, hlength⟩ := exists_split_sortOn hkeys hitem
  have hnodup : (front ++ item :: rest).Nodup := by
    rw [← hsplit]
    exact (sortOn_perm items).nodup_iff.mpr (List.Nodup.of_map key hkeys)
  have hnot : item ∉ front := fun hmem =>
    (List.nodup_cons.mp (List.nodup_middle.mp hnodup)).1 (List.mem_append_left rest hmem)
  rw [← hlength, hsplit]
  constructor
  · intro htaken
    rcases Nat.lt_or_ge front.length n with hlt | hge
    · exact hlt
    · rw [List.take_append_of_le_length hge] at htaken
      exact absurd (List.mem_of_mem_take htaken) hnot
  · intro hlt
    rw [List.take_append, List.mem_append]
    right
    obtain ⟨m, hm⟩ : ∃ m, n - front.length = m + 1 := ⟨n - front.length - 1, by omega⟩
    rw [hm, List.take_succ_cons]
    exact List.mem_cons_self

theorem le_countP_of_notMem (hkeys : (items.map key).Nodup) (hitem : item ∈ items)
    (hnot : item ∉ (sortOn key items).take n)
    (hothers : ∀ first ∈ (sortOn key items).take n, first ∈ others) :
    n ≤ others.countP fun other => key other < key item := by
  have hperm : (sortOn key items).Perm items := sortOn_perm items
  have hbehind := mt (mem_take_sortOn_iff_countP hkeys hitem).mpr hnot
  have hlength : ((sortOn key items).take n).length = n := by
    have hcount := List.countP_le_length (p := fun other => decide (key other < key item)) (l := items)
    rw [List.length_take, hperm.length_eq]
    omega
  have hahead : ∀ first ∈ (sortOn key items).take n,
      first ∈ others.filter fun other => key other < key item := by
    intro first hfirst
    have hmem : first ∈ items := mem_sortOn.mp (List.mem_of_mem_take hfirst)
    refine List.mem_filter.mpr ⟨hothers first hfirst, decide_eq_true ?_⟩
    -- a first row behind the row would have at least as many ahead of it
    rcases lt_or_ge (key first) (key item) with hlt | hge
    · exact hlt
    · have hfew := (mem_take_sortOn_iff_countP hkeys hmem).mp hfirst
      have hmono : (items.countP fun other => key other < key item) ≤
          items.countP fun other => key other < key first := by
        apply List.countP_mono_left
        intro other _ hother
        exact decide_eq_true ((of_decide_eq_true hother).trans_le hge)
      omega
  have hnodup : ((sortOn key items).take n).Nodup :=
    (hperm.nodup_iff.mpr (List.Nodup.of_map key hkeys)).sublist (List.take_sublist n _)
  have hle := (List.subperm_of_subset hnodup hahead).length_le
  rw [hlength] at hle
  rw [List.countP_eq_length_filter]
  exact hle

theorem take_sortOn_agree_iff {kind : α → Prop} (hitems : (items.map key).Nodup)
    (hothers : (others.map key).Nodup) (hkind : ∀ item ∈ items, kind item)
    (hfrom : ∀ other ∈ others, kind other → other ∈ items) :
    (∀ row, kind row → (row ∈ (sortOn key others).take n ↔ row ∈ (sortOn key items).take n)) ↔
      ∀ row ∈ (sortOn key items).take n,
        row ∈ others ∧ (others.countP fun other => key other < key row) < n := by
  constructor
  · intro hagree row hrow
    have htaken := (hagree row (hkind row (mem_sortOn.mp (List.mem_of_mem_take hrow)))).mpr hrow
    have hmem : row ∈ others := mem_sortOn.mp (List.mem_of_mem_take htaken)
    exact ⟨hmem, (mem_take_sortOn_iff_countP hothers hmem).mp htaken⟩
  · intro hfirst row hrow
    constructor
    · intro htaken
      have hmem : row ∈ others := mem_sortOn.mp (List.mem_of_mem_take htaken)
      rcases Classical.em (row ∈ (sortOn key items).take n) with hin | hout
      · exact hin
      · have hmany := le_countP_of_notMem hitems (hfrom row hmem hrow) hout
          fun first hfirstMem => (hfirst first hfirstMem).1
        have hfew := (mem_take_sortOn_iff_countP hothers hmem).mp htaken
        omega
    · intro htaken
      obtain ⟨hmem, hfew⟩ := hfirst row htaken
      exact (mem_take_sortOn_iff_countP hothers hmem).mpr hfew

structure Chosen (key : α → κ) (n : Nat) (items chosen : List α) : Prop where
  nodup : chosen.Nodup
  subset : ∀ item ∈ chosen, item ∈ items
  length_eq : chosen.length = min n items.length
  nearer : ∀ item ∈ chosen, ∀ other ∈ items, other ∉ chosen → key item ≤ key other

theorem chosen_take (hitems : items.Nodup) (hsorted : (items.map key).Pairwise (· ≤ ·)) (n : Nat) :
    Chosen key n items (items.take n) := by
  rw [List.pairwise_map, ← List.take_append_drop n items, List.pairwise_append] at hsorted
  constructor
  · exact hitems.sublist (List.take_sublist n items)
  · exact fun item hitem => List.mem_of_mem_take hitem
  · exact List.length_take
  · intro item hitem other hother hnot
    rw [← List.take_append_drop n items, List.mem_append] at hother
    exact hsorted.2.2 item hitem other (hother.resolve_left hnot)

theorem Chosen.mem_iff {chosen : List α} (h : Chosen key n items chosen) (hitems : items.Nodup)
    (hkeys : ∀ first ∈ items, ∀ second ∈ items, key first = key second → first = second)
    (hitem : item ∈ items) :
    item ∈ chosen ↔ (items.countP fun other => key other < key item) < n := by
  have hlt : ∀ first ∈ chosen, ∀ other ∈ items, other ∉ chosen → key first < key other := by
    intro first hfirst other hother hnot
    refine lt_of_le_of_ne (h.nearer first hfirst other hother hnot) fun heq => hnot ?_
    rw [← hkeys first (h.subset first hfirst) other hother heq]
    exact hfirst
  rw [List.countP_eq_length_filter]
  constructor
  · intro hchosen
    have hsubset : ∀ other ∈ items.filter fun other => key other < key item,
        other ∈ chosen.filter fun other => key other < key item := by
      intro other hother
      obtain ⟨hmem, hsmaller⟩ := List.mem_filter.mp hother
      refine List.mem_filter.mpr ⟨?_, hsmaller⟩
      rcases Classical.em (other ∈ chosen) with hin | hout
      · exact hin
      · exact absurd (hlt item hchosen other hmem hout) (of_decide_eq_true hsmaller).asymm
    have hle := (List.subperm_of_subset (hitems.filter _) hsubset).length_le
    have hproper : (chosen.filter fun other => key other < key item).length < chosen.length := by
      apply List.length_filter_lt_length_iff_exists.mpr
      exact ⟨item, hchosen, by simp⟩
    have hlength := h.length_eq
    omega
  · intro hfew
    rcases Classical.em (item ∈ chosen) with hin | hout
    · exact hin
    · have hsubset : ∀ first ∈ chosen, first ∈ items.filter fun other => key other < key item :=
        fun first hfirst => List.mem_filter.mpr
          ⟨h.subset first hfirst, decide_eq_true (hlt first hfirst item hitem hout)⟩
      have hle := (List.subperm_of_subset h.nodup hsubset).length_le
      have hproper : (items.filter fun other => key other < key item).length < items.length := by
        apply List.length_filter_lt_length_iff_exists.mpr
        exact ⟨item, hitem, by simp⟩
      have hlength := h.length_eq
      omega

end HarborBeacon.TopRows
