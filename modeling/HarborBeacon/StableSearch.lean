import Mathlib.Data.List.Basic

/-!
A search through a sorted list: the elements are visited in order up to the first one that ends the
search.
-/

namespace HarborBeacon.StableSearch

variable {α β : Type*}

def searchUntil (stops : α → Bool) : List α → List α
  | [] => []
  | a :: rest => if stops a then [a] else a :: searchUntil stops rest

theorem map_searchUntil (f : β → α) (stops : α → Bool) (items : List β) :
    (searchUntil (fun b => stops (f b)) items).map f = searchUntil stops (items.map f) := by
  induction items with
  | nil => rfl
  | cons b rest ih =>
      cases hstops : stops (f b) with
      | true => simp [searchUntil, hstops]
      | false => simp [searchUntil, hstops, ih]

theorem searchUntil_first (items : List α) :
    searchUntil (fun _ => true) items = items.head?.toList := by
  cases items with
  | nil => rfl
  | cons a rest => rfl

theorem mem_searchUntil_of_pairwise {R : α → α → Prop} (hasymm : ∀ a b, R a b → ¬ R b a)
    {stops : α → Bool} {items : List α} (h : items.Pairwise R) (x : α) :
    x ∈ searchUntil stops items ↔ x ∈ items ∧ ∀ y ∈ items, R y x → stops y = false := by
  induction items with
  | nil => simp [searchUntil]
  | cons a rest ih =>
      obtain ⟨hfirst, hrest⟩ := List.pairwise_cons.mp h
      have hhead : ∀ y ∈ a :: rest, ¬ R y a := by
        intro y hy hya
        rcases List.mem_cons.mp hy with rfl | hmem
        · exact hasymm y y hya hya
        · exact hasymm a y (hfirst y hmem) hya
      by_cases hx : x = a
      · subst hx
        have hvisited : x ∈ searchUntil stops (x :: rest) := by
          unfold searchUntil
          split_ifs <;> simp
        simp only [hvisited, List.mem_cons_self, true_and, true_iff]
        intro y hy hyx
        exact absurd hyx (hhead y hy)
      · cases hstops : stops a with
        | true =>
            simp only [searchUntil, hstops, if_true, List.mem_singleton, hx, false_iff]
            rintro ⟨hmem, hnone⟩
            have hlater : x ∈ rest := (List.mem_cons.mp hmem).resolve_left hx
            simpa [hstops] using hnone a List.mem_cons_self (hfirst x hlater)
        | false =>
            simp only [searchUntil, hstops, Bool.false_eq_true, if_false, List.mem_cons, hx,
              false_or, ih hrest]
            refine and_congr_right fun _ => ?_
            constructor
            · rintro hnone y (rfl | hmem) hyx
              · exact hstops
              · exact hnone y hmem hyx
            · intro hnone y hmem
              exact hnone y (Or.inr hmem)

section Stable

variable (le : α → α → Bool)

/-- The order of a stable sort, on elements with their places in the list. -/
def Precedes (left right : α × Nat) : Prop :=
  le left.1 right.1 = true ∧ (le right.1 left.1 = true → left.2 < right.2)

theorem precedes_asymm (left right : α × Nat) (h : Precedes le left right) :
    ¬ Precedes le right left := by
  intro h'
  have := h.2 h'.1
  have := h'.2 h.1
  omega

variable {le} (htrans : ∀ a b c, le a b = true → le b c = true → le a c = true)
  (htotal : ∀ a b, (le a b || le b a) = true)

def sortedPlaces (le : α → α → Bool) (items : List α) : List (α × Nat) :=
  items.zipIdx.mergeSort (List.zipIdxLE le)

include htrans htotal in
theorem pairwise_sortedPlaces (items : List α) :
    (sortedPlaces le items).Pairwise (Precedes le) := by
  have hsorted : (sortedPlaces le items).Pairwise fun p q => List.zipIdxLE le p q = true :=
    List.pairwise_mergeSort (List.zipIdxLE_trans htrans) (List.zipIdxLE_total htotal) _
  have hnodup : ((sortedPlaces le items).map Prod.snd).Nodup := by
    have hperm := (List.mergeSort_perm items.zipIdx (List.zipIdxLE le)).map Prod.snd
    rw [List.zipIdx_map_snd] at hperm
    exact hperm.nodup_iff.mpr List.nodup_range'
  have hplaces : (sortedPlaces le items).Pairwise fun p q => p.2 ≠ q.2 :=
    List.pairwise_map.mp hnodup
  refine (hsorted.and hplaces).imp ?_
  rintro p q ⟨hle, hne⟩
  simp only [List.zipIdxLE] at hle
  split_ifs at hle with hpq hqp
  · exact ⟨hpq, fun _ => Nat.lt_of_le_of_ne (by simpa using hle) hne⟩
  · exact ⟨hpq, fun h => absurd h hqp⟩

include htrans htotal in
theorem mem_searchUntil_mergeSort (stops : α → Bool) (items : List α) (x : α) :
    x ∈ searchUntil stops (items.mergeSort le) ↔
      ∃ place, items[place]? = some x ∧
        ∀ y other, items[other]? = some y → Precedes le (y, other) (x, place) →
          stops y = false := by
  have hmem : ∀ p, p ∈ sortedPlaces le items ↔ items[p.2]? = some p.1 := by
    intro p
    rw [sortedPlaces, List.mem_mergeSort, List.mem_zipIdx_iff_getElem?]
  rw [← List.mergeSort_zipIdx, ← map_searchUntil, List.mem_map]
  constructor
  · rintro ⟨⟨a, place⟩, hvisited, rfl⟩
    obtain ⟨hplace, hnone⟩ := (mem_searchUntil_of_pairwise (precedes_asymm le)
      (pairwise_sortedPlaces htrans htotal items) _).mp hvisited
    refine ⟨place, (hmem _).mp hplace, ?_⟩
    intro y other hother hprecedes
    exact hnone (y, other) ((hmem _).mpr hother) hprecedes
  · rintro ⟨place, hplace, hnone⟩
    refine ⟨(x, place), (mem_searchUntil_of_pairwise (precedes_asymm le)
      (pairwise_sortedPlaces htrans htotal items) _).mpr ⟨(hmem _).mpr hplace, ?_⟩, rfl⟩
    rintro ⟨y, other⟩ hother hprecedes
    exact hnone y other ((hmem _).mp hother) hprecedes

include htrans htotal in
theorem forall_searchUntil_iff (stops : α → Bool) (items : List α) (P : α → Prop) :
    (∀ x ∈ searchUntil stops (items.mergeSort le), ¬ P x) ↔
      ∀ place x, items[place]? = some x → P x →
        ∃ other y, items[other]? = some y ∧ Precedes le (y, other) (x, place) ∧
          stops y = true := by
  simp only [mem_searchUntil_mergeSort htrans htotal]
  constructor
  · intro h place x hplace hx
    by_contra hnone
    refine h x ⟨place, hplace, ?_⟩ hx
    intro y other hother hprecedes
    by_contra hstops
    exact hnone ⟨other, y, hother, hprecedes, by simpa using hstops⟩
  · rintro h x ⟨place, hplace, hvisited⟩ hx
    obtain ⟨other, y, hother, hprecedes, hstops⟩ := h place x hplace hx
    simp [hvisited y other hother hprecedes] at hstops

end Stable

section Leading

variable {le : α → α → Bool} (htrans : ∀ a b c, le a b → le b c → le a c)
  (htotal : ∀ a b, le a b || le b a) {items : List α} {a : α} {n : Nat}

include htrans htotal in
theorem mem_take_mergeSort (hmem : a ∈ items) (hcount : items.countP (fun b => le b a) ≤ n) :
    a ∈ (items.mergeSort le).take n := by
  have hsorted := List.pairwise_mergeSort htrans htotal items
  have hperm := List.mergeSort_perm items le
  rw [← hperm.countP_eq] at hcount
  have hin : a ∈ items.mergeSort le := hperm.mem_iff.mpr hmem
  rw [← List.take_append_drop n (items.mergeSort le)] at hin hsorted hcount
  by_contra hout
  have hdrop : a ∈ (items.mergeSort le).drop n := (List.mem_append.mp hin).resolve_left hout
  have hfront : ∀ b ∈ (items.mergeSort le).take n, le b a = true := by
    intro b hb
    exact (List.pairwise_append.mp hsorted).2.2 b hb a hdrop
  have hself : le a a = true := by simpa using htotal a a
  have hfull : ((items.mergeSort le).take n).countP (fun b => le b a) =
      ((items.mergeSort le).take n).length := List.countP_eq_length.mpr hfront
  have hlater : 0 < ((items.mergeSort le).drop n).countP (fun b => le b a) :=
    List.countP_pos_iff.mpr ⟨a, hdrop, hself⟩
  have hlength : 0 < ((items.mergeSort le).drop n).length := List.length_pos_of_mem hdrop
  rw [List.countP_append] at hcount
  rw [List.length_take] at hfull
  rw [List.length_drop] at hlength
  omega

include htrans htotal in
theorem not_mem_take_mergeSort (hcount : n ≤ items.countP (fun b => !le a b)) :
    a ∉ (items.mergeSort le).take n := by
  have hsorted := List.pairwise_mergeSort htrans htotal items
  rw [← (List.mergeSort_perm items le).countP_eq] at hcount
  intro hin
  obtain ⟨front, back, hsplit⟩ := List.append_of_mem hin
  have hfew : front.length < n := by
    have hlength := congrArg List.length hsplit
    rw [List.length_take, List.length_append, List.length_cons] at hlength
    omega
  rw [← List.take_append_drop n (items.mergeSort le), hsplit, List.append_assoc,
    List.cons_append] at hsorted hcount
  have hback : (a :: (back ++ (items.mergeSort le).drop n)).countP (fun b => !le a b) = 0 := by
    rw [List.countP_eq_zero]
    intro b hb
    have hle : le a b = true := by
      rcases List.mem_cons.mp hb with rfl | hlater
      · simpa using htotal b b
      · exact (List.pairwise_cons.mp (List.pairwise_append.mp hsorted).2.1).1 b hlater
    simp [hle]
  have hfront := List.countP_le_length (p := fun b => !le a b) (l := front)
  rw [List.countP_append, hback] at hcount
  omega

theorem exists_split_of_sublist {items longer : List α} (h : items.Sublist longer)
    (hperm : longer.Perm (a :: items)) :
    ∃ front back, items = front ++ back ∧ longer = front ++ a :: back := by
  induction h with
  | slnil => exact absurd hperm.length_eq (by simp)
  | @cons items longer b h ih =>
      have hlength : items.length = longer.length := by simpa using hperm.length_eq.symm
      obtain rfl := h.eq_of_length hlength
      have hsame : [b].Perm [a] := (List.perm_append_right_iff items).mp hperm
      exact ⟨[], items, rfl, by rw [List.singleton_perm_singleton.mp hsame, List.nil_append]⟩
  | @cons_cons items longer b h ih =>
      have hrest : longer.Perm (a :: items) :=
        (hperm.trans (List.Perm.swap b a items)).cons_inv
      obtain ⟨front, back, rfl, rfl⟩ := ih hrest
      exact ⟨b :: front, back, rfl, rfl⟩

include htrans htotal in
theorem exists_split_mergeSort_concat (hsorted : items.Pairwise fun b c => le b c) (a : α) :
    ∃ front back, items = front ++ back ∧ (items ++ [a]).mergeSort le = front ++ a :: back := by
  apply exists_split_of_sublist
  · exact List.sublist_mergeSort htrans htotal hsorted (List.sublist_append_left _ _)
  · exact (List.mergeSort_perm _ _).trans (List.perm_append_singleton a items)

include htrans htotal in
theorem take_mergeSort_concat_perm (hsorted : items.Pairwise fun b c => le b c)
    (hlength : items.length ≤ n + 1) (hplace : items.length ≤ n ∨ ∃ b ∈ items, le b a = false) :
    (((items ++ [a]).mergeSort le).take (n + 1)).Perm (a :: items.take n) := by
  have hpairs := List.pairwise_mergeSort htrans htotal (items ++ [a])
  obtain ⟨front, back, rfl, hplaced⟩ := exists_split_mergeSort_concat htrans htotal hsorted a
  rw [hplaced] at hpairs ⊢
  have hfront : front.length ≤ n := by
    rw [List.length_append] at hlength hplace
    rcases hplace with hroom | ⟨b, hb, hlate⟩
    · omega
    · have hback : back ≠ [] := by
        rintro rfl
        rw [List.append_nil] at hb
        exact absurd ((List.pairwise_append.mp hpairs).2.2 b hb a List.mem_cons_self)
          (by rw [hlate]; exact Bool.false_ne_true)
      have := List.length_pos_iff.mpr hback
      omega
  rw [List.take_append, List.take_append, List.take_of_length_le (by omega),
    List.take_of_length_le hfront, Nat.sub_add_comm hfront, List.take_succ_cons]
  exact List.perm_middle

end Leading

end HarborBeacon.StableSearch
