import HarborBeacon.FilledTables
import Mathlib.Data.List.Sort
import Mathlib.Data.List.TakeWhile
import Mathlib.Data.Prod.Lex

/-!
Lists of rows with ids. Dropping a row that repeats the id of the row before it leaves one row of an
id exactly if the rows of that id stand together.
-/

namespace HarborBeacon.KeyedLists

variable {α ι κ : Type} (id : α → ι)

/-- No row of another id stands between two rows of an id. -/
def Together (value : ι) (items : List α) : Prop :=
  ∀ first middle last, [first, middle, last].Sublist items → id first = value → id last = value →
    id middle = value

variable {id} {value : ι} {front run rest items : List α}

theorem together_iff_not_mem (hfront : value ∉ front.map id) {first : α} (hfirst : id first = value)
    (hrun : ∀ row ∈ run, id row = value) (hrest : ∀ row ∈ rest.head?, id row ≠ value) :
    Together id value (front ++ first :: (run ++ rest)) ↔ value ∉ rest.map id := by
  constructor
  · intro htogether hmem
    obtain ⟨last, hlast, hvalue⟩ := List.mem_map.mp hmem
    cases rest with
    | nil => cases hlast
    | cons other rest =>
        have hother := hrest other rfl
        have hlast' : last ∈ rest := by
          refine (List.mem_cons.mp hlast).resolve_left ?_
          rintro rfl
          exact hother hvalue
        have hrows : [other, last].Sublist (other :: rest) :=
          (List.singleton_sublist.mpr hlast').cons_cons other
        have hsublist : [first, other, last].Sublist (first :: (run ++ other :: rest)) :=
          (hrows.trans (List.sublist_append_right run _)).cons_cons first
        exact hother (htogether first other last
          (hsublist.trans (List.sublist_append_right front _)) hfirst hvalue)
  · intro hnot one middle last hsublist hone hlast
    have hblock : ∀ row ∈ first :: run, id row = value := List.forall_mem_cons.mpr ⟨hfirst, hrun⟩
    have hone_mem : one ∉ front := fun hmem => hfront (hone ▸ List.mem_map_of_mem hmem)
    have hlast_mem : last ∉ rest := fun hmem => hnot (hlast ▸ List.mem_map_of_mem hmem)
    obtain ⟨early, late, hrows, hearly, hlate⟩ := List.sublist_append_iff.mp hsublist
    cases early with
    | cons row early =>
        have hrow : one = row := (List.cons.inj hrows).1
        exact absurd (hearly.subset (hrow ▸ List.mem_cons_self)) hone_mem
    | nil =>
        rw [List.nil_append] at hrows
        rw [← hrows, ← List.cons_append] at hlate
        obtain ⟨inside, after, hrows, hinside, hafter⟩ := List.sublist_append_iff.mp hlate
        obtain rfl | ⟨others, row, rfl⟩ := List.eq_nil_or_concat after
        · rw [List.append_nil] at hrows
          exact hblock middle (hinside.subset (hrows ▸ List.mem_cons_of_mem _ List.mem_cons_self))
        · have hends := congrArg List.getLast? hrows
          rw [List.concat_eq_append, ← List.append_assoc, List.getLast?_concat] at hends
          obtain rfl : last = row := Option.some.inj hends
          exact absurd (hafter.subset (by simp)) hlast_mem

section Places

open FilledTables

variable [LinearOrder κ]

def place (key : α → κ) (row : α × Nat) : κ ×ₗ Nat :=
  toLex (key row.1, row.2)

variable {key : α → κ}

theorem map_sortOn_zipIdx (items : List α) :
    (sortOn (place key) items.zipIdx).map Prod.fst = sortOn key items := by
  have hle : List.zipIdxLE (fun left right => decide (key left ≤ key right)) =
      fun left right => decide (place key left ≤ place key right) := by
    funext left right
    have hplace : place key left ≤ place key right ↔
        key left.1 ≤ key right.1 ∧ (key right.1 ≤ key left.1 → left.2 ≤ right.2) := by
      rw [place, place, Prod.Lex.toLex_le_toLex']
      constructor
      · rintro ⟨hle, heq⟩
        exact ⟨hle, fun hge => heq (le_antisymm hle hge)⟩
      · rintro ⟨hle, hge⟩
        exact ⟨hle, fun heq => hge heq.ge⟩
    simp only [List.zipIdxLE, hplace, decide_eq_true_eq]
    split_ifs <;> simp_all
  rw [sortOn, sortOn, ← hle]
  exact List.mergeSort_zipIdx

theorem pairwise_sortOn_zipIdx (key : α → κ) (items : List α) :
    (sortOn (place key) items.zipIdx).Pairwise fun left right =>
      place key left < place key right := by
  have hplaces : ((sortOn (place key) items.zipIdx).map (place key)).Nodup := by
    refine ((sortOn_perm items.zipIdx).map (place key)).nodup_iff.mpr ?_
    have hpositions : ((items.zipIdx.map (place key)).map fun key => (ofLex key).2).Nodup := by
      rw [List.map_map]
      exact (List.zipIdx_map_snd 0 items).symm ▸ List.nodup_range'
    exact hpositions.of_map _
  have hsorted : ((sortOn (place key) items.zipIdx).map (place key)).Pairwise (· ≤ ·) :=
    sorted_sortOn _
  rw [← List.pairwise_map (f := place key) (R := (· < ·))]
  exact (hsorted.and hplaces).imp fun ⟨hle, hne⟩ => lt_of_le_of_ne hle hne

variable (id key) in
def NoneBetween (value : ι) (items : List α) : Prop :=
  ∀ first ∈ items.zipIdx, ∀ middle ∈ items.zipIdx, ∀ last ∈ items.zipIdx,
    place key first < place key middle → place key middle < place key last →
      id first.1 = value → id last.1 = value → id middle.1 = value

theorem together_sortOn_iff :
    Together id value (sortOn key items) ↔ NoneBetween id key value items := by
  have hplaces := pairwise_sortOn_zipIdx key items
  constructor
  · intro htogether first hfirst middle hmiddle last hlast hleft hright
    have hrows : [first, middle, last].Sublist (sortOn (place key) items.zipIdx) := by
      have hantisymm : Std.Antisymm fun left right : α × Nat => place key left < place key right :=
        ⟨fun _ _ hlt hgt => absurd hgt hlt.not_gt⟩
      refine List.sublist_of_subperm_of_pairwise (List.subperm_of_subset ?_ ?_) ?_ hplaces
      · have hne : ∀ {left right : α × Nat}, place key left < place key right → left ≠ right :=
          fun hlt heq => hlt.ne (congrArg (place key) heq)
        simp [hne hleft, hne hright, hne (hleft.trans hright)]
      · simp [hfirst, hmiddle, hlast]
      · simp [hleft, hright, hleft.trans hright]
    refine htogether first.1 middle.1 last.1 ?_
    rw [← map_sortOn_zipIdx]
    exact hrows.map Prod.fst
  · intro hnone first middle last hsublist
    rw [← map_sortOn_zipIdx, List.sublist_map_iff] at hsublist
    obtain ⟨rows, hrows, hmap⟩ := hsublist
    match rows, hmap with
    | [one, two, three], hmap =>
        simp only [List.map_cons, List.map_nil, List.cons.injEq, and_true] at hmap
        obtain ⟨rfl, rfl, rfl⟩ := hmap
        have hin := fun row hrow => mem_sortOn.mp (hrows.subset (a := row) hrow)
        have hpairs := hplaces.sublist hrows
        simp only [List.pairwise_cons, List.mem_cons] at hpairs
        exact hnone one (hin one (by simp)) two (hin two (by simp)) three (hin three (by simp))
          (hpairs.1 two (by simp)) (hpairs.2.1 three (by simp))

end Places

section Repeats

variable [DecidableEq ι] (id)

def dropRepeats (last : Option ι) : List α → List α
  | [] => []
  | row :: rest =>
      if last = some (id row) then dropRepeats last rest
      else row :: dropRepeats (some (id row)) rest

variable {id} {last : Option ι}

theorem dropRepeats_append (last : Option ι) (front rest : List α) :
    dropRepeats id last (front ++ rest) =
      dropRepeats id last front ++ dropRepeats id ((front.getLast?.map id).or last) rest := by
  induction front generalizing last with
  | nil => rfl
  | cons row front ih =>
      have hlast : ((row :: front).getLast?.map id).or last =
          (front.getLast?.map id).or (some (id row)) := by
        cases hfront : front.getLast? with
        | none => rw [List.getLast?_eq_none_iff.mp hfront]; rfl
        | some other => rw [List.getLast?_cons, hfront]; rfl
      rw [List.cons_append, dropRepeats, dropRepeats, hlast]
      split
      · rename_i hsame
        rw [ih, hsame]
      · rw [ih, List.cons_append]

theorem dropRepeats_sublist : (dropRepeats id last items).Sublist items := by
  induction items generalizing last with
  | nil => exact List.Sublist.refl _
  | cons row rest ih =>
      rw [dropRepeats]
      split
      · exact ih.cons row
      · exact ih.cons_cons row

theorem dropRepeats_run (h : ∀ row ∈ run, id row = value) :
    dropRepeats id (some value) run = [] := by
  induction run with
  | nil => rfl
  | cons row run ih =>
      obtain ⟨hrow, hrun⟩ := List.forall_mem_cons.mp h
      rw [dropRepeats, hrow, if_pos rfl, ih hrun]

theorem countP_dropRepeats_pos (hmem : value ∈ items.map id) (hlast : last ≠ some value) :
    0 < (dropRepeats id last items).countP fun row => id row = value := by
  induction items generalizing last with
  | nil => cases hmem
  | cons row rest ih =>
      rw [dropRepeats]
      by_cases hrow : id row = value
      · rw [hrow, if_neg hlast, List.countP_cons_of_pos (by simpa using hrow)]
        exact Nat.succ_pos _
      · have hrest : value ∈ rest.map id := by
          rw [List.map_cons, List.mem_cons] at hmem
          exact hmem.resolve_left fun hsame => hrow hsame.symm
        split
        · exact ih hrest hlast
        · rw [List.countP_cons_of_neg (by simpa using hrow)]
          refine ih hrest ?_
          rw [ne_eq, Option.some.injEq]
          exact hrow

theorem countP_dropRepeats_eq_zero_iff (hlast : last ≠ some value) :
    (dropRepeats id last items).countP (fun row => id row = value) = 0 ↔
      value ∉ items.map id := by
  constructor
  · intro hzero hmem
    exact (countP_dropRepeats_pos hmem hlast).ne' hzero
  · intro hnot
    rw [List.countP_eq_zero]
    intro row hrow
    rw [decide_eq_true_eq]
    rintro rfl
    exact hnot (List.mem_map_of_mem (dropRepeats_sublist.subset hrow))

theorem exists_first_run (hmem : value ∈ items.map id) :
    ∃ front first run rest, items = front ++ first :: (run ++ rest) ∧ value ∉ front.map id ∧
      id first = value ∧ (∀ row ∈ run, id row = value) ∧ ∀ row ∈ rest.head?, id row ≠ value := by
  induction items with
  | nil => cases hmem
  | cons row others ih =>
      by_cases hrow : id row = value
      · refine ⟨[], row, others.takeWhile (id · = value), others.dropWhile (id · = value), ?_,
          List.not_mem_nil, hrow, ?_, ?_⟩
        · rw [List.takeWhile_append_dropWhile, List.nil_append]
        · intro other hother
          simpa using List.mem_takeWhile_imp hother
        · intro other hother
          have hnot := List.head?_dropWhile_not (fun row => decide (id row = value)) others
          rw [Option.mem_def.mp hother] at hnot
          simpa using hnot
      · have hothers : value ∈ others.map id := by
          rw [List.map_cons, List.mem_cons] at hmem
          exact hmem.resolve_left fun hsame => hrow hsame.symm
        obtain ⟨front, first, run, rest, rfl, hfront, hfirst, hrun, hrest⟩ := ih hothers
        refine ⟨row :: front, first, run, rest, rfl, ?_, hfirst, hrun, hrest⟩
        rw [List.map_cons, List.mem_cons, not_or]
        exact ⟨fun hsame => hrow hsame.symm, hfront⟩

theorem countP_dropRepeats_eq_one_iff (hmem : value ∈ items.map id) :
    (dropRepeats id none items).countP (fun row => id row = value) = 1 ↔
      Together id value items := by
  obtain ⟨front, first, run, rest, rfl, hfront, hfirst, hrun, hrest⟩ := exists_first_run hmem
  have hbefore : (front.getLast?.map id).or none ≠ some value := by
    intro hlast
    rw [Option.or_none, Option.map_eq_some_iff] at hlast
    obtain ⟨row, hrow, rfl⟩ := hlast
    exact hfront (List.mem_map_of_mem (List.mem_of_getLast? hrow))
  have hafter : (run.getLast?.map id).or (some value) = some value := by
    cases hlast : run.getLast? with
    | none => rfl
    | some row => exact congrArg some (hrun row (List.mem_of_getLast? hlast))
  have hcount : (dropRepeats id none (front ++ first :: (run ++ rest))).countP
      (fun row => id row = value) =
        (dropRepeats id (some value) rest).countP (fun row => id row = value) + 1 := by
    rw [dropRepeats_append, List.countP_append,
      (countP_dropRepeats_eq_zero_iff (by simp)).mpr hfront, Nat.zero_add, dropRepeats, hfirst,
      if_neg hbefore, List.countP_cons_of_pos (by simpa using hfirst), dropRepeats_append, hafter,
      dropRepeats_run hrun, List.nil_append]
  rw [hcount, together_iff_not_mem hfront hfirst hrun hrest, Nat.add_eq_right]
  cases rest with
  | nil => simp [dropRepeats]
  | cons row rest =>
      have hrow : id row ≠ value := hrest row rfl
      rw [dropRepeats, if_neg (by simpa using hrow.symm),
        List.countP_cons_of_neg (by simpa using hrow),
        countP_dropRepeats_eq_zero_iff (by simpa using hrow), List.map_cons, List.mem_cons, not_or]
      exact ⟨fun hnot => ⟨hrow.symm, hnot⟩, And.right⟩

end Repeats

section Parts

variable [DecidableEq ι] {part : List α} {ids : List ι}

theorem filter_not_mem_append (hids : ((front ++ rest).map id).Nodup)
    (hissued : ∀ value, value ∈ ids ↔ value ∈ front.map id) :
    (front ++ rest).filter (fun row => id row ∉ ids) = rest := by
  rw [List.map_append, List.nodup_append'] at hids
  have hfront : front.filter (fun row => id row ∉ ids) = [] := by
    rw [List.filter_eq_nil_iff]
    intro row hrow
    rw [decide_eq_true_eq, not_not, hissued]
    exact List.mem_map_of_mem hrow
  have hrest : rest.filter (fun row => id row ∉ ids) = rest := by
    rw [List.filter_eq_self]
    intro row hrow
    rw [decide_eq_true_eq, hissued]
    exact fun hmem => hids.2.2 hmem (List.mem_map_of_mem hrow)
  rw [List.filter_append, hfront, hrest, List.nil_append]

theorem filter_mem_sublist (hids : (items.map id).Nodup) (hpart : part.Sublist items) :
    items.filter (fun row => id row ∈ part.map id) = part := by
  induction hpart with
  | slnil => rfl
  | @cons part items row hpart ih =>
      rw [List.map_cons, List.nodup_cons] at hids
      have hrow : id row ∉ part.map id := fun hmem => hids.1 ((hpart.map id).subset hmem)
      rw [List.filter_cons_of_neg (by simpa using hrow), ih hids.2]
  | @cons_cons part items row hpart ih =>
      rw [List.map_cons, List.nodup_cons] at hids
      have hothers : items.filter (fun other => id other ∈ (row :: part).map id) =
          items.filter fun other => id other ∈ part.map id := by
        refine List.filter_congr fun other hother => ?_
        have hne : id other ≠ id row := fun heq => hids.1 (heq ▸ List.mem_map_of_mem hother)
        rw [decide_eq_decide, List.map_cons, List.mem_cons, or_iff_right hne]
      rw [List.filter_cons_of_pos (by simp), hothers, ih hids.2]

end Parts

end HarborBeacon.KeyedLists
