import Mathlib.Data.List.Induction
import Mathlib.Data.List.Perm.Subperm
import Mathlib.Data.List.TakeWhile

/-!
Items with levels, such as the headings of a document, and the chain of items that enclose a place
among them. A stack that is cut at the level of each new item holds that chain as long as no item
closes another one above a level that is missing.
-/

namespace HarborBeacon.Outlines

section Chain

variable {α : Type} (level : α → Nat)

/-- The nearest item below a limit, the nearest one below its level, and so on, outermost first.
The items are given from the latest one on. -/
def chainBelow (limit : Nat) : List α → List α
  | [] => []
  | last :: earlier =>
      if level last < limit then chainBelow (level last) earlier ++ [last]
      else chainBelow limit earlier

def enclosing (items : List α) : List α :=
  match items.reverse with
  | [] => []
  | last :: earlier => chainBelow level (level last) earlier ++ [last]

def outerBelow (limit : Nat) (items : List α) : List α :=
  (enclosing level items).takeWhile fun outer => level outer < limit

def pushAtLevel (stack : List α) (item : α) : List α :=
  stack.take (level item - 1) ++ [item]

def levelStack (items : List α) : List α :=
  items.foldl (pushAtLevel level) []

/-- Where an item closes an item that encloses the place before it, an item of every smaller level
encloses that place. -/
def NoSkips (items : List α) : Prop :=
  ∀ before item after, items = before ++ item :: after →
    (∃ closed ∈ enclosing level before, level item ≤ level closed) →
      ∀ n, 1 ≤ n → n < level item → ∃ outer ∈ enclosing level before, level outer = n

variable {level} {items : List α} {item : α} {limit : Nat} {outer : α}

theorem level_lt_of_mem_chainBelow {earlier : List α} (h : item ∈ chainBelow level limit earlier) :
    level item < limit := by
  induction earlier generalizing limit with
  | nil => exact absurd h List.not_mem_nil
  | cons last earlier ih =>
      rw [chainBelow] at h
      split at h
      · rename_i hlast
        rcases List.mem_append.mp h with hbefore | hself
        · exact (ih hbefore).trans hlast
        · rw [List.mem_singleton.mp hself]
          exact hlast
      · exact ih h

theorem enclosing_reverse_cons (last : α) (earlier : List α) :
    enclosing level (last :: earlier).reverse =
      chainBelow level (level last) earlier ++ [last] := by
  rw [enclosing, List.reverse_reverse]

theorem chainBelow_eq_outerBelow (limit : Nat) (earlier : List α) :
    chainBelow level limit earlier = outerBelow level limit earlier.reverse := by
  induction earlier generalizing limit with
  | nil => rfl
  | cons last earlier ih =>
      rw [chainBelow, outerBelow, enclosing_reverse_cons]
      split
      · rename_i hlast
        refine (List.takeWhile_eq_self_iff.mpr ?_).symm
        intro item hitem
        rcases List.mem_append.mp hitem with hbefore | hself
        · exact decide_eq_true ((level_lt_of_mem_chainBelow hbefore).trans hlast)
        · rw [List.mem_singleton.mp hself]
          exact decide_eq_true hlast
      · rename_i hlast
        have hbelow : chainBelow level limit earlier =
            (chainBelow level (level last) earlier).takeWhile fun item => level item < limit := by
          rw [ih limit, ih (level last), outerBelow, outerBelow, List.takeWhile_takeWhile]
          congr 1
          funext item
          refine decide_eq_decide.mpr ⟨fun h => ⟨decide_eq_true h, decide_eq_true ?_⟩,
            fun h => of_decide_eq_true h.1⟩
          exact h.trans_le (Nat.le_of_not_lt hlast)
        rw [hbelow, List.takeWhile_append]
        split
        · rename_i hwhole
          rw [List.takeWhile_cons_of_neg (by simpa using hlast), List.append_nil]
          exact List.IsPrefix.eq_of_length (List.takeWhile_prefix _) hwhole
        · rfl

theorem enclosing_concat (items : List α) (item : α) :
    enclosing level (items ++ [item]) = outerBelow level (level item) items ++ [item] := by
  have h : enclosing level (item :: items.reverse).reverse = _ :=
    enclosing_reverse_cons item items.reverse
  rw [List.reverse_cons, List.reverse_reverse, chainBelow_eq_outerBelow, List.reverse_reverse] at h
  exact h

theorem outerBelow_sublist (limit : Nat) (items : List α) :
    (outerBelow level limit items).Sublist (enclosing level items) :=
  List.takeWhile_sublist _

theorem level_lt_of_mem_outerBelow (h : item ∈ outerBelow level limit items) :
    level item < limit := by
  have hdecide := List.mem_takeWhile_imp h
  exact of_decide_eq_true hdecide

theorem pairwise_enclosing (items : List α) :
    (enclosing level items).Pairwise fun outer inner => level outer < level inner := by
  induction items using List.reverseRecOn with
  | nil => exact List.Pairwise.nil
  | append_singleton items item ih =>
      rw [enclosing_concat]
      refine List.pairwise_append.mpr
        ⟨ih.sublist (outerBelow_sublist _ _), List.pairwise_singleton _ _, ?_⟩
      intro outer houter inner hinner
      rw [List.mem_singleton.mp hinner]
      exact level_lt_of_mem_outerBelow houter

theorem mem_outerBelow (h : outer ∈ enclosing level items) (hlevel : level outer < limit) :
    outer ∈ outerBelow level limit items := by
  have hsorted : (enclosing level items).Pairwise fun outer inner => level outer < level inner :=
    pairwise_enclosing items
  rw [outerBelow]
  generalize enclosing level items = chain at h hsorted
  induction chain with
  | nil => exact absurd h List.not_mem_nil
  | cons first rest ih =>
      obtain ⟨hfirst, hrest⟩ := List.pairwise_cons.mp hsorted
      rw [List.takeWhile_cons]
      rcases List.mem_cons.mp h with rfl | hmem
      · rw [if_pos (decide_eq_true hlevel)]
        exact List.mem_cons_self
      · rw [if_pos (decide_eq_true ((hfirst outer hmem).trans hlevel))]
        exact List.mem_cons_of_mem _ (ih hmem hrest)

theorem mem_enclosing_iff :
    outer ∈ enclosing level items ↔
      ∃ before after, items = before ++ outer :: after ∧
        ∀ later ∈ after, level outer < level later := by
  constructor
  · intro h
    induction items using List.reverseRecOn with
    | nil => exact absurd h List.not_mem_nil
    | append_singleton items item ih =>
        rw [enclosing_concat] at h
        rcases List.mem_append.mp h with hbelow | hself
        · obtain ⟨before, after, hitems, hafter⟩ := ih ((outerBelow_sublist _ _).subset hbelow)
          refine ⟨before, after ++ [item], by rw [hitems, List.append_assoc]; rfl, ?_⟩
          intro later hlater
          rcases List.mem_append.mp hlater with hold | hnew
          · exact hafter later hold
          · rw [List.mem_singleton.mp hnew]
            exact level_lt_of_mem_outerBelow hbelow
        · rw [List.mem_singleton.mp hself]
          exact ⟨items, [], rfl, by simp⟩
  · rintro ⟨before, after, rfl, hafter⟩
    induction after using List.reverseRecOn with
    | nil =>
        rw [enclosing_concat]
        exact List.mem_append_right _ List.mem_cons_self
    | append_singleton after item ih =>
        rw [← List.cons_append, ← List.append_assoc, enclosing_concat]
        have hlast := hafter item (List.mem_append_right _ List.mem_cons_self)
        have hbefore := ih fun later hlater => hafter later (List.mem_append_left _ hlater)
        exact List.mem_append_left _ (mem_outerBelow hbefore hlast)

theorem mem_of_mem_enclosing (h : item ∈ enclosing level items) : item ∈ items := by
  obtain ⟨before, after, rfl, -⟩ := mem_enclosing_iff.mp h
  exact List.mem_append_right _ List.mem_cons_self

end Chain

section Stack

variable {α : Type} {level : α → Nat} {items : List α} {limit : Nat}

theorem levelStack_concat (items : List α) (item : α) :
    levelStack level (items ++ [item]) =
      (levelStack level items).take (level item - 1) ++ [item] := by
  rw [levelStack, List.foldl_append]
  rfl

theorem outerLevels_subset (hpos : ∀ item ∈ items, 1 ≤ level item) :
    (outerBelow level limit items).map level ⊆ List.range' 1 (limit - 1) := by
  intro n hn
  obtain ⟨outer, houter, rfl⟩ := List.mem_map.mp hn
  have hbelow := level_lt_of_mem_outerBelow houter
  have hone := hpos outer (mem_of_mem_enclosing ((outerBelow_sublist _ _).subset houter))
  rw [List.mem_range'_1]
  omega

theorem nodup_outerLevels (limit : Nat) : ((outerBelow level limit items).map level).Nodup := by
  refine List.Nodup.sublist ((outerBelow_sublist _ _).map level) ?_
  rw [List.Nodup, List.pairwise_map]
  exact (pairwise_enclosing items).imp fun h => h.ne

theorem length_outerBelow_le (hpos : ∀ item ∈ items, 1 ≤ level item) :
    (outerBelow level limit items).length ≤ limit - 1 := by
  have h := (List.subperm_of_subset (nodup_outerLevels limit) (outerLevels_subset hpos)).length_le
  rw [List.length_map, List.length_range'] at h
  exact h

theorem length_outerBelow_eq_iff (hpos : ∀ item ∈ items, 1 ≤ level item) :
    (outerBelow level limit items).length = limit - 1 ↔
      ∀ n, 1 ≤ n → n < limit → ∃ outer ∈ enclosing level items, level outer = n := by
  constructor
  · intro hlength n hone hlt
    have hperm := (List.subperm_of_subset (nodup_outerLevels limit)
      (outerLevels_subset hpos)).perm_of_length_le (by simp [hlength])
    have hmem := hperm.mem_iff.mpr (List.mem_range'_1.mpr (by omega : 1 ≤ n ∧ n < 1 + (limit - 1)))
    obtain ⟨outer, houter, hlevel⟩ := List.mem_map.mp hmem
    exact ⟨outer, (outerBelow_sublist _ _).subset houter, hlevel⟩
  · intro hall
    refine Nat.le_antisymm (length_outerBelow_le hpos) ?_
    have hsubset : List.range' 1 (limit - 1) ⊆ (outerBelow level limit items).map level := by
      intro n hn
      rw [List.mem_range'_1] at hn
      obtain ⟨outer, houter, hlevel⟩ := hall n hn.1 (by omega)
      exact List.mem_map.mpr ⟨outer, mem_outerBelow houter (by omega), hlevel⟩
    have h := (List.subperm_of_subset List.nodup_range' hsubset).length_le
    rw [List.length_map, List.length_range'] at h
    exact h

theorem outerBelow_eq_enclosing (h : ¬ ∃ closed ∈ enclosing level items, limit ≤ level closed) :
    outerBelow level limit items = enclosing level items := by
  refine List.takeWhile_eq_self_iff.mpr fun outer houter => decide_eq_true ?_
  exact Nat.lt_of_not_le fun hlevel => h ⟨outer, houter, hlevel⟩

theorem levelStack_eq (hpos : ∀ item ∈ items, 1 ≤ level item) (h : NoSkips level items)
    {before after : List α} (hitems : items = before ++ after) :
    levelStack level before = enclosing level before := by
  induction before using List.reverseRecOn generalizing after with
  | nil => rfl
  | append_singleton before item ih =>
      rw [List.append_assoc, List.singleton_append] at hitems
      have hbefore : ∀ item ∈ before, 1 ≤ level item := by
        intro other hother
        exact hpos other (hitems ▸ List.mem_append_left _ hother)
      have htake : (enclosing level before).take (level item - 1) =
          outerBelow level (level item) before := by
        have hle : (outerBelow level (level item) before).length ≤ level item - 1 :=
          length_outerBelow_le hbefore
        by_cases hcloses : ∃ closed ∈ enclosing level before, level item ≤ level closed
        · have hlength := (length_outerBelow_eq_iff hbefore).mpr
            (h before item after hitems hcloses)
          rw [← hlength]
          exact (List.prefix_iff_eq_take.mp (List.takeWhile_prefix _)).symm
        · rw [outerBelow_eq_enclosing hcloses] at hle ⊢
          exact List.take_of_length_le hle
      rw [levelStack_concat, ih hitems, enclosing_concat, htake]

theorem noSkips_of_length (hpos : ∀ item ∈ items, 1 ≤ level item)
    (h : ∀ before after, items = before ++ after →
      (levelStack level before).length = (enclosing level before).length) :
    NoSkips level items := by
  intro before item after hitems hcloses
  have hbefore : ∀ item ∈ before, 1 ≤ level item := by
    intro other hother
    exact hpos other (hitems ▸ List.mem_append_left _ hother)
  refine (length_outerBelow_eq_iff hbefore).mp ?_
  obtain ⟨closed, hclosed, hlevel⟩ := hcloses
  have hlt : (outerBelow level (level item) before).length < (enclosing level before).length := by
    refine (outerBelow_sublist _ _).length_le.lt_of_ne fun hlength => ?_
    have hmem := hclosed
    rw [← (outerBelow_sublist (level item) before).eq_of_length hlength] at hmem
    exact absurd (level_lt_of_mem_outerBelow hmem) (Nat.not_lt.mpr hlevel)
  have hnow := h before (item :: after) hitems
  have hnext := h (before ++ [item]) after (by rw [hitems, List.append_assoc]; rfl)
  rw [levelStack_concat, enclosing_concat, List.length_append, List.length_append,
    List.length_take, hnow] at hnext
  have hsame : min (level item - 1) (enclosing level before).length =
      (outerBelow level (level item) before).length := Nat.add_right_cancel hnext
  omega

end Stack

end HarborBeacon.Outlines
