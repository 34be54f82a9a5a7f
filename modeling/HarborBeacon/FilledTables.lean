import Mathlib.Order.Lattice

/-!
Tables that are cleaned row by row, filled in with built-in rows and sorted whenever they are
read. Such a table is complete, and it stays as it is when it is read again exactly if its rows
stay as they are.
-/

namespace HarborBeacon.FilledTables

variable {α ι κ : Type}

theorem filterMap_eq_self_iff {f : α → Option α} {items : List α} :
    items.filterMap f = items ↔ ∀ item ∈ items, f item = some item := by
  induction items with
  | nil => simp
  | cons item rest ih =>
      rw [List.forall_mem_cons, ← ih]
      cases hitem : f item with
      | none =>
          rw [List.filterMap_cons_none hitem]
          constructor
          · intro h
            have hlength := List.length_filterMap_le f rest
            rw [h, List.length_cons] at hlength
            omega
          · rintro ⟨h, -⟩
            exact absurd h (by simp)
      | some kept => rw [List.filterMap_cons_some hitem, List.cons.injEq, Option.some.injEq]

section Sorting

variable [LinearOrder κ]

def sortOn (key : α → κ) (items : List α) : List α :=
  items.mergeSort fun left right => key left ≤ key right

variable {key : α → κ} {items : List α}

@[simp] theorem mem_sortOn {item : α} : item ∈ sortOn key items ↔ item ∈ items :=
  List.mem_mergeSort

theorem sortOn_perm (items : List α) : (sortOn key items).Perm items :=
  List.mergeSort_perm items _

theorem sorted_sortOn (items : List α) : ((sortOn key items).map key).Pairwise (· ≤ ·) := by
  rw [List.pairwise_map]
  have hsorted : (sortOn key items).Pairwise fun left right =>
      decide (key left ≤ key right) = true := by
    apply List.pairwise_mergeSort
    · intro a b c hab hbc
      exact decide_eq_true (le_trans (of_decide_eq_true hab) (of_decide_eq_true hbc))
    · intro a b
      simpa using le_total (key a) (key b)
  exact hsorted.imp of_decide_eq_true

theorem sortOn_of_sorted (h : (items.map key).Pairwise (· ≤ ·)) : sortOn key items = items := by
  rw [List.pairwise_map] at h
  exact List.mergeSort_of_pairwise (h.imp fun hle => decide_eq_true hle)

end Sorting

section Repeats

variable [DecidableEq ι] (id : α → ι)

def keepFirst (seen : List ι) : List α → List α
  | [] => []
  | row :: rest =>
      if id row ∈ seen then keepFirst seen rest else row :: keepFirst (id row :: seen) rest

variable {id} {seen : List ι} {items : List α} {row : α}

theorem keepFirst_sublist : (keepFirst id seen items).Sublist items := by
  induction items generalizing seen with
  | nil => exact List.Sublist.refl _
  | cons row rest ih =>
      rw [keepFirst]
      split_ifs
      · exact ih.cons row
      · exact ih.cons_cons row

theorem keepFirst_not_seen (h : row ∈ keepFirst id seen items) : id row ∉ seen := by
  induction items generalizing seen with
  | nil => exact absurd h List.not_mem_nil
  | cons first rest ih =>
      rw [keepFirst] at h
      split_ifs at h with hseen
      · exact ih h
      · rcases List.mem_cons.mp h with rfl | hrest
        · exact hseen
        · exact fun hmem => ih hrest (List.mem_cons_of_mem _ hmem)

theorem nodup_keepFirst : ((keepFirst id seen items).map id).Nodup := by
  induction items generalizing seen with
  | nil => exact List.nodup_nil
  | cons row rest ih =>
      rw [keepFirst]
      split_ifs
      · exact ih
      · rw [List.map_cons, List.nodup_cons]
        refine ⟨?_, ih⟩
        intro hmem
        obtain ⟨other, hother, heq⟩ := List.mem_map.mp hmem
        exact keepFirst_not_seen hother (heq ▸ List.mem_cons_self)

theorem keepFirst_eq_self (hids : (items.map id).Nodup) (hseen : ∀ row ∈ items, id row ∉ seen) :
    keepFirst id seen items = items := by
  induction items generalizing seen with
  | nil => rfl
  | cons row rest ih =>
      rw [List.map_cons, List.nodup_cons] at hids
      rw [List.forall_mem_cons] at hseen
      rw [keepFirst, if_neg hseen.1, ih hids.2]
      intro other hother
      rw [List.mem_cons, not_or]
      exact ⟨fun heq => hids.1 (heq ▸ List.mem_map_of_mem hother), hseen.2 other hother⟩

theorem mem_map_keepFirst {value : ι} (h : value ∉ seen) :
    value ∈ (keepFirst id seen items).map id ↔ value ∈ items.map id := by
  induction items generalizing seen with
  | nil => rfl
  | cons row rest ih =>
      rw [keepFirst, List.map_cons, List.mem_cons]
      split_ifs with hseen
      · have hne : value ≠ id row := fun heq => h (heq ▸ hseen)
        rw [ih h, or_iff_right hne]
      · rw [List.map_cons, List.mem_cons]
        by_cases heq : value = id row
        · simp [heq]
        · rw [or_iff_right heq, or_iff_right heq, ih]
          rw [List.mem_cons, not_or]
          exact ⟨heq, h⟩

theorem keepFirst_concat (row : α) : keepFirst id seen (items ++ [row]) =
    keepFirst id seen items ++ if id row ∈ seen ∨ id row ∈ items.map id then [] else [row] := by
  induction items generalizing seen with
  | nil => simp [keepFirst]
  | cons first rest ih =>
      rw [List.cons_append, keepFirst, keepFirst]
      split_ifs with hfirst hrow hrow
      · have hrest : id row ∈ seen ∨ id row ∈ rest.map id := by
          rw [List.map_cons, List.mem_cons] at hrow
          obtain hseen | heq | hmem := hrow
          · exact Or.inl hseen
          · exact Or.inl (heq ▸ hfirst)
          · exact Or.inr hmem
        rw [ih, if_pos hrest]
      · rw [List.map_cons, List.mem_cons, not_or, not_or] at hrow
        rw [ih, if_neg (not_or.mpr ⟨hrow.1, hrow.2.2⟩)]
      · rw [ih, if_pos (by simpa [or_assoc, or_left_comm] using hrow), List.cons_append]
      · rw [ih, if_neg (by simpa [or_assoc, or_left_comm] using hrow), List.cons_append]

theorem mem_keepFirst_iff : row ∈ keepFirst id seen items ↔
    ∃ before after, items = before ++ row :: after ∧ id row ∉ before.map id ∧ id row ∉ seen := by
  induction items generalizing seen with
  | nil => simp [keepFirst]
  | cons first rest ih =>
      rw [keepFirst]
      constructor
      · intro h
        split_ifs at h with hseen
        · obtain ⟨before, after, rfl, hbefore, hrow⟩ := ih.mp h
          refine ⟨first :: before, after, rfl, ?_, hrow⟩
          rw [List.map_cons, List.mem_cons, not_or]
          exact ⟨fun heq => hrow (heq ▸ hseen), hbefore⟩
        · rcases List.mem_cons.mp h with rfl | hrest
          · exact ⟨[], rest, rfl, List.not_mem_nil, hseen⟩
          · obtain ⟨before, after, rfl, hbefore, hrow⟩ := ih.mp hrest
            rw [List.mem_cons, not_or] at hrow
            refine ⟨first :: before, after, rfl, ?_, hrow.2⟩
            rw [List.map_cons, List.mem_cons, not_or]
            exact ⟨hrow.1, hbefore⟩
      · rintro ⟨before, after, heq, hbefore, hrow⟩
        cases before with
        | nil =>
            obtain ⟨rfl, rfl⟩ := List.cons.inj heq
            rw [if_neg hrow]
            exact List.mem_cons_self
        | cons head before =>
            obtain ⟨rfl, rfl⟩ := List.cons.inj heq
            rw [List.map_cons, List.mem_cons, not_or] at hbefore
            split_ifs with hseen
            · exact ih.mpr ⟨before, after, rfl, hbefore.2, hrow⟩
            · refine List.mem_cons_of_mem _ (ih.mpr ⟨before, after, rfl, hbefore.2, ?_⟩)
              rw [List.mem_cons, not_or]
              exact ⟨hbefore.1, hrow⟩

theorem mem_keepFirst_filterMap_iff {β : Type} {f : β → Option α} {sources : List β} :
    row ∈ keepFirst id [] (sources.filterMap f) ↔
      ∃ before source after, sources = before ++ source :: after ∧ f source = some row ∧
        ∀ old ∈ before, ∀ taken, f old = some taken → id taken ≠ id row := by
  rw [mem_keepFirst_iff]
  constructor
  · rintro ⟨rowsBefore, rowsAfter, heq, hbefore, -⟩
    obtain ⟨before, rest, rfl, rfl, hrest⟩ := List.filterMap_eq_append_iff.mp heq
    obtain ⟨skipped, source, after, rfl, hskipped, hsource, -⟩ :=
      List.filterMap_eq_cons_iff.mp hrest
    refine ⟨before ++ skipped, source, after, by simp, hsource, ?_⟩
    intro old hold taken htaken hid
    rcases List.mem_append.mp hold with hmem | hmem
    · rw [← hid] at hbefore
      exact hbefore (List.mem_map_of_mem (List.mem_filterMap.mpr ⟨old, hmem, htaken⟩))
    · rw [hskipped old hmem] at htaken
      cases htaken
  · rintro ⟨before, source, after, rfl, hsource, hbefore⟩
    refine ⟨before.filterMap f, after.filterMap f, ?_, ?_, List.not_mem_nil⟩
    · rw [List.filterMap_append, List.filterMap_cons_some hsource]
    · intro hmem
      obtain ⟨taken, htaken, hid⟩ := List.mem_map.mp hmem
      obtain ⟨old, hold, hsome⟩ := List.mem_filterMap.mp htaken
      exact hbefore old hold taken hsome hid

variable [DecidableEq κ] (id) (key : α → κ) (keys : List κ)

/-- Rows with an id and a key that no row before them took; a row whose key is taken still takes
its id, and a row whose id is taken does not take its key. -/
def keepFresh (ids : List ι) (keys : List κ) : List α → List α
  | [] => []
  | row :: rest =>
      if id row ∈ ids then keepFresh ids keys rest
      else if key row ∈ keys then keepFresh (id row :: ids) keys rest
      else row :: keepFresh (id row :: ids) (key row :: keys) rest

theorem keepFresh_eq : keepFresh id key seen keys items =
    keepFirst key keys (keepFirst id seen items) := by
  induction items generalizing seen keys with
  | nil => rfl
  | cons row rest ih =>
      rw [keepFresh, keepFirst]
      split_ifs with hid hkey
      · exact ih keys
      · rw [keepFirst, if_pos hkey]
        exact ih keys
      · rw [keepFirst, if_neg hkey, ih]

end Repeats

section Filling

variable [DecidableEq ι] (clean : α → Option α) (id : α → ι)

def fill (defaults stored : List α) : List α :=
  let kept := stored.filterMap clean
  kept ++ (defaults.filter fun row => id row ∉ kept.map id).filterMap clean

variable {clean id} {defaults stored : List α}

theorem exists_of_mem_fill {row : α} (h : row ∈ fill clean id defaults stored) :
    (∃ old ∈ stored, clean old = some row) ∨ ∃ old ∈ defaults, clean old = some row := by
  rcases List.mem_append.mp h with hstored | hdefault
  · exact Or.inl (List.mem_filterMap.mp hstored)
  · obtain ⟨old, hold, hclean⟩ := List.mem_filterMap.mp hdefault
    exact Or.inr ⟨old, (List.mem_filter.mp hold).1, hclean⟩

theorem mem_fill_of_stored {row old : α} (hold : old ∈ stored) (h : clean old = some row) :
    row ∈ fill clean id defaults stored :=
  List.mem_append_left _ (List.mem_filterMap.mpr ⟨old, hold, h⟩)

theorem id_mem_fill {row : α} (hrow : row ∈ defaults)
    (hclean : ∃ cleaned, clean row = some cleaned ∧ id cleaned = id row) :
    id row ∈ (fill clean id defaults stored).map id := by
  rw [fill, List.map_append, List.mem_append]
  by_cases hkept : id row ∈ (stored.filterMap clean).map id
  · exact Or.inl hkept
  · obtain ⟨cleaned, hcleaned, hid⟩ := hclean
    right
    rw [← hid]
    apply List.mem_map_of_mem
    exact List.mem_filterMap.mpr
      ⟨row, List.mem_filter.mpr ⟨hrow, decide_eq_true hkept⟩, hcleaned⟩

theorem fill_of_complete (h : ∀ row ∈ defaults, id row ∈ (stored.filterMap clean).map id) :
    fill clean id defaults stored = stored.filterMap clean := by
  have hnone : (defaults.filter fun row => id row ∉ (stored.filterMap clean).map id) = [] := by
    rw [List.filter_eq_nil_iff]
    intro row hrow hmissing
    exact of_decide_eq_true hmissing (h row hrow)
  rw [fill, hnone, List.filterMap_nil, List.append_nil]

theorem fill_map {change : α → α} (hid : ∀ row, id (change row) = id row) :
    fill (fun row => (clean row).map change) id defaults stored =
      (fill clean id defaults stored).map change := by
  have hmap : ∀ rows : List α, rows.filterMap (fun row => (clean row).map change) =
      (rows.filterMap clean).map change := fun rows => List.map_filterMap.symm
  have hids : ((stored.filterMap clean).map change).map id = (stored.filterMap clean).map id := by
    rw [List.map_map]
    exact List.map_congr_left fun row _ => hid row
  simp only [fill, hmap, hids, List.map_append]

end Filling

section Normal

variable [DecidableEq ι] [LinearOrder κ] (clean : α → Option α) (id : α → ι) (key : α → κ)

def normal (defaults stored : List α) : List α :=
  sortOn key (fill clean id defaults stored)

variable {clean id key} {defaults stored : List α}

theorem id_mem_normal {row : α} (hrow : row ∈ defaults)
    (hclean : ∃ cleaned, clean row = some cleaned ∧ id cleaned = id row) :
    id row ∈ (normal clean id key defaults stored).map id :=
  ((sortOn_perm _).map id).mem_iff.mpr (id_mem_fill hrow hclean)

def KeepsPlace (clean : α → Option α) (id : α → ι) (key : α → κ) : Prop :=
  ∀ old row, clean old = some row → ∃ again, clean row = some again ∧ id again = id row ∧
    key again = key row

theorem map_filterMap_of_keepsPlace {γ : Type} {f : α → γ} {rows : List α}
    (h : ∀ row ∈ rows, ∃ again, clean row = some again ∧ f again = f row) :
    (rows.filterMap clean).map f = rows.map f := by
  induction rows with
  | nil => rfl
  | cons row rest ih =>
      obtain ⟨again, hagain, hsame⟩ := h row List.mem_cons_self
      rw [List.filterMap_cons_some hagain, List.map_cons, List.map_cons, hsame,
        ih fun other hother => h other (List.mem_cons_of_mem _ hother)]

theorem normal_normal_iff (hplace : KeepsPlace clean id key)
    (hdefaults : ∀ row ∈ defaults, ∃ cleaned, clean row = some cleaned ∧ id cleaned = id row) :
    normal clean id key defaults (normal clean id key defaults stored) =
        normal clean id key defaults stored ↔
      ∀ row ∈ fill clean id defaults stored, clean row = some row := by
  have hagain : ∀ row ∈ normal clean id key defaults stored,
      ∃ again, clean row = some again ∧ id again = id row ∧ key again = key row := by
    intro row hrow
    rcases exists_of_mem_fill (mem_sortOn.mp hrow) with ⟨old, -, hold⟩ | ⟨old, -, hold⟩
    · exact hplace old row hold
    · exact hplace old row hold
  have hids := map_filterMap_of_keepsPlace (f := id) fun row hrow =>
    (hagain row hrow).imp fun again h => ⟨h.1, h.2.1⟩
  have hkeys := map_filterMap_of_keepsPlace (f := key) fun row hrow =>
    (hagain row hrow).imp fun again h => ⟨h.1, h.2.2⟩
  have hread : normal clean id key defaults (normal clean id key defaults stored) =
      (normal clean id key defaults stored).filterMap clean := by
    rw [normal, fill_of_complete, sortOn_of_sorted]
    · rw [hkeys]
      exact sorted_sortOn _
    · intro row hrow
      rw [hids]
      exact id_mem_normal hrow (hdefaults row hrow)
  rw [hread, filterMap_eq_self_iff]
  exact forall_congr' fun row => by rw [normal, mem_sortOn]

theorem normal_normal_iff_stored (hplace : KeepsPlace clean id key)
    (hdefaults : ∀ row ∈ defaults, ∃ cleaned, clean row = some cleaned ∧ id cleaned = id row ∧
      clean cleaned = some cleaned) :
    normal clean id key defaults (normal clean id key defaults stored) =
        normal clean id key defaults stored ↔
      ∀ old ∈ stored, ∀ row, clean old = some row → clean row = some row := by
  rw [normal_normal_iff hplace fun row hrow =>
    (hdefaults row hrow).imp fun cleaned h => ⟨h.1, h.2.1⟩]
  constructor
  · intro h old hold row hrow
    exact h row (mem_fill_of_stored hold hrow)
  · intro h row hrow
    rcases exists_of_mem_fill hrow with ⟨old, hold, hclean⟩ | ⟨old, hold, hclean⟩
    · exact h old hold row hclean
    · obtain ⟨cleaned, hcleaned, -, hsettled⟩ := hdefaults old hold
      rw [hclean] at hcleaned
      rwa [Option.some.inj hcleaned]

end Normal

end HarborBeacon.FilledTables
