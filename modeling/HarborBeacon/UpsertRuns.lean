import HarborBeacon.OwnedTables

/-!
Runs of upserts. A table takes in one record for each of several sources, under the key of the
source.
-/

namespace HarborBeacon.UpsertRuns

open OwnedTables

variable {α : Type} {key : α → String} {p : α → Bool} {items : List α}

section Upserts

variable {k other : String} {change : α → α} {new : α}

theorem find?_upsertKey_self (hchange : ∀ item, key (change item) = key item) (hnew : key new = k) :
    ((upsertKey key k change new items).find? fun item => key item = k) =
      some (((items.find? fun item => key item = k).map change).getD new) := by
  induction items with
  | nil => simp [upsertKey, hnew]
  | cons first rest ih =>
      rw [upsertKey]
      split
      · rename_i hfirst
        simp [hchange, hfirst]
      · rename_i hfirst
        simp only [List.find?_cons, hfirst, decide_false, ih]

theorem find?_upsertKey_of_ne (hchange : ∀ item, key (change item) = key item) (hnew : key new = k)
    (hne : other ≠ k) : ((upsertKey key k change new items).find? fun item => key item = other) =
      items.find? fun item => key item = other := by
  induction items with
  | nil => simp [upsertKey, hnew, hne.symm]
  | cons first rest ih =>
      rw [upsertKey]
      split
      · rename_i hfirst
        simp [hchange, hfirst, hne.symm]
      · rw [List.find?_cons, List.find?_cons, ih]

theorem find?_upsertKey_congr {found p : α → Bool} (h : Unique key items)
    (hother : ∀ item, key item ≠ k → p item = found item)
    (hchanged : ∀ item ∈ items, key item = k → p (change item) = true → found item = true)
    (hadded : k ∉ items.map key → p new = false)
    (hfound : ∀ item, items.find? found = some item → key item ≠ k) :
    (upsertKey key k change new items).find? p = items.find? found := by
  induction items with
  | nil => simp [upsertKey, hadded]
  | cons first rest ih =>
      obtain ⟨hfirst, hrest⟩ := List.nodup_cons.mp h
      rw [upsertKey]
      split
      · rename_i hkey
        have hmissed : found first = false :=
          Bool.eq_false_iff.mpr fun hmet => hfound first (List.find?_cons_of_pos hmet) hkey
        have hmisses : p (change first) = false :=
          Bool.eq_false_iff.mpr fun hmet => absurd
            (hchanged first List.mem_cons_self hkey hmet) (by simp [hmissed])
        rw [List.find?_cons_of_neg (by simp [hmisses]), List.find?_cons_of_neg (by simp [hmissed])]
        refine List.find?_congr fun item hitem => hother item ?_
        rintro rfl
        exact hfirst (hkey ▸ List.mem_map_of_mem hitem)
      · rename_i hkey
        rcases hmet : found first with _ | _
        · rw [List.find?_cons_of_neg (by simp [hother first hkey, hmet]),
            List.find?_cons_of_neg (by simp [hmet])]
          apply ih hrest
          · exact fun item hitem => hchanged item (List.mem_cons_of_mem _ hitem)
          · intro hnone
            refine hadded ?_
            rw [List.map_cons, List.mem_cons, not_or]
            exact ⟨fun heq => hkey heq.symm, hnone⟩
          · intro item hitem
            exact hfound item ((List.find?_cons_of_neg (by simp [hmet])).trans hitem)
        · rw [List.find?_cons_of_pos ((hother first hkey).trans hmet), List.find?_cons_of_pos hmet]

theorem filter_upsertKey_of_find? (hchange : ∀ item, p (change item) = false)
    (hnew : p new = false)
    (hfound : ∀ item, items.find? (fun item => key item = k) = some item → p item = false) :
    (upsertKey key k change new items).filter p = items.filter p := by
  induction items with
  | nil => simp [upsertKey, hnew]
  | cons first rest ih =>
      rw [upsertKey]
      split
      · rename_i hfirst
        have hlost := hfound first (by simp [hfirst])
        simp [hchange, hlost]
      · rename_i hfirst
        rw [List.filter_cons, List.filter_cons, ih]
        intro item hitem
        exact hfound item (by simpa [List.find?_cons, hfirst] using hitem)

theorem length_filter_upsertKey_lt (hchange : ∀ item, p (change item) = false) {item : α}
    (hfound : items.find? (fun item => key item = k) = some item) (hitem : p item = true) :
    ((upsertKey key k change new items).filter p).length < (items.filter p).length := by
  induction items with
  | nil => simp at hfound
  | cons first rest ih =>
      rw [upsertKey]
      split
      · rename_i hfirst
        obtain rfl : first = item := by simpa [hfirst] using hfound
        simp [hchange, hitem]
      · rename_i hfirst
        have hrest := ih (by simpa [List.find?_cons, hfirst] using hfound)
        rw [List.filter_cons, List.filter_cons]
        split
        · simpa using hrest
        · exact hrest

theorem filter_upsertKey_sublist (hchange : ∀ item, p (change item) = false)
    (hnew : p new = false) :
    ((upsertKey key k change new items).filter p).Sublist (items.filter p) := by
  induction items with
  | nil => simp [upsertKey, hnew]
  | cons first rest ih =>
      rw [upsertKey]
      split
      · rw [List.filter_cons_of_neg (by simp [hchange])]
        exact (List.sublist_cons_self first rest).filter p
      · rw [List.filter_cons, List.filter_cons]
        split
        · exact ih.cons_cons first
        · exact ih

theorem length_filter_le_upsertKey (hchange : ∀ item, p item = true → p (change item) = true) :
    (items.filter p).length ≤ ((upsertKey key k change new items).filter p).length := by
  induction items with
  | nil => simp
  | cons first rest ih =>
      rw [upsertKey]
      split
      · rw [List.filter_cons, List.filter_cons]
        split
        · rename_i hfirst
          simp [hchange first hfirst]
        · split
          · simp
          · exact le_rfl
      · rw [List.filter_cons, List.filter_cons]
        split
        · simpa using ih
        · exact ih

theorem filter_upsertKey_self (hkey : ∀ item, key (change item) = key item) (hnewKey : key new = k)
    (hchange : ∀ item, p (change item) = true) (hnew : p new = true)
    (hfound : ∀ item, items.find? (fun item => key item = k) = some item → p item = true)
    (hsingle : (items.filter fun item => p item && decide (key item = k)).length ≤ 1) :
    ((upsertKey key k change new items).filter fun item => p item && decide (key item = k)) =
      [((items.find? fun item => key item = k).map change).getD new] := by
  induction items with
  | nil => simp [upsertKey, hnew, hnewKey]
  | cons first rest ih =>
      rw [upsertKey]
      split
      · rename_i hfirst
        have hselected := hfound first (by simp [hfirst])
        have hrest : (rest.filter fun item => p item && decide (key item = k)) = [] := by
          simpa [hselected, hfirst] using hsingle
        simp only [List.filter_cons, hchange, hkey, hfirst, decide_true, Bool.and_self, if_true,
          hrest, List.find?_cons, Option.map_some, Option.getD_some]
      · rename_i hfirst
        have hskip : ∀ rows : List α,
            ((first :: rows).filter fun item => p item && decide (key item = k)) =
              rows.filter fun item => p item && decide (key item = k) := fun rows =>
          List.filter_cons_of_neg (by simp [hfirst])
        rw [hskip] at hsingle ⊢
        rw [List.find?_cons_of_neg (by simpa using hfirst)] at hfound ⊢
        exact ih hfound hsingle

theorem length_filter_key_le (h : Unique key items) (k : String) :
    (items.filter fun item => key item = k).length ≤ 1 := by
  have hcount := List.nodup_iff_count_le_one.mp h k
  rw [List.count_eq_countP, List.countP_map, List.countP_eq_length_filter] at hcount
  exact hcount

end Upserts

section Runs

variable {ρ : Type} (key) (id : ρ → String) (change : ρ → α → α) (new : ρ → α)

def upsertAll (sources : List ρ) (items : List α) : List α :=
  sources.foldl
    (fun items source => upsertKey key (id source) (change source) (new source) items) items

variable {key id change new} {sources : List ρ} {source : ρ}

theorem find?_upsertAll_of_notMem (hkey : ∀ source item, key (change source item) = key item)
    (hnew : ∀ source, key (new source) = id source) {k : String} (hk : k ∉ sources.map id) :
    ((upsertAll key id change new sources items).find? fun item => key item = k) =
      items.find? fun item => key item = k := by
  induction sources generalizing items with
  | nil => rfl
  | cons first rest ih =>
      rw [List.map_cons, List.mem_cons, not_or] at hk
      exact (ih hk.2).trans (find?_upsertKey_of_ne (hkey first) (hnew first) hk.1)

theorem find?_upsertAll (hkey : ∀ source item, key (change source item) = key item)
    (hnew : ∀ source, key (new source) = id source) (hids : (sources.map id).Nodup)
    (hsource : source ∈ sources) :
    ((upsertAll key id change new sources items).find? fun item => key item = id source) =
      some (((items.find? fun item => key item = id source).map (change source)).getD
        (new source)) := by
  induction sources generalizing items with
  | nil => exact absurd hsource List.not_mem_nil
  | cons first rest ih =>
      obtain ⟨hfirst, hrest⟩ := List.nodup_cons.mp hids
      rcases List.mem_cons.mp hsource with rfl | hlater
      · exact (find?_upsertAll_of_notMem hkey hnew hfirst).trans
          (find?_upsertKey_self (hkey source) (hnew source))
      · have hne : id source ≠ id first := fun heq => hfirst (heq ▸ List.mem_map_of_mem hlater)
        have hstep : ((upsertKey key (id first) (change first) (new first) items).find? fun item =>
            key item = id source) = items.find? fun item => key item = id source :=
          find?_upsertKey_of_ne (hkey first) (hnew first) hne
        rw [← hstep]
        exact ih hrest hlater

theorem filter_upsertAll (hkey : ∀ source item, key (change source item) = key item)
    (hnew : ∀ source, key (new source) = id source)
    (hp : ∀ item, key item ∈ sources.map id → p item = false) :
    (upsertAll key id change new sources items).filter p = items.filter p := by
  induction sources generalizing items with
  | nil => rfl
  | cons first rest ih =>
      refine (ih fun item hitem => hp item (List.mem_cons_of_mem _ hitem)).trans ?_
      refine filter_upsertKey (hkey first) (hnew first) ?_
      intro item hitem
      exact hp item (hitem ▸ List.mem_cons_self)

theorem filter_upsertAll_sublist (hchange : ∀ source item, p (change source item) = false)
    (hnew : ∀ source, p (new source) = false) :
    ((upsertAll key id change new sources items).filter p).Sublist (items.filter p) := by
  induction sources generalizing items with
  | nil => exact List.Sublist.refl _
  | cons first rest ih =>
      exact ih.trans (filter_upsertKey_sublist (hchange first) (hnew first))

/-- A selection without the new rows stays exactly if none of its rows is found under a key. -/
theorem filter_upsertAll_iff (hkey : ∀ source item, key (change source item) = key item)
    (hnewKey : ∀ source, key (new source) = id source)
    (hchange : ∀ source item, p (change source item) = false)
    (hnew : ∀ source, p (new source) = false) :
    (upsertAll key id change new sources items).filter p = items.filter p ↔
      ∀ source ∈ sources, ∀ item,
        items.find? (fun item => key item = id source) = some item → p item = false := by
  induction sources generalizing items with
  | nil => simp [upsertAll]
  | cons first rest ih =>
      have hrun : upsertAll key id change new (first :: rest) items = upsertAll key id change new
        rest (upsertKey key (id first) (change first) (new first) items) := rfl
      -- what is found under the key of a later source differs at the key of the first one only
      have hlater : ∀ source, ∀ item,
          (upsertKey key (id first) (change first) (new first) items).find?
            (fun item => key item = id source) = some item → p item = false ∨
          items.find? (fun item => key item = id source) = some item := by
        intro source item hitem
        rcases eq_or_ne (id source) (id first) with heq | hne
        · rw [heq, find?_upsertKey_self (hkey first) (hnewKey first)] at hitem
          left
          rw [← Option.some.inj hitem]
          rcases items.find? (fun item => key item = id first) with _ | found
          · exact hnew first
          · exact hchange first found
        · rw [find?_upsertKey_of_ne (hkey first) (hnewKey first) hne] at hitem
          exact Or.inr hitem
      constructor
      · intro hsame
        have hfirst : ∀ item, items.find? (fun item => key item = id first) = some item →
            p item = false := by
          intro item hitem
          rcases hselected : p item with _ | _
          · rfl
          · have hlost : ((upsertKey key (id first) (change first) (new first) items).filter
                p).length < (items.filter p).length :=
              length_filter_upsertKey_lt (hchange first) hitem hselected
            have hshorter : (items.filter p).length ≤ ((upsertKey key (id first) (change first)
                (new first) items).filter p).length := by
              rw [← hsame, hrun]
              exact (filter_upsertAll_sublist hchange hnew).length_le
            omega
        have hstep := filter_upsertKey_of_find? (hchange first) (hnew first) hfirst
        have hrest := ih.mp ((hrun ▸ hsame).trans hstep.symm)
        intro source hsource item hitem
        rcases List.mem_cons.mp hsource with rfl | hmem
        · exact hfirst item hitem
        · rcases eq_or_ne (id source) (id first) with heq | hne
          · rw [heq] at hitem
            exact hfirst item hitem
          · rw [← find?_upsertKey_of_ne (hkey first) (hnewKey first) hne] at hitem
            exact hrest source hmem item hitem
      · intro hfound
        have hstep := filter_upsertKey_of_find? (hchange first) (hnew first)
          (hfound first List.mem_cons_self)
        rw [hrun, ← hstep]
        apply ih.mpr
        intro source hsource item hitem
        rcases hlater source item hitem with hnone | hold
        · exact hnone
        · exact hfound source (List.mem_cons_of_mem _ hsource) item hold

theorem length_filter_le_upsertAll
    (hchange : ∀ source item, p item = true → p (change source item) = true) :
    (items.filter p).length ≤ ((upsertAll key id change new sources items).filter p).length := by
  induction sources generalizing items with
  | nil => exact le_rfl
  | cons first rest ih => exact (length_filter_le_upsertKey (hchange first)).trans ih

theorem filter_upsertAll_self (hkey : ∀ source item, key (change source item) = key item)
    (hnewKey : ∀ source, key (new source) = id source)
    (hchange : ∀ source item, p (change source item) = true) (hnew : ∀ source, p (new source) = true)
    (hids : (sources.map id).Nodup) (hsource : source ∈ sources)
    (hfound : ∀ item, items.find? (fun item => key item = id source) = some item → p item = true)
    (hsingle : (items.filter fun item => p item && decide (key item = id source)).length ≤ 1) :
    ((upsertAll key id change new sources items).filter fun item =>
        p item && decide (key item = id source)) =
      [((items.find? fun item => key item = id source).map (change source)).getD (new source)] := by
  induction sources generalizing items with
  | nil => exact absurd hsource List.not_mem_nil
  | cons first rest ih =>
      obtain ⟨hfirst, hrest⟩ := List.nodup_cons.mp hids
      rcases List.mem_cons.mp hsource with rfl | hlater
      · have hothers : ∀ item, key item ∈ rest.map id →
            (p item && decide (key item = id source)) = false := by
          intro item hitem
          have hne : key item ≠ id source := fun heq => hfirst (heq ▸ hitem)
          simp [hne]
        exact (filter_upsertAll hkey hnewKey hothers).trans
          (filter_upsertKey_self (hkey source) (hnewKey source) (hchange source) (hnew source)
            hfound hsingle)
      · have hne : id source ≠ id first := fun heq => hfirst (heq ▸ List.mem_map_of_mem hlater)
        have hstep : ((upsertKey key (id first) (change first) (new first) items).find? fun item =>
            key item = id source) = items.find? fun item => key item = id source :=
          find?_upsertKey_of_ne (hkey first) (hnewKey first) hne
        have hselect : ((upsertKey key (id first) (change first) (new first) items).filter fun item =>
            p item && decide (key item = id source)) =
            items.filter fun item => p item && decide (key item = id source) := by
          refine filter_upsertKey (hkey first) (hnewKey first) ?_
          intro item hitem
          simp [hitem, hne.symm]
        rw [← hstep] at hfound ⊢
        rw [← hselect] at hsingle
        exact ih hrest hlater hfound hsingle

end Runs

end HarborBeacon.UpsertRuns
