import Mathlib.Data.List.Find
import Mathlib.Data.List.Nodup

/-!
Tables of records that belong to owners. Every record has a key within its table; where an owner
can have several records, the key is the id of the owner followed by one of a few endings, so
that records of different owners never have the same key.
-/

namespace HarborBeacon.OwnedTables

variable {α : Type}

section Upsert

variable (key : α → String)

/-- No two records have the same key. -/
def Unique (items : List α) : Prop :=
  (items.map key).Nodup

def upsertKey (k : String) (change : α → α) (new : α) : List α → List α
  | [] => [new]
  | item :: rest =>
      if key item = k then change item :: rest else item :: upsertKey k change new rest

variable {key} {k : String} {change : α → α} {new : α} {items : List α} {item : α}

theorem map_key_upsertKey (hchange : ∀ item, key (change item) = key item) (hnew : key new = k) :
    (upsertKey key k change new items).map key =
      if k ∈ items.map key then items.map key else items.map key ++ [k] := by
  induction items with
  | nil => simp [upsertKey, hnew]
  | cons item rest ih =>
      rw [upsertKey]
      by_cases hitem : key item = k
      · rw [if_pos hitem, if_pos (by simp [hitem]), List.map_cons, hchange, List.map_cons]
      · rw [if_neg hitem, List.map_cons, ih, List.map_cons]
        have hother : ¬ k = key item := fun h => hitem h.symm
        by_cases hrest : k ∈ rest.map key
        · rw [if_pos hrest, if_pos (List.mem_cons_of_mem _ hrest)]
        · rw [if_neg hrest, if_neg (by simp only [List.mem_cons, hother, hrest, or_self,
            not_false_eq_true]), List.cons_append]

theorem mem_map_key_upsertKey (hchange : ∀ item, key (change item) = key item)
    (hnew : key new = k) {other : String} :
    other ∈ (upsertKey key k change new items).map key ↔ other ∈ items.map key ∨ other = k := by
  rw [map_key_upsertKey hchange hnew]
  split
  · rename_i hmem
    constructor
    · exact Or.inl
    · rintro (h | rfl)
      · exact h
      · exact hmem
  · rw [List.mem_append, List.mem_singleton]

theorem Unique.upsertKey (h : Unique key items) (hchange : ∀ item, key (change item) = key item)
    (hnew : key new = k) : Unique key (upsertKey key k change new items) := by
  rw [Unique, map_key_upsertKey hchange hnew]
  split
  · exact h
  · rename_i hmem
    exact List.Nodup.append h (List.nodup_singleton k) (by simpa using hmem)

theorem mem_upsertKey_of_ne (hchange : ∀ item, key (change item) = key item) (hnew : key new = k)
    (hne : key item ≠ k) :
    item ∈ upsertKey key k change new items ↔ item ∈ items := by
  induction items with
  | nil =>
      rw [OwnedTables.upsertKey, List.mem_singleton]
      constructor
      · rintro rfl
        exact absurd hnew hne
      · exact fun h => absurd h (by simp)
  | cons first rest ih =>
      rw [OwnedTables.upsertKey]
      split
      · rename_i hfirst
        rw [List.mem_cons, List.mem_cons]
        constructor
        · rintro (rfl | h)
          · exact absurd ((hchange first).trans hfirst) hne
          · exact Or.inr h
        · rintro (rfl | h)
          · exact absurd hfirst hne
          · exact Or.inr h
      · rw [List.mem_cons, List.mem_cons, ih]

theorem mem_upsertKey_of_eq (h : Unique key items) (hitem : item ∈ upsertKey key k change new items)
    (hkey : key item = k) :
    item = new ∧ k ∉ items.map key ∨ ∃ old ∈ items, key old = k ∧ item = change old := by
  induction items with
  | nil => exact Or.inl ⟨List.mem_singleton.mp hitem, by simp⟩
  | cons first rest ih =>
      rw [Unique, List.map_cons, List.nodup_cons] at h
      rw [OwnedTables.upsertKey] at hitem
      split at hitem
      · rename_i hfirst
        rcases List.mem_cons.mp hitem with rfl | hrest
        · exact Or.inr ⟨first, List.mem_cons_self, hfirst, rfl⟩
        · have hmem := List.mem_map_of_mem (f := key) hrest
          rw [hkey, ← hfirst] at hmem
          exact absurd hmem h.1
      · rename_i hfirst
        rcases List.mem_cons.mp hitem with rfl | hrest
        · exact absurd hkey hfirst
        · rcases ih h.2 hrest with ⟨rfl, hnone⟩ | ⟨old, hold, hsame, rfl⟩
          · refine Or.inl ⟨rfl, ?_⟩
            rw [List.map_cons, List.mem_cons, not_or]
            exact ⟨fun heq => hfirst heq.symm, hnone⟩
          · exact Or.inr ⟨old, List.mem_cons_of_mem _ hold, hsame, rfl⟩

theorem Unique.upsertKey_eq_map (h : Unique key items) (hmem : k ∈ items.map key) :
    OwnedTables.upsertKey key k change new items =
      items.map fun item => if key item = k then change item else item := by
  induction items with
  | nil => exact absurd hmem (by simp)
  | cons first rest ih =>
      rw [Unique, List.map_cons, List.nodup_cons] at h
      rw [OwnedTables.upsertKey, List.map_cons]
      by_cases hfirst : key first = k
      · rw [if_pos hfirst, if_pos hfirst]
        refine congrArg _ ((List.map_id rest).symm.trans (List.map_congr_left ?_))
        intro item hitem
        rw [if_neg, id]
        intro hsame
        have hkey := List.mem_map_of_mem (f := key) hitem
        rw [hsame, ← hfirst] at hkey
        exact h.1 hkey
      · rw [if_neg hfirst, if_neg hfirst, ih h.2]
        rcases List.mem_cons.mp hmem with heq | hrest
        · exact absurd heq.symm hfirst
        · exact hrest

theorem filter_upsertKey (hchange : ∀ item, key (change item) = key item) (hnew : key new = k)
    {p : α → Bool} (hp : ∀ item, key item = k → p item = false) :
    (upsertKey key k change new items).filter p = items.filter p := by
  induction items with
  | nil => simp [upsertKey, hp new hnew]
  | cons first rest ih =>
      rw [upsertKey]
      split
      · rename_i hfirst
        have hchanged := hp (change first) ((hchange first).trans hfirst)
        rw [List.filter_cons_of_neg (by simp [hchanged]),
          List.filter_cons_of_neg (by simp [hp first hfirst])]
      · rw [List.filter_cons, List.filter_cons, ih]

theorem filter_replace {keep p : α → Bool} {added : List α}
    (hkeep : ∀ item ∈ items, p item = true → keep item = true)
    (hadded : ∀ item ∈ added, p item = false) :
    (items.filter keep ++ added).filter p = items.filter p := by
  have hnone : added.filter p = [] :=
    List.filter_eq_nil_iff.mpr fun item hitem => by simp [hadded item hitem]
  rw [List.filter_append, hnone, List.append_nil, List.filter_filter]
  refine List.filter_congr ?_
  intro item hitem
  cases hp : p item
  · rfl
  · rw [hkeep item hitem hp]
    rfl

theorem Unique.filter (h : Unique key items) (keep : α → Bool) : Unique key (items.filter keep) :=
  List.Nodup.sublist (List.Sublist.map key List.filter_sublist) h

theorem Unique.eq_of_key (h : Unique key items) {a b : α} (ha : a ∈ items) (hb : b ∈ items)
    (hkey : key a = key b) : a = b :=
  List.inj_on_of_nodup_map h ha hb hkey

theorem Unique.find?_eq_some (h : Unique key items) (hitem : item ∈ items) (hkey : key item = k) :
    (items.find? fun item => key item = k) = some item := by
  have hfound : (items.find? fun item => key item = k).isSome := by
    rw [List.find?_isSome]
    exact ⟨item, hitem, decide_eq_true hkey⟩
  obtain ⟨other, hother⟩ := Option.isSome_iff_exists.mp hfound
  have hsame : key other = k := by simpa using List.find?_some hother
  rw [hother, h.eq_of_key (List.mem_of_find?_eq_some hother) hitem (hsame.trans hkey.symm)]

end Upsert

section Owners

variable (owner key : α → String) (slots : List String)

/-- No ending is the end of another one. -/
def Independent (slots : List String) : Prop :=
  ∀ slot ∈ slots, ∀ other ∈ slots, slot.toList <:+ other.toList → slot = other

instance instDecidableIndependent (slots : List String) : Decidable (Independent slots) :=
  inferInstanceAs (Decidable (∀ slot ∈ slots, ∀ other ∈ slots, _ → _))

structure Owned (ids : List String) (items : List α) : Prop where
  unique : Unique key items
  owner_mem : ∀ item ∈ items, owner item ∈ ids
  key_eq : ∀ item ∈ items, ∃ slot ∈ slots, key item = owner item ++ slot

variable {owner key slots} {ids ids' : List String} {items : List α} {added : List String}
  {keep : α → Bool}

theorem eq_of_append_slot (hslots : Independent slots) {a b slot other : String}
    (hslot : slot ∈ slots) (hother : other ∈ slots) (h : a ++ slot = b ++ other) :
    a = b ∧ slot = other := by
  have hlist : a.toList ++ slot.toList = b.toList ++ other.toList := by
    rw [← String.toList_append, h, String.toList_append]
  have hleft : slot.toList <:+ b.toList ++ other.toList := ⟨a.toList, hlist⟩
  have hright : other.toList <:+ b.toList ++ other.toList := List.suffix_append _ _
  have hsame : slot = other := by
    rcases Nat.le_total slot.toList.length other.toList.length with hle | hle
    · exact hslots slot hslot other hother (List.suffix_of_suffix_length_le hleft hright hle)
    · exact (hslots other hother slot hslot (List.suffix_of_suffix_length_le hright hleft hle)).symm
  subst hsame
  exact ⟨String.toList_injective (List.append_cancel_right hlist), rfl⟩

theorem Owned.owner_eq (h : Owned owner key slots ids items) (hslots : Independent slots)
    {item : α} (hitem : item ∈ items) {d slot : String} (hslot : slot ∈ slots)
    (hkey : key item = d ++ slot) : owner item = d := by
  obtain ⟨other, hother, heq⟩ := h.key_eq item hitem
  exact (eq_of_append_slot hslots hother hslot (heq.symm.trans hkey)).1

theorem owned_nil : Owned owner key slots ids [] where
  unique := List.nodup_nil
  owner_mem := by simp
  key_eq := by simp

theorem Owned.mono (h : Owned owner key slots ids items) (hids : ∀ id ∈ ids, id ∈ ids') :
    Owned owner key slots ids' items where
  unique := h.unique
  owner_mem := fun item hitem => hids _ (h.owner_mem item hitem)
  key_eq := h.key_eq

theorem Owned.prune (h : Owned owner key slots ids items)
    (hkeep : ∀ item ∈ items, keep item = true → owner item ∈ ids') :
    Owned owner key slots ids' (items.filter keep) where
  unique := h.unique.filter keep
  owner_mem := by
    intro item hitem
    obtain ⟨hmem, hkept⟩ := List.mem_filter.mp hitem
    exact hkeep item hmem hkept
  key_eq := fun item hitem => h.key_eq item (List.mem_filter.mp hitem).1

theorem nodup_map_append (h : added.Nodup) (d : String) :
    (added.map (d ++ ·)).Nodup := by
  refine h.map ?_
  intro slot other heq
  have hlist : d.toList ++ slot.toList = d.toList ++ other.toList := by
    rw [← String.toList_append, ← String.toList_append]
    exact congrArg String.toList heq
  exact String.toList_injective (List.append_cancel_left hlist)

theorem Owned.replace (h : Owned owner key slots ids items) (hslots : Independent slots)
    (hadded : ∀ slot ∈ added, slot ∈ slots) (hnodup : added.Nodup) {d : String} (hd : d ∈ ids)
    {new : List α} (howner : ∀ item ∈ new, owner item = d)
    (hkeys : (new.map key).Sublist (added.map (d ++ ·)))
    (hkept : ∀ item ∈ items, keep item = true → owner item = d →
      ∀ slot ∈ added, key item ≠ d ++ slot) :
    Owned owner key slots ids (items.filter keep ++ new) := by
  have hslot : ∀ item ∈ new, ∃ slot ∈ added, key item = d ++ slot := by
    intro item hitem
    obtain ⟨slot, hslot, heq⟩ := List.mem_map.mp (hkeys.subset (List.mem_map_of_mem hitem))
    exact ⟨slot, hslot, heq.symm⟩
  refine ⟨?_, ?_, ?_⟩
  · rw [Unique, List.map_append]
    refine List.Nodup.append (h.unique.filter keep) (hkeys.nodup (nodup_map_append hnodup d)) ?_
    intro k hold hfresh
    obtain ⟨item, hitem, rfl⟩ := List.mem_map.mp hold
    obtain ⟨hmem, hkeep⟩ := List.mem_filter.mp hitem
    obtain ⟨other, hother, hsame⟩ := List.mem_map.mp hfresh
    obtain ⟨slot, hin, hkey⟩ := hslot other hother
    have heq : key item = d ++ slot := hsame.symm.trans hkey
    exact hkept item hmem hkeep (h.owner_eq hslots hmem (hadded slot hin) heq) slot hin heq
  · intro item hitem
    rcases List.mem_append.mp hitem with hold | hfresh
    · exact h.owner_mem item (List.mem_filter.mp hold).1
    · rw [howner item hfresh]
      exact hd
  · intro item hitem
    rcases List.mem_append.mp hitem with hold | hfresh
    · exact h.key_eq item (List.mem_filter.mp hold).1
    · obtain ⟨slot, hin, hkey⟩ := hslot item hfresh
      exact ⟨slot, hadded slot hin, by rw [howner item hfresh, hkey]⟩

end Owners

theorem find?_key {key : α → String} {items : List α} (h : Unique key items) {item : α}
    (hitem : item ∈ items) : (items.find? fun other => key other = key item) = some item := by
  induction items with
  | nil => exact absurd hitem List.not_mem_nil
  | cons first rest ih =>
      rw [Unique, List.map_cons, List.nodup_cons] at h
      rcases List.mem_cons.mp hitem with rfl | hrest
      · exact List.find?_cons_of_pos (decide_eq_true rfl)
      · rw [List.find?_cons_of_neg]
        · exact ih h.2 hrest
        · rw [decide_eq_true_iff]
          exact fun heq => h.1 (heq ▸ List.mem_map_of_mem hrest)

section Spread

variable {ρ : Type} {rows : ρ → List α} {owner : α → String} {id : ρ → String}
  {sources : List ρ} {source : ρ} {p : α → Bool}

theorem filter_owner_eq_nil (hrows : ∀ source, ∀ item ∈ rows source, owner item = id source)
    {k : String} (hk : k ∉ sources.map id) :
    ((sources.flatMap rows).filter fun item => owner item = k) = [] := by
  rw [List.filter_eq_nil_iff]
  intro item hitem
  obtain ⟨other, hother, hrow⟩ := List.mem_flatMap.mp hitem
  rw [decide_eq_true_iff, hrows other item hrow]
  exact fun heq => hk (heq ▸ List.mem_map_of_mem hother)

theorem filter_spread (hrows : ∀ source, ∀ item ∈ rows source, owner item = id source)
    (hids : (sources.map id).Nodup) (hsource : source ∈ sources) :
    ((sources.flatMap rows).filter fun item => owner item = id source) = rows source := by
  induction sources with
  | nil => exact absurd hsource List.not_mem_nil
  | cons first rest ih =>
      rw [List.map_cons, List.nodup_cons] at hids
      rw [List.flatMap_cons, List.filter_append]
      rcases List.mem_cons.mp hsource with rfl | hrest
      · rw [filter_owner_eq_nil hrows hids.1, List.append_nil, List.filter_eq_self]
        exact fun item hitem => decide_eq_true (hrows source item hitem)
      · rw [ih hids.2 hrest, List.append_left_eq_self, List.filter_eq_nil_iff]
        intro item hitem
        rw [decide_eq_true_iff, hrows first item hitem]
        exact fun heq => hids.1 (heq ▸ List.mem_map_of_mem hrest)

theorem find?_spread (hrows : ∀ source, ∀ item ∈ rows source, owner item = id source)
    (hids : (sources.map id).Nodup) (hsource : source ∈ sources)
    (hp : ∀ item ∈ sources.flatMap rows, p item = true → owner item = id source) :
    (sources.flatMap rows).find? p = (rows source).find? p := by
  rw [← filter_spread hrows hids hsource, List.find?_filter]
  apply List.find?_congr
  intro item hitem
  cases haccept : p item with
  | false => simp
  | true => simp [hp item hitem haccept]

theorem find?_row {row : ρ → α} (hrow : ∀ source, owner (row source) = id source)
    (hids : (sources.map id).Nodup) (hsource : source ∈ sources)
    (hp : ∀ other ∈ sources, p (row other) = true → id other = id source)
    (hself : p (row source) = true) : (sources.map row).find? p = some (row source) := by
  have hrows : ∀ source, ∀ item ∈ [row source], owner item = id source := by
    intro source item hitem
    rw [List.mem_singleton.mp hitem, hrow]
  rw [List.map_eq_flatMap, find?_spread hrows hids hsource]
  · exact List.find?_cons_of_pos hself
  · intro item hitem haccept
    obtain ⟨other, hother, hmem⟩ := List.mem_flatMap.mp hitem
    rw [List.mem_singleton.mp hmem] at haccept ⊢
    rw [hrow, hp other hother haccept]

end Spread

end HarborBeacon.OwnedTables
