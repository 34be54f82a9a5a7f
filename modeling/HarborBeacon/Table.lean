import Mathlib.Data.List.AList
import Mathlib.Data.List.Sort

/-!
Tables of records under text keys, as association lists without repeated keys.
-/

namespace HarborBeacon

/-- A `HashMap<String, α>`. Its entries stand in some order; every reader below either
looks a key up or sorts what it lists. -/
abbrev Table (α : Type) := AList fun _ : String => α

namespace Table

variable {α : Type}

def values (t : Table α) : List α :=
  t.entries.map fun entry => entry.2

def retain (keep : String → α → Bool) (t : Table α) : Table α where
  entries := t.entries.filter fun entry => keep entry.1 entry.2
  nodupKeys := t.nodupKeys.sublist List.filter_sublist

/-- Rewrite every value in place, as a loop over `values_mut` does. -/
def mapValues (f : String → α → α) (t : Table α) : Table α where
  entries := t.entries.map fun entry => ⟨entry.1, f entry.1 entry.2⟩
  nodupKeys := t.nodupKeys.map₂ f

theorem lookup_insert_eq_ite (k k' : String) (v : α) (t : Table α) :
    (t.insert k' v).lookup k = if k = k' then some v else t.lookup k := by
  split
  · rename_i h
    subst h
    exact AList.lookup_insert t
  · rename_i h
    exact AList.lookup_insert_ne h

theorem lookup_erase_eq_ite (k k' : String) (t : Table α) :
    (t.erase k').lookup k = if k = k' then none else t.lookup k := by
  split
  · rename_i h
    subst h
    exact AList.lookup_erase k t
  · rename_i h
    exact AList.lookup_erase_ne h

theorem lookup_eq_some_iff {k : String} {v : α} {t : Table α} :
    t.lookup k = some v ↔ (⟨k, v⟩ : Σ _ : String, α) ∈ t.entries :=
  AList.mem_lookup_iff

theorem lookup_retain (keep : String → α → Bool) (k : String) (t : Table α) :
    (t.retain keep).lookup k = (t.lookup k).filter (keep k) := by
  ext v
  simp only [Option.filter_eq_some_iff]
  rw [lookup_eq_some_iff, lookup_eq_some_iff]
  exact List.mem_filter

theorem lookup_mapValues (f : String → α → α) (k : String) (t : Table α) :
    (t.mapValues f).lookup k = (t.lookup k).map (f k) :=
  List.dlookup_map₂ k

theorem mem_values_iff {v : α} {t : Table α} :
    v ∈ t.values ↔ ∃ k, t.lookup k = some v := by
  simp only [values, List.mem_map, lookup_eq_some_iff]
  constructor
  · rintro ⟨⟨k, w⟩, hmem, rfl⟩
    exact ⟨k, hmem⟩
  · rintro ⟨k, hmem⟩
    exact ⟨⟨k, v⟩, hmem, rfl⟩

section Keys

def KeyedBy (idOf : α → String) (t : Table α) : Prop :=
  ∀ key record, t.lookup key = some record → idOf record = key

variable {idOf : α → String} {t : Table α}

theorem keyedBy_empty : KeyedBy idOf (∅ : Table α) := by
  intro key record h
  simp at h

theorem KeyedBy.insert (h : KeyedBy idOf t) (key : String) (record : α)
    (hkey : idOf record = key) : KeyedBy idOf (t.insert key record) := by
  intro k other hother
  rw [lookup_insert_eq_ite] at hother
  split at hother
  · rename_i heq
    rw [← Option.some.inj hother, hkey, heq]
  · exact h k other hother

theorem KeyedBy.retain (h : KeyedBy idOf t) (keep : String → α → Bool) :
    KeyedBy idOf (t.retain keep) := by
  intro k record hrecord
  rw [lookup_retain, Option.filter_eq_some_iff] at hrecord
  exact h k record hrecord.1

theorem KeyedBy.mapValues (h : KeyedBy idOf t) {f : String → α → α}
    (hf : ∀ key record, idOf (f key record) = idOf record) : KeyedBy idOf (t.mapValues f) := by
  intro k record hrecord
  rw [lookup_mapValues, Option.map_eq_some_iff] at hrecord
  obtain ⟨old, hold, rfl⟩ := hrecord
  rw [hf, h k old hold]

theorem KeyedBy.getD (h : KeyedBy idOf t) {key : String} (fallback : α)
    (hfallback : idOf fallback = key) : idOf ((t.lookup key).getD fallback) = key := by
  cases hstored : t.lookup key with
  | none => exact hfallback
  | some record => exact h key record hstored

end Keys

section Listings

variable {idOf : α → String} {t : Table α} {records : List α} {p q : α → Bool}

theorem nodup_values_ids (h : KeyedBy idOf t) : (t.values.map idOf).Nodup := by
  have hkeys : t.values.map idOf = t.entries.map fun entry => entry.1 := by
    rw [values, List.map_map]
    refine List.map_congr_left fun entry hentry => ?_
    exact h entry.1 entry.2 (lookup_eq_some_iff.mpr hentry)
  rw [hkeys]
  exact t.nodupKeys

theorem mem_map_filter_values (h : KeyedBy idOf t) {p : α → Bool} {id : String} :
    id ∈ (t.values.filter p).map idOf ↔ ∃ record, t.lookup id = some record ∧ p record = true := by
  rw [List.mem_map]
  constructor
  · rintro ⟨record, hmem, rfl⟩
    rw [List.mem_filter, mem_values_iff] at hmem
    obtain ⟨⟨key, hkey⟩, hp⟩ := hmem
    exact ⟨record, by rw [h key record hkey]; exact hkey, hp⟩
  · rintro ⟨record, hrecord, hp⟩
    refine ⟨record, ?_, h id record hrecord⟩
    rw [List.mem_filter, mem_values_iff]
    exact ⟨⟨id, hrecord⟩, hp⟩

theorem filter_values_perm (h : KeyedBy idOf t) {p : α → Bool} (hnodup : (records.map idOf).Nodup)
    (hmem : ∀ a, a ∈ records ↔ t.lookup (idOf a) = some a ∧ p a = true) :
    (t.values.filter p).Perm records := by
  have hvalues : (t.values.filter p).Nodup :=
    (nodup_values_ids h).of_map.filter p
  refine (List.perm_ext_iff_of_nodup hvalues hnodup.of_map).mpr fun a => ?_
  rw [List.mem_filter, mem_values_iff, hmem]
  constructor
  · rintro ⟨⟨key, hkey⟩, hp⟩
    exact ⟨by rw [h key a hkey]; exact hkey, hp⟩
  · rintro ⟨hlookup, hp⟩
    exact ⟨⟨_, hlookup⟩, hp⟩

variable (r : α → α → Prop) [DecidableRel r] [Std.Total r] [IsTrans α r]

theorem filter_insertionSort_values (h : KeyedBy idOf t) (hnodup : (records.map idOf).Nodup)
    (hmem : ∀ a, a ∈ records ↔ t.lookup (idOf a) = some a ∧ p a = true ∧ q a = true)
    (hanti : ∀ a b, r a b → r b a → idOf a = idOf b) :
    ((t.values.filter p).insertionSort r).filter q = records.insertionSort r := by
  have hperm : (((t.values.filter p).insertionSort r).filter q).Perm
      (records.insertionSort r) := by
    refine ((List.perm_insertionSort r _).filter q).trans ?_
    rw [List.filter_filter]
    refine (filter_values_perm h hnodup fun a => ?_).trans (List.perm_insertionSort r _).symm
    rw [hmem, Bool.and_eq_true, and_comm (a := q a = true)]
  refine hperm.eq_of_pairwise (fun a b ha hb hab hba => ?_)
    ((List.pairwise_insertionSort r _).filter _) (List.pairwise_insertionSort r _)
  have ha' : a ∈ records := (List.mem_insertionSort r).mp (hperm.subset ha)
  have hb' : b ∈ records := (List.mem_insertionSort r).mp hb
  exact List.inj_on_of_nodup_map hnodup ha' hb' (hanti a b hab hba)

theorem filter_insertionSort_congr {t' : Table α} (h : KeyedBy idOf t) (h' : KeyedBy idOf t')
    (hanti : ∀ a b, r a b → r b a → idOf a = idOf b) (hsame : ∀ a, p a = true → q a = true →
      (t.lookup (idOf a) = some a ↔ t'.lookup (idOf a) = some a)) :
    ((t.values.filter p).insertionSort r).filter q =
      ((t'.values.filter p).insertionSort r).filter q := by
  have hnodup : ((t'.values.filter fun a => p a && q a).map idOf).Nodup :=
    (nodup_values_ids h').sublist (List.filter_sublist.map idOf)
  have hmem : ∀ a, a ∈ t'.values.filter (fun a => p a && q a) ↔
      t'.lookup (idOf a) = some a ∧ p a = true ∧ q a = true := by
    intro a
    rw [List.mem_filter, mem_values_iff, Bool.and_eq_true]
    constructor
    · rintro ⟨⟨key, hkey⟩, hpq⟩
      exact ⟨by rw [h' key a hkey]; exact hkey, hpq⟩
    · rintro ⟨hlookup, hpq⟩
      exact ⟨⟨_, hlookup⟩, hpq⟩
  rw [filter_insertionSort_values r h' hnodup hmem hanti,
    filter_insertionSort_values r h hnodup (fun a => ?_) hanti]
  rw [hmem]
  exact and_congr_left fun hpq => (hsame a hpq.1 hpq.2).symm

end Listings

end Table

end HarborBeacon
