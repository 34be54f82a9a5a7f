import HarborBeacon.FilledTables
import Mathlib.Data.List.Induction
import Mathlib.Data.List.Nodup

/-!
A list in which the rows with one key are collapsed into the first of them. The row that is kept
absorbs the others one by one; a map tells where it stands. Rows without a key are all kept.
-/

namespace HarborBeacon.Collapsing

open FilledTables

variable {α β ι κ : Type}

structure Collapsed (α κ : Type) where
  rows : List α
  positions : List (κ × Nat)

section Places

variable {key : α → Option κ} {rows : List α}

theorem map_modify (f : α → α) (hf : ∀ row, key (f row) = key row) (position : Nat) :
    (rows.modify position f).map key = rows.map key := by
  refine List.ext_getElem? fun i => ?_
  rw [List.getElem?_map, List.getElem?_map, List.getElem?_modify]
  cases rows[i]? with
  | none => rfl
  | some row =>
      simp only [Option.map_eq_map, Option.map_some]
      split
      · rw [hf]
      · rfl

theorem exists_eq_append_of_getElem? {i : Nat} {k : Option κ}
    (h : (rows.map key)[i]? = some k) (f : α → α) : ∃ before row after,
      rows = before ++ row :: after ∧ key row = k ∧
        rows.modify i f = before ++ f row :: after := by
  rw [List.getElem?_map, Option.map_eq_some_iff] at h
  obtain ⟨row, hrow, hk⟩ := h
  obtain ⟨hi, rfl⟩ := List.getElem?_eq_some_iff.mp hrow
  refine ⟨rows.take i, rows[i], rows.drop (i + 1), ?_, hk, List.modify_eq_take_cons_drop hi⟩
  rw [List.getElem_cons_drop, List.take_append_drop]

end Places

section Relation

variable (key : α → Option κ) (absorb : α → α → α)

inductive Collapses : List α → List α → Prop
  | nil : Collapses [] []
  | push {rows kept : List α} {row : α} (h : Collapses rows kept)
      (hnew : ∀ other ∈ kept, key row ≠ none → key other ≠ key row) :
      Collapses (rows ++ [row]) (kept ++ [row])
  | merge {rows before after : List α} {existing row : α}
      (h : Collapses rows (before ++ existing :: after)) (hkey : key existing = key row)
      (hsome : key row ≠ none) :
      Collapses (rows ++ [row]) (before ++ absorb existing row :: after)

variable {key absorb} {rows kept : List α}

theorem Collapses.forall_kept {P : α → Prop} (h : Collapses key absorb rows kept)
    (habsorb : ∀ existing row, P existing → P row → P (absorb existing row))
    (hrows : ∀ row ∈ rows, P row) : ∀ row ∈ kept, P row := by
  induction h with
  | nil => exact hrows
  | push _ _ ih =>
      rw [List.forall_mem_append] at hrows ⊢
      exact ⟨ih hrows.1, hrows.2⟩
  | @merge rows before after existing row _ _ _ ih =>
      rw [List.forall_mem_append, List.forall_mem_singleton] at hrows
      have hkept := ih hrows.1
      rw [List.forall_mem_append, List.forall_mem_cons] at hkept ⊢
      exact ⟨hkept.1, habsorb _ _ hkept.2.1 hrows.2, hkept.2.2⟩

theorem Collapses.nodup (h : Collapses key absorb rows kept)
    (habsorb : ∀ existing row, key (absorb existing row) = key existing)
    (hkey : ∀ row ∈ rows, key row ≠ none) : (kept.map key).Nodup := by
  induction h with
  | nil => exact List.nodup_nil
  | @push rows kept row _ hnew ih =>
      rw [List.forall_mem_append, List.forall_mem_singleton] at hkey
      rw [List.map_append, List.map_singleton, List.nodup_append']
      refine ⟨ih hkey.1, List.nodup_singleton _, List.disjoint_singleton.mpr ?_⟩
      intro hmem
      obtain ⟨other, hother, heq⟩ := List.mem_map.mp hmem
      exact hnew other hother hkey.2 heq
  | @merge rows before after existing row _ _ _ ih =>
      rw [List.forall_mem_append] at hkey
      have hnodup := ih hkey.1
      rw [List.map_append, List.map_cons] at hnodup ⊢
      rwa [habsorb]

section Groups

variable (data : α → β) (group : β → ι)

theorem Collapses.keepFirst_eq [DecidableEq ι] (h : Collapses key absorb rows kept)
    (hdata : ∀ existing row, data (absorb existing row) = data existing)
    (hgroup : ∀ left right, key right ≠ none → key left = key right →
      group (data left) = group (data right)) :
    keepFirst group [] (kept.map data) = keepFirst group [] (rows.map data) := by
  have hmem : ∀ {rows kept : List α},
      keepFirst group [] (kept.map data) = keepFirst group [] (rows.map data) →
        ∀ g, g ∈ (kept.map data).map group ↔ g ∈ (rows.map data).map group := by
    intro rows kept heq g
    rw [← mem_map_keepFirst List.not_mem_nil, heq, mem_map_keepFirst List.not_mem_nil]
  induction h with
  | nil => rfl
  | push _ _ ih =>
      rw [List.map_append, List.map_append, List.map_singleton, keepFirst_concat, keepFirst_concat,
        ih]
      simp only [hmem ih]
  | @merge rows before after existing row _ hkey hsome ih =>
      have hkept : (before ++ absorb existing row :: after).map data =
          (before ++ existing :: after).map data := by
        rw [List.map_append, List.map_append, List.map_cons, List.map_cons, hdata]
      have hold : group (data row) ∈ (rows.map data).map group := by
        rw [← hmem ih, ← hgroup existing row hsome hkey]
        simp
      rw [hkept, ih, List.map_append, List.map_singleton, keepFirst_concat, if_pos (Or.inr hold),
        List.append_nil]

theorem Collapses.exists_covering {Covers : α → α → Prop} (h : Collapses key absorb rows kept)
    (hdata : ∀ existing row, data (absorb existing row) = data existing)
    (hgroup : ∀ left right, key right ≠ none → key left = key right →
      group (data left) = group (data right))
    (hrefl : ∀ row, Covers row row)
    (htrans : ∀ {a b c}, Covers a b → Covers b c → Covers a c)
    (hleft : ∀ existing row, Covers (absorb existing row) existing)
    (hright : ∀ existing row, Covers (absorb existing row) row) :
    ∀ row ∈ rows, ∃ other ∈ kept, group (data other) = group (data row) ∧ Covers other row := by
  induction h with
  | nil => simp
  | @push rows kept row _ _ ih =>
      rw [List.forall_mem_append, List.forall_mem_singleton]
      constructor
      · intro old hold
        obtain ⟨other, hother, hcovers⟩ := ih old hold
        exact ⟨other, List.mem_append_left _ hother, hcovers⟩
      · exact ⟨row, List.mem_append_right _ List.mem_cons_self, rfl, hrefl row⟩
  | @merge rows before after existing row _ hkey hsome ih =>
      have hnew : absorb existing row ∈ before ++ absorb existing row :: after := by simp
      rw [List.forall_mem_append, List.forall_mem_singleton]
      constructor
      · intro old hold
        obtain ⟨other, hother, hsame, hcovers⟩ := ih old hold
        rw [List.mem_append, List.mem_cons] at hother
        obtain hbefore | rfl | hafter := hother
        · exact ⟨other, List.mem_append_left _ hbefore, hsame, hcovers⟩
        · exact ⟨_, hnew, by rw [hdata, hsame], htrans (hleft _ row) hcovers⟩
        · exact ⟨other, by simp [hafter], hsame, hcovers⟩
      · refine ⟨_, hnew, ?_, hright existing row⟩
        rw [hdata, hgroup existing row hsome hkey]

end Groups

end Relation

section Fold

variable [DecidableEq κ] (key : α → Option κ) (absorb : α → α → α)

def Collapsed.add (state : Collapsed α κ) (row : α) : Collapsed α κ :=
  match key row with
  | none => { state with rows := state.rows ++ [row] }
  | some k =>
      match state.positions.lookup k with
      | some position =>
          { state with rows := state.rows.modify position fun existing => absorb existing row }
      | none => ⟨state.rows ++ [row], (k, state.rows.length) :: state.positions⟩

def collapse (rows : List α) : List α :=
  (rows.foldl (Collapsed.add key absorb) ⟨[], []⟩).rows

structure Placed (state : Collapsed α κ) : Prop where
  valid : ∀ k position, state.positions.lookup k = some position →
    (state.rows.map key)[position]? = some (some k)
  complete : ∀ k, some k ∈ state.rows.map key → state.positions.lookup k ≠ none

variable {key absorb} {state : Collapsed α κ} {rows kept : List α}

theorem placed_add (habsorb : ∀ existing row, key (absorb existing row) = key existing)
    (h : Placed key state) (row : α) : Placed key (state.add key absorb row) := by
  have hleft : ∀ k position, state.positions.lookup k = some position →
      (state.rows.map key ++ [key row])[position]? = some (some k) := by
    intro k position hposition
    have hvalid := h.valid k position hposition
    rw [List.getElem?_append_left (List.getElem?_eq_some_iff.mp hvalid).1, hvalid]
  rw [Collapsed.add]
  split
  · rename_i hnone
    constructor
    · intro k position hposition
      rw [List.map_append]
      exact hleft k position hposition
    · intro k hmem
      rw [List.map_append, List.map_singleton, hnone, List.mem_append] at hmem
      exact h.complete k (hmem.resolve_right (by simp))
  · rename_i k hk
    split
    · rename_i position hposition
      have hkeys : (state.rows.modify position fun existing => absorb existing row).map key =
          state.rows.map key := map_modify _ (fun existing => habsorb existing row) position
      exact ⟨fun k position hlookup => hkeys ▸ h.valid k position hlookup,
        fun k hmem => h.complete k (hkeys ▸ hmem)⟩
    · rename_i hnone
      constructor
      · intro other position hposition
        rw [List.lookup_cons] at hposition
        rw [List.map_append]
        split at hposition
        · rename_i hsame
          rw [beq_iff_eq] at hsame
          rw [← Option.some.inj hposition, hsame, ← hk]
          simp
        · exact hleft other position hposition
      · intro other hmem
        rw [List.lookup_cons]
        split
        · simp
        · rename_i hother
          rw [List.map_append, List.map_singleton, hk, List.mem_append] at hmem
          refine h.complete other (hmem.resolve_right ?_)
          simpa using hother

theorem collapses_add (h : Placed key state) (hrows : Collapses key absorb rows state.rows)
    (row : α) : Collapses key absorb (rows ++ [row]) (state.add key absorb row).rows := by
  rw [Collapsed.add]
  split
  · rename_i hnone
    exact hrows.push fun _ _ hsome => absurd hnone hsome
  · rename_i k hk
    split
    · rename_i position hposition
      obtain ⟨before, existing, after, hbefore, hkey, hmodify⟩ := exists_eq_append_of_getElem?
        (h.valid k position hposition) fun existing => absorb existing row
      rw [hbefore] at hrows
      rw [hmodify]
      exact hrows.merge (hkey.trans hk.symm) (by simp [hk])
    · rename_i hnone
      refine hrows.push fun other hother _ heq => ?_
      exact h.complete k (List.mem_map.mpr ⟨other, hother, heq.trans hk⟩) hnone

theorem collapses_collapse (habsorb : ∀ existing row, key (absorb existing row) = key existing)
    (rows : List α) : Collapses key absorb rows (collapse key absorb rows) := by
  have hrun : Placed key (rows.foldl (Collapsed.add key absorb) ⟨[], []⟩) ∧
      Collapses key absorb rows (collapse key absorb rows) := by
    induction rows using List.reverseRecOn with
    | nil => exact ⟨⟨by simp, by simp⟩, .nil⟩
    | append_singleton rows row ih =>
        rw [collapse, List.foldl_append, List.foldl_cons, List.foldl_nil]
        exact ⟨placed_add habsorb ih.1 row, collapses_add ih.1 ih.2 row⟩
  exact hrun.2

end Fold

end HarborBeacon.Collapsing
