import HarborBeacon.Json

/-!
Writes to the fields of an object that change nothing. A field that was written is settled:
the same write does nothing again, whatever was written to other fields in between.
-/

namespace HarborBeacon.Json

variable {key k : String} {value v : Value} {fields : Fields}

/-- The write changes nothing. -/
def Settled (key : String) (value : Value) (fields : Fields) : Prop :=
  insertField key value fields = fields

theorem settled_insertField (key : String) (value : Value) (fields : Fields) :
    Settled key value (insertField key value fields) := by
  induction fields with
  | nil => simp [Settled, insertField]
  | cons field rest ih =>
      rw [Settled] at ih
      rw [Settled, insertField]
      split_ifs with hkey hlt
      · rw [insertField, if_pos rfl]
      · rw [insertField, if_pos rfl]
      · rw [insertField, if_neg hkey, if_neg hlt, ih]

theorem Settled.lookupField (h : Settled key value fields) :
    lookupField key fields = some value := by
  rw [← h, lookupField_insertField, if_pos rfl]

theorem settled_cons_iff {first : String × Value} {rest : Fields} :
    Settled key value (first :: rest) ↔
      first = (key, value) ∨ first.1 ≠ key ∧ ¬ key < first.1 ∧ Settled key value rest := by
  obtain ⟨name, content⟩ := first
  rw [Settled, insertField]
  split_ifs with hname hlt
  · subst hname
    simp [eq_comm]
  · constructor
    · intro h
      have hlength := congrArg List.length h
      simp at hlength
    · rintro (h | ⟨-, hnot, -⟩)
      · exact absurd (Prod.mk.inj h).1 hname
      · exact absurd hlt hnot
  · rw [List.cons.injEq, Settled]
    constructor
    · rintro ⟨-, h⟩
      exact Or.inr ⟨hname, hlt, h⟩
    · rintro (h | ⟨-, -, h⟩)
      · exact absurd (Prod.mk.inj h).1 hname
      · exact ⟨rfl, h⟩

theorem Settled.insertField (h : Settled key value fields) (hne : k ≠ key) (v : Value) :
    Settled key value (insertField k v fields) := by
  induction fields with
  | nil => exact absurd h (by simp [Settled, Json.insertField])
  | cons first rest ih =>
      obtain ⟨name, content⟩ := first
      rw [Json.insertField]
      split_ifs with hname hlt
      · rw [settled_cons_iff] at h ⊢
        rcases h with h | ⟨hfirst, hnot, hrest⟩
        · exact absurd (hname.symm.trans (Prod.mk.inj h).1) hne
        · exact Or.inr ⟨hne, hname ▸ hnot, hrest⟩
      · rw [settled_cons_iff]
        refine Or.inr ⟨hne, ?_, h⟩
        rcases settled_cons_iff.mp h with heq | ⟨-, hnot, -⟩
        · rw [← (Prod.mk.inj heq).1]
          exact lt_asymm hlt
        · intro hbefore
          exact hnot (lt_trans hbefore hlt)
      · rw [settled_cons_iff] at h ⊢
        exact h.imp_right fun hlater => ⟨hlater.1, hlater.2.1, ih hlater.2.2⟩

theorem settled_insertField_iff (hne : k ≠ key) (v : Value) :
    Settled key value (Json.insertField k v fields) ↔ Settled key value fields := by
  constructor
  · intro h
    induction fields with
    | nil =>
        rw [Json.insertField, settled_cons_iff] at h
        rcases h with h | ⟨-, -, h⟩
        · exact absurd (Prod.mk.inj h).1 hne
        · exact h
    | cons first rest ih =>
        obtain ⟨name, content⟩ := first
        rw [Json.insertField] at h
        split_ifs at h with hname hlt
        · rw [settled_cons_iff] at h ⊢
          rcases h with h | ⟨hfirst, hnot, hrest⟩
          · exact absurd (Prod.mk.inj h).1 hne
          · exact Or.inr ⟨hname ▸ hfirst, hname ▸ hnot, hrest⟩
        · rw [settled_cons_iff] at h
          rcases h with h | ⟨-, -, hrest⟩
          · exact absurd (Prod.mk.inj h).1 hne
          · exact hrest
        · rw [settled_cons_iff] at h ⊢
          exact h.imp_right fun hlater => ⟨hlater.1, hlater.2.1, ih hlater.2.2⟩
  · exact fun h => h.insertField hne v

theorem removeField_eq_self (h : Json.lookupField key fields = none) :
    removeField key fields = fields := by
  rw [removeField, List.filter_eq_self]
  induction fields with
  | nil => simp
  | cons field rest ih =>
      rw [Json.lookupField] at h
      split at h
      · exact absurd h (by simp)
      · rename_i hname
        rw [List.forall_mem_cons]
        exact ⟨decide_eq_true hname, ih h⟩

/-- `entry(key).or_insert(value)`. -/
def insertMissing (key : String) (value : Value) (fields : Fields) : Fields :=
  if (lookupField key fields).isSome then fields else insertField key value fields

theorem insertMissing_eq_self (h : (Json.lookupField key fields).isSome) :
    insertMissing key value fields = fields :=
  if_pos h

theorem isSome_lookupField_insertMissing :
    (Json.lookupField key (insertMissing k v fields)).isSome =
      (decide (k = key) || (Json.lookupField key fields).isSome) := by
  rw [insertMissing]
  split_ifs with hfound
  · by_cases hkey : k = key
    · rw [← hkey, hfound, Bool.or_true]
    · simp [hkey]
  · by_cases hkey : k = key <;> simp [hkey]

section Patches

def patch (updates fields : Fields) : Fields :=
  updates.foldl (fun fields update => insertField update.1 update.2 fields) fields

variable {updates : Fields}

theorem settled_patch_iff (hkey : key ∉ updates.map Prod.fst) :
    Settled key value (patch updates fields) ↔ Settled key value fields := by
  induction updates generalizing fields with
  | nil => rfl
  | cons update rest ih =>
      rw [List.map_cons, List.mem_cons, not_or] at hkey
      exact (ih hkey.2).trans (settled_insertField_iff (Ne.symm hkey.1) update.2)

theorem settled_patch (hkeys : (updates.map Prod.fst).Nodup) {update : String × Value}
    (h : update ∈ updates) : Settled update.1 update.2 (patch updates fields) := by
  induction updates generalizing fields with
  | nil => exact absurd h List.not_mem_nil
  | cons first rest ih =>
      rw [List.map_cons, List.nodup_cons] at hkeys
      rcases List.mem_cons.mp h with rfl | hrest
      · exact (settled_patch_iff hkeys.1).mpr (settled_insertField _ _ _)
      · exact ih hkeys.2 hrest

theorem patch_eq_self (h : ∀ update ∈ updates, Settled update.1 update.2 fields) :
    patch updates fields = fields := by
  induction updates with
  | nil => rfl
  | cons first rest ih =>
      rw [List.forall_mem_cons] at h
      have hfirst : insertField first.1 first.2 fields = fields := h.1
      rw [patch, List.foldl_cons, hfirst]
      exact ih h.2

theorem lookupField_patch_of_not_mem (hkey : key ∉ updates.map Prod.fst) :
    Json.lookupField key (patch updates fields) = Json.lookupField key fields := by
  induction updates generalizing fields with
  | nil => rfl
  | cons update rest ih =>
      rw [List.map_cons, List.mem_cons, not_or] at hkey
      rw [patch, List.foldl_cons]
      exact (ih hkey.2).trans
        ((lookupField_insertField _ _ _ _).trans (if_neg (Ne.symm hkey.1)))

theorem patch_append (first second fields : Fields) :
    patch (first ++ second) fields = patch second (patch first fields) :=
  List.foldl_append

end Patches

section Order

def Ordered (fields : Fields) : Prop :=
  (fields.map Prod.fst).Pairwise (· < ·)

theorem ordered_nil : Ordered [] := List.Pairwise.nil

theorem mem_of_mem_insertField {field : String × Value} (h : field ∈ insertField key value fields) :
    field = (key, value) ∨ field ∈ fields := by
  induction fields with
  | nil => exact Or.inl (List.mem_singleton.mp h)
  | cons first rest ih =>
      rw [insertField] at h
      split_ifs at h
      · rcases List.mem_cons.mp h with rfl | hmem
        · exact Or.inl rfl
        · exact Or.inr (List.mem_cons_of_mem _ hmem)
      · exact List.mem_cons.mp h
      · rcases List.mem_cons.mp h with rfl | hmem
        · exact Or.inr List.mem_cons_self
        · rcases ih hmem with rfl | hrest
          · exact Or.inl rfl
          · exact Or.inr (List.mem_cons_of_mem _ hrest)

theorem Ordered.insertField (h : Ordered fields) : Ordered (insertField key value fields) := by
  rw [Ordered, List.pairwise_map] at h ⊢
  induction fields with
  | nil => exact List.pairwise_singleton _ _
  | cons first rest ih =>
      obtain ⟨hfirst, hrest⟩ := List.pairwise_cons.mp h
      rw [Json.insertField]
      split_ifs with hname hlt
      · subst hname
        exact List.pairwise_cons.mpr ⟨hfirst, hrest⟩
      · refine List.pairwise_cons.mpr ⟨?_, h⟩
        exact List.forall_mem_cons.mpr ⟨hlt, fun field hfield => lt_trans hlt (hfirst field hfield)⟩
      · refine List.pairwise_cons.mpr ⟨fun field hfield => ?_, ih hrest⟩
        rcases mem_of_mem_insertField hfield with rfl | hold
        · exact lt_of_le_of_ne (not_lt.mp hlt) hname
        · exact hfirst field hold

theorem insertField_last (h : ∀ field ∈ fields, field.1 < key) :
    Json.insertField key value fields = fields ++ [(key, value)] := by
  induction fields with
  | nil => rfl
  | cons first rest ih =>
      rw [List.forall_mem_cons] at h
      rw [Json.insertField, if_neg h.1.ne, if_neg (lt_asymm h.1), ih h.2, List.cons_append]

variable {change : String × Value → String × Value}

theorem Settled.map (h : Settled key value fields) (hkeys : ∀ field, (change field).1 = field.1)
    (hself : change (key, value) = (key, value)) : Settled key value (fields.map change) := by
  induction fields with
  | nil => exact h
  | cons first rest ih =>
      rw [List.map_cons, settled_cons_iff, hkeys]
      rcases settled_cons_iff.mp h with rfl | ⟨hne, hnot, hrest⟩
      · exact Or.inl hself
      · exact Or.inr ⟨hne, hnot, ih hrest⟩

theorem Settled.insertField_map (h : Settled key value fields) (hordered : Ordered fields)
    (hkeys : ∀ field, (change field).1 = field.1)
    (hchange : ∀ field ∈ fields, field.1 ≠ key → change field = field) :
    Json.insertField key value (fields.map change) = fields := by
  induction fields with
  | nil => exact h
  | cons first rest ih =>
      obtain ⟨hfirst, hrest⟩ := List.pairwise_cons.mp hordered
      rw [List.forall_mem_cons] at hchange
      rw [List.map_cons]
      rcases settled_cons_iff.mp h with rfl | ⟨hne, hnot, hlater⟩
      · have htail : rest.map change = rest := by
          refine (List.map_congr_left fun field hfield => ?_).trans (List.map_id _)
          exact hchange.2 field hfield (hfirst _ (List.mem_map_of_mem hfield)).ne'
        rw [htail, Json.insertField, if_pos (hkeys _)]
      · rw [hchange.1 hne, Json.insertField, if_neg hne, if_neg hnot, ih hlater hrest hchange.2]

end Order

end HarborBeacon.Json
