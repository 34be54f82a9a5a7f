import HarborBeacon.KeyedLists

/-!
A selection with quotas. Some candidates of each group are admitted, others are added while there is
room, and what ranks first of all these is kept.
-/

namespace HarborBeacon.QuotaSelection

open FilledTables KeyedLists

variable {α γ κ ρ : Type}

section TopUp

variable [DecidableEq κ] (key : α → κ)

def topUp (limit : Nat) (selected : List α) : List α → List α
  | [] => selected
  | candidate :: rest =>
      if limit ≤ selected.length then selected
      else if key candidate ∈ selected.map key then topUp limit selected rest
      else topUp limit (selected ++ [candidate]) rest

def addedTo (limit : Nat) (admitted candidates : List α) : List α :=
  (candidates.filter fun candidate => key candidate ∉ admitted.map key).take
    (limit - admitted.length)

variable {key} {limit : Nat} {admitted candidates selected : List α}

theorem topUp_eq (h : (candidates.map key).Nodup) :
    topUp key limit selected candidates = selected ++ addedTo key limit selected candidates := by
  induction candidates generalizing selected with
  | nil => simp [topUp, addedTo]
  | cons candidate rest ih =>
      rw [List.map_cons, List.nodup_cons] at h
      rw [topUp]
      by_cases hfull : limit ≤ selected.length
      · rw [if_pos hfull, addedTo, Nat.sub_eq_zero_of_le hfull, List.take_zero, List.append_nil]
      · rw [if_neg hfull]
        by_cases hmem : key candidate ∈ selected.map key
        · rw [if_pos hmem, ih h.2, addedTo, addedTo, List.filter_cons_of_neg (by simpa using hmem)]
        · have hothers : rest.filter (fun other => key other ∉ (selected ++ [candidate]).map key) =
              rest.filter fun other => key other ∉ selected.map key := by
            refine List.filter_congr fun other hother => ?_
            have hne : key other ≠ key candidate := fun heq =>
              h.1 (heq ▸ List.mem_map_of_mem hother)
            rw [decide_eq_decide, List.map_append, List.mem_append, List.map_singleton,
              List.mem_singleton, or_iff_left hne]
          have hroom : limit - selected.length = limit - (selected.length + 1) + 1 := by omega
          rw [if_neg hmem, ih h.2, addedTo, addedTo, hothers,
            List.filter_cons_of_pos (by simpa using hmem), hroom, List.take_succ_cons,
            List.length_append, List.length_singleton, List.append_assoc, List.singleton_append]

theorem mem_addedTo {candidate : α} (h : candidate ∈ addedTo key limit admitted candidates) :
    candidate ∈ candidates ∧ key candidate ∉ admitted.map key := by
  simpa using List.mem_filter.mp (List.mem_of_mem_take h)

theorem length_addedTo_le : (addedTo key limit admitted candidates).length ≤
    limit - admitted.length :=
  List.length_take_le _ _

theorem nodup_append_addedTo (hadmitted : (admitted.map key).Nodup)
    (hcandidates : (candidates.map key).Nodup) :
    ((admitted ++ addedTo key limit admitted candidates).map key).Nodup := by
  have hsublist : (addedTo key limit admitted candidates).Sublist candidates :=
    (List.take_sublist _ _).trans List.filter_sublist
  rw [List.map_append, List.nodup_append']
  refine ⟨hadmitted, (hsublist.map key).nodup hcandidates, ?_⟩
  rintro value hvalue hadded
  obtain ⟨candidate, hmem, rfl⟩ := List.mem_map.mp hadded
  exact (mem_addedTo hmem).2 hvalue

end TopUp

section Ranking

variable [DecidableEq γ] [LinearOrder ρ] (group : α → γ) (rank : α → ρ)

def ahead (g : γ) (items : List α) : Nat :=
  items.zipIdx.countP fun row => group row.1 ≠ g ∧
    ∀ other ∈ items.zipIdx, group other.1 = g → place rank row < place rank other

variable {group rank} {g : γ} {items : List α} {limit : Nat}

theorem ahead_eq_length {front rest : List (α × Nat)} {first : α × Nat}
    (hrows : sortOn (place rank) items.zipIdx = front ++ first :: rest)
    (hfront : ∀ row ∈ front, group row.1 ≠ g) (hfirst : group first.1 = g) :
    ahead group rank g items = front.length := by
  have hplaces := pairwise_sortOn_zipIdx rank items
  rw [hrows, List.pairwise_append, List.pairwise_cons] at hplaces
  obtain ⟨-, ⟨hrest, -⟩, hcross⟩ := hplaces
  have hmem : ∀ {row}, row ∈ items.zipIdx ↔ row ∈ front ++ first :: rest := by
    intro row
    rw [← hrows, mem_sortOn]
  have hbefore : ∀ row ∈ front, group row.1 ≠ g ∧
      ∀ other ∈ items.zipIdx, group other.1 = g → place rank row < place rank other := by
    intro row hrow
    refine ⟨hfront row hrow, fun other hother hgroup => hcross row hrow other ?_⟩
    refine (List.mem_append.mp (hmem.mp hother)).resolve_left ?_
    exact fun hmem => hfront other hmem hgroup
  have hafter : ∀ row ∈ first :: rest, ¬ (group row.1 ≠ g ∧
      ∀ other ∈ items.zipIdx, group other.1 = g → place rank row < place rank other) := by
    rintro row hrow ⟨hgroup, hahead⟩
    have hlt := hahead first (hmem.mpr (by simp)) hfirst
    obtain rfl | hrow := List.mem_cons.mp hrow
    · exact hgroup hfirst
    · exact (hrest row hrow).asymm hlt
  have hperm : (sortOn (place rank) items.zipIdx).Perm items.zipIdx := sortOn_perm _
  rw [ahead, ← hperm.countP_eq, hrows, List.countP_append,
    List.countP_eq_length.mpr fun row hrow => decide_eq_true (hbefore row hrow),
    List.countP_eq_zero.mpr fun row hrow hahead => hafter row hrow (of_decide_eq_true hahead),
    Nat.add_zero]

theorem mem_take_sortOn_iff (h : g ∈ items.map group) :
    g ∈ ((sortOn rank items).take limit).map group ↔ ahead group rank g items < limit := by
  have hmem : g ∈ (sortOn (place rank) items.zipIdx).map fun row => group row.1 := by
    have hmap : (sortOn (place rank) items.zipIdx).map (fun row => group row.1) =
        (sortOn rank items).map group := by
      rw [← map_sortOn_zipIdx items, List.map_map]
      rfl
    rw [hmap]
    exact ((sortOn_perm items).map group).mem_iff.mpr h
  obtain ⟨front, first, run, rest, hrows, hfront, hfirst, -, -⟩ := exists_first_run hmem
  have hothers : ∀ row ∈ front, group row.1 ≠ g :=
    fun row hrow heq => hfront (heq ▸ List.mem_map_of_mem hrow)
  rw [ahead_eq_length hrows hothers hfirst, ← map_sortOn_zipIdx, hrows, ← List.map_take,
    List.map_map]
  constructor
  · intro htaken
    by_contra hle
    rw [List.take_append_of_le_length (Nat.le_of_not_lt hle)] at htaken
    obtain ⟨row, hrow, heq⟩ := List.mem_map.mp htaken
    exact hothers row (List.mem_of_mem_take hrow) heq
  · intro hlt
    refine List.mem_map.mpr ⟨first, ?_, hfirst⟩
    obtain ⟨room, hroom⟩ := Nat.exists_eq_add_of_lt hlt
    rw [hroom, List.take_append, List.take_of_length_le (by omega)]
    refine List.mem_append_right _ ?_
    have hroom : front.length + room + 1 - front.length = room + 1 := by omega
    rw [hroom, List.take_succ_cons]
    exact List.mem_cons_self

end Ranking

section Admission

variable [DecidableEq γ] (group : α → γ)

/-- What a quota lets in of the candidates of a group. -/
structure Chooses (choose : List α → List α) : Prop where
  subperm : ∀ pool, (choose pool).Subperm pool
  ne_nil : ∀ pool, pool ≠ [] → choose pool ≠ []

def admission (groups : List γ) (choose : List α → List α) (candidates : List α) : List α :=
  groups.flatMap fun g => choose (candidates.filter fun candidate => group candidate = g)

variable {group} {key : α → κ} {groups : List γ} {choose : List α → List α} {candidates : List α}
  {g : γ} {candidate : α}

theorem mem_choose_filter (h : Chooses choose)
    (hmem : candidate ∈ choose (candidates.filter fun other => group other = g)) :
    candidate ∈ candidates ∧ group candidate = g := by
  simpa using List.mem_filter.mp ((h.subperm _).subset hmem)

theorem mem_of_mem_admission (h : Chooses choose)
    (hmem : candidate ∈ admission group groups choose candidates) :
    candidate ∈ candidates ∧ group candidate ∈ groups := by
  obtain ⟨g, hg, hchosen⟩ := List.mem_flatMap.mp hmem
  obtain ⟨hcandidate, rfl⟩ := mem_choose_filter h hchosen
  exact ⟨hcandidate, hg⟩

theorem nodup_admission (h : Chooses choose) (hgroups : groups.Nodup)
    (hkeys : (candidates.map key).Nodup) :
    ((admission group groups choose candidates).map key).Nodup := by
  have hnodup : (admission group groups choose candidates).Nodup := by
    rw [admission, List.nodup_flatMap]
    constructor
    · intro g _
      obtain ⟨chosen, hperm, hsublist⟩ :=
        h.subperm (candidates.filter fun candidate => group candidate = g)
      exact hperm.nodup (hsublist.nodup ((hkeys.of_map key).filter _))
    · refine hgroups.imp fun hne candidate hleft hright => hne ?_
      exact (mem_choose_filter h hleft).2.symm.trans (mem_choose_filter h hright).2
  refine hnodup.map_on fun left hleft right hright heq => ?_
  exact List.inj_on_of_nodup_map hkeys (mem_of_mem_admission h hleft).1
    (mem_of_mem_admission h hright).1 heq

theorem mem_map_admission_iff (h : Chooses choose) (hg : g ∈ candidates.map group) :
    g ∈ (admission group groups choose candidates).map group ↔ g ∈ groups := by
  constructor
  · intro hmem
    obtain ⟨candidate, hadmitted, rfl⟩ := List.mem_map.mp hmem
    exact (mem_of_mem_admission h hadmitted).2
  · intro hgroup
    obtain ⟨candidate, hcandidate, rfl⟩ := List.mem_map.mp hg
    have hpool : candidates.filter (fun other => group other = group candidate) ≠ [] :=
      List.ne_nil_of_mem (List.mem_filter.mpr ⟨hcandidate, decide_eq_true rfl⟩)
    obtain ⟨chosen, hchosen⟩ := List.exists_mem_of_ne_nil _ (h.ne_nil _ hpool)
    refine List.mem_map.mpr ⟨chosen, ?_, (mem_choose_filter h hchosen).2⟩
    exact List.mem_flatMap.mpr ⟨group candidate, hgroup, hchosen⟩

theorem chooses_take {quota : Nat} (hquota : 1 ≤ quota) :
    Chooses fun pool : List α => pool.take quota where
  subperm pool := (List.take_sublist quota pool).subperm
  ne_nil pool hne hnil := hne ((List.take_eq_nil_iff.mp hnil).resolve_left (by omega))

end Admission

section Selection

variable [DecidableEq γ] [DecidableEq κ] [LinearOrder ρ]
  (group : α → γ) (key : α → κ) (rank : α → ρ)

def keepFirsts (limit : Nat) (admitted candidates : List α) : List α :=
  (sortOn rank (topUp key limit admitted candidates)).take limit

/-- A part of the candidates without repetition, in which all groups are represented if the limit
allows for it. -/
structure Represents (limit : Nat) (candidates result : List α) : Prop where
  nodup : (result.map key).Nodup
  subset : ∀ candidate ∈ result, candidate ∈ candidates
  length_le : result.length ≤ limit
  represented : (candidates.map group).dedup.length ≤ limit →
    ∀ g ∈ candidates.map group, g ∈ result.map group

/-- If all admitted candidates fit, a group needs a quota or room among the added ones; if they do
not fit, not too many of the others may rank ahead of it. -/
def HasPlace (groups : List γ) (limit : Nat) (admitted candidates : List α) (g : γ) : Prop :=
  if admitted.length ≤ limit then
    g ∈ groups ∨ g ∈ (addedTo key limit admitted candidates).map group
  else g ∈ groups ∧ ahead group rank g admitted < limit

variable {group key rank} {groups : List γ} {limit : Nat} {admitted candidates : List α} {g : γ}

theorem mem_keepFirsts_iff_hasPlace (hkeys : (candidates.map key).Nodup)
    (hgroup : g ∈ admitted.map group ↔ g ∈ groups) :
    g ∈ (keepFirsts key rank limit admitted candidates).map group ↔
      HasPlace group key rank groups limit admitted candidates g := by
  rw [keepFirsts, topUp_eq hkeys, HasPlace]
  split_ifs with hfits
  · have hlength : (sortOn rank (admitted ++ addedTo key limit admitted candidates)).length ≤
        limit := by
      rw [(sortOn_perm _).length_eq, List.length_append]
      have hadded : (addedTo key limit admitted candidates).length ≤ limit - admitted.length :=
        length_addedTo_le
      omega
    rw [List.take_of_length_le hlength, ((sortOn_perm _).map group).mem_iff, List.map_append,
      List.mem_append, hgroup]
  · have hnone : addedTo key limit admitted candidates = [] := by
      rw [addedTo, Nat.sub_eq_zero_of_le (Nat.le_of_not_le hfits), List.take_zero]
    rw [hnone, List.append_nil, ← hgroup]
    constructor
    · intro hmem
      have hadmitted : g ∈ admitted.map group := by
        have hperm : (sortOn rank admitted).Perm admitted := sortOn_perm admitted
        rw [← (hperm.map group).mem_iff]
        exact List.map_subset group (List.take_subset _ _) hmem
      exact ⟨hadmitted, (mem_take_sortOn_iff hadmitted).mp hmem⟩
    · rintro ⟨hadmitted, hahead⟩
      exact (mem_take_sortOn_iff hadmitted).mpr hahead

theorem represents_iff {source : List α} (hsource : ∀ candidate ∈ candidates, candidate ∈ source)
    (hsame : ∀ g ∈ source.map group, g ∈ candidates.map group)
    (hkeys : (candidates.map key).Nodup) (hadmitted : (admitted.map key).Nodup)
    (hsubset : ∀ candidate ∈ admitted, candidate ∈ candidates)
    (hgroups : ∀ g ∈ candidates.map group, g ∈ admitted.map group ↔ g ∈ groups) :
    Represents group key limit source (keepFirsts key rank limit admitted candidates) ↔
      ((source.map group).dedup.length ≤ limit → ∀ g ∈ source.map group,
        HasPlace group key rank groups limit admitted candidates g) := by
  constructor
  · intro h hlimit g hg
    exact (mem_keepFirsts_iff_hasPlace hkeys (hgroups g (hsame g hg))).mp
      (h.represented hlimit g hg)
  · intro h
    have hperm : (sortOn rank (topUp key limit admitted candidates)).Perm _ := sortOn_perm _
    constructor
    · have hnodup : ((topUp key limit admitted candidates).map key).Nodup := by
        rw [topUp_eq hkeys]
        exact nodup_append_addedTo hadmitted hkeys
      exact ((List.take_sublist _ _).map key).nodup ((hperm.map key).nodup_iff.mpr hnodup)
    · intro candidate hmem
      have hmem := hperm.subset (List.mem_of_mem_take hmem)
      rw [topUp_eq hkeys, List.mem_append] at hmem
      refine hsource candidate ?_
      exact hmem.elim (hsubset candidate) fun hadded => (mem_addedTo hadded).1
    · exact List.length_take_le _ _
    · intro hlimit g hg
      exact (mem_keepFirsts_iff_hasPlace hkeys (hgroups g (hsame g hg))).mpr (h hlimit g hg)

end Selection

end HarborBeacon.QuotaSelection
