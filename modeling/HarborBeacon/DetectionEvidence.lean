import HarborBeacon.CatRecordingLedger
import HarborBeacon.FilledTables

/-!
What the normalisation of detection evidence keeps: one detection for each sequence, in the order
of the frames, and of too many of them the first ones and the last.
-/

namespace HarborBeacon.DetectionEvidence

open CatRecordingValidation FilledTables

section Normalisation

variable {evidence other : List CatDetectionEvidence} {seen : List Nat}

/-- The order of `sort_by_key`. -/
def Before (a b : CatDetectionEvidence) : Prop :=
  toLex (a.frameEpochMs, a.sequence) ≤ toLex (b.frameEpochMs, b.sequence)

instance : DecidableRel Before := fun _ _ => inferInstanceAs (Decidable (_ ≤ _))

instance : Std.Total Before := ⟨fun _ _ => le_total _ _⟩

instance : IsTrans CatDetectionEvidence Before := ⟨fun _ _ _ => le_trans⟩

theorem Before.frame_le {a b : CatDetectionEvidence} (h : Before a b) :
    a.frameEpochMs ≤ b.frameEpochMs := by
  rcases Prod.Lex.toLex_le_toLex.mp h with hlt | ⟨heq, -⟩
  · exact hlt.le
  · exact heq.le

def isValid (item : CatDetectionEvidence) : Bool :=
  0 < item.sequence && 0 < item.frameEpochMs

def capped (item : CatDetectionEvidence) : CatDetectionEvidence :=
  { item with confidencePpm := min item.confidencePpm 1000000 }

def deduplicated (evidence : List CatDetectionEvidence) : List CatDetectionEvidence :=
  retainUnseen [] ((evidence.filter isValid).insertionSort Before)

/-- Of too many rows the first ones and the last. -/
def keepEnds (evidence : List CatDetectionEvidence) : List CatDetectionEvidence :=
  if maxCatDetectionEvidence < evidence.length then
    match evidence.getLast? with
    | some last => evidence.dropLast.take (maxCatDetectionEvidence - 1) ++ [last]
    | none => evidence
  else evidence

theorem sanitizeDetectionEvidence_eq (evidence : List CatDetectionEvidence) :
    sanitizeDetectionEvidence evidence = keepEnds ((deduplicated evidence).map capped) := rfl

theorem retainUnseen_eq :
    retainUnseen seen evidence = keepFirst CatDetectionEvidence.sequence seen evidence := by
  induction evidence generalizing seen with
  | nil => rfl
  | cons item rest ih =>
      rw [retainUnseen, keepFirst]
      split
      · exact ih
      · rw [ih]

theorem keepEnds_cases (evidence : List CatDetectionEvidence) :
    (evidence.length ≤ maxCatDetectionEvidence ∧ keepEnds evidence = evidence) ∨
      ∃ front last, evidence = front ++ [last] ∧ maxCatDetectionEvidence ≤ front.length ∧
        keepEnds evidence = front.take (maxCatDetectionEvidence - 1) ++ [last] := by
  rw [keepEnds]
  split
  · rename_i hlong
    right
    rcases List.eq_nil_or_concat evidence with rfl | ⟨front, last, rfl⟩
    · exact absurd hlong (by simp)
    · rw [List.concat_eq_append] at hlong ⊢
      rw [List.length_append, List.length_singleton] at hlong
      exact ⟨front, last, rfl, by omega, by simp⟩
  · rename_i hshort
    exact Or.inl ⟨not_lt.mp hshort, rfl⟩

theorem keepEnds_sublist (evidence : List CatDetectionEvidence) :
    (keepEnds evidence).Sublist evidence := by
  rcases keepEnds_cases evidence with ⟨-, heq⟩ | ⟨front, last, rfl, -, heq⟩
  · rw [heq]
  · rw [heq]
    exact (List.take_sublist _ _).append (List.Sublist.refl _)

theorem length_keepEnds : (keepEnds evidence).length ≤ maxCatDetectionEvidence := by
  rcases keepEnds_cases evidence with ⟨hle, heq⟩ | ⟨front, last, -, -, heq⟩
  · rwa [heq]
  · rw [heq, List.length_append, List.length_take, List.length_singleton, maxCatDetectionEvidence]
    omega

theorem keepEnds_ends (evidence : List CatDetectionEvidence) :
    (keepEnds evidence).head? = evidence.head? ∧ (keepEnds evidence).getLast? = evidence.getLast? := by
  rcases keepEnds_cases evidence with ⟨-, heq⟩ | ⟨front, last, rfl, hlong, heq⟩
  · rw [heq]
    exact ⟨rfl, rfl⟩
  · rw [heq]
    rcases front with _ | ⟨first, rest⟩
    · exact absurd hlong (by decide)
    · exact ⟨rfl, by rw [List.getLast?_concat, List.getLast?_concat]⟩

theorem deduplicated_sublist :
    (deduplicated evidence).Sublist ((evidence.filter isValid).insertionSort Before) := by
  rw [deduplicated, retainUnseen_eq]
  exact keepFirst_sublist

theorem mem_of_mem_deduplicated {item : CatDetectionEvidence} (h : item ∈ deduplicated evidence) :
    item ∈ evidence ∧ 0 < item.sequence ∧ 0 < item.frameEpochMs := by
  have hsorted := (List.mem_insertionSort Before).mp (deduplicated_sublist.subset h)
  obtain ⟨hmem, hvalid⟩ := List.mem_filter.mp hsorted
  rw [isValid, Bool.and_eq_true, decide_eq_true_eq, decide_eq_true_eq] at hvalid
  exact ⟨hmem, hvalid⟩

theorem sorted_deduplicated : (deduplicated evidence).Pairwise Before :=
  (List.pairwise_insertionSort Before _).sublist deduplicated_sublist

theorem nodup_deduplicated : ((deduplicated evidence).map CatDetectionEvidence.sequence).Nodup := by
  rw [deduplicated, retainUnseen_eq]
  exact nodup_keepFirst

theorem sanitize_of_normal (hvalid : ∀ item ∈ evidence, 0 < item.sequence ∧ 0 < item.frameEpochMs)
    (hsorted : evidence.Pairwise Before)
    (hnodup : (evidence.map CatDetectionEvidence.sequence).Nodup)
    (hcapped : ∀ item ∈ evidence, capped item = item)
    (hlength : evidence.length ≤ maxCatDetectionEvidence) :
    sanitizeDetectionEvidence evidence = evidence := by
  have hfilter : evidence.filter isValid = evidence := by
    refine List.filter_eq_self.mpr fun item hitem => ?_
    obtain ⟨hsequence, hframe⟩ := hvalid item hitem
    simp [isValid, hsequence, hframe]
  rw [sanitizeDetectionEvidence_eq, deduplicated, hfilter, hsorted.insertionSort_eq, retainUnseen_eq,
    keepFirst_eq_self hnodup (by simp), List.map_congr_left hcapped, List.map_id']
  rcases keepEnds_cases evidence with ⟨-, heq⟩ | ⟨front, last, rfl, hlong, -⟩
  · exact heq
  · rw [List.length_append, List.length_singleton] at hlength
    omega

theorem deduplicated_perm (h : evidence.Perm other)
    (hkeys : (evidence.map fun item => (item.frameEpochMs, item.sequence)).Nodup) :
    deduplicated evidence = deduplicated other := by
  have hperm : ((evidence.filter isValid).insertionSort Before).Perm
      ((other.filter isValid).insertionSort Before) :=
    (List.perm_insertionSort _ _).trans ((h.filter _).trans (List.perm_insertionSort _ _).symm)
  have hmem : ∀ item ∈ (evidence.filter isValid).insertionSort Before, item ∈ evidence :=
    fun item hitem => (List.mem_filter.mp ((List.mem_insertionSort Before).mp hitem)).1
  rw [deduplicated, deduplicated]
  congr 1
  refine hperm.eq_of_pairwise (fun a b ha hb hab hba => ?_)
    (List.pairwise_insertionSort _ _) (List.pairwise_insertionSort _ _)
  exact List.inj_on_of_nodup_map hkeys (hmem a ha) (hmem b (hperm.symm.subset hb))
    (toLex.injective (le_antisymm hab hba))

/-- At most 256 rows in the order of their frames, of different sequences, each an incoming row
up to the cap on its confidence, the earliest and the latest of the rows without repeats among
them. Again it changes nothing, and the order of the rows does not matter. -/
theorem sanitizeDetectionEvidence_normal (evidence : List CatDetectionEvidence) :
    (sanitizeDetectionEvidence evidence).length ≤ 256 ∧
      (sanitizeDetectionEvidence evidence).Pairwise (·.frameEpochMs ≤ ·.frameEpochMs) ∧
      ((sanitizeDetectionEvidence evidence).map CatDetectionEvidence.sequence).Nodup ∧
      (∀ item ∈ sanitizeDetectionEvidence evidence, 0 < item.sequence ∧
        ∃ given ∈ evidence, item = capped given) ∧
      (sanitizeDetectionEvidence evidence).head? = (deduplicated evidence).head?.map capped ∧
      (sanitizeDetectionEvidence evidence).getLast? = (deduplicated evidence).getLast?.map capped ∧
      sanitizeDetectionEvidence (sanitizeDetectionEvidence evidence) =
        sanitizeDetectionEvidence evidence ∧
      ∀ other, evidence.Perm other →
        (evidence.map fun item => (item.frameEpochMs, item.sequence)).Nodup →
          sanitizeDetectionEvidence other = sanitizeDetectionEvidence evidence := by
  have hsublist := keepEnds_sublist ((deduplicated evidence).map capped)
  rw [← sanitizeDetectionEvidence_eq] at hsublist
  have hsorted : (sanitizeDetectionEvidence evidence).Pairwise Before :=
    List.Pairwise.sublist hsublist (List.pairwise_map.mpr (sorted_deduplicated.imp id))
  have hnodup : ((sanitizeDetectionEvidence evidence).map CatDetectionEvidence.sequence).Nodup := by
    refine (hsublist.map _).nodup ?_
    rw [List.map_map]
    exact nodup_deduplicated
  have hitems : ∀ item ∈ sanitizeDetectionEvidence evidence,
      ∃ given ∈ deduplicated evidence, capped given = item :=
    fun item hitem => List.mem_map.mp (hsublist.subset hitem)
  have hlength : (sanitizeDetectionEvidence evidence).length ≤ maxCatDetectionEvidence :=
    length_keepEnds
  obtain ⟨hfirst, hlast⟩ := keepEnds_ends ((deduplicated evidence).map capped)
  rw [← sanitizeDetectionEvidence_eq] at hfirst hlast
  refine ⟨hlength, hsorted.imp Before.frame_le, hnodup, ?_, ?_, ?_, ?_, ?_⟩
  · intro item hitem
    obtain ⟨given, hgiven, rfl⟩ := hitems item hitem
    obtain ⟨hmem, hsequence, -⟩ := mem_of_mem_deduplicated hgiven
    exact ⟨hsequence, given, hmem, rfl⟩
  · rw [hfirst, List.head?_map]
  · rw [hlast, List.getLast?_map]
  · refine sanitize_of_normal ?_ hsorted hnodup ?_ hlength
    · intro item hitem
      obtain ⟨given, hgiven, rfl⟩ := hitems item hitem
      exact (mem_of_mem_deduplicated hgiven).2
    · intro item hitem
      obtain ⟨given, -, rfl⟩ := hitems item hitem
      simp [capped]
  · intro other hperm hkeys
    rw [sanitizeDetectionEvidence_eq, sanitizeDetectionEvidence_eq, deduplicated_perm hperm hkeys]

end Normalisation

end HarborBeacon.DetectionEvidence
