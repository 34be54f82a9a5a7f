import HarborBeacon.Collapsing
import HarborBeacon.SearchCandidates

/-!
The hits of a search for one section of a file are collapsed into one hit, and then those of one
file. The hit that is kept takes over the evidence of the others.
-/

namespace HarborBeacon.KnowledgeSearch

open Binary32 Collapsing FilledTables

section Evidence

def addMissing (existing values : List String) : List String :=
  values.foldl (fun existing value => if value ∈ existing then existing else existing ++ [value])
    existing

variable {existing values : List String} {value : String}

theorem mem_addMissing :
    value ∈ addMissing existing values ↔ value ∈ existing ∨ value ∈ values := by
  induction values generalizing existing with
  | nil => simp [addMissing]
  | cons first rest ih =>
      rw [addMissing, List.foldl_cons, ← addMissing, ih, List.mem_cons]
      split_ifs with hfirst
      · constructor
        · exact Or.imp_right Or.inr
        · rintro (hmem | rfl | hmem)
          · exact Or.inl hmem
          · exact Or.inl hfirst
          · exact Or.inr hmem
      · rw [List.mem_append, List.mem_singleton, or_assoc]

theorem nodup_addMissing (h : existing.Nodup) : (addMissing existing values).Nodup := by
  induction values generalizing existing with
  | nil => exact h
  | cons first rest ih =>
      rw [addMissing, List.foldl_cons, ← addMissing]
      split_ifs with hfirst
      · exact ih h
      · refine ih (List.nodup_append'.mpr ⟨h, List.nodup_singleton _, ?_⟩)
        exact List.disjoint_singleton.mpr hfirst

end Evidence

section Collapses

namespace SearchCandidate

def fileKey (candidate : SearchCandidate) : String × String :=
  (candidate.hit.modality, candidate.hit.path)

/-- The section that a hit belongs to. -/
def siblingKey (candidate : SearchCandidate) : Option (String × String × String) :=
  candidate.hit.parentId.map fun parentId =>
    (candidate.hit.modality, candidate.hit.path, parentId)

def absorbSibling (existing candidate : SearchCandidate) : SearchCandidate :=
  { existing with
    hit :=
      { existing.hit with
        matchedChildIds :=
          addMissing existing.hit.matchedChildIds candidate.hit.matchedChildIds
        matchedTerms := addMissing existing.hit.matchedTerms candidate.hit.matchedTerms } }

def absorbFile (existing candidate : SearchCandidate) : SearchCandidate :=
  { existing with
    hit :=
      { existing.hit with
        matchedChildIds :=
          addMissing (addMissing existing.hit.matchedChildIds candidate.hit.chunkId.toList)
            candidate.hit.matchedChildIds
        matchedTerms := addMissing existing.hit.matchedTerms candidate.hit.matchedTerms
        contentSourceKinds :=
          addMissing existing.hit.contentSourceKinds candidate.hit.contentSourceKinds
        filenameMatchUsed := existing.hit.filenameMatchUsed || candidate.hit.filenameMatchUsed
        contentMatchUsed := existing.hit.contentMatchUsed || candidate.hit.contentMatchUsed } }

end SearchCandidate

open SearchCandidate

def collapseSiblingCandidates (candidates : List SearchCandidate) : List SearchCandidate :=
  collapse siblingKey absorbSibling candidates

def collapseFileCandidates (candidates : List SearchCandidate) : List SearchCandidate :=
  collapse (fun candidate => some candidate.fileKey) absorbFile candidates

def scored (candidate : SearchCandidate) : (String × String) × Nat × F32 :=
  (candidate.fileKey, candidate.hit.score, candidate.finalScore)

structure Covers (candidate other : SearchCandidate) : Prop where
  childIds : other.hit.matchedChildIds ⊆ candidate.hit.matchedChildIds
  terms : other.hit.matchedTerms ⊆ candidate.hit.matchedTerms

/-- The evidence of a candidate names nothing twice. -/
structure NoRepeats (candidate : SearchCandidate) : Prop where
  childIds : candidate.hit.matchedChildIds.Nodup
  terms : candidate.hit.matchedTerms.Nodup

variable {candidate other : SearchCandidate} {candidates kept : List SearchCandidate}

theorem Covers.refl (candidate : SearchCandidate) : Covers candidate candidate :=
  ⟨List.Subset.refl _, List.Subset.refl _⟩

theorem Covers.trans {a b c : SearchCandidate} (hab : Covers a b) (hbc : Covers b c) :
    Covers a c :=
  ⟨List.Subset.trans hbc.childIds hab.childIds, List.Subset.trans hbc.terms hab.terms⟩

/-- What absorbs other candidates keeps its file and its scores, and has the evidence of both. -/
structure Absorbs (absorb : SearchCandidate → SearchCandidate → SearchCandidate) : Prop where
  scored_eq : ∀ existing row, scored (absorb existing row) = scored existing
  covers_existing : ∀ existing row, Covers (absorb existing row) existing
  covers_row : ∀ existing row, Covers (absorb existing row) row
  noRepeats : ∀ existing row, NoRepeats existing → NoRepeats (absorb existing row)

theorem absorbs_absorbSibling : Absorbs absorbSibling where
  scored_eq _ _ := rfl
  covers_existing _ _ := ⟨fun _ h => mem_addMissing.mpr (Or.inl h),
    fun _ h => mem_addMissing.mpr (Or.inl h)⟩
  covers_row _ _ := ⟨fun _ h => mem_addMissing.mpr (Or.inr h),
    fun _ h => mem_addMissing.mpr (Or.inr h)⟩
  noRepeats _ _ h := ⟨nodup_addMissing h.childIds, nodup_addMissing h.terms⟩

theorem absorbs_absorbFile : Absorbs absorbFile where
  scored_eq _ _ := rfl
  covers_existing _ _ := ⟨fun _ h => mem_addMissing.mpr (Or.inl (mem_addMissing.mpr (Or.inl h))),
    fun _ h => mem_addMissing.mpr (Or.inl h)⟩
  covers_row _ _ := ⟨fun _ h => mem_addMissing.mpr (Or.inr h),
    fun _ h => mem_addMissing.mpr (Or.inr h)⟩
  noRepeats _ _ h := ⟨nodup_addMissing (nodup_addMissing h.childIds), nodup_addMissing h.terms⟩

/-- The hits of the files of some candidates, with all of their evidence. -/
structure KeepsEvidence (candidates hits : List SearchCandidate) : Prop where
  /-- in the order in which the files first occurred, with the scores they first had -/
  firsts : keepFirst Prod.fst [] (hits.map scored) = keepFirst Prod.fst [] (candidates.map scored)
  covered : ∀ candidate ∈ candidates, ∃ hit ∈ hits,
    hit.fileKey = candidate.fileKey ∧ Covers hit candidate
  noRepeats : (∀ candidate ∈ candidates, NoRepeats candidate) → ∀ hit ∈ hits, NoRepeats hit

theorem KeepsEvidence.trans {a b c : List SearchCandidate} (hab : KeepsEvidence a b)
    (hbc : KeepsEvidence b c) : KeepsEvidence a c where
  firsts := hbc.firsts.trans hab.firsts
  covered candidate hmem := by
    obtain ⟨middle, hmiddle, hsame, hcovers⟩ := hab.covered candidate hmem
    obtain ⟨hit, hhit, hsame', hcovers'⟩ := hbc.covered middle hmiddle
    exact ⟨hit, hhit, hsame'.trans hsame, hcovers'.trans hcovers⟩
  noRepeats h := hbc.noRepeats (hab.noRepeats h)

theorem keepsEvidence_of_collapses {κ : Type} {key : SearchCandidate → Option κ}
    {absorb : SearchCandidate → SearchCandidate → SearchCandidate} (habsorb : Absorbs absorb)
    (hfile : ∀ left right, key right ≠ none → key left = key right →
      left.fileKey = right.fileKey)
    (h : Collapses key absorb candidates kept) : KeepsEvidence candidates kept where
  firsts := h.keepFirst_eq scored Prod.fst habsorb.scored_eq hfile
  covered := h.exists_covering scored Prod.fst habsorb.scored_eq hfile Covers.refl Covers.trans
    habsorb.covers_existing habsorb.covers_row
  noRepeats := h.forall_kept fun existing row hexisting _ =>
    habsorb.noRepeats existing row hexisting

theorem fileKey_eq_of_siblingKey (left right : SearchCandidate) (hsome : right.siblingKey ≠ none)
    (h : left.siblingKey = right.siblingKey) : left.fileKey = right.fileKey := by
  rw [siblingKey, siblingKey] at h
  rw [siblingKey, ne_eq, Option.map_eq_none_iff] at hsome
  obtain ⟨parentId, hparent⟩ := Option.ne_none_iff_exists'.mp hsome
  rw [hparent, Option.map_some, Option.map_eq_some_iff] at h
  obtain ⟨_, _, heq⟩ := h
  rw [Prod.mk.injEq, Prod.mk.injEq] at heq
  exact Prod.ext heq.1 heq.2.1

theorem keepsEvidence_collapseSiblingCandidates (candidates : List SearchCandidate) :
    KeepsEvidence candidates (collapseSiblingCandidates candidates) := by
  have hkey : ∀ existing row, siblingKey (absorbSibling existing row) = siblingKey existing :=
    fun _ _ => rfl
  exact keepsEvidence_of_collapses absorbs_absorbSibling fileKey_eq_of_siblingKey
    (collapses_collapse hkey candidates)

theorem collapses_collapseFileCandidates (candidates : List SearchCandidate) :
    Collapses (fun candidate => some candidate.fileKey) absorbFile candidates
      (collapseFileCandidates candidates) := by
  have hkey : ∀ existing row, some (fileKey (absorbFile existing row)) = some (fileKey existing) :=
    fun _ _ => rfl
  exact collapses_collapse hkey candidates

theorem keepsEvidence_collapseFileCandidates (candidates : List SearchCandidate) :
    KeepsEvidence candidates (collapseFileCandidates candidates) :=
  keepsEvidence_of_collapses absorbs_absorbFile (fun _ _ _ h => Option.some.inj h)
    (collapses_collapseFileCandidates candidates)

theorem nodup_collapseFileCandidates (candidates : List SearchCandidate) :
    ((collapseFileCandidates candidates).map fileKey).Nodup := by
  have hnodup := (collapses_collapseFileCandidates candidates).nodup (fun _ _ => rfl) (by simp)
  have hmap : (collapseFileCandidates candidates).map (fun candidate => some candidate.fileKey) =
      ((collapseFileCandidates candidates).map fileKey).map some := by
    rw [List.map_map]
    rfl
  rw [hmap] at hnodup
  exact hnodup.of_map some

/-- There is one hit for each file, in the order of the files' first candidates and with the scores
of these, and the evidence of every candidate of the file is in it. -/
theorem collapsed_hits_keep_evidence (candidates : List SearchCandidate) :
    let hits := collapseFileCandidates (collapseSiblingCandidates candidates)
    hits.map scored = keepFirst Prod.fst [] (candidates.map scored) ∧
      (hits.map fileKey).Nodup ∧
      (∀ candidate ∈ candidates, ∃ hit ∈ hits,
        hit.fileKey = candidate.fileKey ∧ Covers hit candidate) ∧
      ((∀ candidate ∈ candidates, NoRepeats candidate) → ∀ hit ∈ hits, NoRepeats hit) := by
  have hkeeps := (keepsEvidence_collapseSiblingCandidates candidates).trans
    (keepsEvidence_collapseFileCandidates _)
  have hnodup := nodup_collapseFileCandidates (collapseSiblingCandidates candidates)
  refine ⟨?_, hnodup, hkeeps.covered, hkeeps.noRepeats⟩
  rw [← hkeeps.firsts, keepFirst_eq_self]
  · rw [List.map_map]
    exact hnodup
  · exact fun _ _ => List.not_mem_nil

end Collapses

end HarborBeacon.KnowledgeSearch
