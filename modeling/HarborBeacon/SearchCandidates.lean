import HarborBeacon.Binary32
import HarborBeacon.QuotaSelection
import Mathlib.Data.String.Basic

/-!
The candidates of a search, and the selection that keeps some of each modality.
-/

namespace HarborBeacon.KnowledgeSearch

open Binary32 FilledTables QuotaSelection

structure KnowledgeSearchHit where
  modality : String
  path : String
  title : String
  /-- a `u32` -/
  score : Nat
  lexicalScore : Option F32
  chunkId : Option String
  parentId : Option String
  matchedChildIds : List String
  lineStart : Option Nat
  matchedTerms : List String
  contentSourceKinds : List String
  filenameMatchUsed : Bool
  contentMatchUsed : Bool
  modifiedUnixMillis : Option Nat
deriving DecidableEq

structure SearchCandidate where
  hit : KnowledgeSearchHit
  embeddingText : String
  rrfScore : F32
  finalScore : F32
deriving DecidableEq

namespace SearchCandidate

def modality (candidate : SearchCandidate) : String :=
  candidate.hit.modality

def key (candidate : SearchCandidate) : String × String × String :=
  (candidate.hit.modality, candidate.hit.path, candidate.hit.chunkId.getD "")

/-- `None` comes before every `Some`. -/
def optionRank (value : Option Nat) : Nat :=
  value.elim 0 (· + 1)

/-- `candidate_tie_break`, as a rank; what has the smaller rank comes first. -/
def tieRank (candidate : SearchCandidate) : Intᵒᵈ ×ₗ Intᵒᵈ ×ₗ Nat ×ₗ String ×ₗ String :=
  let lexicalScore := candidate.hit.lexicalScore.getD ⟨0⟩
  toLex (OrderDual.toDual candidate.rrfScore.totalRank,
    toLex (OrderDual.toDual lexicalScore.totalRank,
      toLex (optionRank candidate.hit.lineStart,
        toLex (candidate.hit.title, candidate.hit.path))))

def finalRank (candidate : SearchCandidate) :
    Intᵒᵈ ×ₗ Intᵒᵈ ×ₗ Intᵒᵈ ×ₗ Nat ×ₗ String ×ₗ String :=
  toLex (OrderDual.toDual candidate.finalScore.totalRank, candidate.tieRank)

def recentRank (candidate : SearchCandidate) :
    Natᵒᵈ ×ₗ Intᵒᵈ ×ₗ Intᵒᵈ ×ₗ Nat ×ₗ String ×ₗ String :=
  toLex (OrderDual.toDual (optionRank candidate.hit.modifiedUnixMillis), candidate.tieRank)

end SearchCandidate

section Relevance

variable {α ρ : Type} [LinearOrder ρ]

def takeBest (rank : α → ρ) (first : α) : List α → α × List α
  | [] => (first, [])
  | next :: rest =>
      let others := takeBest rank next rest
      if rank others.1 < rank first then (first, next :: rest) else (others.1, first :: others.2)

theorem takeBest_perm (rank : α → ρ) (first : α) (rest : List α) :
    ((takeBest rank first rest).1 :: (takeBest rank first rest).2).Perm (first :: rest) := by
  induction rest generalizing first with
  | nil => exact List.Perm.refl _
  | cons next rest ih =>
      rw [takeBest]
      split
      · exact List.Perm.refl _
      · exact (List.Perm.swap _ _ _).trans ((ih next).cons first)

/-- `apply_mmr`: the candidate with the best score against what was selected is taken, as often as
the limit says. The arithmetic of the scores is that of the given function. -/
def applyMmr (mmrCandidateScore : SearchCandidate → List SearchCandidate → F32) :
    Nat → List SearchCandidate → List SearchCandidate → List SearchCandidate
  | 0, selected, _ => selected
  | _ + 1, selected, [] => selected
  | limit + 1, selected, first :: rest =>
      let best := takeBest (fun candidate =>
        toLex ((mmrCandidateScore candidate selected).totalRank,
          OrderDual.toDual candidate.tieRank)) first rest
      applyMmr mmrCandidateScore limit (selected ++ [best.1]) best.2

variable {mmrCandidateScore : SearchCandidate → List SearchCandidate → F32}

theorem exists_applyMmr_eq (limit : Nat) (selected candidates : List SearchCandidate) :
    ∃ chosen rest, applyMmr mmrCandidateScore limit selected candidates = selected ++ chosen ∧
      (chosen ++ rest).Perm candidates ∧ chosen.length = min limit candidates.length := by
  induction limit generalizing selected candidates with
  | zero => exact ⟨[], candidates, (List.append_nil _).symm, List.Perm.refl _, by simp⟩
  | succ limit ih =>
      cases candidates with
      | nil => exact ⟨[], [], (List.append_nil _).symm, List.Perm.refl _, by simp⟩
      | cons first rest =>
          rw [applyMmr]
          have hperm := takeBest_perm (fun candidate : SearchCandidate =>
            toLex ((mmrCandidateScore candidate selected).totalRank,
              OrderDual.toDual candidate.tieRank)) first rest
          obtain ⟨chosen, others, heq, hchosen, hlength⟩ := ih (selected ++ [_]) _
          refine ⟨_ :: chosen, others, ?_, (hchosen.cons _).trans hperm, ?_⟩
          · rw [heq, List.append_assoc, List.singleton_append]
          · have hothers := hperm.length_eq
            simp only [List.length_cons] at hothers hlength ⊢
            omega

theorem chooses_applyMmr {quota : Nat} (hquota : 1 ≤ quota) :
    Chooses fun pool => applyMmr mmrCandidateScore quota [] pool where
  subperm pool := by
    obtain ⟨chosen, rest, heq, hperm, -⟩ := exists_applyMmr_eq quota [] pool
    rw [heq, List.nil_append]
    exact (List.sublist_append_left chosen rest).subperm.trans hperm.subperm
  ne_nil pool hne hnil := by
    obtain ⟨chosen, rest, heq, -, hlength⟩ := exists_applyMmr_eq quota [] pool
    rw [heq, List.nil_append] at hnil
    have hpos := List.length_pos_iff.mpr hne
    rw [hnil, List.length_nil] at hlength
    omega

end Relevance

end HarborBeacon.KnowledgeSearch
