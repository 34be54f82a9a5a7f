import HarborBeacon.SearchCandidates

/-!
The two selections that keep some hits of each modality: the one of a search, and the one that
merges the searches of a question.
-/

namespace HarborBeacon.KnowledgeSearch

open Binary32 FilledTables QuotaSelection

section Search

variable {mmrCandidateScore : SearchCandidate → List SearchCandidate → F32}
  {candidates : List SearchCandidate} {limit perModalityLimit : Nat} {mmrEnabled recent : Bool}

def searchModalities : List String :=
  ["document", "image", "video"]

def choosePool (mmrCandidateScore : SearchCandidate → List SearchCandidate → F32)
    (perModalityLimit : Nat) (mmrEnabled : Bool) (pool : List SearchCandidate) :
    List SearchCandidate :=
  if mmrEnabled then applyMmr mmrCandidateScore perModalityLimit [] pool
  else pool.take perModalityLimit

def selectCandidatesWithModalityQuotas
    (mmrCandidateScore : SearchCandidate → List SearchCandidate → F32)
    (candidates : List SearchCandidate) (limit perModalityLimit : Nat) (mmrEnabled recent : Bool) :
    List SearchCandidate :=
  let selected := searchModalities.flatMap fun modality =>
    choosePool mmrCandidateScore perModalityLimit mmrEnabled <|
      candidates.filter fun candidate => candidate.modality = modality
  let selected :=
    if selected.length < limit then topUp SearchCandidate.key limit selected candidates
    else selected
  let selected :=
    if recent then sortOn SearchCandidate.recentRank selected
    else sortOn SearchCandidate.finalRank selected
  selected.take limit

def admittedCandidates (mmrCandidateScore : SearchCandidate → List SearchCandidate → F32)
    (perModalityLimit : Nat) (mmrEnabled : Bool) (candidates : List SearchCandidate) :
    List SearchCandidate :=
  admission SearchCandidate.modality searchModalities
    (choosePool mmrCandidateScore perModalityLimit mmrEnabled) candidates

theorem chooses_choosePool (hquota : 1 ≤ perModalityLimit) :
    Chooses (choosePool mmrCandidateScore perModalityLimit mmrEnabled) := by
  cases mmrEnabled with
  | true => exact chooses_applyMmr hquota
  | false => exact chooses_take hquota

/-- No modality is without a place, though the limit allows for all of them. -/
def NoneCrowdedOut (mmrCandidateScore : SearchCandidate → List SearchCandidate → F32)
    (candidates : List SearchCandidate) (limit perModalityLimit : Nat) (mmrEnabled recent : Bool) :
    Prop :=
  let admitted := admittedCandidates mmrCandidateScore perModalityLimit mmrEnabled candidates
  (candidates.map SearchCandidate.modality).dedup.length ≤ limit →
    ∀ modality ∈ candidates.map SearchCandidate.modality,
      if recent then
        HasPlace SearchCandidate.modality SearchCandidate.key SearchCandidate.recentRank
          searchModalities limit admitted candidates modality
      else
        HasPlace SearchCandidate.modality SearchCandidate.key SearchCandidate.finalRank
          searchModalities limit admitted candidates modality

theorem topUp_of_full {selected : List SearchCandidate} (h : ¬ selected.length < limit) :
    topUp SearchCandidate.key limit selected candidates = selected := by
  cases candidates with
  | nil => rfl
  | cons candidate rest => rw [topUp, if_pos (Nat.le_of_not_lt h)]

theorem selectCandidatesWithModalityQuotas_eq :
    selectCandidatesWithModalityQuotas mmrCandidateScore candidates limit perModalityLimit
      mmrEnabled recent =
        let admitted :=
          admittedCandidates mmrCandidateScore perModalityLimit mmrEnabled candidates
        if recent then
          keepFirsts SearchCandidate.key SearchCandidate.recentRank limit admitted candidates
        else
          keepFirsts SearchCandidate.key SearchCandidate.finalRank limit admitted candidates := by
  have htopUp : ∀ selected : List SearchCandidate,
      (if selected.length < limit then topUp SearchCandidate.key limit selected candidates
        else selected) = topUp SearchCandidate.key limit selected candidates := by
    intro selected
    split_ifs with hroom
    · rfl
    · exact (topUp_of_full hroom).symm
  simp only [selectCandidatesWithModalityQuotas, htopUp]
  cases recent <;> rfl

theorem represents_search_iff (hkeys : (candidates.map SearchCandidate.key).Nodup)
    (hquota : 1 ≤ perModalityLimit) :
    Represents SearchCandidate.modality SearchCandidate.key limit candidates
        (selectCandidatesWithModalityQuotas mmrCandidateScore candidates limit perModalityLimit
          mmrEnabled recent) ↔
      NoneCrowdedOut mmrCandidateScore candidates limit perModalityLimit mmrEnabled recent := by
  have hchooses : Chooses (choosePool mmrCandidateScore perModalityLimit mmrEnabled) :=
    chooses_choosePool hquota
  have hadmitted : ((admittedCandidates mmrCandidateScore perModalityLimit mmrEnabled
      candidates).map SearchCandidate.key).Nodup := nodup_admission hchooses (by decide) hkeys
  have hsubset : ∀ candidate ∈ admittedCandidates mmrCandidateScore perModalityLimit mmrEnabled
      candidates, candidate ∈ candidates := fun _ hmem => (mem_of_mem_admission hchooses hmem).1
  rw [selectCandidatesWithModalityQuotas_eq]
  cases recent <;>
    exact represents_iff (fun _ hmem => hmem) (fun _ hg => hg) hkeys hadmitted hsubset
      fun _ hg => mem_map_admission_iff hchooses hg

end Search

section Merge

/-- What is read and written of a response; its other lists are unordered sets of texts. -/
structure KnowledgeSearchResponse where
  query : String
  totalMatches : Nat
  documents : List KnowledgeSearchHit
  images : List KnowledgeSearchHit
  videos : List KnowledgeSearchHit
  summary : String
  /-- the hits that the reply cites -/
  citations : List KnowledgeSearchHit
  status : String
  degraded : Bool
  degradedReason : Option String
  emptyReason : Option String
  emptyGuidance : Option String

def mergeModalities : List String :=
  ["document", "audio", "image", "video"]

def hitKey (hit : KnowledgeSearchHit) : String × String × String :=
  (hit.modality, hit.path, (hit.parentId.or hit.chunkId).getD "")

def scoreRank (hit : KnowledgeSearchHit) : Natᵒᵈ :=
  OrderDual.toDual hit.score

def responseHits (responses : List KnowledgeSearchResponse) : List KnowledgeSearchHit :=
  responses.flatMap fun response => response.documents ++ response.images ++ response.videos

def rankedHits (responses : List KnowledgeSearchResponse) : List KnowledgeSearchHit :=
  keepFirst hitKey [] (sortOn scoreRank (responseHits responses))

def addNew (selected : List KnowledgeSearchHit) (hit : KnowledgeSearchHit) :
    List KnowledgeSearchHit :=
  if hitKey hit ∈ selected.map hitKey then selected else selected ++ [hit]

def clampLimit (resultLimit : Nat) : Nat :=
  max 1 (min 50 resultLimit)

def selectHits (hits : List KnowledgeSearchHit) (limit : Nat) (perModalityLimit : Option Nat) :
    List KnowledgeSearchHit :=
  let selected :=
    match perModalityLimit with
    | none => []
    | some quota =>
        mergeModalities.foldl (fun selected modality =>
          ((hits.filter fun hit => hit.modality = modality).take (max quota 1)).foldl addNew
            selected) []
  (sortOn scoreRank (topUp hitKey limit selected hits)).take limit

def mergeRagSearchResponses (responses : List KnowledgeSearchResponse) (query : String)
    (resultLimit : Nat) (perModalityLimit : Option Nat) :
    Except String KnowledgeSearchResponse :=
  match responses with
  | [] => .error "检索规划没有生成可执行的查询"
  | first :: _ =>
      let selected := selectHits (rankedHits responses) (clampLimit resultLimit) perModalityLimit
      let degraded := responses.any (·.degraded)
      .ok
        { first with
          query := query
          documents := selected.filter fun hit => hit.modality = "document" ∨ hit.modality = "audio"
          images := selected.filter fun hit => hit.modality = "image"
          videos := selected.filter fun hit => hit.modality = "video"
          totalMatches := selected.length
          summary :=
            if selected = [] then
              "已按多个方向检索知识库，但没有找到与“" ++ query ++ "”足够相关的内容。"
            else
              "已按多个方向检索知识库，为“" ++ query ++ "”保留 " ++ toString selected.length ++
                " 条相关材料。"
          citations := selected
          degraded := degraded
          degradedReason := responses.findSome? (·.degradedReason)
          status := if degraded then "degraded" else "completed"
          emptyReason := if selected = [] then some "no_relevant_evidence" else none
          emptyGuidance :=
            if selected = [] then some "多方向检索及核心主题重试均未找到足够相关的内容。" else none }

variable {responses : List KnowledgeSearchResponse} {merged : KnowledgeSearchResponse}
  {query : String} {resultLimit limit quota : Nat} {hits : List KnowledgeSearchHit}

def admittedHits (quota : Nat) (hits : List KnowledgeSearchHit) : List KnowledgeSearchHit :=
  admission KnowledgeSearchHit.modality mergeModalities (fun pool => pool.take (max quota 1)) hits

theorem chooses_admittedHits (quota : Nat) :
    Chooses fun pool : List KnowledgeSearchHit => pool.take (max quota 1) :=
  chooses_take (Nat.le_max_right quota 1)

theorem foldl_addNew {selected : List KnowledgeSearchHit}
    (h : ((selected ++ hits).map hitKey).Nodup) :
    hits.foldl addNew selected = selected ++ hits := by
  induction hits generalizing selected with
  | nil => exact (List.append_nil _).symm
  | cons hit rest ih =>
      have hnew : hitKey hit ∉ selected.map hitKey := by
        rw [List.map_append, List.nodup_append'] at h
        exact fun hmem => h.2.2 hmem (List.mem_map_of_mem List.mem_cons_self)
      rw [List.append_cons] at h
      rw [List.foldl_cons, addNew, if_neg hnew, ih h, ← List.append_cons]

theorem selectHits_eq (hkeys : (hits.map hitKey).Nodup) :
    selectHits hits limit (some quota) =
      keepFirsts hitKey scoreRank limit (admittedHits quota hits) hits := by
  have hnodup : ((admittedHits quota hits).map hitKey).Nodup :=
    nodup_admission (chooses_admittedHits quota) (by decide) hkeys
  have hfold : mergeModalities.foldl (fun selected modality =>
      ((hits.filter fun hit => hit.modality = modality).take (max quota 1)).foldl addNew selected)
        [] = admittedHits quota hits := by
    rw [← List.foldl_flatMap]
    exact foldl_addNew hnodup
  rw [selectHits, keepFirsts]
  exact congrArg (fun selected => (sortOn scoreRank (topUp hitKey limit selected hits)).take limit)
    hfold

def NoneCrowdedOutOfMerge (responses : List KnowledgeSearchResponse) (resultLimit quota : Nat) :
    Prop :=
  let hits := rankedHits responses
  ((responseHits responses).map KnowledgeSearchHit.modality).dedup.length ≤
      clampLimit resultLimit →
    ∀ modality ∈ (responseHits responses).map KnowledgeSearchHit.modality,
      HasPlace KnowledgeSearchHit.modality hitKey scoreRank mergeModalities
        (clampLimit resultLimit) (admittedHits quota hits) hits modality

theorem citations_of_merge {perModalityLimit : Option Nat}
    (h : mergeRagSearchResponses responses query resultLimit perModalityLimit = .ok merged) :
    merged.citations =
      selectHits (rankedHits responses) (clampLimit resultLimit) perModalityLimit := by
  cases responses with
  | nil => cases h
  | cons first rest =>
      rw [mergeRagSearchResponses] at h
      rw [← Except.ok.inj h]

theorem represents_merge_iff
    (h : mergeRagSearchResponses responses query resultLimit (some quota) = .ok merged) :
    Represents KnowledgeSearchHit.modality hitKey (clampLimit resultLimit)
        (responseHits responses) merged.citations ↔
      NoneCrowdedOutOfMerge responses resultLimit quota := by
  have hkeys : ((rankedHits responses).map hitKey).Nodup := nodup_keepFirst
  have hchooses := chooses_admittedHits quota
  rw [citations_of_merge h, selectHits_eq hkeys]
  refine represents_iff ?_ ?_ hkeys (nodup_admission hchooses (by decide) hkeys)
    (fun _ hmem => (mem_of_mem_admission hchooses hmem).1)
    fun _ hg => mem_map_admission_iff hchooses hg
  · exact fun hit hmem => mem_sortOn.mp (keepFirst_sublist.subset hmem)
  · intro modality hmodality
    obtain ⟨hit, hmem, rfl⟩ := List.mem_map.mp hmodality
    have hkey : hitKey hit ∈ (rankedHits responses).map hitKey := by
      rw [rankedHits, mem_map_keepFirst List.not_mem_nil]
      exact List.mem_map_of_mem (mem_sortOn.mpr hmem)
    obtain ⟨kept, hkept, heq⟩ := List.mem_map.mp hkey
    exact List.mem_map.mpr ⟨kept, hkept, congrArg Prod.fst heq⟩

end Merge

section Both

variable {mmrCandidateScore : SearchCandidate → List SearchCandidate → F32}
  {candidates : List SearchCandidate} {limit perModalityLimit resultLimit quota : Nat}
  {mmrEnabled recent : Bool} {responses : List KnowledgeSearchResponse}
  {merged : KnowledgeSearchResponse} {query : String}

theorem represented_modalities_iff (hkeys : (candidates.map SearchCandidate.key).Nodup)
    (hquota : 1 ≤ perModalityLimit)
    (hmerge : mergeRagSearchResponses responses query resultLimit (some quota) = .ok merged) :
    (Represents SearchCandidate.modality SearchCandidate.key limit candidates
        (selectCandidatesWithModalityQuotas mmrCandidateScore candidates limit perModalityLimit
          mmrEnabled recent) ↔
      NoneCrowdedOut mmrCandidateScore candidates limit perModalityLimit mmrEnabled recent) ∧
    (Represents KnowledgeSearchHit.modality hitKey (clampLimit resultLimit)
        (responseHits responses) merged.citations ↔
      NoneCrowdedOutOfMerge responses resultLimit quota) :=
  ⟨represents_search_iff hkeys hquota, represents_merge_iff hmerge⟩

def quotaCandidate (modality path : String) (scoreBits : UInt32) : SearchCandidate where
  hit :=
    { modality := modality
      path := path
      title := path
      score := 0
      lexicalScore := none
      chunkId := none
      parentId := none
      matchedChildIds := []
      lineStart := none
      matchedTerms := []
      contentSourceKinds := []
      filenameMatchUsed := false
      contentMatchUsed := true
      modifiedUnixMillis := none }
  embeddingText := ""
  rrfScore := ⟨0⟩
  finalScore := ⟨scoreBits⟩

def crowd : List SearchCandidate :=
  [quotaCandidate "document" "doc-1" 0x3F800000, quotaCandidate "document" "doc-2" 0x3F666666,
    quotaCandidate "image" "image-1" 0x3F4CCCCD]

def emptyResponse : KnowledgeSearchResponse where
  query := ""
  totalMatches := 0
  documents := []
  images := []
  videos := []
  summary := ""
  citations := []
  status := "completed"
  degraded := false
  degradedReason := none
  emptyReason := none
  emptyGuidance := none

theorem represented_modalities_iff_crowd :
    ∃ merged, mergeRagSearchResponses [emptyResponse] "q" 2 (some 2) = .ok merged ∧
      (Represents SearchCandidate.modality SearchCandidate.key 2 crowd
          (selectCandidatesWithModalityQuotas (fun candidate _ => candidate.finalScore) crowd 2 2
            false false) ↔
        NoneCrowdedOut (fun candidate _ => candidate.finalScore) crowd 2 2 false false) ∧
      (Represents KnowledgeSearchHit.modality hitKey (clampLimit 2) (responseHits [emptyResponse])
          merged.citations ↔
        NoneCrowdedOutOfMerge [emptyResponse] 2 2) :=
  ⟨_, rfl, represented_modalities_iff (by decide) (by decide) rfl⟩

/-- The two documents take both places. -/
theorem not_represented_crowd :
    (crowd.map SearchCandidate.key).Nodup ∧
      ¬ Represents SearchCandidate.modality SearchCandidate.key 2 crowd
        (selectCandidatesWithModalityQuotas (fun candidate _ => candidate.finalScore) crowd 2 2
          false false) := by
  refine ⟨by decide, fun h => ?_⟩
  have hsorted : sortOn SearchCandidate.finalRank crowd = crowd := sortOn_of_sorted (by decide)
  have himage := h.represented (by decide) "image" (by decide)
  have hselected : selectCandidatesWithModalityQuotas (fun candidate _ => candidate.finalScore)
      crowd 2 2 false false = crowd.take 2 := congrArg (List.take 2) hsorted
  rw [hselected] at himage
  revert himage
  decide

end Both

end HarborBeacon.KnowledgeSearch
