import HarborBeacon.KnowledgeFolders
import HarborBeacon.SearchContainment
import HarborBeacon.SettledRecords

/-!
What the normalisation of the knowledge settings keeps. The ids of the roots differ and the
result is settled; a folder is lost exactly if the id of each of its roots is taken by a root
before it.
-/

namespace HarborBeacon.KnowledgeFolders

open AdminConsole Binary32 FilledTables LexicalPath ModelSettings SearchScope Text TrimmedTexts

section Retrieval

structure IsRange (lower upper fallback : F32) : Prop where
  finiteLower : lower.isFinite = true
  finiteUpper : upper.isFinite = true
  le : lower.le upper = true
  between : F32.Between lower upper fallback

instance instDecidableIsRange (lower upper fallback : F32) :
    Decidable (IsRange lower upper fallback) :=
  decidable_of_iff (lower.isFinite = true ∧ upper.isFinite = true ∧ lower.le upper = true ∧
      F32.Between lower upper fallback)
    ⟨fun h => ⟨h.1, h.2.1, h.2.2.1, h.2.2.2⟩, fun h => ⟨h.1, h.2, h.3, h.4⟩⟩

variable {lower upper fallback value : F32}

theorem IsRange.holds (h : IsRange lower upper fallback) (value : F32) :
    F32.Between lower upper (sanitizeUnitOrPositiveF32 value lower upper fallback) := by
  rw [sanitizeUnitOrPositiveF32]
  by_cases hfinite : value.isFinite = true
  · rw [if_pos hfinite]
    exact F32.between_clamp h.finiteLower h.finiteUpper h.le hfinite
  · rw [if_neg hfinite]
    exact h.between

theorem sanitizeUnitOrPositiveF32_of_between (h : F32.Between lower upper value) :
    sanitizeUnitOrPositiveF32 value lower upper fallback = value := by
  rw [sanitizeUnitOrPositiveF32, if_pos h.isFinite, h.clamp_eq]

theorem IsRange.idem (h : IsRange lower upper fallback) (value : F32) :
    sanitizeUnitOrPositiveF32 (sanitizeUnitOrPositiveF32 value lower upper fallback) lower upper
      fallback = sanitizeUnitOrPositiveF32 value lower upper fallback :=
  sanitizeUnitOrPositiveF32_of_between (h.holds value)

theorem weightsOf_settled {lexicalWeight vectorWeight : F32}
    (hlexical : F32.Between zero one lexicalWeight) (hvector : F32.Between zero one vectorWeight) :
    F32.Between zero one (weightsOf lexicalWeight vectorWeight).1 ∧
      F32.Between zero one (weightsOf lexicalWeight vectorWeight).2 ∧
      weightsOf (weightsOf lexicalWeight vectorWeight).1 (weightsOf lexicalWeight vectorWeight).2 =
        weightsOf lexicalWeight vectorWeight := by
  by_cases h : (lexicalWeight.le epsilon && vectorWeight.le epsilon) = true
  · have hweights : weightsOf lexicalWeight vectorWeight =
        (thirtyFiveHundredths, sixtyFiveHundredths) := by rw [weightsOf, if_pos h]
    rw [hweights]
    exact ⟨by decide, by decide, by decide⟩
  · have hweights : weightsOf lexicalWeight vectorWeight = (lexicalWeight, vectorWeight) := by
      rw [weightsOf, if_neg h]
    rw [hweights]
    exact ⟨hlexical, hvector, hweights⟩

theorem clampCount_idem {min max : Nat} (h : min ≤ max) (value : Nat) :
    clampCount (clampCount value min max) min max = clampCount value min max := by
  unfold clampCount
  split_ifs <;> omega

theorem sanitizeKnowledgeRetrievalSettings_idem (settings : KnowledgeRetrievalSettings) :
    sanitizeKnowledgeRetrievalSettings (sanitizeKnowledgeRetrievalSettings settings) =
      sanitizeKnowledgeRetrievalSettings settings := by
  have hlexical : IsRange zero one thirtyFiveHundredths := by decide
  have hvector : IsRange zero one sixtyFiveHundredths := by decide
  obtain ⟨hfirst, hsecond, hweights⟩ := weightsOf_settled (hlexical.holds settings.lexicalWeight)
    (hvector.holds settings.vectorWeight)
  have hlimit : clampCount (clampCount settings.candidateLimit 1 500) 1 500 =
      clampCount settings.candidateLimit 1 500 := clampCount_idem (by decide) _
  have hclamp := clampCount_idem (le_max_right (clampCount settings.candidateLimit 1 500) 1)
    settings.rerankTopK
  have hzero : IsRange zero one zero := by decide
  have hquarter : IsRange zero one quarter := by decide
  have hfiftyFive : IsRange zero one fiftyFiveHundredths := by decide
  have hfifteen : IsRange zero one fifteenHundredths := by decide
  have hseven : IsRange zero one sevenTenths := by decide
  have hrrf : IsRange one oneThousand sixty := by decide
  simp only [sanitizeKnowledgeRetrievalSettings, defaultRetrievalFusionStrategy, ite_self,
    sanitizeUnitOrPositiveF32_of_between hfirst, sanitizeUnitOrPositiveF32_of_between hsecond,
    hweights, hlimit, hclamp, hzero.idem, hquarter.idem, hfiftyFive.idem, hfifteen.idem,
    hseven.idem, hrrf.idem]

end Retrieval

section Ids

theorem namedSlug_eq_some {value slug : String} (h : namedSlug value = some slug) :
    IsSlug slug.toList ∧ slug ≠ "" ∧ slug ≠ "item" := by
  rw [namedSlug, Option.filter_eq_some_iff] at h
  obtain ⟨hslug, hnamed⟩ := h
  obtain ⟨hne, hitem⟩ := of_decide_eq_true hnamed
  obtain rfl := Option.some.inj hslug
  exact ⟨isSlug_slugify value, hne, hitem⟩

theorem namedSlug_of_isSlug {slug : String} (h : IsSlug slug.toList) (hne : slug ≠ "")
    (hitem : slug ≠ "item") : namedSlug slug = some slug := by
  rw [namedSlug, slugify_of_isSlug h, Option.filter_some, if_pos]
  exact decide_eq_true ⟨hne, hitem⟩

theorem namedSlug_made {slug : String} (h : IsSlug slug.toList) (hne : slug ≠ "") :
    namedSlug ("knowledge-" ++ slug) = some ("knowledge-" ++ slug) := by
  have hspelled : ("knowledge-" ++ slug).toList = "knowledge".toList ++ '-' :: slug.toList := by
    rw [String.toList_append]
    rfl
  have hknowledge : IsSlug "knowledge".toList :=
    isSlug_of_word (forall_mem_of_all (by decide))
  apply namedSlug_of_isSlug
  · rw [hspelled]
    exact hknowledge.join h (by decide) fun hnil => hne (String.toList_eq_nil_iff.mp hnil)
  · intro hempty
    have hnil := congrArg String.toList hempty
    rw [hspelled] at hnil
    cases hnil
  · intro hitem
    have hsame := congrArg String.toList hitem
    rw [hspelled] at hsame
    cases hsame

section

variable {rootId label : String} (path : String) (index : Nat)

theorem rootId_of_named {existing : String} (h : namedSlug rootId = some existing) :
    sanitizeKnowledgeRootId rootId label path index = existing := by
  unfold sanitizeKnowledgeRootId
  rw [h]

theorem rootId_of_label {fromLabel : String} (h : namedSlug rootId = none)
    (hlabel : namedSlug label = some fromLabel) :
    sanitizeKnowledgeRootId rootId label path index = "knowledge-" ++ fromLabel := by
  unfold sanitizeKnowledgeRootId
  rw [h, hlabel]

theorem rootId_of_path (h : namedSlug rootId = none) (hlabel : namedSlug label = none) :
    sanitizeKnowledgeRootId rootId label path index =
      "knowledge-" ++ ((fileName path).bind namedSlug).getD ("root-" ++ toString (index + 1)) := by
  unfold sanitizeKnowledgeRootId
  rw [h, hlabel]

end

theorem isSlug_numbered (index : Nat) : IsSlug ("root-" ++ toString (index + 1)).toList ∧
    "root-" ++ toString (index + 1) ≠ "" := by
  have hspelled : ("root-" ++ toString (index + 1)).toList =
      "root".toList ++ '-' :: (toString (index + 1)).toList := by
    rw [String.toList_append]
    rfl
  have hroot : IsSlug "root".toList :=
    isSlug_of_word (forall_mem_of_all (by decide))
  refine ⟨?_, ?_⟩
  · rw [hspelled]
    exact hroot.join (isSlug_toString (index + 1)) (by decide)
      fun hnil => (trimmed_toString (index + 1)).2 (String.toList_eq_nil_iff.mp hnil)
  · intro hempty
    have hnil := congrArg String.toList hempty
    rw [hspelled] at hnil
    cases hnil

theorem namedSlug_rootId (rootId label path : String) (index : Nat) :
    namedSlug (sanitizeKnowledgeRootId rootId label path index) =
      some (sanitizeKnowledgeRootId rootId label path index) := by
  cases hid : namedSlug rootId with
  | some existing =>
      obtain ⟨hslug, hne, hitem⟩ := namedSlug_eq_some hid
      rw [rootId_of_named path index hid]
      exact namedSlug_of_isSlug hslug hne hitem
  | none =>
      cases hlabel : namedSlug label with
      | some fromLabel =>
          obtain ⟨hslug, hne, -⟩ := namedSlug_eq_some hlabel
          rw [rootId_of_label path index hid hlabel]
          exact namedSlug_made hslug hne
      | none =>
          rw [rootId_of_path path index hid hlabel]
          cases hpath : (fileName path).bind namedSlug with
          | some fromPath =>
              obtain ⟨name, -, hname⟩ := Option.bind_eq_some_iff.mp hpath
              obtain ⟨hslug, hne, -⟩ := namedSlug_eq_some hname
              exact namedSlug_made hslug hne
          | none =>
              obtain ⟨hslug, hne⟩ := isSlug_numbered index
              exact namedSlug_made hslug hne

theorem rootId_again (rootId label path other path' : String) (index place : Nat) :
    sanitizeKnowledgeRootId (sanitizeKnowledgeRootId rootId label path index) other path' place =
      sanitizeKnowledgeRootId rootId label path index :=
  rootId_of_named path' place (namedSlug_rootId rootId label path index)

theorem trimmed_rootId (rootId label path : String) (index : Nat) :
    Trimmed (sanitizeKnowledgeRootId rootId label path index) := by
  obtain ⟨hslug, hne, -⟩ := namedSlug_eq_some (namedSlug_rootId rootId label path index)
  exact trimmed_of_no_whitespace hne fun c hc => isWhitespace_of_isSlugChar (hslug.chars c hc)

end Ids

section Roots

variable {tree : FileTree} {root row : KnowledgeSourceRoot} {index : Nat}

theorem sanitizeKnowledgeRoot_eq_some (h : sanitizeKnowledgeRoot root index = some row) :
    trim root.path ≠ "" ∧ row.path = trim root.path ∧ row.rootId = idAt root index := by
  rw [sanitizeKnowledgeRoot] at h
  dsimp only at h
  split at h
  · cases h
  · rename_i hpath
    rw [← Option.some.inj h]
    dsimp only [idAt]
    exact ⟨hpath, rfl, rfl⟩

theorem sanitizeKnowledgeRoot_isSome (h : trim root.path ≠ "") (index : Nat) :
    ∃ row, sanitizeKnowledgeRoot root index = some row := by
  rw [sanitizeKnowledgeRoot]
  dsimp only
  rw [if_neg h]
  exact ⟨_, rfl⟩

theorem sanitizeKnowledgeRootLabel_again (label path path' rootId : String)
    (h : Trimmed rootId) :
    sanitizeKnowledgeRootLabel (sanitizeKnowledgeRootLabel label path rootId) path' rootId =
      sanitizeKnowledgeRootLabel label path rootId :=
  trimOr_trimOr (trimmed_trimOr h _) _ _

theorem sanitizeStringList_idem (values : List String) :
    sanitizeStringList (sanitizeStringList values) = sanitizeStringList values := by
  obtain ⟨hclean, hnodup⟩ := cleanTexts_sanitizeStringList values
  exact sanitizeStringList_of_clean hclean hnodup

theorem sanitizeKnowledgeRoot_again (h : sanitizeKnowledgeRoot root index = some row)
    (place : Nat) : sanitizeKnowledgeRoot row place = some row := by
  rw [sanitizeKnowledgeRoot] at h
  dsimp only at h
  split at h
  · cases h
  · rename_i hpath
    obtain rfl := Option.some.inj h
    have hid := rootId_again root.rootId root.label (trim root.path)
      (sanitizeKnowledgeRootLabel root.label (trim root.path)
        (sanitizeKnowledgeRootId root.rootId root.label (trim root.path) index))
      (trim root.path) index place
    have hlabel := sanitizeKnowledgeRootLabel_again root.label (trim root.path) (trim root.path) _
      (trimmed_rootId root.rootId root.label (trim root.path) index)
    rw [sanitizeKnowledgeRoot]
    dsimp only
    rw [trim_trim, if_neg hpath, hid, hlabel, sanitizeStringList_idem, sanitizeStringList_idem,
      bind_nonEmptyOpt_idem]

theorem normalizedPathKey_trim (path : String) :
    normalizedPathKey tree (trim path) = normalizedPathKey tree path := by
  rw [normalizedPathKey, trim_trim, ← normalizedPathKey]

theorem pathKey_eq_empty_iff : pathKey tree root = "" ↔ trim root.path = "" := by
  rw [pathKey, normalizedPathKey]
  by_cases hpath : trim root.path = ""
  · rw [if_pos hpath]
    exact iff_of_true rfl hpath
  · rw [if_neg hpath]
    refine iff_of_false (readAs_ne_empty ?_) hpath
    cases hcanonical : tree.canonicalize (trim root.path) with
    | none => exact hpath
    | some canonical =>
        obtain ⟨names, -, hspell⟩ := tree.canonical hcanonical
        rintro rfl
        rw [spell] at hspell
        cases hspell

end Roots

section Settings

variable {env : CenterEnvironment} {tree : FileTree} {roots : List KnowledgeSourceRoot}

theorem sanitizeSourceRoots_eq (tree : FileTree) (roots : List KnowledgeSourceRoot) :
    sanitizeSourceRoots tree roots = keepFirst (pathKey tree) []
      (keepFirst KnowledgeSourceRoot.rootId []
        (roots.zipIdx.filterMap fun entry => sanitizeKnowledgeRoot entry.1 entry.2)) :=
  keepFresh_eq KnowledgeSourceRoot.rootId (pathKey tree) []

theorem nodup_rootId (roots : List KnowledgeSourceRoot) :
    ((sanitizeSourceRoots tree roots).map KnowledgeSourceRoot.rootId).Nodup := by
  rw [sanitizeSourceRoots_eq]
  exact (keepFirst_sublist.map _).nodup nodup_keepFirst

theorem nodup_pathKey (roots : List KnowledgeSourceRoot) :
    ((sanitizeSourceRoots tree roots).map (pathKey tree)).Nodup := by
  rw [sanitizeSourceRoots_eq]
  exact nodup_keepFirst

theorem sanitizeKnowledgeRoot_of_mem {row : KnowledgeSourceRoot}
    (h : row ∈ sanitizeSourceRoots tree roots) (place : Nat) :
    sanitizeKnowledgeRoot row place = some row := by
  rw [sanitizeSourceRoots_eq] at h
  have hrow := keepFirst_sublist.subset (keepFirst_sublist.subset h)
  obtain ⟨entry, -, hentry⟩ := List.mem_filterMap.mp hrow
  exact sanitizeKnowledgeRoot_again hentry place

theorem filterMap_zipIdx_of_settled {rows : List KnowledgeSourceRoot}
    (h : ∀ row ∈ rows, ∀ place, sanitizeKnowledgeRoot row place = some row) (start : Nat) :
    ((rows.zipIdx start).filterMap fun entry => sanitizeKnowledgeRoot entry.1 entry.2) = rows := by
  induction rows generalizing start with
  | nil => rfl
  | cons row rest ih =>
      rw [List.forall_mem_cons] at h
      simp only [List.zipIdx_cons, List.filterMap_cons, h.1 start, ih h.2]

theorem sanitizeSourceRoots_idem (roots : List KnowledgeSourceRoot) :
    sanitizeSourceRoots tree (sanitizeSourceRoots tree roots) = sanitizeSourceRoots tree roots := by
  rw [sanitizeSourceRoots_eq tree (sanitizeSourceRoots tree roots),
    filterMap_zipIdx_of_settled (fun row hrow => sanitizeKnowledgeRoot_of_mem hrow),
    keepFirst_eq_self (nodup_rootId roots) fun _ _ => List.not_mem_nil,
    keepFirst_eq_self (nodup_pathKey roots) fun _ _ => List.not_mem_nil]

theorem sanitizeKnowledgeSettings_idem (settings : KnowledgeSettings) :
    sanitizeKnowledgeSettings env tree (sanitizeKnowledgeSettings env tree settings) =
      sanitizeKnowledgeSettings env tree settings := by
  have hindex : Trimmed (defaultKnowledgeIndexRoot env) :=
    trimmed_joinPath trimmed_harborosWritableRoot (by decide)
  simp only [sanitizeKnowledgeSettings, sanitizeSourceRoots_idem, trimOr_trimOr hindex,
    sanitizeKnowledgeRetrievalSettings_idem,
    clampCount_idem (show 1 ≤ 100 by decide), clampCount_idem (show 0 ≤ 20 by decide),
    clampCount_idem (show 4096 ≤ 8192 by decide)]

theorem mem_pathKey_sanitizeSourceRoots {key : String} :
    (∃ kept ∈ sanitizeSourceRoots tree roots, pathKey tree kept = key) ↔
      ∃ before other after, roots = before ++ other :: after ∧ trim other.path ≠ "" ∧
        pathKey tree other = key ∧ TakesItsId before other := by
  have hleaders : (∃ kept ∈ sanitizeSourceRoots tree roots, pathKey tree kept = key) ↔
      ∃ row ∈ keepFirst KnowledgeSourceRoot.rootId []
        (roots.zipIdx.filterMap fun entry => sanitizeKnowledgeRoot entry.1 entry.2),
        pathKey tree row = key := by
    rw [← List.mem_map, ← List.mem_map, sanitizeSourceRoots_eq]
    exact mem_map_keepFirst List.not_mem_nil
  rw [hleaders]
  constructor
  · rintro ⟨row, hrow, hkey⟩
    obtain ⟨entries, entry, rest, hsplit, hentry, hfirst⟩ := mem_keepFirst_filterMap_iff.mp hrow
    obtain ⟨before, tail, rfl, rfl, htail⟩ := List.zipIdx_eq_append_iff.mp hsplit
    obtain ⟨other, after, rfl, rfl, -⟩ := List.zipIdx_eq_cons_iff.mp htail.symm
    obtain ⟨hpath, hrowPath, hid⟩ := sanitizeKnowledgeRoot_eq_some hentry
    refine ⟨before, other, after, rfl, hpath, ?_, ?_⟩
    · rw [← hkey, pathKey, pathKey, hrowPath, normalizedPathKey_trim]
    · intro taken htaken htakenPath
      obtain ⟨takenRow, htakenRow⟩ := sanitizeKnowledgeRoot_isSome htakenPath taken.2
      have hne := hfirst taken htaken takenRow htakenRow
      rw [hid, (sanitizeKnowledgeRoot_eq_some htakenRow).2.2, Nat.zero_add] at hne
      exact hne
  · rintro ⟨before, other, after, rfl, hpath, hkey, hfirst⟩
    obtain ⟨row, hrow⟩ := sanitizeKnowledgeRoot_isSome hpath before.length
    obtain ⟨-, hrowPath, hid⟩ := sanitizeKnowledgeRoot_eq_some hrow
    refine ⟨row, mem_keepFirst_filterMap_iff.mpr ?_, ?_⟩
    · refine ⟨before.zipIdx, (other, before.length), after.zipIdx (before.length + 1), ?_, hrow, ?_⟩
      · rw [List.zipIdx_append, List.zipIdx_cons, Nat.zero_add]
      · intro taken htaken takenRow htakenRow
        obtain ⟨htakenPath, -, htakenId⟩ := sanitizeKnowledgeRoot_eq_some htakenRow
        rw [htakenId, hid]
        exact hfirst taken htaken htakenPath
    · rw [← hkey, pathKey, pathKey, hrowPath, normalizedPathKey_trim]

/-- Every folder is kept exactly if each of them has a root with an id of its own. -/
theorem folders_kept_iff (env : CenterEnvironment) (tree : FileTree)
    (settings : KnowledgeSettings) :
    FoldersKept env tree settings ↔ FoldersHaveIds tree settings := by
  constructor
  · intro h root hroot hkey
    obtain ⟨kept, ⟨hkept, hsame⟩, -⟩ := h.folders root hroot hkey
    obtain ⟨before, other, after, hsplit, -, hother, hfirst⟩ :=
      mem_pathKey_sanitizeSourceRoots.mp ⟨kept, hkept, hsame⟩
    exact ⟨before, other, after, hsplit, hother, hfirst⟩
  · intro h
    refine ⟨?_, nodup_rootId _, sanitizeKnowledgeSettings_idem settings⟩
    intro root hroot hkey
    obtain ⟨before, other, after, hsplit, hother, hfirst⟩ := h root hroot hkey
    have hpath : trim other.path ≠ "" := by
      have hempty : pathKey tree other = "" ↔ trim other.path = "" := pathKey_eq_empty_iff
      rw [ne_eq, ← hempty, hother]
      exact hkey
    obtain ⟨kept, hkept, hsame⟩ := mem_pathKey_sanitizeSourceRoots.mpr
      ⟨before, other, after, hsplit, hpath, hother, hfirst⟩
    refine ⟨kept, ⟨hkept, hsame⟩, ?_⟩
    rintro second ⟨hsecond, hsecondSame⟩
    exact List.inj_on_of_nodup_map (nodup_pathKey settings.sourceRoots) hsecond hkept
      (hsecondSame.trans hsame.symm)

def bareRoot (path : String) : KnowledgeSourceRoot :=
  { rootId := "", label := "", path, enabled := true, includes := [], exclude := [],
    lastIndexedAt := none }

def twoPhotoFolders : KnowledgeSettings :=
  { sourceRoots := [bareRoot "/mnt/alice/photos", bareRoot "/mnt/bob/photos"]
    indexRoot := "/mnt/index"
    privacyLevel := .strictLocal
    defaultResourceProfile := .cpuOnly
    retrieval :=
      { queryExpansionEnabled := true, fusionStrategy := "rrf", rrfK := sixty,
        lexicalWeight := thirtyFiveHundredths, vectorWeight := sixtyFiveHundredths,
        candidateLimit := 80, lexicalMinScore := zero, vectorMinScore := quarter,
        semanticOnlyMinScore := fiftyFiveHundredths, rerankEnabled := true, rerankTopK := 30,
        rerankMinScore := fifteenHundredths, mmrEnabled := true, mmrLambda := sevenTenths }
    conversation := { historyLimit := 10, contextTurnLimit := 3, contextTokenLimit := 8192 } }

def unreadableTree : FileTree where
  canonicalize _ := none
  canonical := by
    intro _ _ h
    cases h
  canonicalize_canonical := by
    intro _ _ h
    cases h

theorem second_photo_folder_lost :
    ¬ FoldersKept { modelApiBaseUrl := none, modelApiToken := none, writableRoot := none }
      unreadableTree twoPhotoFolders := by
  intro h
  have hkeys : (sanitizeSourceRoots unreadableTree twoPhotoFolders.sourceRoots).map
      (pathKey unreadableTree) = ["/mnt/alice/photos"] := by decide
  obtain ⟨kept, ⟨hkept, hsame⟩, -⟩ := h.folders (bareRoot "/mnt/bob/photos") (by decide)
    (by decide)
  have hmem := List.mem_map_of_mem (f := pathKey unreadableTree) hkept
  rw [hsame] at hmem
  change _ ∈ (sanitizeSourceRoots unreadableTree twoPhotoFolders.sourceRoots).map _ at hmem
  rw [hkeys] at hmem
  revert hmem
  decide

end Settings

end HarborBeacon.KnowledgeFolders
