import HarborBeacon.FolderRetention

/-!
Where the index of the knowledge search may lie. The check compares the paths as they are
written, or in their canonical form where they exist; it keeps the index out of the indexed
folders exactly as long as the components of a folder that the index lies in are also written
first in the path of the index.
-/

namespace HarborBeacon.KnowledgeFolders

open AdminConsole LexicalPath ModelSettings SearchScope Text TrimmedTexts

section Model

variable (env : CenterEnvironment) (tree : FileTree)

def validateKnowledgeSettings (settings : KnowledgeSettings) : Except String KnowledgeSettings :=
  let settings := sanitizeKnowledgeSettings env tree settings
  if trim settings.indexRoot = "" then .error "knowledge.index_root 不能为空"
  else
    match settings.sourceRoots.find? fun root =>
        pathIsSameOrInside tree settings.indexRoot root.path with
    | some root =>
        .error ("knowledge.index_root 不能位于 source_root 内：index_root=" ++ settings.indexRoot ++
          " source_root=" ++ root.path)
    | none => .ok settings

/-- By the texts of the paths, with dot segments and repeated slashes resolved, the index lies in
no folder that is accepted with it. -/
def IndexOutside (settings : KnowledgeSettings) : Prop :=
  ∀ accepted, validateKnowledgeSettings env tree settings = .ok accepted →
    ∀ root ∈ accepted.sourceRoots,
      ¬ (lexical accepted.indexRoot.toList).Within (lexical root.path.toList)

/-- The components of a path as the check has them: those of the canonical path if there is one,
else as they are written, with backslashes for slashes and without slashes at the end. -/
def writtenComponents (path : String) : List (List Char) :=
  ((replaceChar '\\' '/' ((tree.canonicalize path).getD path)).toList.rdropWhile
    (· = '/')).splitOn '/'

def WrittenInside (index folder : String) : Prop :=
  writtenComponents tree folder <+: writtenComponents tree index

def HiddenAround (index folder : String) : Prop :=
  (lexical index.toList).Within (lexical folder.toList) ∧ ¬ WrittenInside tree index folder

/-- Where a folder is hidden around the index, another one shows where the index lies. -/
def IndexShown (settings : KnowledgeSettings) : Prop :=
  ∀ root ∈ sanitizeSourceRoots tree settings.sourceRoots,
    HiddenAround tree (trimOr (defaultKnowledgeIndexRoot env) settings.indexRoot) root.path →
      ∃ other ∈ sanitizeSourceRoots tree settings.sourceRoots,
        WrittenInside tree (trimOr (defaultKnowledgeIndexRoot env) settings.indexRoot) other.path

end Model

section Components

variable {front path child parent : List Char}

theorem splitOn_slash (front rest : List Char) :
    (front ++ '/' :: rest).splitOn '/' = front.splitOn '/' ++ rest.splitOn '/' :=
  List.splitOn_append_cons_self _ _

theorem splitOn_prefix_iff : front.splitOn '/' <+: path.splitOn '/' ↔
    path = front ∨ front ++ ['/'] <+: path := by
  constructor
  · rintro ⟨rest, hrest⟩
    have hpath : ['/'].intercalate (path.splitOn '/') = path := List.intercalate_splitOn '/'
    rw [← hrest] at hpath
    by_cases hnil : rest = []
    · left
      rw [hnil, List.append_nil, List.intercalate_splitOn] at hpath
      exact hpath.symm
    · right
      rw [intercalate_append (List.splitOn_ne_nil _ _) hnil, List.intercalate_splitOn] at hpath
      exact ⟨['/'].intercalate rest, by rw [← hpath]; simp⟩
  · rintro (rfl | ⟨rest, rfl⟩)
    · exact List.prefix_refl _
    · rw [List.append_assoc, List.singleton_append, splitOn_slash]
      exact List.prefix_append _ _

theorem not_slash_of_rdropWhile (path : List Char) {front : List Char} :
    path.rdropWhile (· = '/') ≠ front ++ ['/'] := by
  intro heq
  have hlast := List.rdropWhile_last_not (fun c : Char => (c = '/' : Bool)) path (by simp [heq])
  simp [heq] at hlast

theorem rdropWhile_popSlashes (path : List Char) :
    (popSlashes path).rdropWhile (· = '/') = path.rdropWhile (· = '/') := by
  rw [popSlashes]
  split_ifs with hnil
  · rw [hnil, List.rdropWhile_eq_nil_iff]
    exact fun c hc => List.rdropWhile_eq_nil_iff.mp hnil c (List.mem_of_mem_take hc)
  · exact List.rdropWhile_idempotent _ _

theorem popSlashes_of_nil (hpath : path ≠ []) (hnil : path.rdropWhile (· = '/') = []) :
    popSlashes path = ['/'] := by
  obtain ⟨c, rest, rfl⟩ := List.exists_cons_of_ne_nil hpath
  have hc := List.rdropWhile_eq_nil_iff.mp hnil c List.mem_cons_self
  rw [popSlashes, if_pos hnil, List.take_one, List.head?_cons, of_decide_eq_true hc]
  rfl

theorem inside_iff_rdropWhile (hchild : child ≠ []) (hparent : parent ≠ []) :
    popSlashes child = popSlashes parent ∨
        parent.rdropWhile (· = '/') ++ ['/'] <+: popSlashes child ↔
      child.rdropWhile (· = '/') = parent.rdropWhile (· = '/') ∨
        parent.rdropWhile (· = '/') ++ ['/'] <+: child.rdropWhile (· = '/') := by
  have hslash : ∀ path : List Char, path.rdropWhile (· = '/') ≠ [] ++ ['/'] :=
    fun path => not_slash_of_rdropWhile path
  have hkept : ∀ {path : List Char}, path.rdropWhile (· = '/') ≠ [] →
      popSlashes path = path.rdropWhile (· = '/') := fun hne => if_neg hne
  by_cases hc : child.rdropWhile (· = '/') = []
  · rw [popSlashes_of_nil hchild hc, hc]
    by_cases hp : parent.rdropWhile (· = '/') = []
    · rw [hp]
      exact iff_of_true (Or.inr (List.prefix_refl _)) (Or.inl rfl)
    · rw [hkept hp]
      refine iff_of_false ?_ ?_
      · rintro (hsame | hprefix)
        · exact hslash parent hsame.symm
        · have hlength := hprefix.length_le
          rw [List.length_append, List.length_singleton] at hlength
          exact hp (List.eq_nil_of_length_eq_zero (by omega))
      · rintro (hsame | hprefix)
        · exact hp hsame.symm
        · simp at hprefix
  · rw [hkept hc]
    by_cases hp : parent.rdropWhile (· = '/') = []
    · rw [popSlashes_of_nil hparent hp, hp]
      refine or_congr_left ?_
      exact iff_of_false (hslash child) hc
    · rw [hkept hp]

end Components

section Keys

variable {tree : FileTree} {index folder : String}

theorem getD_ne_empty (tree : FileTree) (hpath : index ≠ "") : (tree.canonicalize index).getD index ≠ "" := by
  cases hcanonical : tree.canonicalize index with
  | none => exact hpath
  | some canonical =>
      obtain ⟨names, -, hspell⟩ := tree.canonical hcanonical
      rintro rfl
      rw [spell] at hspell
      cases hspell

theorem replaceChar_ne_nil (hpath : index ≠ "") : (replaceChar '\\' '/' index).toList ≠ [] := by
  rw [replaceChar, String.toList_ofList, ne_eq, List.map_eq_nil_iff, String.toList_eq_nil_iff]
  exact hpath

theorem keyInside_readAs_iff (hindex : index ≠ "") (hfolder : folder ≠ "") :
    keyInside (readAs index) (readAs folder) = true ↔
      popSlashes (replaceChar '\\' '/' index).toList =
          popSlashes (replaceChar '\\' '/' folder).toList ∨
        (replaceChar '\\' '/' folder).toList.rdropWhile (· = '/') ++ ['/'] <+:
          popSlashes (replaceChar '\\' '/' index).toList := by
  have hnone : ¬ (readAs index = "" ∨ readAs folder = "") := by
    simp [readAs_ne_empty hindex, readAs_ne_empty hfolder]
  have hend : (trimEndSlashes (readAs folder) ++ "/").toList =
      (replaceChar '\\' '/' folder).toList.rdropWhile (· = '/') ++ ['/'] := by
    rw [String.toList_append, trimEndSlashes, String.toList_ofList, readAs, String.toList_ofList,
      rdropWhile_popSlashes]
    rfl
  rw [keyInside, if_neg hnone, Bool.or_eq_true, decide_eq_true_iff, startsWithText,
    decide_eq_true_iff, hend, readAs, readAs, String.toList_ofList]
  exact or_congr_left String.ofList_inj

theorem pathIsSameOrInside_iff (hindex : Trimmed index) (hfolder : Trimmed folder) :
    pathIsSameOrInside tree index folder = true ↔ WrittenInside tree index folder := by
  have hchild := getD_ne_empty tree hindex.2
  have hparent := getD_ne_empty tree hfolder.2
  rw [pathIsSameOrInside, normalizedPathKey_configured hindex.1 hindex.2,
    normalizedPathKey_configured hfolder.1 hfolder.2, keyInside_readAs_iff hchild hparent,
    inside_iff_rdropWhile (replaceChar_ne_nil hchild) (replaceChar_ne_nil hparent),
    ← splitOn_prefix_iff]
  rfl

end Keys

section Settings

variable {env : CenterEnvironment} {tree : FileTree} {settings : KnowledgeSettings}

theorem trimmed_indexRoot (env : CenterEnvironment) (settings : KnowledgeSettings) :
    Trimmed (trimOr (defaultKnowledgeIndexRoot env) settings.indexRoot) :=
  trimmed_trimOr (trimmed_joinPath trimmed_harborosWritableRoot (by decide)) _

theorem trimmed_path_of_mem {root : KnowledgeSourceRoot} {roots : List KnowledgeSourceRoot}
    (h : root ∈ sanitizeSourceRoots tree roots) : Trimmed root.path := by
  obtain ⟨hpath, hsame, -⟩ := sanitizeKnowledgeRoot_eq_some (sanitizeKnowledgeRoot_of_mem h 0)
  rw [hsame]
  exact trimmed_trim hpath

theorem validateKnowledgeSettings_ok_iff {accepted : KnowledgeSettings} :
    validateKnowledgeSettings env tree settings = .ok accepted ↔
      accepted = sanitizeKnowledgeSettings env tree settings ∧
        ∀ root ∈ sanitizeSourceRoots tree settings.sourceRoots, ¬ WrittenInside tree
          (trimOr (defaultKnowledgeIndexRoot env) settings.indexRoot) root.path := by
  have hindex : Trimmed (sanitizeKnowledgeSettings env tree settings).indexRoot :=
    trimmed_indexRoot env settings
  have hfilled : trim (sanitizeKnowledgeSettings env tree settings).indexRoot ≠ "" := by
    rw [hindex.1]
    exact hindex.2
  have hinside : ∀ root ∈ sanitizeSourceRoots tree settings.sourceRoots,
      (pathIsSameOrInside tree (sanitizeKnowledgeSettings env tree settings).indexRoot root.path =
        true ↔ WrittenInside tree
          (trimOr (defaultKnowledgeIndexRoot env) settings.indexRoot) root.path) :=
    fun root hroot => pathIsSameOrInside_iff hindex (trimmed_path_of_mem hroot)
  rw [validateKnowledgeSettings, if_neg hfilled]
  cases hfind : (sanitizeKnowledgeSettings env tree settings).sourceRoots.find? fun root =>
      pathIsSameOrInside tree (sanitizeKnowledgeSettings env tree settings).indexRoot
        root.path with
  | some root =>
      have hroot := List.mem_of_find?_eq_some hfind
      have hfound := List.find?_some hfind
      refine iff_of_false (by simp) ?_
      rintro ⟨-, hnone⟩
      exact hnone root hroot ((hinside root hroot).mp hfound)
  | none =>
      have hnone : ∀ root ∈ sanitizeSourceRoots tree settings.sourceRoots, ¬ WrittenInside tree
          (trimOr (defaultKnowledgeIndexRoot env) settings.indexRoot) root.path := by
        intro root hroot
        rw [← hinside root hroot]
        exact List.find?_eq_none.mp hfind root hroot
      rw [and_iff_left hnone]
      constructor
      · intro h
        exact (Except.ok.inj h).symm
      · rintro rfl
        rfl

/-- The index stays out of the accepted folders exactly if no folder is hidden around it, or
another one shows where it lies. -/
theorem index_outside_iff (env : CenterEnvironment) (tree : FileTree)
    (settings : KnowledgeSettings) :
    IndexOutside env tree settings ↔ IndexShown env tree settings := by
  constructor
  · intro h root hroot hhidden
    by_contra hshown
    push Not at hshown
    have hok := validateKnowledgeSettings_ok_iff.mpr
      ⟨rfl, fun other hother => hshown other hother⟩
    exact h _ hok root hroot hhidden.1
  · intro h accepted haccepted root hroot hwithin
    obtain ⟨rfl, hnone⟩ := validateKnowledgeSettings_ok_iff.mp haccepted
    obtain ⟨other, hother, hinside⟩ := h root hroot ⟨hwithin, hnone root hroot⟩
    exact hnone other hother hinside

end Settings

section Plain

variable {env : CenterEnvironment} {tree : FileTree} {settings : KnowledgeSettings}

/-- An absolute path without dot segments, repeated slashes and backslashes, which leads through
no link. -/
def PlainlyWritten (tree : FileTree) (path : String) : Prop :=
  (∃ names, (∀ name ∈ names, IsName name) ∧ path.toList = spell names) ∧
    '\\' ∉ path.toList ∧ (tree.canonicalize path).getD path = path

theorem writtenComponents_of_plain {path : String} (h : PlainlyWritten tree path) :
    writtenComponents tree path = (path.toList.rdropWhile (· = '/')).splitOn '/' := by
  rw [writtenComponents, h.2.2, replaceChar_of_not_mem h.2.1]

theorem rdropWhile_spell {names : List (List Char)} (hne : names ≠ [])
    (h : ∀ name ∈ names, IsName name) : (spell names).rdropWhile (· = '/') = spell names := by
  have hpop := popSlashes_spell h
  by_cases hnil : (spell names).rdropWhile (· = '/') = []
  · exfalso
    apply hne
    rw [popSlashes_of_nil (by simp [spell]) hnil] at hpop
    have htop := resolve_spell h
    rw [← hpop] at htop
    rw [← htop]
    decide
  · rwa [popSlashes, if_neg hnil] at hpop

theorem writtenInside_of_plain {index folder : String} (hindex : PlainlyWritten tree index)
    (hfolder : PlainlyWritten tree folder)
    (hwithin : (lexical index.toList).Within (lexical folder.toList)) :
    WrittenInside tree index folder := by
  rw [WrittenInside, writtenComponents_of_plain hindex, writtenComponents_of_plain hfolder]
  obtain ⟨⟨names, hnames, hspell⟩, -⟩ := hindex
  obtain ⟨⟨above, habove, hspellAbove⟩, -⟩ := hfolder
  rw [hspell, hspellAbove, lexical_spell hnames, lexical_spell habove] at hwithin
  obtain ⟨-, ⟨hup, -⟩ | ⟨-, hprefix⟩⟩ := hwithin
  · exact absurd hup (Nat.lt_irrefl 0)
  · rw [hspell, hspellAbove, splitOn_prefix_iff, ← inside_iff_rdropWhile (by simp [spell])
      (by simp [spell]), popSlashes_spell hnames, popSlashes_spell habove]
    by_cases hne : above = []
    · subst hne
      exact Or.inr ⟨['/'].intercalate names, rfl⟩
    · rw [rdropWhile_spell hne habove]
      exact (spell_under_iff hne habove hnames).mpr hprefix

theorem index_outside_of_plain
    (hindex : PlainlyWritten tree (trimOr (defaultKnowledgeIndexRoot env) settings.indexRoot))
    (hroots : ∀ root ∈ sanitizeSourceRoots tree settings.sourceRoots,
      PlainlyWritten tree root.path) : IndexOutside env tree settings := by
  intro accepted haccepted root hroot hwithin
  obtain ⟨rfl, hnone⟩ := validateKnowledgeSettings_ok_iff.mp haccepted
  exact hnone root hroot (writtenInside_of_plain hindex (hroots root hroot) hwithin)

end Plain

def indexAround : KnowledgeSettings :=
  { twoPhotoFolders with
    sourceRoots := [bareRoot "/mnt/alice/photos"]
    indexRoot := "/mnt/alice/films/../photos/index" }

theorem index_inside_photos_accepted :
    ¬ IndexOutside { modelApiBaseUrl := none, modelApiToken := none, writableRoot := none }
      unreadableTree indexAround := by
  intro h
  have hroots : ∀ root ∈ sanitizeSourceRoots unreadableTree indexAround.sourceRoots,
      root.path = "/mnt/alice/photos" := by decide
  have hnone : ∀ root ∈ sanitizeSourceRoots unreadableTree indexAround.sourceRoots,
      ¬ WrittenInside unreadableTree "/mnt/alice/films/../photos/index" root.path := by
    intro root hroot
    rw [hroots root hroot, WrittenInside]
    decide
  obtain ⟨root, hroot⟩ : ∃ root, root ∈
      sanitizeSourceRoots unreadableTree indexAround.sourceRoots :=
    List.exists_mem_of_ne_nil _ (by decide)
  have hindex : trimOr (defaultKnowledgeIndexRoot
      { modelApiBaseUrl := none, modelApiToken := none, writableRoot := none })
        indexAround.indexRoot = "/mnt/alice/films/../photos/index" := by decide
  refine h _ (validateKnowledgeSettings_ok_iff.mpr ⟨rfl, ?_⟩) root hroot ?_
  · rw [hindex]
    exact hnone
  · have hplace : (lexical "/mnt/alice/films/../photos/index".toList) =
        { absolute := true, up := 0,
          names := ["mnt".toList, "alice".toList, "photos".toList, "index".toList] } := by
      decide
    have hfolder : lexical "/mnt/alice/photos".toList =
        { absolute := true, up := 0,
          names := ["mnt".toList, "alice".toList, "photos".toList] } := by
      decide
    dsimp only [sanitizeKnowledgeSettings]
    rw [hindex, hroots root hroot, hplace, hfolder]
    exact ⟨rfl, Or.inr ⟨rfl, by decide⟩⟩

end HarborBeacon.KnowledgeFolders
