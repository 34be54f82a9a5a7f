import HarborBeacon.Results
import HarborBeacon.SearchScope

/-!
Searches and the configured roots. A search stays within them exactly as long as no path in the
file tree is disguised: read as inside a root only because its backslashes are read as slashes,
or because white space at its ends is dropped.
-/

namespace HarborBeacon.SearchScope

open LexicalPath Results Text

section Paths

theorem resolve_append_slash (path : List Char) : resolve (path ++ ['/']) = resolve path := by
  rw [resolve, List.splitOn_append_cons_self, List.foldl_append]
  rfl

theorem resolve_rdropWhile (path : List Char) :
    resolve (path.rdropWhile (· = '/')) = resolve path := by
  induction path using List.reverseRecOn with
  | nil => rfl
  | append_singleton path c ih =>
      by_cases hc : c = '/'
      · subst hc
        rw [List.rdropWhile_concat_pos _ _ _ (by decide), ih, resolve_append_slash]
      · rw [List.rdropWhile_concat_neg _ _ _ (by simpa using hc)]

theorem resolve_popSlashes (path : List Char) : resolve (popSlashes path) = resolve path := by
  rw [popSlashes]
  split
  · rename_i hnone
    rw [← resolve_rdropWhile path, hnone, ← resolve_rdropWhile (path.take 1)]
    have hall := List.rdropWhile_eq_nil_iff.mp hnone
    have htake : (path.take 1).rdropWhile (· = '/') = [] :=
      List.rdropWhile_eq_nil_iff.mpr fun c hc => hall c (List.mem_of_mem_take hc)
    rw [htake]
  · exact resolve_rdropWhile path

theorem popSlashes_isPrefix (path : List Char) : popSlashes path <+: path := by
  rw [popSlashes]
  split
  · exact List.take_prefix 1 path
  · exact List.rdropWhile_prefix _ path

theorem popSlashes_eq_nil_iff {path : List Char} : popSlashes path = [] ↔ path = [] := by
  constructor
  · intro h
    rw [popSlashes] at h
    split at h
    · simpa using h
    · contradiction
  · rintro rfl
    rfl

variable {names : List (List Char)}

theorem popSlashes_spell (h : ∀ name ∈ names, IsName name) :
    popSlashes (spell names) = spell names := by
  by_cases hne : names = []
  · subst hne
    decide
  · have hlast : (spell names).rdropWhile (· = '/') = spell names := by
      rw [List.rdropWhile_eq_self_iff]
      intro hnil hslash
      have hsplit := splitOn_spell hne h
      rw [← List.dropLast_append_getLast hnil, of_decide_eq_true hslash,
        List.splitOn_append_cons_self, List.splitOn_nil] at hsplit
      have hempty : ([] : List Char) ∈ names := by
        have hend := congrArg List.getLast? hsplit
        rw [List.getLast?_concat, List.getLast?_cons_of_ne_nil hne] at hend
        exact List.mem_of_getLast? hend.symm
      exact (h [] hempty).1 rfl
    rw [popSlashes, hlast, if_neg (by simp [spell])]

theorem resolve_prefix_of_spell (h : ∀ name ∈ names, IsName name) {front rest : List Char}
    (hspell : spell names = front ++ '/' :: rest) : resolve front <+: names := by
  by_cases hne : names = []
  · subst hne
    have hfront : front = [] := by
      have hlength := congrArg List.length hspell
      rw [List.length_append, List.length_cons] at hlength
      have hone : (spell []).length = 1 := by decide
      exact List.length_eq_zero_iff.mp (by omega)
    rw [hfront]
    decide
  · have hsplit := splitOn_spell hne h
    rw [hspell, List.splitOn_append_cons_self] at hsplit
    cases hfront : front.splitOn '/' with
    | nil => exact absurd hfront (List.splitOn_ne_nil _ _)
    | cons first above =>
        rw [hfront, List.cons_append, List.cons.injEq] at hsplit
        obtain ⟨rfl, hnames⟩ := hsplit
        have habove : ∀ name ∈ above, IsName name :=
          fun name hname => h name (hnames ▸ List.mem_append_left _ hname)
        rw [resolve, hfront, List.foldl_cons]
        change above.foldl descend [] <+: names
        rw [foldl_descend_names [] above habove, ← hnames]
        exact List.prefix_append above _

end Paths

section Keys

variable {names : List (List Char)} {tree : FileTree} {path : String} {parent : List Char}
  {child : String}

theorem prefix_slash_of_key (hchild : child.toList = spell names)
    (h : keyInside child (String.ofList (popSlashes parent)) = true) :
    popSlashes parent = spell names ∨
      ∃ rest, spell names = (popSlashes parent).rdropWhile (· = '/') ++ '/' :: rest := by
  rw [keyInside] at h
  split at h
  · cases h
  · rcases Bool.or_eq_true_iff.mp h with hsame | hinside
    · left
      rw [← hchild, of_decide_eq_true hsame, String.toList_ofList]
    · right
      obtain ⟨rest, hrest⟩ := of_decide_eq_true hinside
      refine ⟨rest, ?_⟩
      rw [← hchild, ← hrest, String.toList_append, trimEndSlashes, String.toList_ofList,
        String.toList_ofList, List.append_assoc]
      rfl

theorem resolve_prefix_of_keyInside (hnames : ∀ name ∈ names, IsName name)
    (hchild : child.toList = spell names)
    (h : keyInside child (String.ofList (popSlashes parent)) = true) :
    resolve parent <+: names := by
  rw [← resolve_popSlashes]
  rcases prefix_slash_of_key hchild h with hsame | ⟨rest, hrest⟩
  · rw [hsame, resolve_spell hnames]
  · rw [← resolve_rdropWhile]
    exact resolve_prefix_of_spell hnames hrest

theorem parent_starts_with_slash (hchild : child.toList = spell names)
    (h : keyInside child (String.ofList (popSlashes parent)) = true) : ['/'] <+: parent := by
  have hpop : ['/'] <+: popSlashes parent := by
    rcases prefix_slash_of_key hchild h with hsame | ⟨rest, hrest⟩
    · rw [hsame, spell]
      exact ⟨_, rfl⟩
    · cases hfront : (popSlashes parent).rdropWhile (· = '/') with
      | nil =>
          have hall := List.rdropWhile_eq_nil_iff.mp hfront
          cases hparent : popSlashes parent with
          | nil =>
              rw [keyInside, if_pos (Or.inr (by rw [hparent]))] at h
              cases h
          | cons c rest =>
              have hc := hall c (hparent ▸ List.mem_cons_self)
              rw [of_decide_eq_true hc]
              exact ⟨rest, rfl⟩
      | cons c front =>
          rw [hfront, spell, List.cons_append, List.cons.injEq] at hrest
          obtain ⟨rfl, -⟩ := hrest
          have hprefix : '/' :: front <+: popSlashes parent :=
            hfront ▸ List.rdropWhile_prefix _ _
          exact List.IsPrefix.trans ⟨front, rfl⟩ hprefix
  exact hpop.trans (popSlashes_isPrefix parent)

theorem replaceChar_of_not_mem {old new : Char} {s : String} (h : old ∉ s.toList) :
    replaceChar old new s = s := by
  rw [replaceChar]
  have hmap : s.toList.map (fun c => if c = old then new else c) = s.toList := by
    refine (List.map_congr_left fun c hc => ?_).trans (List.map_id _)
    rw [if_neg]
    · rfl
    · rintro rfl
      exact h hc
  rw [hmap, String.ofList_toList]

theorem readAs_eq (path : String) (h : '\\' ∉ path.toList) :
    readAs path = String.ofList (popSlashes path.toList) := by
  rw [readAs, replaceChar_of_not_mem h]

theorem readAs_ne_empty (h : path ≠ "") : readAs path ≠ "" := by
  intro hempty
  have hnil := congrArg String.toList hempty
  rw [readAs, String.toList_ofList, String.toList_empty, popSlashes_eq_nil_iff, replaceChar,
    String.toList_ofList, List.map_eq_nil_iff] at hnil
  exact h (String.toList_injective hnil)

theorem keyInside_self {key : String} (h : key ≠ "") : keyInside key key = true := by
  rw [keyInside, if_neg (by simpa using h)]
  simp

theorem mem_filledPaths {paths : List String} (h : path ∈ filledPaths paths) :
    trim path = path ∧ path ≠ "" := by
  rw [filledPaths, List.mem_filter] at h
  obtain ⟨raw, -, rfl⟩ := List.mem_map.mp h.1
  exact ⟨trim_trim raw, of_decide_eq_true h.2⟩

theorem filledPaths_singleton (htrim : trim path = path) (hne : path ≠ "") :
    filledPaths [path] = [path] := by
  rw [filledPaths, List.map_singleton, htrim, List.filter_cons_of_pos (by simpa using hne)]
  rfl

theorem exists_ne_empty (h : Exists tree path) : path ≠ "" := by
  rintro rfl
  obtain ⟨text, -, -, hcanonical⟩ := h
  obtain ⟨names, -, hspell⟩ := tree.canonical hcanonical
  rw [spell] at hspell
  cases hspell

theorem trim_ne_empty_of_exists (h : Exists tree path) : trim path ≠ "" := by
  obtain ⟨text, -, -, hcanonical⟩ := h
  obtain ⟨names, -, hspell⟩ := tree.canonical hcanonical
  rw [← isBlank_eq_false_iff]
  refine isBlank_eq_false_of_mem (c := '/') ?_ (by decide)
  rw [hspell, spell]
  exact List.mem_cons_self

theorem normalizedPathKey_of_canonical {text path : String} (htrim : trim text = text)
    (hne : text ≠ "") (h : tree.canonicalize text = some path) :
    normalizedPathKey tree text = readAs path := by
  rw [normalizedPathKey, htrim, if_neg hne, h, Option.getD_some]

theorem normalizedPathKey_configured {root : String} (htrim : trim root = root) (hne : root ≠ "") :
    normalizedPathKey tree root = readAs ((tree.canonicalize root).getD root) := by
  rw [normalizedPathKey, htrim, if_neg hne]

theorem normalizedPathKey_of_exists (h : Exists tree path) :
    normalizedPathKey tree path = readFocus tree path := by
  rw [normalizedPathKey, if_neg (trim_ne_empty_of_exists h), readFocus]

theorem normalizeSearchPathText_of_exists (h : Exists tree path) :
    normalizeSearchPathText path = path := by
  obtain ⟨text, -, -, hcanonical⟩ := h
  obtain ⟨names, -, hspell⟩ := tree.canonical hcanonical
  have hstart : ∀ pattern : List Char, startsWithText path (String.ofList ('\\' :: pattern)) =
      false := by
    intro pattern
    rw [startsWithText, decide_eq_false_iff_not, hspell, String.toList_ofList, spell,
      List.cons_prefix_cons]
    exact fun hsame => absurd hsame.1 (by decide)
  rw [normalizeSearchPathText, if_neg, if_neg]
  · exact Bool.eq_false_iff.mp (hstart ['\\', '?', '\\'])
  · exact Bool.eq_false_iff.mp (hstart ['\\', '?', '\\', 'U', 'N', 'C', '\\'])

end Keys

section Searches

variable {tree : FileTree} {configuredRoots : List String} {text path root : String}

theorem mem_sortedPaths {paths : List String} {path : String} :
    path ∈ sortedPaths paths ↔ path ∈ paths := by
  rw [sortedPaths, List.mem_insertionSort, List.mem_dedup]

theorem existingRoots_ok {rawRoots roots : List String}
    (h : existingRoots tree rawRoots = .ok roots) :
    ∀ root ∈ roots, ∃ text ∈ rawRoots, tree.canonicalize text = some root := by
  rw [existingRoots] at h
  split at h
  · cases h
  · intro root hroot
    rw [← Except.ok.inj h, mem_sortedPaths] at hroot
    exact List.mem_filterMap.mp hroot

theorem existingRoots_singleton {text path : String} (h : tree.canonicalize text = some path) :
    existingRoots tree [text] = .ok [path] := by
  rw [existingRoots, List.filterMap_cons_some h]
  rfl

theorem allowedRoots_ok {configured requested roots : List String}
    (h : allowedRoots tree configured requested = .ok roots) :
    roots = requested ∧ ∀ root ∈ requested, ∃ configuredRoot ∈ configured,
      pathIsSameOrInside tree root configuredRoot = true := by
  rw [allowedRoots] at h
  split at h
  · cases h
  · rename_i hnone
    refine ⟨(Except.ok.inj h).symm, ?_⟩
    intro root hroot
    have hinside := List.find?_eq_none.mp hnone root hroot
    rw [Bool.not_eq_true, Bool.not_eq_false'] at hinside
    exact List.any_eq_true.mp hinside

theorem pathIsSameOrInside_eq (htext : trim text = text ∧ text ≠ "")
    (hcanonical : tree.canonicalize text = some path) (hroot : trim root = root ∧ root ≠ "") :
    pathIsSameOrInside tree text root =
      keyInside (readAs path) (readAs ((tree.canonicalize root).getD root)) := by
  have hchild := normalizedPathKey_of_canonical htext.1 htext.2 hcanonical
  rw [pathIsSameOrInside, hchild, normalizedPathKey_configured hroot.1 hroot.2]

theorem resolveRoots_ok {requestRoots roots : List String}
    (h : resolveRoots tree configuredRoots requestRoots = .ok roots) :
    ∀ root ∈ roots, Exists tree root ∧ ReadInside tree configuredRoots root := by
  rw [resolveRoots] at h
  split at h
  · cases h
  · split at h
    · intro root hroot
      obtain ⟨text, htext, hcanonical⟩ := existingRoots_ok h root hroot
      obtain ⟨htrim, hne⟩ := mem_filledPaths htext
      have hexists : Exists tree root := ⟨text, htrim, hne, hcanonical⟩
      refine ⟨hexists, text, htext, ?_⟩
      rw [hcanonical, Option.getD_some]
      exact keyInside_self (readAs_ne_empty (exists_ne_empty hexists))
    · obtain ⟨allowed, hallowed, hexisting⟩ := bind_eq_ok h
      obtain ⟨rfl, hinside⟩ := allowedRoots_ok hallowed
      intro root hroot
      obtain ⟨text, htext, hcanonical⟩ := existingRoots_ok hexisting root hroot
      have hfilled := mem_filledPaths htext
      obtain ⟨configuredRoot, hconfigured, hkeys⟩ := hinside text htext
      refine ⟨⟨text, hfilled.1, hfilled.2, hcanonical⟩, configuredRoot, hconfigured, ?_⟩
      rw [← pathIsSameOrInside_eq hfilled hcanonical (mem_filledPaths hconfigured)]
      exact hkeys

theorem resolveRoots_singleton {text path : String} (htrim : trim text = text) (hne : text ≠ "")
    (hcanonical : tree.canonicalize text = some path)
    (hinside : ReadInside tree configuredRoots path) :
    resolveRoots tree configuredRoots [text] = .ok [path] := by
  obtain ⟨configuredRoot, hconfigured, hkeys⟩ := hinside
  have hallowed : allowedRoots tree (filledPaths configuredRoots) [text] = .ok [text] := by
    have hany : (filledPaths configuredRoots).any (pathIsSameOrInside tree text) = true := by
      rw [List.any_eq_true]
      refine ⟨configuredRoot, hconfigured, ?_⟩
      rw [pathIsSameOrInside_eq ⟨htrim, hne⟩ hcanonical (mem_filledPaths hconfigured)]
      exact hkeys
    rw [allowedRoots, List.find?_cons_of_neg (by simp [hany]), List.find?_nil]
  have hfilled : filledPaths configuredRoots ≠ [] := List.ne_nil_of_mem hconfigured
  have hexisting : existingRoots tree [text] = .ok [path] := existingRoots_singleton hcanonical
  simp only [resolveRoots, filledPaths_singleton htrim hne, hfilled, if_false, hallowed,
    List.cons_ne_nil, Except.bind, hexisting]

theorem resolveFocusPath_ok {roots : List String} {focusPath path : String}
    (htrim : trim focusPath = focusPath) (hne : focusPath ≠ "")
    (hroots : ∀ root ∈ roots, Exists tree root)
    (h : resolveFocusPath tree roots focusPath = .ok path) :
    Exists tree path ∧
      ∃ root ∈ roots, keyInside (readFocus tree path) (readFocus tree root) = true := by
  rw [resolveFocusPath] at h
  split at h
  · cases h
  · rename_i canonical hcanonical
    have hexists : Exists tree canonical := ⟨focusPath, htrim, hne, hcanonical⟩
    rw [normalizeSearchPathText_of_exists hexists] at h
    dsimp only at h
    split at h
    · rename_i hany
      obtain rfl := Except.ok.inj h
      obtain ⟨root, hroot, hkeys⟩ := List.any_eq_true.mp hany
      rw [normalizeSearchPathText_of_exists (hroots root hroot), pathIsSameOrInside,
        normalizedPathKey_of_exists hexists, normalizedPathKey_of_exists (hroots root hroot)]
        at hkeys
      exact ⟨hexists, root, hroot, hkeys⟩
    · cases h

theorem resolveFocusPaths_ok {focusPaths roots paths : List String}
    (hroots : ∀ root ∈ roots, Exists tree root)
    (h : resolveFocusPaths tree focusPaths roots = .ok paths) :
    ∀ path ∈ paths, Exists tree path ∧
      ∃ root ∈ roots, keyInside (readFocus tree path) (readFocus tree root) = true := by
  intro path hpath
  obtain ⟨resolved, hresolved, h⟩ := bind_eq_ok h
  rw [← Except.ok.inj h, mem_sortedSet] at hpath
  obtain ⟨focusPath, hfocus, hone⟩ := exists_of_mem_mapM hresolved hpath
  obtain ⟨htrim, hne⟩ := mem_filledPaths hfocus
  exact resolveFocusPath_ok htrim hne hroots hone

theorem resolveFocusPaths_singleton (htrim : trim text = text) (hne : text ≠ "")
    (hcanonical : tree.canonicalize text = some path) (hroot : Exists tree root)
    (hinside : keyInside (readFocus tree path) (readFocus tree root) = true) :
    resolveFocusPaths tree [text] [root] = .ok [path] := by
  have hexists : Exists tree path := ⟨text, htrim, hne, hcanonical⟩
  have hone : resolveFocusPath tree [root] text = .ok path := by
    rw [resolveFocusPath, hcanonical]
    dsimp only
    rw [normalizeSearchPathText_of_exists hexists, List.any_cons,
      normalizeSearchPathText_of_exists hroot, pathIsSameOrInside,
      normalizedPathKey_of_exists hexists, normalizedPathKey_of_exists hroot, hinside]
    rfl
  rw [resolveFocusPaths, filledPaths_singleton htrim hne, List.mapM_cons, hone]
  rfl

/-- No path with a backslash exists, none with white space at its ends, and no configured root
without a canonical path has a backslash. -/
structure PlainPaths (tree : FileTree) (configuredRoots : List String) : Prop where
  backslash : ∀ path, Exists tree path → '\\' ∉ path.toList
  trimmed : ∀ path, Exists tree path → trim path = path
  configured : ∀ root ∈ filledPaths configuredRoots, tree.canonicalize root = none →
    '\\' ∉ root.toList

theorem insideConfigured_of_readInside (hplain : PlainPaths tree configuredRoots) {path : String}
    (hexists : Exists tree path) (h : ReadInside tree configuredRoots path) :
    InsideConfigured tree configuredRoots path := by
  obtain ⟨root, hroot, hkeys⟩ := h
  obtain ⟨htrim, hne⟩ := mem_filledPaths hroot
  obtain ⟨text, -, -, hcanonical⟩ := id hexists
  obtain ⟨names, hnames, hspell⟩ := tree.canonical hcanonical
  rw [readAs_eq path (hplain.backslash path hexists), hspell, popSlashes_spell hnames] at hkeys
  have hchild : (String.ofList (spell names)).toList = spell names := String.toList_ofList
  refine ⟨root, hroot, ?_⟩
  rw [hspell, resolve_spell hnames]
  cases hrootCanonical : tree.canonicalize root with
  | some canonical =>
      have hrootExists : Exists tree canonical := ⟨root, htrim, hne, hrootCanonical⟩
      rw [hrootCanonical, Option.getD_some,
        readAs_eq canonical (hplain.backslash canonical hrootExists)] at hkeys
      refine ⟨_, by rw [placeOf, hrootCanonical], ?_⟩
      exact resolve_prefix_of_keyInside hnames hchild hkeys
  | none =>
      rw [hrootCanonical, Option.getD_none,
        readAs_eq root (hplain.configured root hroot hrootCanonical)] at hkeys
      have hslash : startsWithText root "/" = true :=
        decide_eq_true (parent_starts_with_slash hchild hkeys)
      refine ⟨_, by rw [placeOf, hrootCanonical]; exact if_pos hslash, ?_⟩
      exact resolve_prefix_of_keyInside hnames hchild hkeys

theorem readFocus_of_plain (hplain : PlainPaths tree configuredRoots) {path : String}
    (h : Exists tree path) : readFocus tree path = readAs path := by
  obtain ⟨text, -, -, hcanonical⟩ := id h
  rw [readFocus, hplain.trimmed path h, tree.canonicalize_canonical hcanonical, Option.getD_some]

theorem InsideConfigured.trans {path root : String}
    (hroot : InsideConfigured tree configuredRoots root)
    (hinside : resolve root.toList <+: resolve path.toList) :
    InsideConfigured tree configuredRoots path := by
  obtain ⟨configuredRoot, hconfigured, names, hplace, hprefix⟩ := hroot
  exact ⟨configuredRoot, hconfigured, names, hplace, hprefix.trans hinside⟩

theorem nothingDisguised_of_plain (hplain : PlainPaths tree configuredRoots) :
    NothingDisguised tree configuredRoots := by
  constructor
  · intro path hexists hinside
    exact insideConfigured_of_readInside hplain hexists hinside
  · intro path root hexists hrootExists hrootInside hkeys
    apply (insideConfigured_of_readInside hplain hrootExists hrootInside).trans
    obtain ⟨text, -, -, hcanonical⟩ := id hexists
    obtain ⟨names, hnames, hspell⟩ := tree.canonical hcanonical
    rw [readFocus_of_plain hplain hexists, readFocus_of_plain hplain hrootExists,
      readAs_eq path (hplain.backslash path hexists),
      readAs_eq root (hplain.backslash root hrootExists), hspell, popSlashes_spell hnames] at hkeys
    rw [hspell, resolve_spell hnames]
    exact resolve_prefix_of_keyInside hnames String.toList_ofList hkeys

/-- Every search stays in the configured roots exactly if no path is disguised, and none is
where no path has a backslash or white space at its ends. -/
theorem scope_kept_iff (tree : FileTree) (configuredRoots : List String) :
    ((∀ requestRoots focusPaths, ScopeKept tree configuredRoots requestRoots focusPaths) ↔
      NothingDisguised tree configuredRoots) ∧
    (PlainPaths tree configuredRoots → NothingDisguised tree configuredRoots) := by
  refine ⟨⟨?_, ?_⟩, nothingDisguised_of_plain⟩
  · intro hkept
    constructor
    · rintro path ⟨text, htrim, hne, hcanonical⟩ hinside
      have hroots := resolveRoots_singleton htrim hne hcanonical hinside
      exact (hkept [text] [] [path] hroots).1 path (List.mem_singleton_self path)
    · rintro path root ⟨text, htrim, hne, hcanonical⟩ hroot hrootInside hinside
      obtain ⟨rootText, hrootTrim, hrootNe, hrootCanonical⟩ := hroot
      have hroots := resolveRoots_singleton hrootTrim hrootNe hrootCanonical hrootInside
      have hpaths := resolveFocusPaths_singleton htrim hne hcanonical
        ⟨rootText, hrootTrim, hrootNe, hrootCanonical⟩ hinside
      exact (hkept [rootText] [text] [root] hroots).2 [path] hpaths path
        (List.mem_singleton_self path)
  · intro hnothing requestRoots focusPaths roots hroots
    have hread := resolveRoots_ok hroots
    refine ⟨?_, ?_⟩
    · intro root hroot
      obtain ⟨hexists, hinside⟩ := hread root hroot
      exact hnothing.roots root hexists hinside
    · intro paths hpaths path hpath
      obtain ⟨hexists, root, hroot, hinside⟩ :=
        resolveFocusPaths_ok (fun root hroot => (hread root hroot).1) hpaths path hpath
      obtain ⟨hrootExists, hrootInside⟩ := hread root hroot
      exact hnothing.focus path root hexists hrootExists hrootInside hinside

/-- The one folder of the tree has the name `data\private` and lies beside the configured one. -/
def disguisedTree : FileTree where
  canonicalize path := if path = "/data\\private" then some path else none
  canonical := by
    intro path canonical h
    obtain ⟨hpath, hsome⟩ := Option.ite_none_right_eq_some.mp h
    have hname : IsName "data\\private".toList := by
      rw [IsName]
      decide
    refine ⟨["data\\private".toList], List.forall_mem_singleton.mpr hname, ?_⟩
    rw [← Option.some.inj hsome, hpath]
    decide
  canonicalize_canonical := by
    intro path canonical h
    obtain ⟨hpath, hsome⟩ := Option.ite_none_right_eq_some.mp h
    rw [← Option.some.inj hsome]
    exact if_pos hpath

/-- A folder beside the configured root is searched as if it were inside. -/
theorem disguised_folder_searched :
    ¬ ∀ tree configuredRoots requestRoots focusPaths,
      ScopeKept tree configuredRoots requestRoots focusPaths := by
  intro h
  have hresolved : resolveRoots disguisedTree ["/data"] ["/data\\private"] =
      .ok ["/data\\private"] := by rfl
  obtain ⟨root, hroot, names, hplace, hprefix⟩ :=
    (h disguisedTree ["/data"] ["/data\\private"] [] _ hresolved).1 _ (List.mem_singleton_self _)
  have hfilled : filledPaths ["/data"] = ["/data"] := by decide
  rw [hfilled, List.mem_singleton] at hroot
  have hdata : placeOf disguisedTree "/data" = some ["data".toList] := by decide
  rw [hroot, hdata] at hplace
  rw [← Option.some.inj hplace] at hprefix
  exact absurd hprefix (by decide)

end Searches

end HarborBeacon.SearchScope
