import HarborBeacon.ChunkLinks

/-!
The text of the chunks. The parents hold every character of the sources that is no white space,
and each child of a parent is the end of the child before it and what comes next in the parent.
-/

namespace HarborBeacon.ChunkCoverage

open ChunkDrafts ChunkHierarchy ChunkLinks ChunkTokens Chunking OverlapPacking Text

inductive Covering : List Char → List (List Char) → List (List Char) → Prop
  | nil (before : List Char) : Covering before [] []
  | cons {before tail piece : List Char} {texts pieces : List (List Char)} (htail : tail <:+ before)
      (hrest : Covering (tail ++ piece) texts pieces) :
      Covering before ((tail ++ piece) :: texts) (piece :: pieces)

theorem linesInk_carriedOver (lines : List ChunkSourceLine) :
    linesInk (carriedOver lines) <:+ linesInk lines := by
  rcases carriedOver_cases lines with ⟨before, h⟩ | ⟨before, line, rfl, h⟩
  · refine ⟨linesInk before, ?_⟩
    rw [← linesInk_append, h]
  · have htail : linesInk [sourceLineTail line childChunkOverlapTokens] =
        ink (sourceLineTail line childChunkOverlapTokens).text := List.flatMap_singleton ..
    have hline : linesInk [line] = ink line.text := List.flatMap_singleton ..
    rw [h, linesInk_append, htail, hline]
    refine List.IsSuffix.trans ?_ (List.suffix_append _ _)
    exact (sourceLineTail_spec line (by decide)).2.2.filter _

theorem exists_covering {carried : List ChunkSourceLine} {before : List Char}
    (hcarried : linesInk carried <:+ before) (parts : List (List ChunkSourceLine)) :
    ∃ pieces, Covering before ((draftTexts (overlay carriedOver carried parts)).map ink) pieces ∧
      pieces.flatten = parts.flatMap linesInk := by
  induction parts generalizing carried before with
  | nil => exact ⟨[], Covering.nil before, rfl⟩
  | cons part parts ih =>
      have hink : ink (joinChunkSourceLines (carried ++ part)) = linesInk carried ++ linesInk part := by
        rw [ink_join, ← linesInk_append]
        rfl
      have hnext : linesInk (carriedOver (carried ++ part)) <:+
          ink (joinChunkSourceLines (carried ++ part)) := by
        rw [hink, ← linesInk_append]
        exact linesInk_carriedOver _
      rw [overlay, draftTexts, List.map_cons, List.filter_cons]
      split
      · obtain ⟨pieces, hcover, hflatten⟩ := ih hnext
        refine ⟨linesInk part :: pieces, ?_, ?_⟩
        · rw [hink] at hcover
          rw [List.map_cons, hink]
          exact Covering.cons hcarried hcover
        · rw [List.flatten_cons, hflatten, List.flatMap_cons]
      · -- a draft without text is left out, and nothing of it is carried over
        rename_i htext
        have hempty : joinChunkSourceLines (carried ++ part) = "" := by simpa using htext
        have hnone := ink_eq_nil_of_eq_empty hempty
        rw [hnone] at hnext hink
        obtain ⟨pieces, hcover, hflatten⟩ := ih (hnext.trans (List.nil_suffix (l := before)))
        refine ⟨pieces, hcover, ?_⟩
        rw [hflatten, List.flatMap_cons, (List.append_eq_nil_iff.mp hink.symm).2]
        rfl

section Parents

variable {groups : List (List Family)} {family : Family}

theorem filter_flatMap_of_nodup {α β κ : Type} [DecidableEq κ] {items : List α} {key : α → κ}
    {f : α → List β} {keyOf : β → κ} (hnodup : (items.map key).Nodup)
    (hkey : ∀ a ∈ items, ∀ b ∈ f a, keyOf b = key a) {a : α} (ha : a ∈ items) :
    ((items.flatMap f).filter fun b => keyOf b = key a) = f a := by
  induction items with
  | nil => exact absurd ha List.not_mem_nil
  | cons first rest ih =>
      obtain ⟨hfirst, hrest⟩ := List.forall_mem_cons.mp hkey
      obtain ⟨hapart, hnodup⟩ := List.nodup_cons.mp hnodup
      rw [List.flatMap_cons, List.filter_append]
      rcases List.mem_cons.mp ha with rfl | hmem
      · have hall : ((f a).filter fun b => keyOf b = key a) = f a :=
          List.filter_eq_self.mpr fun b hb => by simp [hfirst b hb]
        have hnone : ((rest.flatMap f).filter fun b => keyOf b = key a) = [] := by
          refine List.filter_eq_nil_iff.mpr ?_
          intro b hb hsame
          obtain ⟨other, hother, hb⟩ := List.mem_flatMap.mp hb
          refine hapart (List.mem_map.mpr ⟨other, hother, ?_⟩)
          rw [← hrest other hother b hb]
          exact of_decide_eq_true hsame
        rw [hall, hnone, List.append_nil]
      · have hnone : ((f first).filter fun b => keyOf b = key a) = [] := by
          refine List.filter_eq_nil_iff.mpr ?_
          intro b hb hsame
          refine hapart (List.mem_map.mpr ⟨a, hmem, ?_⟩)
          rw [← hfirst b hb]
          exact (of_decide_eq_true hsame).symm
        rw [hnone, List.nil_append]
        exact ih hnodup hrest hmem

def childrenNamed (hierarchy : KnowledgeChunkHierarchy) (parent : KnowledgeIndexParentChunk) :
    List KnowledgeIndexChunk :=
  hierarchy.children.filter fun child => child.parentId = some parent.parentId

theorem texts_childrenNamed (h : SoundGroups groups) (hfamily : family ∈ groups.flatten)
    (parents : List KnowledgeIndexParentChunk) :
    (childrenNamed ⟨parents, groups.flatMap linkedChildren⟩ family.parent).map (·.text) =
      family.children.map (·.text) := by
  have hpairs : (groups.flatMap linkedChildren).map (fun child => (child.parentId, child.text)) =
      groups.flatten.flatMap fun family =>
        family.children.map fun child => (child.parentId, child.text) := by
    rw [map_flatMap_linkedChildren (fun child => (child.parentId, child.text)) fun _ _ _ => rfl,
      List.map_flatMap]
  have hnodup : (groups.flatten.map fun family => some family.parent.parentId).Nodup := by
    have hsome := h.parentIds.map (Option.some_injective String)
    rw [List.map_map] at hsome
    exact hsome
  have hnames : ∀ other ∈ groups.flatten,
      ∀ pair ∈ other.children.map fun child => (child.parentId, child.text),
        pair.1 = some other.parent.parentId := by
    intro other hother pair hpair
    obtain ⟨child, hchild, rfl⟩ := List.mem_map.mp hpair
    exact (h.sound other hother).parentId child hchild
  have hfiltered := filter_flatMap_of_nodup hnodup hnames hfamily
  rw [← hpairs, List.filter_map] at hfiltered
  have htexts := congrArg (List.map Prod.snd) hfiltered
  rw [List.map_map, List.map_map] at htexts
  exact htexts

theorem texts_childrenOf (source : KnowledgeIndexTextSource) (draft : ParentChunkDraft)
    (parentId : String) (childCount : Nat) (drafts : List (List ChunkSourceLine)) :
    (childrenOf source draft parentId childCount drafts).map (·.text) = draftTexts drafts := by
  induction drafts generalizing childCount with
  | nil => rfl
  | cons childLines rest ih =>
      rw [childrenOf, draftTexts, List.map_cons, List.filter_cons]
      split
      · rename_i hempty
        rw [if_neg (by simp [hempty])]
        exact ih childCount
      · rename_i htext
        rw [if_pos (by simp [htext]), List.map_cons, ih]
        rfl

theorem ink_familiesOf (source : KnowledgeIndexTextSource) (parentCount childCount : Nat)
    (drafts : List ParentChunkDraft) :
    ((familiesOf source parentCount childCount drafts).flatMap fun family =>
        ink family.parent.text) = drafts.flatMap fun draft => linesInk draft.lines := by
  induction drafts generalizing parentCount childCount with
  | nil => rfl
  | cons draft rest ih =>
      have hparent : ink (familyOf source parentCount childCount draft).parent.text =
          linesInk draft.lines := ink_join draft.lines
      rw [familiesOf, List.flatMap_cons, List.flatMap_cons, ih, hparent]

theorem ink_groupsOf (parentCount childCount : Nat) (sources : List KnowledgeIndexTextSource) :
    ((groupsOf parentCount childCount sources).flatten.flatMap fun family =>
        ink family.parent.text) = sources.flatMap fun source => ink source.text := by
  induction sources generalizing parentCount childCount with
  | nil => rfl
  | cons source rest ih =>
      rw [groupsOf, List.flatten_cons, List.flatMap_append, ih, List.flatMap_cons, ink_familiesOf,
        (buildParentDraftsForSource_spec source).1]

theorem exists_of_mem_groupsOf {parentCount childCount : Nat}
    {sources : List KnowledgeIndexTextSource}
    (h : family ∈ (groupsOf parentCount childCount sources).flatten) :
    ∃ source parents children draft, family = familyOf source parents children draft := by
  induction sources generalizing parentCount childCount with
  | nil => exact absurd h List.not_mem_nil
  | cons source rest ih =>
      rw [groupsOf, List.flatten_cons] at h
      rcases List.mem_append.mp h with hfirst | hrest
      · obtain ⟨parents, children, draft, -, hfamily⟩ := exists_of_mem_familiesOf hfirst
        exact ⟨source, parents, children, draft, hfamily⟩
      · exact ih hrest

end Parents

/-- A parent whose children cover its text: the segments of its lines are cut into parts, and each
child is what the draft before it carries over and one of the parts. -/
structure Covered (parent : KnowledgeIndexParentChunk) (texts : List String) : Prop where
  pieces : ∃ pieces, Covering [] (texts.map ink) pieces ∧ pieces.flatten = ink parent.text
  parts : ∃ lines parts, parent.text = joinChunkSourceLines lines ∧ (∀ part ∈ parts, part ≠ []) ∧
    parts.flatten = childSegments lines ∧ texts = draftTexts (overlay carriedOver [] parts)

theorem covered_draft (parent : KnowledgeIndexParentChunk) (lines : List ChunkSourceLine)
    (htext : parent.text = joinChunkSourceLines lines) :
    Covered parent (draftTexts (buildChildDrafts lines)) := by
  obtain ⟨parts, hparts, hflatten, htexts⟩ := exists_child_parts lines
  refine ⟨?_, lines, parts, htext, hparts, hflatten, htexts⟩
  obtain ⟨pieces, hcover, hpieces⟩ := exists_covering (List.suffix_refl _ : linesInk [] <:+ []) parts
  refine ⟨pieces, htexts ▸ hcover, ?_⟩
  calc pieces.flatten = linesInk parts.flatten := by
        rw [hpieces, linesInk, List.flatten_eq_flatMap, List.flatMap_assoc]
        rfl
    _ = linesInk lines := by rw [hflatten, linesInk_childSegments]
    _ = ink parent.text := by
        rw [htext, ink_join]
        rfl

/-- Chunking loses no text: the parents hold the characters of the sources, and the children of a
parent those of the parent. -/
theorem covered_buildTextChunkHierarchy (sources : List KnowledgeIndexTextSource) :
    ((buildTextChunkHierarchy sources).parents.flatMap fun parent => ink parent.text) =
        (sources.flatMap fun source => ink source.text) ∧
      ∀ parent ∈ (buildTextChunkHierarchy sources).parents,
        Covered parent ((childrenNamed (buildTextChunkHierarchy sources) parent).map (·.text)) := by
  rw [buildTextChunkHierarchy_eq]
  refine ⟨?_, ?_⟩
  · rw [List.flatMap_map]
    exact ink_groupsOf 0 0 sources
  · intro parent hparent
    obtain ⟨family, hfamily, rfl⟩ := List.mem_map.mp hparent
    rw [texts_childrenNamed (soundGroups_groupsOf sources) hfamily]
    obtain ⟨source, parents, children, draft, rfl⟩ := exists_of_mem_groupsOf hfamily
    have htexts := texts_childrenOf source draft (parentIdOf (parents + 1)) children
      (buildChildDrafts draft.lines)
    exact htexts ▸ covered_draft _ draft.lines rfl

section BlankLine

structure FullLine (line : ChunkSourceLine) : Prop where
  number : line.number = 1
  sectionPath : line.sectionPath = []
  tokens : estimatedTokenCount line.text = childChunkTargetTokens
  heading : markdownHeading line.text = none
  text : line.text.toList ≠ []
  no_space : ∀ c ∈ line.text.toList, isWhitespace c = false

def blankLine : ChunkSourceLine where
  number := 2
  text := ""
  sectionPath := []

def tailOf (line : ChunkSourceLine) : ChunkSourceLine :=
  sourceLineTail line childChunkOverlapTokens

variable {line : ChunkSourceLine}

theorem rdropWhile_of_no_space {chars : List Char} (h : ∀ c ∈ chars, isWhitespace c = false) :
    chars.rdropWhile isWhitespace = chars := by
  rw [List.rdropWhile_eq_self_iff]
  intro hne
  simp [h _ (List.getLast_mem hne)]

theorem isBlank_of_no_space {text : String} (hne : text.toList ≠ [])
    (h : ∀ c ∈ text.toList, isWhitespace c = false) : isBlank text = false := by
  rw [Bool.eq_false_iff]
  intro hblank
  have hspace := isBlank_iff.mp hblank _ (List.head_mem hne)
  rw [h _ (List.head_mem hne)] at hspace
  exact absurd hspace (by decide)

theorem join_of_no_space (hne : line.text.toList ≠ [])
    (h : ∀ c ∈ line.text.toList, isWhitespace c = false) :
    joinChunkSourceLines [line] = line.text ∧
      joinChunkSourceLines [line, blankLine] = line.text := by
  have hkept := rdropWhile_of_no_space h
  have hfirst : ¬ isWhitespace (line.text.toList.head hne) = true := by
    simp [h _ (List.head_mem hne)]
  have hdrop : ∀ after, (line.text.toList ++ after).dropWhile isWhitespace =
      line.text.toList ++ after := by
    intro after
    rw [← List.cons_head_tail hne, List.cons_append, List.dropWhile_cons_of_neg hfirst]
  constructor
  · rw [← String.toList_inj, toList_joinChunkSourceLines, List.map_singleton, hkept, trimChars,
      List.intercalate_singleton, ← List.append_nil line.text.toList, hdrop, List.append_nil, hkept]
  · have hjoined : ['\n'].intercalate ([line, blankLine].map fun line =>
        line.text.toList.rdropWhile isWhitespace) = line.text.toList ++ ['\n'] := by
      rw [List.map_cons, hkept]
      rfl
    rw [← String.toList_inj, toList_joinChunkSourceLines, hjoined, trimChars, hdrop,
      List.rdropWhile_concat_pos _ _ _ (by decide), hkept]

theorem FullLine.lineTokens (h : FullLine line) : lineTokens line = childChunkTargetTokens := by
  rw [Chunking.lineTokens, h.tokens]
  rfl

theorem FullLine.splitSourceLine (h : FullLine line) {tokenBudget : Nat}
    (hbudget : childChunkTargetTokens ≤ tokenBudget) : splitSourceLine line tokenBudget = [line] := by
  rw [Chunking.splitSourceLine, if_pos (Or.inl (h.tokens.trans_le hbudget))]

theorem FullLine.tailOf_suffix (line : ChunkSourceLine) :
    (tailOf line).text.toList <:+ line.text.toList :=
  (sourceLineTail_spec line (by decide)).2.2

theorem FullLine.tailOf_text (h : FullLine line) : (tailOf line).text.toList ≠ [] := by
  have htail : (tailOf line).text ≠ "" := sourceLineTail_ne line (by decide) fun hempty =>
    h.text (String.toList_eq_nil_iff.mpr hempty)
  exact fun hnil => htail (String.toList_eq_nil_iff.mp hnil)

theorem FullLine.tailOf_no_space (h : FullLine line) :
    ∀ c ∈ (tailOf line).text.toList, isWhitespace c = false := fun c hc =>
  h.no_space c ((FullLine.tailOf_suffix line).subset hc)

theorem FullLine.buildParentDraftsForSource (h : FullLine line)
    {source : KnowledgeIndexTextSource} (hlines : lines source.text = [line.text, ""]) :
    buildParentDraftsForSource source =
      [{ lines := [line, blankLine], sectionPath := [] }] := by
  have hfirst : ParentState.addLine {} (line.text, 0) =
      { currentLines := [line], currentTokens := childChunkTargetTokens } := by
    have hline : ({ number := 0 + 1, text := line.text, sectionPath := [] } : ChunkSourceLine) =
        line := by
      rw [Nat.zero_add, ← h.number, ← h.sectionPath]
    have hkept : trimEnd line.text = line.text := by
      rw [trimEnd, rdropWhile_of_no_space h.no_space, String.ofList_toList]
    simp only [ParentState.addLine, hkept, h.heading, Option.isSome_none, Bool.false_and,
      Bool.false_eq_true, if_false, hline, h.splitSourceLine (show childChunkTargetTokens ≤
        parentChunkMaxTokens by decide)]
    simp [ParentState.addSegment, h.lineTokens]
  have hblank : ParentState.addLine
      { currentLines := [line], currentTokens := childChunkTargetTokens } ("", 1) =
        { currentLines := [line, blankLine], currentTokens := childChunkTargetTokens + 1 } := rfl
  have hall : [line, blankLine].all (fun line => isBlank line.text) = false := by
    rw [List.all_cons, isBlank_of_no_space h.text h.no_space]
    rfl
  rw [Chunking.buildParentDraftsForSource, hlines, List.zipIdx_cons, List.zipIdx_cons,
    List.zipIdx_nil, List.foldl_cons, List.foldl_cons, List.foldl_nil, hfirst, hblank]
  rw [ParentState.flush, pushParentDraft, if_neg (by rw [hall]; decide)]
  simp [h.sectionPath, blankLine]

theorem FullLine.buildChildDrafts (h : FullLine line) :
    buildChildDrafts [line, blankLine] = [[line], [tailOf line, blankLine]] := by
  have hsplit := h.splitSourceLine (le_refl childChunkTargetTokens)
  have hblank : Chunking.splitSourceLine blankLine childChunkTargetTokens = [blankLine] := by decide
  have hfirst : ChildState.addSegment {} line =
      { drafts := [], current := [line], currentTokens := childChunkTargetTokens } := by
    simp [ChildState.addSegment, h.lineTokens]
  have hcarried : trailingOverlapLines [line] childChunkOverlapTokens = [tailOf line] := by
    have hlong : childChunkOverlapTokens < Chunking.lineTokens line := by
      rw [h.lineTokens]
      decide
    rw [trailingOverlapLines, List.reverse_singleton, trailingOverlapLoop, if_pos ⟨rfl, hlong⟩]
    rfl
  have hnext := ChildState.addSegment.eq_1
    { drafts := [], current := [line], currentTokens := childChunkTargetTokens } blankLine
  have hfull : childChunkTargetTokens <
      childChunkTargetTokens + Chunking.lineTokens blankLine := by decide
  rw [if_pos ⟨List.cons_ne_nil _ _, hfull⟩] at hnext
  simp only [hcarried] at hnext
  have hany : [tailOf line, blankLine].any (fun line => !isBlank line.text) = true := by
    rw [List.any_cons, isBlank_of_no_space h.tailOf_text h.tailOf_no_space]
    rfl
  rw [Chunking.buildChildDrafts, List.flatMap_cons, List.flatMap_cons, List.flatMap_nil, hsplit,
    hblank]
  simp [hfirst, hnext, hany]

theorem FullLine.draftTexts (h : FullLine line) :
    draftTexts (Chunking.buildChildDrafts [line, blankLine]) = [line.text, (tailOf line).text] := by
  have hline : line.text ≠ "" := fun hempty => h.text (String.toList_eq_nil_iff.mpr hempty)
  have htail : (tailOf line).text ≠ "" := fun hempty =>
    h.tailOf_text (String.toList_eq_nil_iff.mpr hempty)
  rw [h.buildChildDrafts, ChunkDrafts.draftTexts, List.map_cons, List.map_singleton,
    (join_of_no_space h.text h.no_space).1,
    (join_of_no_space h.tailOf_text h.tailOf_no_space).2]
  simp [hline, htail]

theorem FullLine.second_child (h : FullLine line) {source : KnowledgeIndexTextSource}
    (hlines : lines source.text = [line.text, ""]) :
    ∃ parent ∈ (buildTextChunkHierarchy [source]).parents, ∃ first second,
      (childrenNamed (buildTextChunkHierarchy [source]) parent).map (·.text) = [first, second] ∧
        ink first = ink parent.text ∧ second.toList <:+ first.toList := by
  have hfamilies : (groupsOf 0 0 [source]).flatten =
      [familyOf source 0 0 { lines := [line, blankLine], sectionPath := [] }] := by
    rw [groupsOf, groupsOf, h.buildParentDraftsForSource hlines]
    rfl
  have htexts : (familyOf source 0 0 { lines := [line, blankLine], sectionPath := [] }).children.map
      (·.text) = [line.text, (tailOf line).text] := by
    rw [← h.draftTexts]
    exact texts_childrenOf ..
  have hparent : (familyOf source 0 0
      { lines := [line, blankLine], sectionPath := [] }).parent.text = line.text :=
    (join_of_no_space h.text h.no_space).2
  generalize familyOf source 0 0 { lines := [line, blankLine], sectionPath := [] } = family
    at hfamilies htexts hparent
  have hfamily : family ∈ (groupsOf 0 0 [source]).flatten := by
    rw [hfamilies]
    exact List.mem_singleton_self family
  rw [buildTextChunkHierarchy_eq]
  have hparents := List.mem_map_of_mem (f := fun family => family.parent) hfamily
  refine ⟨family.parent, hparents, ?_⟩
  refine ⟨line.text, (tailOf line).text, ?_, ?_, FullLine.tailOf_suffix line⟩
  · rw [texts_childrenNamed (soundGroups_groupsOf _) hfamily, htexts]
  · rw [hparent]

end BlankLine

def springChars : List Char :=
  List.replicate 240 '春'

def springLine : ChunkSourceLine where
  number := 1
  text := String.ofList springChars
  sectionPath := []

def springSource : KnowledgeIndexTextSource where
  sourceKind := "normalized_markdown"
  sourcePath := some "/knowledge/spring.md"
  providerKey := none
  text := String.ofList (springChars ++ ['\n', '\n'])

theorem mem_springChars {c : Char} (h : c ∈ springChars) : c = '春' :=
  List.eq_of_mem_replicate h

theorem estimate_replicate_spring (n : Nat) : estimate (List.replicate n '春') = n := by
  induction n with
  | zero => rfl
  | succ n ih =>
      rw [List.replicate_succ, estimate_cons_symbol (by decide) (by decide), ih, Nat.add_comm]

theorem lines_springSource : lines springSource.text = [springLine.text, ""] := by
  have hspring : ∀ c ∈ springChars, (c == '\n') = false := by
    intro c hc
    rw [mem_springChars hc]
    decide
  have hpieces : (springChars ++ ['\n', '\n']).splitOn '\n' = [springChars, [], []] := by
    have hbreaks : ['\n'].splitOn '\n' = [[], []] := by decide
    rw [List.splitOn, List.splitOnP_append_cons (p := (· == '\n')) springChars _
      (beq_self_eq_true '\n'), List.splitOnP_eq_singleton hspring]
    exact congrArg ([springChars] ++ ·) hbreaks
  have hstrip : stripSuffixChar '\r' springChars = springChars := by
    rw [stripSuffixChar, if_neg]
    simp [springChars]
  have hempty : stripSuffixChar '\r' [] = [] := by decide
  have hdropped : [springChars, [], []].dropLast.map (stripSuffixChar '\r') = [springChars, []] := by
    show [stripSuffixChar '\r' springChars, stripSuffixChar '\r' []] = [springChars, []]
    rw [hstrip, hempty]
  rw [lines, springSource, String.toList_ofList, hpieces, hdropped]
  rfl

theorem fullLine_springLine : FullLine springLine where
  number := rfl
  sectionPath := rfl
  tokens := by
    rw [estimatedTokenCount_eq, springLine, String.toList_ofList]
    exact estimate_replicate_spring 240
  heading := by
    have htrimmed : springChars.dropWhile isWhitespace = springChars := by
      rw [springChars, List.replicate_succ, List.dropWhile_cons_of_neg (by decide)]
    have hlevel : springChars.takeWhile (· = '#') = [] := by
      rw [springChars, List.replicate_succ, List.takeWhile_cons_of_neg (by decide)]
    rw [markdownHeading, springLine, String.toList_ofList, htrimmed, hlevel]
    rfl
  text := by
    rw [springLine, String.toList_ofList]
    exact List.replicate_succ_ne_nil
  no_space := by
    intro c hc
    rw [springLine, String.toList_ofList] at hc
    rw [mem_springChars hc]
    decide

theorem springSource_second_child :
    ∃ parent ∈ (buildTextChunkHierarchy [springSource]).parents, ∃ first second,
      (childrenNamed (buildTextChunkHierarchy [springSource]) parent).map (·.text) =
          [first, second] ∧
        ink first = ink parent.text ∧ second.toList <:+ first.toList :=
  fullLine_springLine.second_child lines_springSource

end HarborBeacon.ChunkCoverage
