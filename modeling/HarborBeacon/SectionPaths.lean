import HarborBeacon.ChunkHierarchy
import HarborBeacon.Outlines

/-!
The section paths of parent chunks. A parent never runs over a heading, so its path is the stack of
headings at its first line, and the stack is cut at the position that the level of a heading gives.
-/

namespace HarborBeacon.SectionPaths

open ChunkDrafts ChunkHierarchy Chunking ChunkTokens Outlines Text

section Headings

def headingsOf (texts : List String) : List (Nat × String) :=
  texts.filterMap fun text => markdownHeading (trimEnd text)

/-- The titles of the headings that enclose the line of a number, outermost first. A heading
encloses its own line. -/
def enclosingTitles (texts : List String) (number : Nat) : List String :=
  (enclosing Prod.fst (headingsOf (texts.take number))).map Prod.snd

def stackTitles (texts : List String) (number : Nat) : List String :=
  (levelStack Prod.fst (headingsOf (texts.take number))).map Prod.snd

variable {texts : List String} {text : String} {n : Nat} {heading : Nat × String}

theorem markdownHeading_spec {line : String} (h : markdownHeading line = some heading) :
    1 ≤ heading.1 ∧ ink line ≠ [] := by
  rw [markdownHeading] at h
  dsimp only at h
  split at h
  · rename_i hlevel
    split at h
    · exact nomatch h
    · rw [← Option.some.inj h]
      refine ⟨hlevel.1, fun hnone => ?_⟩
      have hspaces : ∀ c ∈ line.toList, isWhitespace c = true :=
        isBlank_iff.mp (ink_eq_nil_iff.mp hnone)
      rw [List.dropWhile_eq_nil_iff.mpr hspaces] at hlevel
      exact absurd hlevel.1 (by decide)
  · exact nomatch h

theorem one_le_of_mem_headingsOf (h : heading ∈ headingsOf texts) :
    1 ≤ heading.1 := by
  obtain ⟨text, -, htext⟩ := List.mem_filterMap.mp h
  exact (markdownHeading_spec htext).1

theorem headingsOf_take_succ (hline : texts[n]? = some text) :
    headingsOf (texts.take (n + 1)) =
      headingsOf (texts.take n) ++ (markdownHeading (trimEnd text)).toList := by
  have hone : headingsOf [text] = (markdownHeading (trimEnd text)).toList := by
    cases hheading : markdownHeading (trimEnd text) with
    | none => exact List.filterMap_cons_none hheading
    | some heading => exact List.filterMap_cons_some hheading
  rw [List.take_add_one, hline, Option.toList_some, ← hone, headingsOf, List.filterMap_append]
  rfl

theorem stackTitles_succ_of_none (hline : texts[n]? = some text)
    (hheading : markdownHeading (trimEnd text) = none) :
    stackTitles texts (n + 1) = stackTitles texts n := by
  rw [stackTitles, headingsOf_take_succ hline, hheading, Option.toList_none, List.append_nil]
  rfl

theorem stackTitles_succ_of_some (hline : texts[n]? = some text) {level : Nat} {title : String}
    (hheading : markdownHeading (trimEnd text) = some (level, title)) :
    stackTitles texts (n + 1) = (stackTitles texts n).take (level - 1) ++ [title] := by
  rw [stackTitles, headingsOf_take_succ hline, hheading, Option.toList_some, levelStack_concat,
    List.map_append, List.map_take]
  rfl

theorem exists_line_of_headingsOf {before after : List (Nat × String)}
    (h : headingsOf texts = before ++ heading :: after) :
    ∃ n text, texts[n]? = some text ∧ markdownHeading (trimEnd text) = some heading ∧
      headingsOf (texts.take (n + 1)) = before ++ [heading] := by
  obtain ⟨earlier, later, htexts, hbefore, hafter⟩ := List.filterMap_eq_append_iff.mp h
  obtain ⟨plain, text, rest, hlater, hplain, htext, -⟩ := List.filterMap_eq_cons_iff.mp hafter
  have hsplit : texts = (earlier ++ plain) ++ text :: rest := by
    rw [htexts, hlater, List.append_assoc]
  have hline : texts[(earlier ++ plain).length]? = some text := by
    rw [hsplit, List.getElem?_append_right (Nat.le_refl _), Nat.sub_self]
    rfl
  have hearlier : headingsOf (texts.take (earlier ++ plain).length) = before := by
    rw [hsplit, List.take_left, headingsOf, List.filterMap_append, hbefore,
      List.filterMap_eq_nil_iff.mpr hplain, List.append_nil]
  refine ⟨(earlier ++ plain).length, text, hline, htext, ?_⟩
  rw [headingsOf_take_succ hline, htext, hearlier, Option.toList_some]

end Headings

section Drafts

def pushed (segment : ChunkSourceLine) (state : ParentState) : ParentState :=
  { state with
    currentLines := state.currentLines ++ [segment]
    currentTokens := state.currentTokens + lineTokens segment }

def flushOpen (state : ParentState) : ParentState :=
  if state.currentLines.isEmpty then state else state.flush

def sourceLineOf (text : String) (n : Nat) (headingStack : List String) : ChunkSourceLine where
  number := n + 1
  text := trimEnd text
  sectionPath := headingStack

variable {state : ParentState} {text : String} {n : Nat} {currentLines : List ChunkSourceLine}

theorem addSegment_cases (state : ParentState) (segment : ChunkSourceLine) :
    state.addSegment segment = pushed segment state ∨
      state.addSegment segment = pushed segment state.flush := by
  rw [ParentState.addSegment]
  split
  · exact Or.inr rfl
  · exact Or.inl rfl

theorem addLine_of_none (hheading : markdownHeading (trimEnd text) = none) :
    state.addLine (text, n) =
      (splitSourceLine (sourceLineOf text n state.headingStack) parentChunkMaxTokens).foldl
        ParentState.addSegment state := by
  rw [ParentState.addLine]
  simp only [hheading, Option.isSome_none, Bool.false_and, Bool.false_eq_true, if_false]
  rfl

theorem addLine_of_some {level : Nat} {title : String}
    (hheading : markdownHeading (trimEnd text) = some (level, title)) :
    state.addLine (text, n) =
      let headingStack := state.headingStack.take (level - 1) ++ [title]
      (splitSourceLine (sourceLineOf text n headingStack) parentChunkMaxTokens).foldl
        ParentState.addSegment { flushOpen state with headingStack := headingStack } := by
  rw [ParentState.addLine, flushOpen]
  simp only [hheading, Option.isSome_some, Bool.true_and]
  cases hempty : state.currentLines.isEmpty <;> rfl

theorem currentLines_flushOpen (state : ParentState) : (flushOpen state).currentLines = [] := by
  rw [flushOpen]
  split
  · rename_i hempty
    exact List.isEmpty_iff.mp hempty
  · rfl

theorem pushParentDraft_of_blank (drafts : List ParentChunkDraft)
    (hnone : linesInk currentLines = []) :
    pushParentDraft drafts currentLines = drafts := by
  rw [pushParentDraft, if_pos (linesInk_eq_nil_iff.mp hnone)]

theorem pushParentDraft_of_path {path : List String} (drafts : List ParentChunkDraft)
    (htext : linesInk currentLines ≠ []) (hpath : ∀ line ∈ currentLines, line.sectionPath = path) :
    pushParentDraft drafts currentLines = drafts ++ [⟨currentLines, path⟩] := by
  have hfirst : ((currentLines.find? fun line => !line.sectionPath.isEmpty).map
      (·.sectionPath)).getD [] = path := by
    cases hfind : currentLines.find? fun line => !line.sectionPath.isEmpty with
    | none =>
        cases hlines : currentLines with
        | nil => exact absurd (hlines ▸ rfl) htext
        | cons line rest =>
            have hmem : line ∈ currentLines := hlines ▸ List.mem_cons_self
            have hnot := List.find?_eq_none.mp hfind line hmem
            rw [hpath line hmem] at hnot
            exact (List.isEmpty_iff.mp (by simpa using hnot)).symm
    | some line => exact hpath line (List.mem_of_find?_eq_some hfind)
  rw [pushParentDraft, if_neg fun hblank => htext (linesInk_eq_nil_iff.mpr hblank)]
  dsimp only
  rw [hfirst]

structure PathLoop (texts : List String) (state : ParentState) (lineCount : Nat) : Prop where
  stack : state.headingStack = stackTitles texts lineCount
  current : ∀ line ∈ state.currentLines, line.sectionPath = state.headingStack ∧
    stackTitles texts line.number = state.headingStack
  drafts : ∀ draft ∈ state.drafts,
    draft.sectionPath = stackTitles texts (firstNumber draft.lines)

variable {texts : List String} {lineCount : Nat}

theorem PathLoop.flush (h : PathLoop texts state lineCount) :
    PathLoop texts state.flush lineCount := by
  refine ⟨h.stack, fun line hline => absurd hline List.not_mem_nil, ?_⟩
  by_cases htext : linesInk state.currentLines = []
  · rw [ParentState.flush, pushParentDraft_of_blank _ htext]
    exact h.drafts
  · rw [ParentState.flush,
      pushParentDraft_of_path _ htext fun line hline => (h.current line hline).1]
    intro draft hdraft
    rcases List.mem_append.mp hdraft with hold | hnew
    · exact h.drafts draft hold
    · rw [List.mem_singleton.mp hnew]
      cases hlines : state.currentLines with
      | nil => exact absurd (hlines ▸ rfl) htext
      | cons line rest => exact (h.current line (hlines ▸ List.mem_cons_self)).2.symm

theorem PathLoop.flushOpen (h : PathLoop texts state lineCount) :
    PathLoop texts (flushOpen state) lineCount := by
  rw [SectionPaths.flushOpen]
  split
  · exact h
  · exact h.flush

theorem PathLoop.pushed (h : PathLoop texts state lineCount) {segment : ChunkSourceLine}
    (hsegment : segment.number = lineCount ∧ segment.sectionPath = state.headingStack) :
    PathLoop texts (pushed segment state) lineCount := by
  refine ⟨h.stack, ?_, h.drafts⟩
  intro line hline
  rcases List.mem_append.mp hline with hold | hnew
  · exact h.current line hold
  · rw [List.mem_singleton.mp hnew, hsegment.1]
    exact ⟨hsegment.2, h.stack.symm⟩

theorem PathLoop.foldl_addSegment (h : PathLoop texts state lineCount)
    {segments : List ChunkSourceLine}
    (hsegments : ∀ segment ∈ segments,
      segment.number = lineCount ∧ segment.sectionPath = state.headingStack) :
    PathLoop texts (segments.foldl ParentState.addSegment state) lineCount := by
  induction segments generalizing state with
  | nil => exact h
  | cons segment rest ih =>
      have hfirst := hsegments segment List.mem_cons_self
      have hrest : ∀ other ∈ rest,
          other.number = lineCount ∧ other.sectionPath = state.headingStack :=
        fun other hother => hsegments other (List.mem_cons_of_mem _ hother)
      rw [List.foldl_cons]
      rcases addSegment_cases state segment with hsame | hflushed
      · rw [hsame]
        exact ih (h.pushed hfirst) hrest
      · rw [hflushed]
        exact ih (h.flush.pushed hfirst) hrest

theorem PathLoop.withHeading (h : PathLoop texts state lineCount) {headingStack : List String}
    {next : Nat} (hstack : stackTitles texts next = headingStack)
    (hclosed : state.currentLines = []) :
    PathLoop texts { state with headingStack := headingStack } next := by
  refine ⟨hstack.symm, ?_, h.drafts⟩
  intro line hline
  exact absurd (hclosed ▸ hline) List.not_mem_nil

theorem segments_sourceLineOf (text : String) (n : Nat) (headingStack : List String) :
    ∀ segment ∈ splitSourceLine (sourceLineOf text n headingStack) parentChunkMaxTokens,
      segment.number = n + 1 ∧ segment.sectionPath = headingStack :=
  fun segment hsegment =>
    ((splitSourceLine_spec (sourceLineOf text n headingStack)
      (by decide : 1 ≤ parentChunkMaxTokens)).2.2 segment hsegment).2

theorem PathLoop.addLine (h : PathLoop texts state n) (hline : texts[n]? = some text) :
    PathLoop texts (state.addLine (text, n)) (n + 1) := by
  cases hheading : markdownHeading (trimEnd text) with
  | none =>
      have hnext : PathLoop texts state (n + 1) :=
        ⟨h.stack.trans (stackTitles_succ_of_none hline hheading).symm, h.current, h.drafts⟩
      rw [addLine_of_none hheading]
      exact hnext.foldl_addSegment (segments_sourceLineOf text n _)
  | some heading =>
      obtain ⟨level, title⟩ := heading
      have hstack := stackTitles_succ_of_some hline hheading
      rw [← h.stack] at hstack
      have hopened := h.flushOpen.withHeading hstack (currentLines_flushOpen state)
      rw [addLine_of_some hheading]
      exact hopened.foldl_addSegment (segments_sourceLineOf text n _)

end Drafts

section Starts

def Starts (number : Nat) (state : ParentState) : Prop :=
  (∃ draft ∈ state.drafts, firstNumber draft.lines = number) ∨
    (linesInk state.currentLines ≠ [] ∧ firstNumber state.currentLines = number)

variable {state : ParentState} {number : Nat}

theorem mem_drafts_flush {draft : ParentChunkDraft} (h : draft ∈ state.drafts) :
    draft ∈ state.flush.drafts := by
  change draft ∈ pushParentDraft state.drafts state.currentLines
  rcases pushParentDraft_cases state.drafts state.currentLines with
    ⟨-, hsame⟩ | ⟨-, sectionPath, hpushed⟩
  · rw [hsame]
    exact h
  · rw [hpushed]
    exact List.mem_append_left _ h

theorem Starts.exists_draft (h : Starts number state) :
    ∃ draft ∈ state.flush.drafts, firstNumber draft.lines = number := by
  rcases h with ⟨draft, hdraft, hnumber⟩ | ⟨htext, hnumber⟩
  · exact ⟨draft, mem_drafts_flush hdraft, hnumber⟩
  · change ∃ draft ∈ pushParentDraft state.drafts state.currentLines, _
    rcases pushParentDraft_cases state.drafts state.currentLines with
      ⟨hnone, -⟩ | ⟨-, sectionPath, hpushed⟩
    · exact absurd hnone htext
    · rw [hpushed]
      exact ⟨_, List.mem_append_right _ List.mem_cons_self, hnumber⟩

theorem Starts.flushOpen (h : Starts number state) : Starts number (flushOpen state) := by
  rw [SectionPaths.flushOpen]
  split
  · exact h
  · exact Or.inl h.exists_draft

theorem Starts.pushed (h : Starts number state) (segment : ChunkSourceLine) :
    Starts number (pushed segment state) := by
  rcases h with hdraft | ⟨htext, hnumber⟩
  · exact Or.inl hdraft
  · right
    change linesInk (state.currentLines ++ [segment]) ≠ [] ∧
      firstNumber (state.currentLines ++ [segment]) = number
    cases hlines : state.currentLines with
    | nil => exact absurd (hlines ▸ rfl) htext
    | cons line rest =>
        rw [hlines] at htext hnumber
        refine ⟨?_, hnumber⟩
        rw [linesInk_append]
        exact fun hnone => htext (List.append_eq_nil_iff.mp hnone).1

theorem Starts.foldl_addSegment (h : Starts number state) (segments : List ChunkSourceLine) :
    Starts number (segments.foldl ParentState.addSegment state) := by
  induction segments generalizing state with
  | nil => exact h
  | cons segment rest ih =>
      rw [List.foldl_cons]
      rcases addSegment_cases state segment with hsame | hflushed
      · rw [hsame]
        exact ih (h.pushed segment)
      · rw [hflushed]
        have hkept : Starts number state.flush := Or.inl h.exists_draft
        exact ih (hkept.pushed segment)

theorem Starts.withHeading (h : Starts number state) (headingStack : List String) :
    Starts number { state with headingStack := headingStack } := h

theorem Starts.addLine (h : Starts number state) (text : String) (n : Nat) :
    Starts number (state.addLine (text, n)) := by
  cases hheading : markdownHeading (trimEnd text) with
  | none =>
      rw [addLine_of_none hheading]
      exact h.foldl_addSegment _
  | some heading =>
      obtain ⟨level, title⟩ := heading
      rw [addLine_of_some hheading]
      exact (h.flushOpen.withHeading _).foldl_addSegment _

def BlankAt (number : Nat) (state : ParentState) : Prop :=
  linesInk state.currentLines = [] ∧ ∀ line ∈ state.currentLines, line.number = number

theorem BlankAt.pushed (h : BlankAt number state) {segment : ChunkSourceLine}
    (hnumber : segment.number = number) :
    (ink segment.text = [] ∧ BlankAt number (pushed segment state)) ∨
      Starts number (pushed segment state) := by
  have hink : linesInk (state.currentLines ++ [segment]) = ink segment.text := by
    rw [linesInk_append, h.1, List.nil_append]
    exact List.flatMap_singleton ..
  have hlines : ∀ line ∈ state.currentLines ++ [segment], line.number = number := by
    intro line hline
    rcases List.mem_append.mp hline with hold | hnew
    · exact h.2 line hold
    · rw [List.mem_singleton.mp hnew, hnumber]
  by_cases htext : ink segment.text = []
  · exact Or.inl ⟨htext, hink.trans htext, hlines⟩
  · refine Or.inr (Or.inr ⟨fun hnone => htext (hink.symm.trans hnone), ?_⟩)
    change firstNumber (state.currentLines ++ [segment]) = number
    cases hcurrent : state.currentLines with
    | nil => exact hnumber
    | cons line rest => exact h.2 line (hcurrent ▸ List.mem_cons_self)

theorem BlankAt.flush (number : Nat) (state : ParentState) : BlankAt number state.flush :=
  ⟨rfl, fun _ hline => absurd hline List.not_mem_nil⟩

theorem BlankAt.foldl_addSegment (h : BlankAt number state) {segments : List ChunkSourceLine}
    (hsegments : ∀ segment ∈ segments, segment.number = number) (htext : linesInk segments ≠ []) :
    Starts number (segments.foldl ParentState.addSegment state) := by
  induction segments generalizing state with
  | nil => exact absurd rfl htext
  | cons segment rest ih =>
      have hnumber := hsegments segment List.mem_cons_self
      have hadded : ∃ before, BlankAt number before ∧
          state.addSegment segment = SectionPaths.pushed segment before := by
        rcases addSegment_cases state segment with hsame | hflushed
        · exact ⟨state, h, hsame⟩
        · exact ⟨state.flush, BlankAt.flush number state, hflushed⟩
      obtain ⟨before, hbefore, hadd⟩ := hadded
      rw [List.foldl_cons, hadd]
      rcases hbefore.pushed hnumber with ⟨hnone, hblank⟩ | hstarts
      · refine ih hblank (fun other hother => hsegments other (List.mem_cons_of_mem _ hother)) ?_
        intro hrest
        refine htext ?_
        rw [linesInk, List.flatMap_cons, hnone]
        exact hrest
      · exact hstarts.foldl_addSegment rest

theorem starts_addLine {text : String} {n : Nat} {heading : Nat × String}
    (hheading : markdownHeading (trimEnd text) = some heading) :
    Starts (n + 1) (state.addLine (text, n)) := by
  rw [addLine_of_some hheading]
  refine BlankAt.foldl_addSegment ?_
    (fun segment hsegment => (segments_sourceLineOf text n _ segment hsegment).1) ?_
  · have hclosed := currentLines_flushOpen state
    refine ⟨?_, ?_⟩
    · exact congrArg linesInk hclosed
    · intro line hline
      exact absurd (hclosed ▸ hline) List.not_mem_nil
  · rw [linesInk_splitSourceLine _ (by decide)]
    exact (markdownHeading_spec hheading).2

end Starts

section Parents

variable {state : ParentState} {texts : List String} {n : Nat}

structure HeadingLoop (texts : List String) (state : ParentState) (n : Nat) : Prop where
  paths : PathLoop texts state n
  starts : ∀ m text heading, m < n → texts[m]? = some text →
    markdownHeading (trimEnd text) = some heading → Starts (m + 1) state

theorem HeadingLoop.addLine (h : HeadingLoop texts state n) {text : String}
    (hline : texts[n]? = some text) : HeadingLoop texts (state.addLine (text, n)) (n + 1) := by
  refine ⟨h.paths.addLine hline, ?_⟩
  intro m other heading hm hother hheading
  rcases Nat.lt_succ_iff_lt_or_eq.mp hm with hlt | rfl
  · exact (h.starts m other heading hlt hother hheading).addLine text n
  · obtain rfl : text = other := Option.some.inj (hline.symm.trans hother)
    exact starts_addLine hheading

theorem HeadingLoop.foldl_addLine (h : HeadingLoop texts state n) {rest : List String}
    (hrest : texts.drop n = rest) :
    HeadingLoop texts ((rest.zipIdx n).foldl ParentState.addLine state) (n + rest.length) := by
  induction rest generalizing state n with
  | nil => exact h
  | cons text rest ih =>
      have hline : texts[n]? = some text := by
        rw [← List.head?_drop, hrest]
        rfl
      have htail : texts.drop (n + 1) = rest := by
        rw [← List.drop_drop, hrest]
        rfl
      rw [List.zipIdx_cons, List.foldl_cons, List.length_cons, ← Nat.add_assoc, Nat.add_right_comm]
      exact ih (h.addLine hline) htail

theorem headingLoop_nil (texts : List String) : HeadingLoop texts {} 0 :=
  ⟨⟨rfl, fun _ hline => absurd hline List.not_mem_nil,
      fun _ hdraft => absurd hdraft List.not_mem_nil⟩,
    fun m _ _ hm _ _ => absurd hm (Nat.not_lt_zero m)⟩

theorem buildParentDraftsForSource_paths (source : KnowledgeIndexTextSource) :
    (∀ draft ∈ buildParentDraftsForSource source,
        draft.sectionPath = stackTitles (lines source.text) (firstNumber draft.lines)) ∧
      ∀ n text heading, (lines source.text)[n]? = some text →
        markdownHeading (trimEnd text) = some heading →
          ∃ draft ∈ buildParentDraftsForSource source, firstNumber draft.lines = n + 1 := by
  have h := (headingLoop_nil (lines source.text)).foldl_addLine rfl
  refine ⟨h.paths.flush.drafts, ?_⟩
  intro n text heading hline hheading
  have hlt : n < 0 + (lines source.text).length := by
    rw [Nat.zero_add]
    exact (List.getElem?_eq_some_iff.mp hline).1
  exact (h.starts n text heading hlt hline hheading).exists_draft

theorem parents_familiesOf (source : KnowledgeIndexTextSource) (parentCount childCount : Nat)
    (drafts : List ParentChunkDraft) :
    (familiesOf source parentCount childCount drafts).map
        (fun family => (family.parent.sectionPath, family.parent.lineStart)) =
      drafts.map fun draft => (draft.sectionPath, firstNumber draft.lines) := by
  induction drafts generalizing parentCount childCount with
  | nil => rfl
  | cons draft rest ih =>
      rw [familiesOf, List.map_cons, List.map_cons, ih]
      rfl

theorem forall_parents_addSource (source : KnowledgeIndexTextSource)
    (hierarchy : KnowledgeChunkHierarchy) {P : List String → Nat → Prop} :
    (∀ parent ∈ (addSource source hierarchy).parents.drop hierarchy.parents.length,
        P parent.sectionPath parent.lineStart) ↔
      ∀ draft ∈ buildParentDraftsForSource source,
        P draft.sectionPath (firstNumber draft.lines) := by
  rw [addSource_eq]
  dsimp only
  have hpairs := parents_familiesOf source hierarchy.parents.length hierarchy.children.length
    (buildParentDraftsForSource source)
  rw [List.drop_left, List.forall_mem_map]
  calc _ ↔ ∀ pair ∈ (familiesOf source hierarchy.parents.length hierarchy.children.length
        (buildParentDraftsForSource source)).map
          (fun family => (family.parent.sectionPath, family.parent.lineStart)),
        P pair.1 pair.2 := List.forall_mem_map.symm
    _ ↔ _ := by rw [hpairs, List.forall_mem_map]

/-- The parents of a text have the enclosing headings as their paths if and only if no heading
closes another one above a level that is missing. -/
theorem sectionPath_eq_enclosingTitles_iff (source : KnowledgeIndexTextSource)
    (hierarchy : KnowledgeChunkHierarchy) :
    (∀ parent ∈ (addSource source hierarchy).parents.drop hierarchy.parents.length,
        parent.sectionPath = enclosingTitles (lines source.text) parent.lineStart) ↔
      NoSkips Prod.fst (headingsOf (lines source.text)) := by
  obtain ⟨hpaths, hstarts⟩ := buildParentDraftsForSource_paths source
  have hpos : ∀ heading ∈ headingsOf (lines source.text), 1 ≤ heading.1 :=
    fun heading hmem => one_le_of_mem_headingsOf hmem
  rw [forall_parents_addSource source hierarchy
    (P := fun path number => path = enclosingTitles (lines source.text) number)]
  constructor
  · intro h
    refine noSkips_of_length hpos fun before after hsplit => ?_
    -- the last heading before the place starts a draft, whose path is the stack there
    cases before using List.reverseRecOn with
    | nil => rfl
    | append_singleton before heading =>
        rw [List.append_assoc, List.singleton_append] at hsplit
        obtain ⟨n, text, hline, hheading, hbefore⟩ := exists_line_of_headingsOf hsplit
        obtain ⟨draft, hdraft, hnumber⟩ := hstarts n text heading hline hheading
        have hsame := (hpaths draft hdraft).symm.trans (h draft hdraft)
        rw [hnumber, stackTitles, enclosingTitles, hbefore] at hsame
        simpa using congrArg List.length hsame
  · intro hskips draft hdraft
    have hsplit : headingsOf (lines source.text) =
        headingsOf ((lines source.text).take (firstNumber draft.lines)) ++
          headingsOf ((lines source.text).drop (firstNumber draft.lines)) := by
      rw [headingsOf, headingsOf, headingsOf, ← List.filterMap_append, List.take_append_drop]
    rw [hpaths draft hdraft, stackTitles, enclosingTitles, levelStack_eq hpos hskips hsplit]

def skippedLevel : KnowledgeIndexTextSource where
  sourceKind := "document"
  sourcePath := none
  providerKey := none
  text := "## A\n## B"

theorem sectionPath_skippedLevel :
    ¬ ∀ parent ∈ (addSource skippedLevel {}).parents.drop
        ({} : KnowledgeChunkHierarchy).parents.length,
      parent.sectionPath = enclosingTitles (lines skippedLevel.text) parent.lineStart := by
  decide

end Parents

end HarborBeacon.SectionPaths
