import HarborBeacon.ChunkTokens

/-!
The drafts of chunks. The parents of a source hold its lines in order and stay within their budget,
and the children of a parent are the parts of its segments, each with the end of the draft before
it.
-/

namespace HarborBeacon.ChunkDrafts

open Chunking ChunkTokens OverlapPacking Text

section Overlap

variable {tokenBudget : Nat}

theorem sourceLineTail_spec (line : ChunkSourceLine) (hbudget : 1 ≤ tokenBudget) :
    lineTokens (sourceLineTail line tokenBudget) ≤ tokenBudget ∧
      (sourceLineTail line tokenBudget).number = line.number ∧
      (sourceLineTail line tokenBudget).text.toList <:+ line.text.toList := by
  obtain ⟨htext, hne, hsegments⟩ := splitSourceLine_spec line hbudget
  have hlast := List.getLast?_eq_some_getLast hne
  obtain ⟨hfits, hnumber, -⟩ := hsegments _ (List.getLast_mem hne)
  rw [sourceLineTail, hlast, Option.getD_some]
  refine ⟨max_le hfits hbudget, hnumber, ?_⟩
  rw [← htext]
  conv_rhs => rw [← List.dropLast_append_getLast hne]
  rw [List.flatMap_append, List.flatMap_singleton]
  exact List.suffix_append _ _

theorem sourceLineTail_ne (line : ChunkSourceLine) (hbudget : 1 ≤ tokenBudget)
    (htext : line.text ≠ "") : (sourceLineTail line tokenBudget).text ≠ "" := by
  have hchars : line.text.toList ≠ [] := fun h => htext (String.toList_eq_nil_iff.mp h)
  have h := (segmented_nil tokenBudget).foldl hbudget line.text.toList
  have hcurrent := h.started hchars
  rw [sourceLineTail, splitSourceLine]
  split
  · exact htext
  · simp only [if_neg hcurrent, List.map_append, List.map_singleton, List.getLast?_concat,
      Option.getD_some]
    exact fun hempty => hcurrent (String.ofList_eq_empty_iff.mp hempty)

theorem trailingOverlapLoop_cases (reversed overlap : List ChunkSourceLine) (tokens : Nat) :
    trailingOverlapLoop tokenBudget reversed overlap tokens <:+ reversed.reverse ++ overlap ∨
      ∃ line rest, reversed = line :: rest ∧ overlap = [] ∧
        trailingOverlapLoop tokenBudget reversed overlap tokens = [sourceLineTail line tokenBudget] := by
  induction reversed generalizing overlap tokens with
  | nil => exact Or.inl (List.suffix_refl _)
  | cons line rest ih =>
      rw [trailingOverlapLoop]
      split_ifs with htail hfull hlast
      · exact Or.inr ⟨line, rest, rfl, htail.1, rfl⟩
      · exact Or.inl (List.suffix_append _ _)
      · left
        rw [List.reverse_cons, List.append_assoc]
        exact List.suffix_append _ _
      · left
        rcases ih (line :: overlap) (tokens + lineTokens line) with h | ⟨-, -, -, hnil, -⟩
        · rw [List.reverse_cons, List.append_assoc]
          exact h
        · exact absurd hnil (by simp)

theorem total_trailingOverlapLoop (hbudget : 1 ≤ tokenBudget)
    {reversed overlap : List ChunkSourceLine} {tokens : Nat}
    (htokens : tokens = total lineTokens overlap) (hfits : tokens ≤ tokenBudget) :
    total lineTokens (trailingOverlapLoop tokenBudget reversed overlap tokens) ≤ tokenBudget := by
  induction reversed generalizing overlap tokens with
  | nil => exact htokens ▸ hfits
  | cons line rest ih =>
      have hcons : total lineTokens (line :: overlap) = tokens + lineTokens line := by
        rw [htokens, total, List.map_cons, List.sum_cons, total, Nat.add_comm]
      have hline : overlap = [] → tokens = 0 := by
        rintro rfl
        exact htokens
      rw [trailingOverlapLoop]
      split_ifs with htail hfull hlast
      · have hspec := (sourceLineTail_spec line hbudget).1
        simpa [total] using hspec
      · exact htokens ▸ hfits
      · rw [hcons]
        by_cases hempty : overlap = []
        · have hnot : ¬ tokenBudget < lineTokens line := fun h => htail ⟨hempty, h⟩
          have hzero := hline hempty
          omega
        · exact Nat.not_lt.mp fun h => hfull ⟨hempty, h⟩
      · exact ih hcons.symm (by omega)

def carriedOver (lines : List ChunkSourceLine) : List ChunkSourceLine :=
  trailingOverlapLines lines childChunkOverlapTokens

theorem total_carriedOver (lines : List ChunkSourceLine) :
    total lineTokens (carriedOver lines) ≤ childChunkOverlapTokens :=
  total_trailingOverlapLoop (by decide) rfl (Nat.zero_le _)

theorem carriedOver_cases (lines : List ChunkSourceLine) :
    carriedOver lines <:+ lines ∨
      ∃ before line, lines = before ++ [line] ∧
        carriedOver lines = [sourceLineTail line childChunkOverlapTokens] := by
  rcases trailingOverlapLoop_cases lines.reverse [] 0 with h | ⟨line, rest, hlines, -, h⟩
  · left
    rw [List.reverse_reverse, List.append_nil] at h
    exact h
  · refine Or.inr ⟨rest.reverse, line, ?_, h⟩
    rw [← List.reverse_reverse lines, hlines, List.reverse_cons]

theorem numbers_carriedOver (lines : List ChunkSourceLine) :
    (carriedOver lines).map (·.number) <:+ lines.map (·.number) := by
  rcases carriedOver_cases lines with h | ⟨before, line, rfl, h⟩
  · exact h.map _
  · rw [h, List.map_append, List.map_singleton, List.map_singleton,
      (sourceLineTail_spec line (by decide)).2.1]
    exact List.suffix_append _ _

end Overlap

def childSegments (lines : List ChunkSourceLine) : List ChunkSourceLine :=
  lines.flatMap fun line => splitSourceLine line childChunkTargetTokens

def ChildState.toBins (state : ChildState) : Bins ChunkSourceLine where
  closed := state.drafts
  current := state.current
  load := state.currentTokens

theorem ChildState.toBins_addSegment (state : ChildState) (segment : ChunkSourceLine) :
    ChildState.toBins (state.addSegment segment) =
      (ChildState.toBins state).add lineTokens childChunkTargetTokens carriedOver segment := by
  rw [ChildState.addSegment, Bins.add]
  by_cases hfull : state.current ≠ [] ∧
      childChunkTargetTokens < state.currentTokens + lineTokens segment
  · have hbins : (ChildState.toBins state).current.isEmpty = false ∧
        childChunkTargetTokens < (ChildState.toBins state).load + lineTokens segment :=
      ⟨List.isEmpty_eq_false_iff.mpr hfull.1, hfull.2⟩
    rw [if_pos hbins]
    simp only [if_pos hfull]
    rfl
  · have hbins : ¬ ((ChildState.toBins state).current.isEmpty = false ∧
        childChunkTargetTokens < (ChildState.toBins state).load + lineTokens segment) :=
      fun h => hfull ⟨List.isEmpty_eq_false_iff.mp h.1, h.2⟩
    rw [if_neg hbins]
    simp only [if_neg hfull]
    rfl

def childBins (lines : List ChunkSourceLine) : Bins ChunkSourceLine :=
  (childSegments lines).foldl (Bins.add lineTokens childChunkTargetTokens carriedOver) {}

theorem toBins_foldl (segments : List ChunkSourceLine) (state : ChildState) :
    ChildState.toBins (segments.foldl ChildState.addSegment state) =
      segments.foldl (Bins.add lineTokens childChunkTargetTokens carriedOver)
        (ChildState.toBins state) := by
  induction segments generalizing state with
  | nil => rfl
  | cons segment rest ih =>
      rw [List.foldl_cons, List.foldl_cons, ih, ChildState.toBins_addSegment]

theorem buildChildDrafts_eq (lines : List ChunkSourceLine) :
    buildChildDrafts lines = (childBins lines).all ∨
      ∃ blank, (∀ line ∈ blank, isBlank line.text = true) ∧
        (childBins lines).all = buildChildDrafts lines ++ [blank] := by
  have hstate : ChildState.toBins ((childSegments lines).foldl ChildState.addSegment {}) =
      childBins lines := toBins_foldl _ _
  rw [← hstate]
  have hdrafts : buildChildDrafts lines =
      let state := (childSegments lines).foldl ChildState.addSegment {}
      if state.current ≠ [] ∧ (state.current.any fun line => !isBlank line.text) then
        state.drafts ++ [state.current]
      else state.drafts := rfl
  rw [hdrafts]
  generalize (childSegments lines).foldl ChildState.addSegment {} = state
  by_cases hempty : state.current = []
  · have hall : (ChildState.toBins state).all = state.drafts := Bins.all_of_nil hempty
    exact Or.inl ((if_neg fun h => h.1 hempty).trans hall.symm)
  · have hall : (ChildState.toBins state).all = state.drafts ++ [state.current] :=
      Bins.all_of_ne_nil hempty
    rw [hall]
    by_cases htext : (state.current.any fun line => !isBlank line.text) = true
    · exact Or.inl (if_pos ⟨hempty, htext⟩)
    · right
      refine ⟨state.current, ?_, congrArg (· ++ [state.current]) (if_neg fun h => htext h.2).symm⟩
      intro line hline
      by_contra hblank
      exact htext (List.any_eq_true.mpr ⟨line, hline, by simpa using hblank⟩)

def draftTexts (drafts : List (List ChunkSourceLine)) : List String :=
  (drafts.map joinChunkSourceLines).filter fun text => text ≠ ""

theorem exists_child_parts (lines : List ChunkSourceLine) :
    ∃ parts, (∀ part ∈ parts, part ≠ []) ∧ parts.flatten = childSegments lines ∧
      draftTexts (buildChildDrafts lines) = draftTexts (overlay carriedOver [] parts) := by
  obtain ⟨parts, hparts, hflatten, hall⟩ :
      ∃ parts, (∀ part ∈ parts, part ≠ []) ∧ parts.flatten = childSegments lines ∧
        (childBins lines).all = overlay carriedOver [] parts := exists_parts (childSegments lines)
  refine ⟨parts, hparts, hflatten, ?_⟩
  rw [← hall]
  rcases buildChildDrafts_eq lines with h | ⟨blank, hblank, h⟩
  · rw [h]
  · have hnone : joinChunkSourceLines blank = "" := by
      rw [join_eq_empty_iff]
      exact fun line hline => ink_eq_nil_iff.mpr (hblank line hline)
    rw [h, draftTexts, draftTexts, List.map_append, List.filter_append]
    simp [hnone]

theorem isPrefix_buildChildDrafts (lines : List ChunkSourceLine) :
    buildChildDrafts lines <+: (childBins lines).all := by
  rcases buildChildDrafts_eq lines with h | ⟨blank, -, h⟩
  · rw [h]
  · rw [h]
    exact List.prefix_append _ _

theorem lineTokens_le_of_mem_childSegments {lines : List ChunkSourceLine}
    {segment : ChunkSourceLine} (h : segment ∈ childSegments lines) :
    lineTokens segment ≤ childChunkTargetTokens := by
  obtain ⟨line, -, hsegment⟩ := List.mem_flatMap.mp h
  have hspec := (splitSourceLine_spec line (by decide)).2.2 segment hsegment
  exact max_le hspec.1 (by decide)

theorem tokens_of_mem_buildChildDrafts {parent draft : List ChunkSourceLine}
    (h : draft ∈ buildChildDrafts parent) :
    estimatedLinesTokenCount draft ≤ childChunkTargetTokens + childChunkOverlapTokens :=
  total_le_of_mem_all total_carriedOver
    (fun _ hsegment => lineTokens_le_of_mem_childSegments hsegment)
    ((isPrefix_buildChildDrafts parent).subset h)

theorem numbers_of_mem_buildChildDrafts {parent draft : List ChunkSourceLine}
    (h : draft ∈ buildChildDrafts parent) :
    draft.map (·.number) <:+: (childSegments parent).map (·.number) := by
  obtain ⟨parts, -, hflatten, hall⟩ :
      ∃ parts, (∀ part ∈ parts, part ≠ []) ∧ parts.flatten = childSegments parent ∧
        (childBins parent).all = overlay carriedOver [] parts := exists_parts (childSegments parent)
  have hmem := (isPrefix_buildChildDrafts parent).subset h
  rw [hall] at hmem
  have hinside := infix_of_mem_overlay numbers_carriedOver (List.suffix_refl _) hmem
  rw [List.nil_append, hflatten] at hinside
  exact hinside

variable {parent : List ChunkSourceLine}

theorem number_of_mem_childSegments {n : Nat} (h : n ∈ (childSegments parent).map (·.number)) :
    n ∈ parent.map (·.number) := by
  obtain ⟨segment, hsegment, rfl⟩ := List.mem_map.mp h
  obtain ⟨line, hline, hsplit⟩ := List.mem_flatMap.mp hsegment
  rw [((splitSourceLine_spec line (by decide)).2.2 segment hsplit).2.1]
  exact List.mem_map_of_mem hline

theorem sorted_childSegments (h : (parent.map (·.number)).Pairwise (· ≤ ·)) :
    ((childSegments parent).map (·.number)).Pairwise (· ≤ ·) := by
  rw [List.pairwise_map] at h ⊢
  have hnumber : ∀ line, ∀ segment ∈ splitSourceLine line childChunkTargetTokens,
      segment.number = line.number := fun line segment hsegment =>
    ((splitSourceLine_spec line (by decide)).2.2 segment hsegment).2.1
  rw [childSegments, List.pairwise_flatMap]
  constructor
  · intro line _
    refine List.pairwise_of_forall_mem_list ?_
    intro a ha b hb
    rw [hnumber line a ha, hnumber line b hb]
  · refine h.imp ?_
    intro line later hle a ha b hb
    rw [hnumber line a ha, hnumber later b hb]
    exact hle

theorem pairwise_buildChildDrafts (h : (parent.map (·.number)).Pairwise (· ≤ ·)) :
    (buildChildDrafts parent).Pairwise fun draft later =>
      ∀ first ∈ draft.head?, ∀ n ∈ later.map (·.number), first.number ≤ n := by
  obtain ⟨parts, -, hflatten, hall⟩ :
      ∃ parts, (∀ part ∈ parts, part ≠ []) ∧ parts.flatten = childSegments parent ∧
        (childBins parent).all = overlay carriedOver [] parts := exists_parts (childSegments parent)
  refine List.Pairwise.sublist (isPrefix_buildChildDrafts parent).sublist ?_
  rw [hall]
  refine pairwise_overlay numbers_carriedOver le_refl ?_
  rw [List.nil_append, hflatten]
  exact sorted_childSegments h

section Parents

def linesInk (lines : List ChunkSourceLine) : List Char :=
  lines.flatMap fun line => ink line.text

theorem linesInk_append (a b : List ChunkSourceLine) : linesInk (a ++ b) = linesInk a ++ linesInk b :=
  List.flatMap_append

theorem estimatedLinesTokenCount_append (a b : List ChunkSourceLine) :
    estimatedLinesTokenCount (a ++ b) =
      estimatedLinesTokenCount a + estimatedLinesTokenCount b := total_append a b

theorem linesInk_splitSourceLine (line : ChunkSourceLine) {tokenBudget : Nat}
    (hbudget : 1 ≤ tokenBudget) : linesInk (splitSourceLine line tokenBudget) = ink line.text := by
  rw [ink, ← (splitSourceLine_spec line hbudget).1, linesInk, inkChars, List.filter_flatMap]
  rfl

theorem linesInk_childSegments (lines : List ChunkSourceLine) :
    linesInk (childSegments lines) = linesInk lines := by
  rw [linesInk, childSegments, List.flatMap_assoc]
  refine List.flatMap_congr ?_
  intro line _
  exact linesInk_splitSourceLine line (by decide)

def parentNumbers (drafts : List ParentChunkDraft) (currentLines : List ChunkSourceLine) :
    List Nat :=
  (drafts.flatMap (·.lines) ++ currentLines).map (·.number)

structure ParentLoop (state : ParentState) (done : List Char) (lineCount : Nat) : Prop where
  ink : (state.drafts.flatMap fun draft => linesInk draft.lines) ++ linesInk state.currentLines = done
  load : state.currentTokens = estimatedLinesTokenCount state.currentLines
  fits : state.currentTokens ≤ parentChunkMaxTokens
  draft_fits : ∀ draft ∈ state.drafts,
    estimatedLinesTokenCount draft.lines ≤ parentChunkMaxTokens ∧ linesInk draft.lines ≠ []
  sorted : (parentNumbers state.drafts state.currentLines).Pairwise (· ≤ ·)
  numbers_le : ∀ n ∈ parentNumbers state.drafts state.currentLines, n ≤ lineCount

variable {state : ParentState} {done : List Char} {lineCount : Nat} {segment : ChunkSourceLine}

theorem ParentLoop.mono (h : ParentLoop state done lineCount) {more : Nat} (hle : lineCount ≤ more) :
    ParentLoop state done more :=
  { h with numbers_le := fun n hn => (h.numbers_le n hn).trans hle }

theorem linesInk_eq_nil_iff {lines : List ChunkSourceLine} :
    linesInk lines = [] ↔ (lines.all fun line => isBlank line.text) = true := by
  rw [linesInk, List.flatMap_eq_nil_iff, List.all_eq_true]
  exact forall₂_congr fun line _ => ink_eq_nil_iff

theorem pushParentDraft_cases (drafts : List ParentChunkDraft)
    (currentLines : List ChunkSourceLine) :
    (linesInk currentLines = [] ∧ pushParentDraft drafts currentLines = drafts) ∨
      linesInk currentLines ≠ [] ∧ ∃ sectionPath,
        pushParentDraft drafts currentLines = drafts ++ [⟨currentLines, sectionPath⟩] := by
  rw [pushParentDraft]
  split
  · rename_i hblank
    exact Or.inl ⟨linesInk_eq_nil_iff.mpr hblank, rfl⟩
  · rename_i hblank
    exact Or.inr ⟨fun hnone => hblank (linesInk_eq_nil_iff.mp hnone), _, rfl⟩

theorem ParentLoop.flush (h : ParentLoop state done lineCount) :
    ParentLoop state.flush done lineCount := by
  rcases pushParentDraft_cases state.drafts state.currentLines with
    ⟨hnone, hdrafts⟩ | ⟨htext, sectionPath, hdrafts⟩
  · have hsub : (parentNumbers state.drafts []).Sublist
        (parentNumbers state.drafts state.currentLines) := by
      rw [parentNumbers, List.append_nil]
      exact (List.sublist_append_left _ _).map _
    rw [ParentState.flush, hdrafts]
    refine ⟨?_, rfl, Nat.zero_le _, h.draft_fits, h.sorted.sublist hsub,
      fun n hn => h.numbers_le n (hsub.subset hn)⟩
    rw [← h.ink, hnone]
    rfl
  · have hsame : parentNumbers (state.drafts ++ [⟨state.currentLines, sectionPath⟩]) [] =
        parentNumbers state.drafts state.currentLines := by
      rw [parentNumbers, List.append_nil, List.flatMap_append, List.flatMap_singleton]
      rfl
    rw [ParentState.flush, hdrafts]
    refine ⟨?_, rfl, Nat.zero_le _, ?_, hsame ▸ h.sorted, hsame ▸ h.numbers_le⟩
    · rw [← h.ink, List.flatMap_append, List.flatMap_singleton]
      exact List.append_nil _
    · intro draft hdraft
      rcases List.mem_append.mp hdraft with hold | hnew
      · exact h.draft_fits draft hold
      · rw [List.mem_singleton.mp hnew]
        exact ⟨h.load ▸ h.fits, htext⟩

theorem ParentLoop.push (h : ParentLoop state done lineCount) (hnumber : segment.number = lineCount)
    (hfits : state.currentTokens + lineTokens segment ≤ parentChunkMaxTokens) :
    ParentLoop
      { state with
        currentLines := state.currentLines ++ [segment]
        currentTokens := state.currentTokens + lineTokens segment }
      (done ++ ChunkTokens.ink segment.text) lineCount := by
  have hnumbers : parentNumbers state.drafts (state.currentLines ++ [segment]) =
      parentNumbers state.drafts state.currentLines ++ [lineCount] := by
    rw [parentNumbers, parentNumbers, ← List.append_assoc, List.map_append,
      List.map_singleton, hnumber]
  refine ⟨?_, ?_, hfits, h.draft_fits, ?_, ?_⟩
  · rw [← h.ink, linesInk_append, List.append_assoc]
    exact congrArg _ (congrArg _ (List.flatMap_singleton ..))
  · rw [estimatedLinesTokenCount_append, ← h.load]
    simp [estimatedLinesTokenCount]
  · rw [hnumbers, List.pairwise_append]
    refine ⟨h.sorted, List.pairwise_singleton _ _, ?_⟩
    intro n hn m hm
    rw [List.mem_singleton.mp hm]
    exact h.numbers_le n hn
  · rw [hnumbers]
    intro n hn
    rcases List.mem_append.mp hn with hold | hnew
    · exact h.numbers_le n hold
    · rw [List.mem_singleton.mp hnew]

theorem ParentLoop.addSegment (h : ParentLoop state done lineCount)
    (hnumber : segment.number = lineCount) (hfits : lineTokens segment ≤ parentChunkMaxTokens) :
    ParentLoop (state.addSegment segment) (done ++ ChunkTokens.ink segment.text) lineCount := by
  have hflushed : state.flush.currentTokens = 0 := rfl
  rw [ParentState.addSegment]
  split
  · exact h.flush.push hnumber (by omega)
  · rename_i hkeep
    refine h.push hnumber ?_
    cases hcurrent : state.currentLines with
    | nil =>
        have hload := h.load
        rw [hcurrent] at hload
        have hzero : state.currentTokens = 0 := hload
        omega
    | cons first rest =>
        rw [hcurrent] at hkeep
        by_contra hover
        exact hkeep (by simp [Nat.not_le.mp hover])

theorem ParentLoop.foldl_addSegment (h : ParentLoop state done lineCount)
    {segments : List ChunkSourceLine}
    (hsegments : ∀ segment ∈ segments, segment.number = lineCount ∧
      lineTokens segment ≤ parentChunkMaxTokens) :
    ParentLoop (segments.foldl ParentState.addSegment state) (done ++ linesInk segments)
      lineCount := by
  induction segments generalizing state done with
  | nil =>
      rw [linesInk, List.flatMap_nil, List.append_nil]
      exact h
  | cons segment rest ih =>
      obtain ⟨hnumber, hfits⟩ := hsegments segment List.mem_cons_self
      rw [linesInk, List.flatMap_cons, ← List.append_assoc, List.foldl_cons]
      exact ih (h.addSegment hnumber hfits) fun other hother =>
        hsegments other (List.mem_cons_of_mem _ hother)

theorem ParentLoop.withHeadings (h : ParentLoop state done lineCount) (headingStack : List String) :
    ParentLoop { state with headingStack := headingStack } done lineCount :=
  ⟨h.ink, h.load, h.fits, h.draft_fits, h.sorted, h.numbers_le⟩

theorem ink_trimEnd (text : String) : ink (trimEnd text) = ink text := by
  rw [ink, trimEnd, String.toList_ofList, inkChars_rdropWhile]
  rfl

theorem ParentLoop.addLine (h : ParentLoop state done lineCount) (text : String) :
    ParentLoop (state.addLine (text, lineCount)) (done ++ ChunkTokens.ink text) (lineCount + 1) := by
  have hline : ∀ (before : ParentState) (line : ChunkSourceLine), line.text = trimEnd text →
      line.number = lineCount + 1 → ParentLoop before done (lineCount + 1) →
      ParentLoop ((splitSourceLine line parentChunkMaxTokens).foldl ParentState.addSegment before)
        (done ++ ChunkTokens.ink text) (lineCount + 1) := by
    intro before line htext hnumber hbefore
    have hspec := (splitSourceLine_spec line
      (by decide : 1 ≤ parentChunkMaxTokens)).2.2
    have hloop := hbefore.foldl_addSegment fun segment hsegment =>
      ⟨(hspec segment hsegment).2.1.trans hnumber, max_le (hspec segment hsegment).1 (by decide)⟩
    rw [linesInk_splitSourceLine line (by decide), htext, ink_trimEnd] at hloop
    exact hloop
  have hmono := h.mono (Nat.le_succ lineCount)
  rw [ParentState.addLine]
  refine hline _ _ rfl rfl ?_
  split
  · refine ParentLoop.withHeadings ?_ _
    split
    · exact hmono.flush
    · exact hmono
  · split
    · exact hmono.flush
    · exact hmono

theorem ParentLoop.foldl_addLine (h : ParentLoop state done lineCount) (texts : List String) :
    ParentLoop ((texts.zipIdx lineCount).foldl ParentState.addLine state)
      (done ++ texts.flatMap ChunkTokens.ink) (lineCount + texts.length) := by
  induction texts generalizing state done lineCount with
  | nil =>
      rw [List.flatMap_nil, List.append_nil]
      exact h
  | cons text rest ih =>
      rw [List.zipIdx_cons, List.foldl_cons, List.flatMap_cons, ← List.append_assoc,
        List.length_cons, ← Nat.add_assoc, Nat.add_right_comm]
      exact ih (h.addLine text)

theorem parentLoop_nil : ParentLoop {} [] 0 :=
  ⟨rfl, rfl, Nat.zero_le _, by simp, List.Pairwise.nil, by simp [parentNumbers]⟩

theorem inkChars_stripSuffixChar (chars : List Char) :
    inkChars (stripSuffixChar '\r' chars) = inkChars chars := by
  rw [stripSuffixChar]
  split
  · rename_i hlast
    obtain ⟨before, rfl⟩ := List.getLast?_eq_some_iff.mp hlast
    have hreturn : inkChars ['\r'] = [] := by decide
    rw [List.dropLast_concat, inkChars_append, hreturn, List.append_nil]
  · rfl

theorem ink_lines (text : String) : (lines text).flatMap ink = ink text := by
  have hpieces : inkChars text.toList = (text.toList.splitOn '\n').flatMap inkChars := by
    rw [← inkChars_intercalate, List.intercalate_splitOn]
  have hne : text.toList.splitOn '\n' ≠ [] := List.splitOn_ne_nil _ _
  have hink : ∀ pieces : List (List Char), (pieces.map String.ofList).flatMap ink =
      pieces.flatMap inkChars := by
    intro pieces
    rw [List.flatMap_map]
    exact List.flatMap_congr fun piece _ => congrArg inkChars String.toList_ofList
  rw [lines, hink, List.flatMap_append, List.flatMap_map, ink, hpieces,
    List.getLast?_eq_some_getLast hne, Option.getD_some]
  conv_rhs => rw [← List.dropLast_append_getLast hne, List.flatMap_append, List.flatMap_singleton]
  congr 1
  · exact List.flatMap_congr fun piece _ => inkChars_stripSuffixChar piece
  · split
    · rename_i hempty
      rw [hempty]
      rfl
    · exact List.flatMap_singleton ..

theorem buildParentDraftsForSource_spec (source : KnowledgeIndexTextSource) :
    ((buildParentDraftsForSource source).flatMap fun draft => linesInk draft.lines) =
        ink source.text ∧
      (∀ draft ∈ buildParentDraftsForSource source,
        estimatedLinesTokenCount draft.lines ≤ parentChunkMaxTokens ∧ linesInk draft.lines ≠ []) ∧
      (((buildParentDraftsForSource source).flatMap (·.lines)).map (·.number)).Pairwise (· ≤ ·) := by
  have h := (parentLoop_nil.foldl_addLine (lines source.text)).flush
  have hink := h.ink
  have hsorted := h.sorted
  rw [List.nil_append, ink_lines] at hink
  refine ⟨(List.append_nil _).symm.trans hink, h.draft_fits, ?_⟩
  rw [parentNumbers] at hsorted
  exact (List.append_nil _ ▸ hsorted :)

end Parents

end HarborBeacon.ChunkDrafts
