import HarborBeacon.ChunkHierarchy

/-!
The ids and the links of the chunks. Ids count the parents and the children through all sources,
a child names the parent that lists it, and the children of a source are linked in their order.
-/

namespace HarborBeacon.ChunkLinks

open ChunkDrafts ChunkHierarchy ChunkTokens Chunking DecimalText OverlapPacking

section Numbering

def idsFrom (idOf : Nat → String) (start count : Nat) : List String :=
  (List.range' (start + 1) count).map idOf

variable {idOf : Nat → String}

theorem idsFrom_add (start count more : Nat) :
    idsFrom idOf start (count + more) =
      idsFrom idOf start count ++ idsFrom idOf (start + count) more := by
  rw [idsFrom, idsFrom, idsFrom, ← List.map_append, Nat.add_right_comm start count 1]
  rw [← List.range'_append_1]

theorem idsFrom_succ (start count : Nat) :
    idsFrom idOf start (count + 1) = idOf (start + 1) :: idsFrom idOf (start + 1) count := rfl

theorem nodup_idsFrom (h : Function.Injective idOf) (start count : Nat) :
    (idsFrom idOf start count).Nodup :=
  (List.nodup_range' ..).map h

theorem prefixed_injective (start : String) :
    Function.Injective fun n => start ++ String.ofList (zeroPadded 4 n) := by
  intro m n h
  have hdigits : zeroPadded 4 m = zeroPadded 4 n := by
    have hlist := congrArg String.toList h
    simpa using hlist
  rw [← value_zeroPadded 4 m, hdigits, value_zeroPadded]

theorem parentIdOf_injective : Function.Injective parentIdOf :=
  prefixed_injective "parent-"

theorem chunkIdOf_injective : Function.Injective chunkIdOf :=
  prefixed_injective "chunk-"

variable (source : KnowledgeIndexTextSource)

theorem chunkIds_childrenOf (draft : ParentChunkDraft) (parentId : String) (childCount : Nat)
    (drafts : List (List ChunkSourceLine)) :
    (childrenOf source draft parentId childCount drafts).map (·.chunkId) =
      idsFrom chunkIdOf childCount (childrenOf source draft parentId childCount drafts).length := by
  induction drafts generalizing childCount with
  | nil => rfl
  | cons childLines rest ih =>
      rw [childrenOf]
      split
      · exact ih childCount
      · rw [List.map_cons, List.length_cons, idsFrom_succ, ih]
        rfl

theorem ids_familiesOf (parentCount childCount : Nat) (drafts : List ParentChunkDraft) :
    ((familiesOf source parentCount childCount drafts).map fun family => family.parent.parentId) =
        idsFrom parentIdOf parentCount (familiesOf source parentCount childCount drafts).length ∧
      ((familiesOf source parentCount childCount drafts).flatMap (·.children)).map (·.chunkId) =
        idsFrom chunkIdOf childCount
          ((familiesOf source parentCount childCount drafts).flatMap (·.children)).length := by
  induction drafts generalizing parentCount childCount with
  | nil => exact ⟨rfl, rfl⟩
  | cons draft rest ih =>
      rw [familiesOf]
      obtain ⟨hparents, hchildren⟩ := ih (parentCount + 1)
        (childCount + (familyOf source parentCount childCount draft).children.length)
      constructor
      · rw [List.map_cons, hparents, List.length_cons, idsFrom_succ]
        rfl
      · rw [List.flatMap_cons, List.map_append, hchildren, List.length_append, idsFrom_add]
        congr 1
        exact chunkIds_childrenOf source draft _ childCount _

theorem ids_groupsOf (parentCount childCount : Nat) (sources : List KnowledgeIndexTextSource) :
    ((groupsOf parentCount childCount sources).flatten.map fun family => family.parent.parentId) =
        idsFrom parentIdOf parentCount (groupsOf parentCount childCount sources).flatten.length ∧
      ((groupsOf parentCount childCount sources).flatten.flatMap (·.children)).map (·.chunkId) =
        idsFrom chunkIdOf childCount
          ((groupsOf parentCount childCount sources).flatten.flatMap (·.children)).length := by
  induction sources generalizing parentCount childCount with
  | nil => exact ⟨rfl, rfl⟩
  | cons source rest ih =>
      rw [groupsOf]
      obtain ⟨hfirst, hfirst'⟩ := ids_familiesOf source parentCount childCount
        (buildParentDraftsForSource source)
      obtain ⟨hrest, hrest'⟩ := ih _ _
      constructor
      · rw [List.flatten_cons, List.map_append, hfirst, hrest, List.length_append, idsFrom_add]
      · rw [List.flatten_cons, List.flatMap_append, List.map_append, hfirst', hrest',
          List.length_append, idsFrom_add]

end Numbering

section Lines

variable {lines : List ChunkSourceLine}

theorem firstNumber_mem (hne : lines ≠ []) : firstNumber lines ∈ lines.map (·.number) := by
  rw [firstNumber, List.head?_eq_some_head hne]
  exact List.mem_map_of_mem (List.head_mem hne)

theorem lastNumber_mem (hne : lines ≠ []) : lastNumber lines ∈ lines.map (·.number) := by
  rw [lastNumber, List.getLast?_eq_some_getLast hne]
  exact List.mem_map_of_mem (List.getLast_mem hne)

theorem firstNumber_le (hsorted : (lines.map (·.number)).Pairwise (· ≤ ·)) {n : Nat}
    (hn : n ∈ lines.map (·.number)) : firstNumber lines ≤ n := by
  rcases lines with _ | ⟨first, rest⟩
  · exact absurd hn List.not_mem_nil
  · rw [List.map_cons] at hn hsorted
    rcases List.mem_cons.mp hn with rfl | hrest
    · exact le_refl _
    · exact (List.pairwise_cons.mp hsorted).1 n hrest

theorem le_lastNumber (hsorted : (lines.map (·.number)).Pairwise (· ≤ ·)) {n : Nat}
    (hn : n ∈ lines.map (·.number)) : n ≤ lastNumber lines := by
  rcases lines.eq_nil_or_concat' with rfl | ⟨before, last, rfl⟩
  · exact absurd hn List.not_mem_nil
  · have hlast : lastNumber (before ++ [last]) = last.number := by
      rw [lastNumber, List.getLast?_concat]
      rfl
    rw [List.map_append, List.map_singleton] at hn hsorted
    rw [hlast]
    rcases List.mem_append.mp hn with hold | hnew
    · exact (List.pairwise_append.mp hsorted).2.2 n hold _ List.mem_cons_self
    · exact (List.mem_singleton.mp hnew).le

theorem ne_nil_of_join_ne (h : joinChunkSourceLines lines ≠ "") : lines ≠ [] := by
  rintro rfl
  exact h ((join_eq_empty_iff []).mpr (by simp))

theorem ne_nil_of_linesInk_ne (h : linesInk lines ≠ []) : lines ≠ [] := by
  rintro rfl
  exact h rfl

end Lines

section Families

variable {source : KnowledgeIndexTextSource} {draft : ParentChunkDraft}
  {drafts : List (List ChunkSourceLine)} {parentId : String} {childCount : Nat}

structure SoundDraft (draft : ParentChunkDraft) : Prop where
  budget : estimatedLinesTokenCount draft.lines ≤ parentChunkMaxTokens
  text : linesInk draft.lines ≠ []
  sorted : (draft.lines.map (·.number)).Pairwise (· ≤ ·)

structure SoundFamily (family : Family) : Prop where
  budget : estimatedTokenCount family.parent.text ≤ parentChunkMaxTokens
  childIds : family.parent.childIds = family.children.map (·.chunkId)
  child_budget : ∀ child ∈ family.children,
    estimatedTokenCount child.text ≤ childChunkTargetTokens + childChunkOverlapTokens
  parentId : ∀ child ∈ family.children, child.parentId = some family.parent.parentId
  range : ∀ child ∈ family.children, family.parent.lineStart ≤ child.lineStart ∧
    child.lineStart ≤ child.lineEnd ∧ child.lineEnd ≤ family.parent.lineEnd
  order : family.children.Pairwise fun child later => child.lineStart ≤ later.lineStart

theorem exists_of_mem_childrenOf {child : KnowledgeIndexChunk}
    (h : child ∈ childrenOf source draft parentId childCount drafts) :
    ∃ count childLines, childLines ∈ drafts ∧ joinChunkSourceLines childLines ≠ "" ∧
      child = childOf source draft parentId count childLines := by
  induction drafts generalizing childCount with
  | nil => exact absurd h List.not_mem_nil
  | cons childLines rest ih =>
      rw [childrenOf] at h
      split at h
      · obtain ⟨count, lines, hmem, hlines⟩ := ih h
        exact ⟨count, lines, List.mem_cons_of_mem _ hmem, hlines⟩
      · rename_i htext
        rcases List.mem_cons.mp h with rfl | hrest
        · exact ⟨childCount, childLines, List.mem_cons_self, htext, rfl⟩
        · obtain ⟨count, lines, hmem, hlines⟩ := ih hrest
          exact ⟨count, lines, List.mem_cons_of_mem _ hmem, hlines⟩

theorem order_childrenOf (h : drafts.Pairwise fun childLines later =>
      ∀ first ∈ childLines.head?, ∀ n ∈ later.map (·.number), first.number ≤ n) :
    (childrenOf source draft parentId childCount drafts).Pairwise fun child later =>
      child.lineStart ≤ later.lineStart := by
  induction drafts generalizing childCount with
  | nil => exact List.Pairwise.nil
  | cons childLines rest ih =>
      obtain ⟨hfirst, hrest⟩ := List.pairwise_cons.mp h
      rw [childrenOf]
      split
      · exact ih hrest
      · rename_i htext
        refine List.Pairwise.cons ?_ (ih hrest)
        intro later hlater
        obtain ⟨count, laterLines, hmem, hlaterText, rfl⟩ := exists_of_mem_childrenOf hlater
        have hne := ne_nil_of_join_ne htext
        have hstart : firstNumber childLines = (childLines.head hne).number := by
          rw [firstNumber, List.head?_eq_some_head hne]
          rfl
        refine hstart.trans_le (hfirst laterLines hmem _ (List.head?_eq_some_head hne) _ ?_)
        exact firstNumber_mem (ne_nil_of_join_ne hlaterText)

theorem soundFamily_familyOf (h : SoundDraft draft) (parentCount childCount : Nat) :
    SoundFamily (familyOf source parentCount childCount draft) where
  budget := (estimatedTokenCount_join_le draft.lines).trans h.budget
  childIds := rfl
  child_budget := by
    intro child hchild
    obtain ⟨count, childLines, hmem, -, rfl⟩ := exists_of_mem_childrenOf hchild
    exact (estimatedTokenCount_join_le childLines).trans (tokens_of_mem_buildChildDrafts hmem)
  parentId := by
    intro child hchild
    obtain ⟨count, childLines, -, -, rfl⟩ := exists_of_mem_childrenOf hchild
    rfl
  range := by
    intro child hchild
    obtain ⟨count, childLines, hmem, htext, rfl⟩ := exists_of_mem_childrenOf hchild
    have hne := ne_nil_of_join_ne htext
    have hinside := numbers_of_mem_buildChildDrafts hmem
    have hparent : ∀ n ∈ childLines.map (·.number), n ∈ draft.lines.map (·.number) := fun n hn =>
      number_of_mem_childSegments (hinside.subset hn)
    have hsorted : (childLines.map (·.number)).Pairwise (· ≤ ·) :=
      (sorted_childSegments h.sorted).sublist hinside.sublist
    refine ⟨firstNumber_le h.sorted (hparent _ (firstNumber_mem hne)), ?_, ?_⟩
    · exact firstNumber_le hsorted (lastNumber_mem hne)
    · exact le_lastNumber h.sorted (hparent _ (lastNumber_mem hne))
  order := order_childrenOf (pairwise_buildChildDrafts h.sorted)

theorem exists_of_mem_familiesOf {parentCount childCount : Nat} {drafts : List ParentChunkDraft}
    {family : Family} (h : family ∈ familiesOf source parentCount childCount drafts) :
    ∃ parents children draft, draft ∈ drafts ∧ family = familyOf source parents children draft := by
  induction drafts generalizing parentCount childCount with
  | nil => exact absurd h List.not_mem_nil
  | cons draft rest ih =>
      rcases List.mem_cons.mp h with rfl | hrest
      · exact ⟨_, _, draft, List.mem_cons_self, rfl⟩
      · obtain ⟨parents, children, other, hmem, hfamily⟩ := ih hrest
        exact ⟨parents, children, other, List.mem_cons_of_mem _ hmem, hfamily⟩

theorem soundDraft_of_mem (hdraft : draft ∈ buildParentDraftsForSource source) :
    SoundDraft draft := by
  obtain ⟨-, hspec, hsorted⟩ := buildParentDraftsForSource_spec source
  obtain ⟨hbudget, htext⟩ := hspec draft hdraft
  refine ⟨hbudget, htext, hsorted.sublist ?_⟩
  exact (List.sublist_flatten_of_mem (List.mem_map_of_mem hdraft)).map _

theorem pairwise_drafts (source : KnowledgeIndexTextSource) :
    (buildParentDraftsForSource source).Pairwise fun draft later =>
      lastNumber draft.lines ≤ firstNumber later.lines := by
  obtain ⟨-, hspec, hsorted⟩ := buildParentDraftsForSource_spec source
  rw [List.pairwise_map, List.pairwise_flatMap] at hsorted
  refine hsorted.2.imp_of_mem ?_
  intro draft later hdraft hlater hle
  obtain ⟨last, hlast, hlastNumber⟩ := List.mem_map.mp
    (lastNumber_mem (ne_nil_of_linesInk_ne (hspec draft hdraft).2))
  obtain ⟨first, hfirst, hfirstNumber⟩ := List.mem_map.mp
    (firstNumber_mem (ne_nil_of_linesInk_ne (hspec later hlater).2))
  rw [← hlastNumber, ← hfirstNumber]
  exact hle last hlast first hfirst

theorem order_familiesOf (parentCount childCount : Nat) {drafts : List ParentChunkDraft}
    (hsound : ∀ draft ∈ drafts, SoundDraft draft)
    (h : drafts.Pairwise fun draft later => lastNumber draft.lines ≤ firstNumber later.lines) :
    ((familiesOf source parentCount childCount drafts).flatMap (·.children)).Pairwise
      fun child later => child.lineStart ≤ later.lineStart := by
  induction drafts generalizing parentCount childCount with
  | nil => exact List.Pairwise.nil
  | cons draft rest ih =>
      obtain ⟨hdraft, hrest⟩ := List.forall_mem_cons.mp hsound
      obtain ⟨hfirst, hlater⟩ := List.pairwise_cons.mp h
      have hfamily : SoundFamily (familyOf source parentCount childCount draft) :=
        soundFamily_familyOf hdraft parentCount childCount
      rw [familiesOf, List.flatMap_cons, List.pairwise_append]
      refine ⟨hfamily.order, ih _ _ hrest hlater, ?_⟩
      intro child hchild later hmem
      obtain ⟨other, hother, hchildren⟩ := List.mem_flatMap.mp hmem
      obtain ⟨parents, children, otherDraft, hotherDraft, rfl⟩ := exists_of_mem_familiesOf hother
      have hchildRange := hfamily.range child hchild
      have hlaterRange := (soundFamily_familyOf (hrest otherDraft hotherDraft) parents
        children).range later hchildren
      calc child.lineStart ≤ child.lineEnd := hchildRange.2.1
        _ ≤ lastNumber draft.lines := hchildRange.2.2
        _ ≤ firstNumber otherDraft.lines := hfirst otherDraft hotherDraft
        _ ≤ later.lineStart := hlaterRange.1

end Families

inductive Linked : Option String → List KnowledgeIndexChunk → Prop
  | nil (previous : Option String) : Linked previous []
  | cons {previous : Option String} {chunk : KnowledgeIndexChunk}
      {rest : List KnowledgeIndexChunk} (hprevious : chunk.previousId = previous)
      (hnext : chunk.nextId = rest.head?.map (·.chunkId))
      (hrest : Linked (some chunk.chunkId) rest) : Linked previous (chunk :: rest)

def linkAfter (before chunks : List KnowledgeIndexChunk) : List KnowledgeIndexChunk :=
  chunks.mapIdx fun index chunk =>
    { chunk with
      previousId :=
        if before.length + index = 0 then none
        else (before ++ chunks)[before.length + index - 1]?.map (·.chunkId)
      nextId := (before ++ chunks)[before.length + index + 1]?.map (·.chunkId) }

theorem linkAdjacentChildren_eq (children : List KnowledgeIndexChunk) :
    linkAdjacentChildren children = linkAfter [] children := by
  simp [linkAdjacentChildren, linkAfter]

theorem linkAfter_cons (before : List KnowledgeIndexChunk) (chunk : KnowledgeIndexChunk)
    (rest : List KnowledgeIndexChunk) :
    linkAfter before (chunk :: rest) =
      { chunk with
        previousId := before.getLast?.map (·.chunkId)
        nextId := rest.head?.map (·.chunkId) } :: linkAfter (before ++ [chunk]) rest := by
  rw [linkAfter, List.mapIdx_cons, linkAfter]
  congr 1
  · rcases before.eq_nil_or_concat' with rfl | ⟨front, last, rfl⟩
    · rcases rest with _ | ⟨next, rest⟩ <;> rfl
    · have hnext : (front ++ [last] ++ chunk :: rest)[(front ++ [last]).length + 0 + 1]? =
          rest.head? := by
        rw [List.getElem?_append_right (by omega), List.head?_eq_getElem?]
        simp
      rw [hnext]
      simp
  · refine congrArg (fun f => List.mapIdx f rest) ?_
    funext index later
    simp [Nat.add_comm, Nat.add_left_comm]

theorem linked_linkAfter (before chunks : List KnowledgeIndexChunk) :
    Linked (before.getLast?.map (·.chunkId)) (linkAfter before chunks) := by
  induction chunks generalizing before with
  | nil => exact Linked.nil _
  | cons chunk rest ih =>
      have hrest := ih (before ++ [chunk])
      rw [List.getLast?_concat] at hrest
      rw [linkAfter_cons]
      refine Linked.cons rfl ?_ hrest
      rcases rest with _ | ⟨next, rest⟩
      · rfl
      · rw [linkAfter_cons]
        rfl

theorem linked_linkAdjacentChildren (children : List KnowledgeIndexChunk) :
    Linked none (linkAdjacentChildren children) := by
  rw [linkAdjacentChildren_eq]
  exact linked_linkAfter [] children

theorem exists_of_mem_linkAfter {before chunks : List KnowledgeIndexChunk}
    {chunk : KnowledgeIndexChunk} (h : chunk ∈ linkAfter before chunks) :
    ∃ unlinked ∈ chunks, ∃ previousId nextId,
      chunk = { unlinked with previousId := previousId, nextId := nextId } := by
  obtain ⟨index, hindex, rfl⟩ := List.mem_mapIdx.mp h
  exact ⟨chunks[index], List.getElem_mem hindex, _, _, rfl⟩

theorem map_linkAfter {α : Type} (f : KnowledgeIndexChunk → α)
    (hf : ∀ chunk previousId nextId,
      f { chunk with previousId := previousId, nextId := nextId } = f chunk)
    (before chunks : List KnowledgeIndexChunk) : (linkAfter before chunks).map f = chunks.map f := by
  induction chunks generalizing before with
  | nil => rfl
  | cons chunk rest ih => rw [linkAfter_cons, List.map_cons, List.map_cons, ih, hf]

section Hierarchy

structure LinkedSource (source : KnowledgeIndexTextSource) (chunks : List KnowledgeIndexChunk) :
    Prop where
  origin : ∀ chunk ∈ chunks,
    chunk.sourceKind = source.sourceKind ∧ chunk.sourcePath = source.sourcePath
  linked : Linked none chunks
  order : chunks.Pairwise fun chunk later => chunk.lineStart ≤ later.lineStart

structure SoundHierarchy (sources : List KnowledgeIndexTextSource)
    (hierarchy : KnowledgeChunkHierarchy) : Prop where
  parent_budget : ∀ parent ∈ hierarchy.parents,
    estimatedTokenCount parent.text ≤ parentChunkMaxTokens
  child_budget : ∀ child ∈ hierarchy.children,
    estimatedTokenCount child.text ≤ childChunkTargetTokens + childChunkOverlapTokens
  chunkIds_nodup : (hierarchy.children.map (·.chunkId)).Nodup
  parentIds_nodup : (hierarchy.parents.map (·.parentId)).Nodup
  linked : ∃ groups, List.Forall₂ LinkedSource sources groups ∧ groups.flatten = hierarchy.children
  listed : hierarchy.parents.flatMap (·.childIds) = hierarchy.children.map (·.chunkId)
  listed_once : ∀ child ∈ hierarchy.children,
    ∃! parent, parent ∈ hierarchy.parents ∧ child.chunkId ∈ parent.childIds
  named_back : ∀ parent ∈ hierarchy.parents, ∀ child ∈ hierarchy.children,
    child.chunkId ∈ parent.childIds ↔ child.parentId = some parent.parentId
  range : ∀ parent ∈ hierarchy.parents, ∀ child ∈ hierarchy.children,
    child.parentId = some parent.parentId →
      parent.lineStart ≤ child.lineStart ∧ child.lineStart ≤ child.lineEnd ∧
        child.lineEnd ≤ parent.lineEnd

variable {sources : List KnowledgeIndexTextSource} {parentCount childCount : Nat} {α : Type}

theorem map_linkedChildren (f : KnowledgeIndexChunk → α) (hf : ∀ chunk previousId nextId,
      f { chunk with previousId := previousId, nextId := nextId } = f chunk)
    (families : List Family) :
    (linkedChildren families).map f = (families.flatMap (·.children)).map f := by
  rw [linkedChildren, linkAdjacentChildren_eq]
  exact map_linkAfter f hf _ _

theorem map_flatMap_linkedChildren (f : KnowledgeIndexChunk → α) (hf : ∀ chunk previousId nextId,
      f { chunk with previousId := previousId, nextId := nextId } = f chunk)
    (groups : List (List Family)) :
    (groups.flatMap linkedChildren).map f = (groups.flatten.flatMap (·.children)).map f := by
  rw [List.map_flatMap, List.flatten_eq_flatMap, List.flatMap_assoc, List.map_flatMap]
  exact List.flatMap_congr fun families _ => map_linkedChildren f hf families

theorem origin_linkedChildren {source : KnowledgeIndexTextSource} {drafts : List ParentChunkDraft}
    {chunk : KnowledgeIndexChunk}
    (h : chunk ∈ linkedChildren (familiesOf source parentCount childCount drafts)) :
    chunk.sourceKind = source.sourceKind ∧ chunk.sourcePath = source.sourcePath := by
  rw [linkedChildren, linkAdjacentChildren_eq] at h
  obtain ⟨child, hchild, previousId, nextId, rfl⟩ := exists_of_mem_linkAfter h
  obtain ⟨family, hfamily, hmem⟩ := List.mem_flatMap.mp hchild
  obtain ⟨parents, children, draft, -, rfl⟩ := exists_of_mem_familiesOf hfamily
  obtain ⟨count, childLines, -, -, rfl⟩ := exists_of_mem_childrenOf hmem
  exact ⟨rfl, rfl⟩

theorem order_linkedChildren (source : KnowledgeIndexTextSource) (parentCount childCount : Nat) :
    (linkedChildren (familiesOf source parentCount childCount
      (buildParentDraftsForSource source))).Pairwise
        fun chunk later => chunk.lineStart ≤ later.lineStart := by
  have hstarts : ((linkedChildren (familiesOf source parentCount childCount
      (buildParentDraftsForSource source))).map (·.lineStart)).Pairwise (· ≤ ·) := by
    rw [map_linkedChildren (·.lineStart) fun _ _ _ => rfl]
    refine List.pairwise_map.mpr ?_
    exact order_familiesOf parentCount childCount (fun _ hdraft => soundDraft_of_mem hdraft)
      (pairwise_drafts source)
  exact List.pairwise_map.mp hstarts

theorem linkedSource_linkedChildren (source : KnowledgeIndexTextSource)
    (parentCount childCount : Nat) :
    LinkedSource source (linkedChildren
      (familiesOf source parentCount childCount (buildParentDraftsForSource source))) where
  origin := fun _ hchunk => origin_linkedChildren hchunk
  linked := linked_linkAdjacentChildren _
  order := order_linkedChildren source parentCount childCount

theorem forall₂_linkedSource (parentCount childCount : Nat)
    (sources : List KnowledgeIndexTextSource) :
    List.Forall₂ LinkedSource sources
      ((groupsOf parentCount childCount sources).map linkedChildren) := by
  induction sources generalizing parentCount childCount with
  | nil => exact List.Forall₂.nil
  | cons source rest ih =>
      exact List.Forall₂.cons (linkedSource_linkedChildren source parentCount childCount) (ih _ _)

theorem soundFamily_of_mem_groupsOf {family : Family}
    (h : family ∈ (groupsOf parentCount childCount sources).flatten) : SoundFamily family := by
  induction sources generalizing parentCount childCount with
  | nil => exact absurd h List.not_mem_nil
  | cons source rest ih =>
      rw [groupsOf, List.flatten_cons] at h
      rcases List.mem_append.mp h with hfirst | hrest
      · obtain ⟨parents, children, draft, hdraft, rfl⟩ := exists_of_mem_familiesOf hfirst
        exact soundFamily_familyOf (soundDraft_of_mem hdraft) parents children
      · exact ih hrest

theorem eq_of_mem_of_nodup_flatMap {α β : Type} {items : List α} {f : α → List β}
    (h : (items.flatMap f).Nodup) {a b : α} (ha : a ∈ items) (hb : b ∈ items) {key : β}
    (hkey : key ∈ f a) (hkey' : key ∈ f b) : a = b := by
  induction items with
  | nil => exact absurd ha List.not_mem_nil
  | cons first rest ih =>
      rw [List.flatMap_cons, List.nodup_append'] at h
      have hapart : ∀ other ∈ rest, key ∈ f first → key ∉ f other := fun other hother hfirst hmem =>
        h.2.2 hfirst (List.mem_flatMap.mpr ⟨other, hother, hmem⟩)
      rcases List.mem_cons.mp ha with rfl | harest <;> rcases List.mem_cons.mp hb with rfl | hbrest
      · rfl
      · exact absurd hkey' (hapart b hbrest hkey)
      · exact absurd hkey (hapart a harest hkey')
      · exact ih h.2.1 harest hbrest

structure SoundGroups (groups : List (List Family)) : Prop where
  sound : ∀ family ∈ groups.flatten, SoundFamily family
  parentIds : (groups.flatten.map fun family => family.parent.parentId).Nodup
  chunkIds : ((groups.flatten.flatMap (·.children)).map (·.chunkId)).Nodup

variable {groups : List (List Family)} {child : KnowledgeIndexChunk}
  {parent : KnowledgeIndexParentChunk}

theorem chunkIds_flatMap_linkedChildren (groups : List (List Family)) :
    (groups.flatMap linkedChildren).map (·.chunkId) =
      (groups.flatten.flatMap (·.children)).map (·.chunkId) :=
  map_flatMap_linkedChildren (·.chunkId) (fun _ _ _ => rfl) groups

theorem SoundGroups.listed (h : SoundGroups groups) :
    (groups.flatten.map (·.parent)).flatMap (·.childIds) =
      (groups.flatMap linkedChildren).map (·.chunkId) := by
  rw [chunkIds_flatMap_linkedChildren, List.flatMap_map, List.map_flatMap]
  exact List.flatMap_congr fun family hfamily => (h.sound family hfamily).childIds

theorem SoundGroups.nodup_listed (h : SoundGroups groups) :
    ((groups.flatten.map (·.parent)).flatMap (·.childIds)).Nodup := by
  rw [h.listed, chunkIds_flatMap_linkedChildren]
  exact h.chunkIds

theorem exists_family_of_mem (h : child ∈ groups.flatMap linkedChildren) :
    ∃ family ∈ groups.flatten, ∃ unlinked ∈ family.children, ∃ previousId nextId,
      child = { unlinked with previousId := previousId, nextId := nextId } := by
  obtain ⟨families, hfamilies, hmem⟩ := List.mem_flatMap.mp h
  rw [linkedChildren, linkAdjacentChildren_eq] at hmem
  obtain ⟨unlinked, hunlinked, hlinks⟩ := exists_of_mem_linkAfter hmem
  obtain ⟨family, hfamily, hchild⟩ := List.mem_flatMap.mp hunlinked
  exact ⟨family, List.mem_flatten_of_mem hfamilies hfamily, unlinked, hchild, hlinks⟩

theorem SoundGroups.exists_family_of_name (h : SoundGroups groups)
    (hchild : child ∈ groups.flatMap linkedChildren)
    (hparent : parent ∈ groups.flatten.map (·.parent))
    (hname : child.parentId = some parent.parentId) :
    ∃ family ∈ groups.flatten, family.parent = parent ∧ ∃ unlinked ∈ family.children,
      ∃ previousId nextId,
        child = { unlinked with previousId := previousId, nextId := nextId } := by
  obtain ⟨family, hfamily, unlinked, hunlinked, previousId, nextId, rfl⟩ :=
    exists_family_of_mem hchild
  obtain ⟨other, hother, rfl⟩ := List.mem_map.mp hparent
  have hsame : family.parent.parentId = other.parent.parentId := by
    have hfamilyName := (h.sound family hfamily).parentId unlinked hunlinked
    exact Option.some.inj (hfamilyName.symm.trans hname)
  have heq := List.inj_on_of_nodup_map h.parentIds hfamily hother hsame
  exact ⟨family, hfamily, by rw [heq], unlinked, hunlinked, previousId, nextId, rfl⟩

theorem SoundGroups.named_back (h : SoundGroups groups)
    (hchild : child ∈ groups.flatMap linkedChildren)
    (hparent : parent ∈ groups.flatten.map (·.parent)) :
    child.chunkId ∈ parent.childIds ↔ child.parentId = some parent.parentId := by
  constructor
  · intro hlist
    obtain ⟨family, hfamily, unlinked, hunlinked, previousId, nextId, rfl⟩ :=
      exists_family_of_mem hchild
    have hown : unlinked.chunkId ∈ family.parent.childIds := by
      rw [(h.sound family hfamily).childIds]
      exact List.mem_map_of_mem hunlinked
    rw [eq_of_mem_of_nodup_flatMap h.nodup_listed hparent (List.mem_map_of_mem hfamily) hlist hown]
    exact (h.sound family hfamily).parentId unlinked hunlinked
  · intro hname
    obtain ⟨family, hfamily, rfl, unlinked, hunlinked, previousId, nextId, rfl⟩ :=
      h.exists_family_of_name hchild hparent hname
    show unlinked.chunkId ∈ family.parent.childIds
    rw [(h.sound family hfamily).childIds]
    exact List.mem_map_of_mem hunlinked

theorem SoundGroups.listed_once (h : SoundGroups groups)
    (hchild : child ∈ groups.flatMap linkedChildren) :
    ∃! parent, parent ∈ groups.flatten.map (·.parent) ∧ child.chunkId ∈ parent.childIds := by
  have hkey : child.chunkId ∈ (groups.flatten.map (·.parent)).flatMap (·.childIds) := by
    rw [h.listed]
    exact List.mem_map_of_mem hchild
  obtain ⟨parent, hparent, hlist⟩ := List.mem_flatMap.mp hkey
  refine ⟨parent, ⟨hparent, hlist⟩, ?_⟩
  rintro other ⟨hother, hlist'⟩
  exact eq_of_mem_of_nodup_flatMap h.nodup_listed hother hparent hlist' hlist

theorem SoundGroups.soundHierarchy (h : SoundGroups groups)
    (hlinked : List.Forall₂ LinkedSource sources (groups.map linkedChildren)) :
    SoundHierarchy sources
      { parents := groups.flatten.map (·.parent), children := groups.flatMap linkedChildren } where
  parent_budget := by
    intro parent hparent
    obtain ⟨family, hfamily, rfl⟩ := List.mem_map.mp hparent
    exact (h.sound family hfamily).budget
  child_budget := by
    intro child hchild
    obtain ⟨family, hfamily, unlinked, hunlinked, previousId, nextId, rfl⟩ :=
      exists_family_of_mem hchild
    exact (h.sound family hfamily).child_budget unlinked hunlinked
  chunkIds_nodup := by
    rw [chunkIds_flatMap_linkedChildren]
    exact h.chunkIds
  parentIds_nodup := by
    rw [List.map_map]
    exact h.parentIds
  linked := ⟨_, hlinked, (List.flatMap_def ..).symm⟩
  listed := h.listed
  listed_once := fun _ hchild => h.listed_once hchild
  named_back := fun _ hparent _ hchild => h.named_back hchild hparent
  range := by
    intro parent hparent child hchild hname
    obtain ⟨family, hfamily, rfl, unlinked, hunlinked, previousId, nextId, rfl⟩ :=
      h.exists_family_of_name hchild hparent hname
    exact (h.sound family hfamily).range unlinked hunlinked

theorem soundGroups_groupsOf (sources : List KnowledgeIndexTextSource) :
    SoundGroups (groupsOf 0 0 sources) := by
  obtain ⟨hparents, hchunks⟩ := ids_groupsOf 0 0 sources
  refine ⟨fun _ => soundFamily_of_mem_groupsOf, ?_, ?_⟩
  · rw [hparents]
    exact nodup_idsFrom parentIdOf_injective _ _
  · rw [hchunks]
    exact nodup_idsFrom chunkIdOf_injective _ _

/-- The chunks of any sources stay within their budgets, and their ids, links, parents and line
ranges agree. -/
theorem sound_buildTextChunkHierarchy (sources : List KnowledgeIndexTextSource) :
    SoundHierarchy sources (buildTextChunkHierarchy sources) := by
  rw [buildTextChunkHierarchy_eq]
  exact (soundGroups_groupsOf sources).soundHierarchy (forall₂_linkedSource 0 0 sources)

end Hierarchy

end HarborBeacon.ChunkLinks
