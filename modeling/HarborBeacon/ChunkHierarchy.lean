import HarborBeacon.ChunkDrafts

/-!
The hierarchy of chunks. The passes over the sources, the parents and the children only append, so
that the hierarchy is a list of families, each a parent with its children, and the ids count the
parents and the children.
-/

namespace HarborBeacon.ChunkHierarchy

open Chunking ChunkTokens ChunkDrafts DecimalText OverlapPacking

section Families

structure Family where
  parent : KnowledgeIndexParentChunk
  children : List KnowledgeIndexChunk

variable (source : KnowledgeIndexTextSource)

def childOf (draft : ParentChunkDraft) (parentId : String) (childCount : Nat)
    (childLines : List ChunkSourceLine) : KnowledgeIndexChunk where
  chunkId := chunkIdOf (childCount + 1)
  parentId := some parentId
  previousId := none
  nextId := none
  sectionPath := draft.sectionPath
  lineStart := firstNumber childLines
  lineEnd := lastNumber childLines
  text := joinChunkSourceLines childLines
  indexedText := buildChildIndexedText draft.sectionPath (joinChunkSourceLines childLines)
  sourceKind := source.sourceKind
  sourcePath := source.sourcePath

def childrenOf (draft : ParentChunkDraft) (parentId : String) :
    Nat → List (List ChunkSourceLine) → List KnowledgeIndexChunk
  | _, [] => []
  | childCount, childLines :: rest =>
      if joinChunkSourceLines childLines = "" then childrenOf draft parentId childCount rest
      else
        childOf source draft parentId childCount childLines ::
          childrenOf draft parentId (childCount + 1) rest

def familyOf (parentCount childCount : Nat) (draft : ParentChunkDraft) : Family :=
  let children := childrenOf source draft (parentIdOf (parentCount + 1)) childCount
    (buildChildDrafts draft.lines)
  { parent :=
      { parentId := parentIdOf (parentCount + 1)
        sectionPath := draft.sectionPath
        lineStart := firstNumber draft.lines
        lineEnd := lastNumber draft.lines
        text := joinChunkSourceLines draft.lines
        childIds := children.map (·.chunkId)
        sourceKind := source.sourceKind
        sourcePath := source.sourcePath }
    children := children }

def familiesOf : Nat → Nat → List ParentChunkDraft → List Family
  | _, _, [] => []
  | parentCount, childCount, draft :: rest =>
      let family := familyOf source parentCount childCount draft
      family :: familiesOf (parentCount + 1) (childCount + family.children.length) rest

def groupsOf : Nat → Nat → List KnowledgeIndexTextSource → List (List Family)
  | _, _, [] => []
  | parentCount, childCount, source :: rest =>
      let group := familiesOf source parentCount childCount (buildParentDraftsForSource source)
      group :: groupsOf (parentCount + group.length)
        (childCount + (group.flatMap (·.children)).length) rest

def linkedChildren (families : List Family) : List KnowledgeIndexChunk :=
  linkAdjacentChildren (families.flatMap (·.children))

variable {source} {draft : ParentChunkDraft}

theorem modify_concat {α : Type} (items : List α) (item : α) (f : α → α) :
    (items ++ [item]).modify items.length f = items ++ [f item] := by
  induction items with
  | nil => rfl
  | cons first rest ih => rw [List.cons_append, List.length_cons, List.modify_succ_cons, ih,
      List.cons_append]

theorem addChild_eq (parentId : String) (parents : List KnowledgeIndexParentChunk)
    (parent : KnowledgeIndexParentChunk) (children : List KnowledgeIndexChunk)
    {childLines : List ChunkSourceLine} (htext : joinChunkSourceLines childLines ≠ "") :
    addChild source draft parentId parents.length
        { parents := parents ++ [parent], children := children } childLines =
      { parents := parents ++ [{ parent with
          childIds := parent.childIds ++ [chunkIdOf (children.length + 1)] }]
        children := children ++ [childOf source draft parentId children.length childLines] } := by
  rw [addChild, if_neg htext]
  simp only [modify_concat]
  rfl

theorem foldl_addChild (parentId : String) (drafts : List (List ChunkSourceLine))
    (parents : List KnowledgeIndexParentChunk) (parent : KnowledgeIndexParentChunk)
    (children : List KnowledgeIndexChunk) :
    drafts.foldl (addChild source draft parentId parents.length)
        { parents := parents ++ [parent], children := children } =
      { parents := parents ++ [{ parent with
          childIds := parent.childIds ++
            (childrenOf source draft parentId children.length drafts).map (·.chunkId) }]
        children := children ++ childrenOf source draft parentId children.length drafts } := by
  induction drafts generalizing parent children with
  | nil => simp [childrenOf]
  | cons childLines rest ih =>
      rw [List.foldl_cons, childrenOf]
      split
      · rename_i hempty
        rw [addChild, if_pos hempty]
        exact ih parent children
      · rename_i htext
        rw [addChild_eq parentId parents parent children htext, ih, List.length_append,
          List.length_singleton, List.map_cons, List.append_assoc, List.append_assoc]
        rfl

theorem addParent_eq (hierarchy : KnowledgeChunkHierarchy) (htext : linesInk draft.lines ≠ []) :
    addParent source hierarchy draft =
      let family := familyOf source hierarchy.parents.length hierarchy.children.length draft
      { parents := hierarchy.parents ++ [family.parent]
        children := hierarchy.children ++ family.children } := by
  have hne : joinChunkSourceLines draft.lines ≠ "" := by
    intro hempty
    exact htext (List.flatMap_eq_nil_iff.mpr ((join_eq_empty_iff _).mp hempty))
  rw [addParent, if_neg hne, foldl_addChild]
  rfl

theorem foldl_addParent {drafts : List ParentChunkDraft}
    (htext : ∀ draft ∈ drafts, linesInk draft.lines ≠ []) (hierarchy : KnowledgeChunkHierarchy) :
    drafts.foldl (addParent source) hierarchy =
      let families := familiesOf source hierarchy.parents.length hierarchy.children.length drafts
      { parents := hierarchy.parents ++ families.map (·.parent)
        children := hierarchy.children ++ families.flatMap (·.children) } := by
  induction drafts generalizing hierarchy with
  | nil => simp [familiesOf]
  | cons draft rest ih =>
      rw [List.foldl_cons, addParent_eq hierarchy (htext draft List.mem_cons_self),
        ih fun other hother => htext other (List.mem_cons_of_mem _ hother)]
      simp [familiesOf]

theorem addSource_eq (hierarchy : KnowledgeChunkHierarchy) :
    addSource source hierarchy =
      let families := familiesOf source hierarchy.parents.length hierarchy.children.length
        (buildParentDraftsForSource source)
      { parents := hierarchy.parents ++ families.map (·.parent)
        children := hierarchy.children ++ linkedChildren families } := by
  rw [addSource, foldl_addParent fun draft hdraft =>
    ((buildParentDraftsForSource_spec source).2.1 draft hdraft).2]
  simp [linkedChildren]

theorem length_linkedChildren (families : List Family) :
    (linkedChildren families).length = (families.flatMap (·.children)).length :=
  List.length_mapIdx

theorem foldl_addSource (sources : List KnowledgeIndexTextSource)
    (hierarchy : KnowledgeChunkHierarchy) :
    sources.foldl (fun hierarchy source => addSource source hierarchy) hierarchy =
      let groups := groupsOf hierarchy.parents.length hierarchy.children.length sources
      { parents := hierarchy.parents ++ groups.flatten.map (·.parent)
        children := hierarchy.children ++ groups.flatMap linkedChildren } := by
  induction sources generalizing hierarchy with
  | nil => simp [groupsOf]
  | cons source rest ih =>
      rw [List.foldl_cons, ih, addSource_eq]
      simp [groupsOf, length_linkedChildren]

theorem buildTextChunkHierarchy_eq (sources : List KnowledgeIndexTextSource) :
    buildTextChunkHierarchy sources =
      { parents := (groupsOf 0 0 sources).flatten.map (·.parent)
        children := (groupsOf 0 0 sources).flatMap linkedChildren } :=
  foldl_addSource sources {}

end Families

end HarborBeacon.ChunkHierarchy
