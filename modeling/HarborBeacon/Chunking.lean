import HarborBeacon.DecimalText
import HarborBeacon.Text
import Mathlib.Algebra.GroupWithZero.Nat

/-!
The chunks of the knowledge index. A source text is cut into parents at headings and near a
budget of estimated tokens, and the lines of a parent are cut into children with a smaller budget,
each of which begins with the end of the child before it.
-/

namespace HarborBeacon.Chunking

open DecimalText Text

structure KnowledgeIndexTextSource where
  sourceKind : String
  sourcePath : Option String
  providerKey : Option String
  text : String
deriving DecidableEq

structure KnowledgeIndexChunk where
  chunkId : String
  parentId : Option String
  previousId : Option String
  nextId : Option String
  sectionPath : List String
  lineStart : Nat
  lineEnd : Nat
  text : String
  indexedText : String
  sourceKind : String
  sourcePath : Option String
deriving DecidableEq

structure KnowledgeIndexParentChunk where
  parentId : String
  sectionPath : List String
  lineStart : Nat
  lineEnd : Nat
  text : String
  childIds : List String
  sourceKind : String
  sourcePath : Option String
deriving DecidableEq

structure KnowledgeChunkHierarchy where
  parents : List KnowledgeIndexParentChunk := []
  children : List KnowledgeIndexChunk := []
deriving DecidableEq

structure ChunkSourceLine where
  number : Nat
  text : String
  sectionPath : List String
deriving DecidableEq

structure ParentChunkDraft where
  lines : List ChunkSourceLine
  sectionPath : List String
deriving DecidableEq

def childChunkTargetTokens : Nat := 240

def childChunkOverlapTokens : Nat := 48

def parentChunkTargetTokens : Nat := 750

def parentChunkMaxTokens : Nat := 900

def divCeil (n d : Nat) : Nat :=
  (n + d - 1) / d

def isWordChar (c : Char) : Bool :=
  c.isAlphanum || c = '_'

structure TokenCount where
  tokens : Nat := 0
  asciiRun : Nat := 0
deriving DecidableEq

def TokenCount.flushAsciiRun (count : TokenCount) : TokenCount :=
  if 0 < count.asciiRun then { tokens := count.tokens + divCeil count.asciiRun 4, asciiRun := 0 }
  else count

def TokenCount.push (count : TokenCount) (c : Char) : TokenCount :=
  if isWordChar c then { count with asciiRun := count.asciiRun + 1 }
  else
    let count := count.flushAsciiRun
    if isWhitespace c then count else { count with tokens := count.tokens + 1 }

def estimatedTokenCount (text : String) : Nat :=
  (text.toList.foldl TokenCount.push {}).flushAsciiRun.tokens

def lineTokens (line : ChunkSourceLine) : Nat :=
  max (estimatedTokenCount line.text) 1

def estimatedLinesTokenCount (lines : List ChunkSourceLine) : Nat :=
  (lines.map lineTokens).sum

def markdownHeading (line : String) : Option (Nat × String) :=
  let trimmed := line.toList.dropWhile isWhitespace
  let level := (trimmed.takeWhile (· = '#')).length
  if 1 ≤ level ∧ level ≤ 6 then
    let title := trimChars (trimmed.drop level)
    if title = [] then none else some (level, String.ofList title)
  else none

structure SegmentState where
  segments : List (List Char) := []
  current : List Char := []
  currentTokens : Nat := 0
  asciiRun : Nat := 0
deriving DecidableEq

def SegmentState.tokenIncrement (state : SegmentState) (c : Char) : Nat :=
  if isWordChar c then divCeil (state.asciiRun + 1) 4 - divCeil state.asciiRun 4
  else if isWhitespace c then 0 else 1

def SegmentState.push (tokenBudget : Nat) (state : SegmentState) (c : Char) : SegmentState :=
  if state.current ≠ [] ∧ tokenBudget < state.currentTokens + state.tokenIncrement c then
    { segments := state.segments ++ [state.current]
      current := [c]
      currentTokens := state.tokenIncrement c
      asciiRun := if isWordChar c then 1 else 0 }
  else
    { state with
      current := state.current ++ [c]
      currentTokens := state.currentTokens + state.tokenIncrement c
      asciiRun := if isWordChar c then state.asciiRun + 1 else 0 }

def splitSourceLine (line : ChunkSourceLine) (tokenBudget : Nat) : List ChunkSourceLine :=
  if estimatedTokenCount line.text ≤ tokenBudget ∨ line.text = "" then [line]
  else
    let state := line.text.toList.foldl (SegmentState.push tokenBudget) {}
    let segments := state.segments ++ if state.current = [] then [] else [state.current]
    segments.map fun segment => { line with text := String.ofList segment }

def sourceLineTail (line : ChunkSourceLine) (tokenBudget : Nat) : ChunkSourceLine :=
  (splitSourceLine line tokenBudget).getLast?.getD line

def joinChunkSourceLines (lines : List ChunkSourceLine) : String :=
  trim (joinTexts "\n" (lines.map fun line => trimEnd line.text))

def pushParentDraft (drafts : List ParentChunkDraft) (currentLines : List ChunkSourceLine) :
    List ParentChunkDraft :=
  if currentLines.all fun line => isBlank line.text then drafts
  else
    let sectionPath :=
      ((currentLines.find? fun line => !line.sectionPath.isEmpty).map (·.sectionPath)).getD []
    drafts ++ [{ lines := currentLines, sectionPath := sectionPath }]

structure ParentState where
  drafts : List ParentChunkDraft := []
  currentLines : List ChunkSourceLine := []
  currentTokens : Nat := 0
  headingStack : List String := []
deriving DecidableEq

def ParentState.flush (state : ParentState) : ParentState :=
  { state with
    drafts := pushParentDraft state.drafts state.currentLines
    currentLines := []
    currentTokens := 0 }

def ParentState.addSegment (state : ParentState) (segment : ChunkSourceLine) : ParentState :=
  let projectedTokens := state.currentTokens + lineTokens segment
  let atParagraphBoundary := isBlank segment.text
  let state :=
    if !state.currentLines.isEmpty &&
        (parentChunkMaxTokens < projectedTokens ||
          (parentChunkTargetTokens ≤ state.currentTokens && atParagraphBoundary)) then state.flush
    else state
  { state with
    currentLines := state.currentLines ++ [segment]
    currentTokens := state.currentTokens + lineTokens segment }

def ParentState.addLine (state : ParentState) (line : String × Nat) : ParentState :=
  let text := trimEnd line.1
  let heading := markdownHeading text
  let state :=
    if heading.isSome && !state.currentLines.isEmpty then state.flush else state
  let state :=
    match heading with
    | some (level, title) =>
        { state with headingStack := state.headingStack.take (level - 1) ++ [title] }
    | none => state
  let sourceLine := { number := line.2 + 1, text := text, sectionPath := state.headingStack }
  (splitSourceLine sourceLine parentChunkMaxTokens).foldl ParentState.addSegment state

def buildParentDraftsForSource (source : KnowledgeIndexTextSource) : List ParentChunkDraft :=
  ((lines source.text).zipIdx.foldl ParentState.addLine {}).flush.drafts

/-- The loop of `trailing_overlap_lines` over the lines from the last one on, with the lines taken
so far in their order. -/
def trailingOverlapLoop (tokenBudget : Nat) :
    (reversed overlap : List ChunkSourceLine) → (tokens : Nat) → List ChunkSourceLine
  | [], overlap, _ => overlap
  | line :: rest, overlap, tokens =>
      if overlap = [] ∧ tokenBudget < lineTokens line then [sourceLineTail line tokenBudget]
      else if overlap ≠ [] ∧ tokenBudget < tokens + lineTokens line then overlap
      else if tokenBudget ≤ tokens + lineTokens line then line :: overlap
      else trailingOverlapLoop tokenBudget rest (line :: overlap) (tokens + lineTokens line)

def trailingOverlapLines (lines : List ChunkSourceLine) (tokenBudget : Nat) :
    List ChunkSourceLine :=
  trailingOverlapLoop tokenBudget lines.reverse [] 0

structure ChildState where
  drafts : List (List ChunkSourceLine) := []
  current : List ChunkSourceLine := []
  currentTokens : Nat := 0
deriving DecidableEq

def ChildState.addSegment (state : ChildState) (segment : ChunkSourceLine) : ChildState :=
  let state :=
    if state.current ≠ [] ∧ childChunkTargetTokens < state.currentTokens + lineTokens segment then
      let overlap := trailingOverlapLines state.current childChunkOverlapTokens
      { drafts := state.drafts ++ [state.current]
        current := overlap
        currentTokens := estimatedLinesTokenCount overlap }
    else state
  { state with
    current := state.current ++ [segment]
    currentTokens := state.currentTokens + lineTokens segment }

def buildChildDrafts (lines : List ChunkSourceLine) : List (List ChunkSourceLine) :=
  let segments := lines.flatMap fun line => splitSourceLine line childChunkTargetTokens
  let state := segments.foldl ChildState.addSegment {}
  if state.current ≠ [] ∧ (state.current.any fun line => !isBlank line.text) then
    state.drafts ++ [state.current]
  else state.drafts

section Hierarchy

def buildChildIndexedText (sectionPath : List String) (text : String) : String :=
  if sectionPath = [] then text
  else "章节：" ++ joinTexts " > " sectionPath ++ "\n" ++ text

def parentIdOf (n : Nat) : String :=
  "parent-" ++ String.ofList (zeroPadded 4 n)

def chunkIdOf (n : Nat) : String :=
  "chunk-" ++ String.ofList (zeroPadded 4 n)

def firstNumber (lines : List ChunkSourceLine) : Nat :=
  (lines.head?.map (·.number)).getD 1

def lastNumber (lines : List ChunkSourceLine) : Nat :=
  (lines.getLast?.map (·.number)).getD 1

variable (source : KnowledgeIndexTextSource)

def addChild (draft : ParentChunkDraft) (parentId : String) (parentIndex : Nat)
    (hierarchy : KnowledgeChunkHierarchy) (childLines : List ChunkSourceLine) :
    KnowledgeChunkHierarchy :=
  let text := joinChunkSourceLines childLines
  if text = "" then hierarchy
  else
    let chunkId := chunkIdOf (hierarchy.children.length + 1)
    { parents := hierarchy.parents.modify parentIndex fun parent =>
        { parent with childIds := parent.childIds ++ [chunkId] }
      children := hierarchy.children ++ [
        { chunkId := chunkId
          parentId := some parentId
          previousId := none
          nextId := none
          sectionPath := draft.sectionPath
          lineStart := firstNumber childLines
          lineEnd := lastNumber childLines
          text := text
          indexedText := buildChildIndexedText draft.sectionPath text
          sourceKind := source.sourceKind
          sourcePath := source.sourcePath }] }

def addParent (hierarchy : KnowledgeChunkHierarchy) (draft : ParentChunkDraft) :
    KnowledgeChunkHierarchy :=
  let parentId := parentIdOf (hierarchy.parents.length + 1)
  let parentText := joinChunkSourceLines draft.lines
  if parentText = "" then hierarchy
  else
    let parentIndex := hierarchy.parents.length
    let parent :=
      { parentId := parentId
        sectionPath := draft.sectionPath
        lineStart := firstNumber draft.lines
        lineEnd := lastNumber draft.lines
        text := parentText
        childIds := []
        sourceKind := source.sourceKind
        sourcePath := source.sourcePath }
    (buildChildDrafts draft.lines).foldl (addChild source draft parentId parentIndex)
      { hierarchy with parents := hierarchy.parents ++ [parent] }

def linkAdjacentChildren (children : List KnowledgeIndexChunk) : List KnowledgeIndexChunk :=
  children.mapIdx fun index chunk =>
    { chunk with
      previousId := if index = 0 then none else children[index - 1]?.map (·.chunkId)
      nextId := children[index + 1]?.map (·.chunkId) }

def addSource (hierarchy : KnowledgeChunkHierarchy) : KnowledgeChunkHierarchy :=
  let sourceChildStart := hierarchy.children.length
  let hierarchy := (buildParentDraftsForSource source).foldl (addParent source) hierarchy
  { hierarchy with
    children := hierarchy.children.take sourceChildStart ++
      linkAdjacentChildren (hierarchy.children.drop sourceChildStart) }

def buildTextChunkHierarchy (textSources : List KnowledgeIndexTextSource) :
    KnowledgeChunkHierarchy :=
  textSources.foldl (fun hierarchy source => addSource source hierarchy) {}

end Hierarchy

end HarborBeacon.Chunking
