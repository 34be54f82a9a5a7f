import HarborBeacon.Binary32
import HarborBeacon.ModelSettings
import HarborBeacon.SearchScope

/-!
The knowledge settings of the admin state: the folders that are indexed, where the index lies,
and the bounds of retrieval and conversation; and the normalisation that runs on every load and
save.
-/

namespace HarborBeacon.KnowledgeFolders

open AdminConsole Binary32 FilledTables ModelRouting ModelSettings SearchScope Text TrimmedTexts

inductive RagResourceProfile where
  | cpuOnly
  | localGpu
  | sidecarGpu
  | cloudAllowed
deriving DecidableEq

@[ext]
structure KnowledgeSourceRoot where
  rootId : String
  label : String
  path : String
  enabled : Bool
  includes : List String
  exclude : List String
  lastIndexedAt : Option String
deriving DecidableEq

@[ext]
structure KnowledgeRetrievalSettings where
  queryExpansionEnabled : Bool
  fusionStrategy : String
  rrfK : F32
  lexicalWeight : F32
  vectorWeight : F32
  candidateLimit : Nat
  lexicalMinScore : F32
  vectorMinScore : F32
  semanticOnlyMinScore : F32
  rerankEnabled : Bool
  rerankTopK : Nat
  rerankMinScore : F32
  mmrEnabled : Bool
  mmrLambda : F32
deriving DecidableEq

@[ext]
structure KnowledgeConversationSettings where
  historyLimit : Nat
  contextTurnLimit : Nat
  contextTokenLimit : Nat
deriving DecidableEq

@[ext]
structure KnowledgeSettings where
  sourceRoots : List KnowledgeSourceRoot
  indexRoot : String
  privacyLevel : PrivacyLevel
  defaultResourceProfile : RagResourceProfile
  retrieval : KnowledgeRetrievalSettings
  conversation : KnowledgeConversationSettings
deriving DecidableEq

/-- The numbers that the settings are held between or fall back to. -/
def zero : F32 := ⟨0x00000000⟩
def one : F32 := ⟨0x3F800000⟩
def oneThousand : F32 := ⟨0x447A0000⟩
def sixty : F32 := ⟨0x42700000⟩
def fifteenHundredths : F32 := ⟨0x3E19999A⟩
def quarter : F32 := ⟨0x3E800000⟩
def thirtyFiveHundredths : F32 := ⟨0x3EB33333⟩
def fiftyFiveHundredths : F32 := ⟨0x3F0CCCCD⟩
def sixtyFiveHundredths : F32 := ⟨0x3F266666⟩
def sevenTenths : F32 := ⟨0x3F333333⟩

def epsilon : F32 := ⟨0x34000000⟩

def sanitizeUnitOrPositiveF32 (value min max fallback : F32) : F32 :=
  if value.isFinite then value.clamp min max else fallback

/-- `Ord::clamp` on a count. -/
def clampCount (value min max : Nat) : Nat :=
  if value < min then min else if max < value then max else value

def defaultRetrievalFusionStrategy : String := "rrf"

/-- Both weights cannot be nothing. -/
def weightsOf (lexicalWeight vectorWeight : F32) : F32 × F32 :=
  if lexicalWeight.le epsilon && vectorWeight.le epsilon then
    (thirtyFiveHundredths, sixtyFiveHundredths)
  else (lexicalWeight, vectorWeight)

def sanitizeKnowledgeRetrievalSettings (settings : KnowledgeRetrievalSettings) :
    KnowledgeRetrievalSettings :=
  let weights := weightsOf
    (sanitizeUnitOrPositiveF32 settings.lexicalWeight zero one thirtyFiveHundredths)
    (sanitizeUnitOrPositiveF32 settings.vectorWeight zero one sixtyFiveHundredths)
  let candidateLimit := clampCount settings.candidateLimit 1 500
  { settings with
    fusionStrategy :=
      if eqIgnoreAsciiCase settings.fusionStrategy "rrf" then "rrf"
      else defaultRetrievalFusionStrategy
    rrfK := sanitizeUnitOrPositiveF32 settings.rrfK one oneThousand sixty
    lexicalWeight := weights.1
    vectorWeight := weights.2
    candidateLimit
    lexicalMinScore := sanitizeUnitOrPositiveF32 settings.lexicalMinScore zero one zero
    vectorMinScore := sanitizeUnitOrPositiveF32 settings.vectorMinScore zero one quarter
    semanticOnlyMinScore :=
      sanitizeUnitOrPositiveF32 settings.semanticOnlyMinScore zero one fiftyFiveHundredths
    rerankTopK := clampCount settings.rerankTopK 1 (max candidateLimit 1)
    rerankMinScore := sanitizeUnitOrPositiveF32 settings.rerankMinScore zero one fifteenHundredths
    mmrLambda := sanitizeUnitOrPositiveF32 settings.mmrLambda zero one sevenTenths }

section Roots

/-- `Path::file_name` on a Unix system. -/
def fileName (path : String) : Option String :=
  let components := (path.toList.splitOn '/').filter fun part => part ≠ [] ∧ part ≠ ['.']
  (components.getLast?.filter fun part => part ≠ ['.', '.']).map String.ofList

def namedSlug (value : String) : Option String :=
  (some (slugifyIdentityComponent value)).filter fun slug => slug ≠ "" ∧ slug ≠ "item"

def sanitizeKnowledgeRootId (rootId label path : String) (index : Nat) : String :=
  match namedSlug rootId with
  | some existing => existing
  | none =>
      match namedSlug label with
      | some fromLabel => "knowledge-" ++ fromLabel
      | none =>
          "knowledge-" ++ ((fileName path).bind namedSlug).getD ("root-" ++ toString (index + 1))

def sanitizeKnowledgeRootLabel (label path rootId : String) : String :=
  trimOr (trimOr rootId ((fileName path).getD "")) label

def sanitizeKnowledgeRoot (root : KnowledgeSourceRoot) (index : Nat) :
    Option KnowledgeSourceRoot :=
  let path := trim root.path
  if path = "" then none
  else
    let rootId := sanitizeKnowledgeRootId root.rootId root.label path index
    some
      { root with
        path
        rootId
        label := sanitizeKnowledgeRootLabel root.label path rootId
        includes := sanitizeStringList root.includes
        exclude := sanitizeStringList root.exclude
        lastIndexedAt := root.lastIndexedAt.bind nonEmptyOpt }

variable (tree : FileTree)

def pathKey (root : KnowledgeSourceRoot) : String :=
  normalizedPathKey tree root.path

/-- The loop over the roots: a root needs an id and a folder that were not seen, and the id is
noted before the folder is looked up. -/
def sanitizeSourceRoots (roots : List KnowledgeSourceRoot) : List KnowledgeSourceRoot :=
  keepFresh KnowledgeSourceRoot.rootId (pathKey tree) [] []
    (roots.zipIdx.filterMap fun entry => sanitizeKnowledgeRoot entry.1 entry.2)

end Roots

section Settings

variable (env : CenterEnvironment) (tree : FileTree)

def defaultKnowledgeIndexRoot : String :=
  joinPath (harborosWritableRoot env) "knowledge-index"

def sanitizeKnowledgeSettings (settings : KnowledgeSettings) : KnowledgeSettings :=
  { sourceRoots := sanitizeSourceRoots tree settings.sourceRoots
    indexRoot := trimOr (defaultKnowledgeIndexRoot env) settings.indexRoot
    privacyLevel := settings.privacyLevel
    defaultResourceProfile := settings.defaultResourceProfile
    retrieval := sanitizeKnowledgeRetrievalSettings settings.retrieval
    conversation :=
      { historyLimit := clampCount settings.conversation.historyLimit 1 100
        contextTurnLimit := clampCount settings.conversation.contextTurnLimit 0 20
        contextTokenLimit := clampCount settings.conversation.contextTokenLimit 4096 8192 } }

/-- Each folder that is listed stays listed, once and under an id of its own, and a second
normalisation changes nothing. -/
structure FoldersKept (settings : KnowledgeSettings) : Prop where
  folders : ∀ root ∈ settings.sourceRoots, pathKey tree root ≠ "" →
    ∃! kept, kept ∈ (sanitizeKnowledgeSettings env tree settings).sourceRoots ∧
      pathKey tree kept = pathKey tree root
  ids : ((sanitizeKnowledgeSettings env tree settings).sourceRoots.map
    KnowledgeSourceRoot.rootId).Nodup
  settled : sanitizeKnowledgeSettings env tree (sanitizeKnowledgeSettings env tree settings) =
    sanitizeKnowledgeSettings env tree settings

def idAt (root : KnowledgeSourceRoot) (index : Nat) : String :=
  sanitizeKnowledgeRootId root.rootId root.label (trim root.path) index

/-- No root with a path gets the id of the root between `before` and the rest of the list
before it. -/
def TakesItsId (before : List KnowledgeSourceRoot) (root : KnowledgeSourceRoot) : Prop :=
  ∀ taken ∈ before.zipIdx, trim taken.1.path ≠ "" →
    idAt taken.1 taken.2 ≠ idAt root before.length

/-- Each folder is the folder of a root whose id no root before it gets. -/
def FoldersHaveIds (settings : KnowledgeSettings) : Prop :=
  ∀ root ∈ settings.sourceRoots, pathKey tree root ≠ "" →
    ∃ before other after, settings.sourceRoots = before ++ other :: after ∧
      pathKey tree other = pathKey tree root ∧ TakesItsId before other

end Settings

end HarborBeacon.KnowledgeFolders
