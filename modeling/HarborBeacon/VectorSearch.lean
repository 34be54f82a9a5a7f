import HarborBeacon.EmbeddingWarmup
import HarborBeacon.Results
import HarborBeacon.TopRows
import Mathlib.Data.Prod.Lex

/-!
The search for the entries of an embedding store that are similar to a query. All rows of the vector
file are scored, or the nearest of the indexed ones are taken from the index and only the rows
behind them are scored; entries that are required are scored in any case.
-/

namespace HarborBeacon.VectorSearch

open Binary32 EmbeddingFiles EmbeddingWarmup FilledTables KnowledgeFiles Results Text TopRows
open VectorRows

structure SearchResult (α : Type) where
  id : Nat
  distance : α

/-- The environment of a search: the value of `HARBOR_VECTOR_SEARCH_MODE`, the vector files that can
be opened, the search in an index file, and the cosine similarity of a query to the bytes of a row
or to a vector. -/
structure SearchHost (α : Type) where
  searchMode : Option String
  vectorFile : FilePath → Option (List UInt8)
  searchIndex : FilePath → List F32 → Nat → Except String (List (SearchResult α))
  cosineSimilarityLeBytes : List F32 → List UInt8 → α
  cosineSimilarityF32 : List F32 → List F32 → α

section Search

variable {α : Type} [LinearOrder α] [AddCommGroup α] [One α]

def vectorTombstoneOverfetchMultiplier : Nat := 4

def saturatingAdd (a b : Nat) : Nat :=
  min (a + b) 18446744073709551615

def normalizePayloadPath (path : String) : String :=
  replaceChar '\\' '/' path

def clampScore (score : α) : α :=
  if score < 0 then 0 else if 1 < score then 1 else score

def normalizedKey (entry : KnowledgeEmbeddingEntry) : String :=
  embeddingKeyForChunk (normalizePayloadPath entry.path) entry.chunkId

def isRequired (requiredKeys : List String) (entry : KnowledgeEmbeddingEntry) : Bool :=
  entry.key ∈ requiredKeys || normalizedKey entry ∈ requiredKeys

/-- The scores with the indices of their entries. -/
structure Collected (α : Type) where
  ranked : List (α × Nat) := []
  required : List (α × Nat) := []

variable (host : SearchHost α) (storePath : FilePath) (store : KnowledgeEmbeddingStore)
  (queryVector : List F32) (minimumScore : α) (topK : Nat) (requiredKeys : List String)

def collectEmbeddingScore (entry : KnowledgeEmbeddingEntry) (index : Nat) (score : α)
    (collected : Collected α) : Collected α :=
  if entry.superseded then collected
  else if isRequired requiredKeys entry then
    { collected with required := collected.required ++ [(score, index)] }
  else if minimumScore ≤ score then
    { collected with ranked := collected.ranked ++ [(score, index)] }
  else collected

def mapVectors : Except String (List UInt8) := do
  let vectorPath ← embeddingVectorPath storePath store
  let bytes ← orError (host.vectorFile vectorPath)
    ("failed to open knowledge embedding vector file " ++ vectorPath.display)
  validateEmbeddingVectorBytes storePath store bytes.length
  return bytes

def rowScore (vectors : List UInt8) (index : Nat) : α :=
  clampScore (host.cosineSimilarityLeBytes queryVector
    (rowAt (store.vectorDimensions.getD 0) index vectors))

def collectDiskEmbeddingScoresFrom (startIndex : Nat) (collected : Collected α) :
    Except String (Collected α) := do
  let vectors ← mapVectors host storePath store
  return (store.entries.zipIdx.drop startIndex).foldl
    (fun collected row =>
      if row.1.superseded then collected
      else collectEmbeddingScore minimumScore requiredKeys row.1 row.2
        (rowScore host store queryVector vectors row.2) collected)
    collected

def collectDiskEmbeddingScores (collected : Collected α) : Except String (Collected α) :=
  collectDiskEmbeddingScoresFrom host storePath store queryVector minimumScore requiredKeys 0
    collected

def collectRequiredEmbeddingScores (collected : Collected α) : Except String (Collected α) :=
  if requiredKeys.isEmpty then .ok collected
  else do
    let vectors ← mapVectors host storePath store
    return store.entries.zipIdx.foldl
      (fun collected row =>
        if row.1.superseded then collected
        else if !isRequired requiredKeys row.1 then collected
        else
          { collected with
            required := collected.required ++ [(rowScore host store queryVector vectors row.2, row.2)] })
      collected

def baseCount : Nat :=
  min (store.hnswEntryCount.getD store.entries.length) store.entries.length

/-- How many neighbours are fetched: more than are asked for, as superseded entries are among the
indexed ones. -/
def hnswTopK : Nat :=
  let inactiveBaseCount := ((store.entries.take (baseCount store)).filter (·.superseded)).length
  min (saturatingAdd (max topK 1)
      (min inactiveBaseCount (saturatingMul (max topK 1) (vectorTombstoneOverfetchMultiplier - 1))))
    (max (baseCount store) 1)

def rankNeighbours : List (SearchResult α) → List (α × Nat) → Except String (List (α × Nat))
  | [], ranked => .ok ranked
  | result :: results, ranked =>
      match (store.entries.take (baseCount store))[result.id]? with
      | none => .error ("knowledge HNSW index returned invalid vector id " ++ toString result.id)
      | some entry =>
          if entry.superseded then rankNeighbours results ranked
          else
            let score := clampScore (1 - result.distance)
            if minimumScore ≤ score then rankNeighbours results (ranked ++ [(score, result.id)])
            else rankNeighbours results ranked

def collectIndexedScores : Except String (Collected α) :=
  match (embeddingHnswPath storePath store).bind fun path =>
      host.searchIndex path queryVector (hnswTopK store topK) with
  | .ok results => do
      let ranked ← rankNeighbours store minimumScore results []
      let collected ← collectDiskEmbeddingScoresFrom host storePath store queryVector minimumScore
        requiredKeys (baseCount store) { ranked := ranked }
      collectRequiredEmbeddingScores host storePath store queryVector requiredKeys collected
  | .error _ =>
      collectDiskEmbeddingScores host storePath store queryVector minimumScore requiredKeys {}

def collectLegacyScores : Collected α :=
  store.entries.zipIdx.foldl
    (fun collected row =>
      if row.1.vector.length ≠ store.vectorDimensions.getD 0 then collected
      else collectEmbeddingScore minimumScore requiredKeys row.1 row.2
        (clampScore (host.cosineSimilarityF32 queryVector row.1.vector)) collected)
    {}

def useHnsw : Bool :=
  (store.schemaVersion = embeddingStoreSchemaVersion ||
    store.schemaVersion = hnswSnapshotEmbeddingStoreSchemaVersion) &&
  !(host.searchMode.any fun value => eqIgnoreAsciiCase value "exact")

def rankKey (row : α × Nat) : αᵒᵈ ×ₗ Nat :=
  toLex (OrderDual.toDual row.1, row.2)

def scoreTable (rows : List (α × Nat)) : Table α :=
  rows.foldl
    (fun scores row =>
      match store.entries[row.2]? with
      | some entry => (scores.insert entry.key row.1).insert (normalizedKey entry) row.1
      | none => scores)
    ∅

def searchEmbeddingStore : Except String (Table α) :=
  if queryVector.isEmpty || store.vectorDimensions.getD 0 ≠ queryVector.length ||
      store.entries.isEmpty then .ok ∅
  else do
    let collected ←
      if useHnsw host store then
        collectIndexedScores host storePath store queryVector minimumScore topK requiredKeys
      else if store.schemaVersion = legacyEmbeddingStoreSchemaVersion then
        .ok (collectLegacyScores host store queryVector minimumScore requiredKeys)
      else
        collectDiskEmbeddingScores host storePath store queryVector minimumScore requiredKeys {}
    return scoreTable store
      ((sortOn rankKey collected.ranked).take (max topK 1) ++ collected.required)

end Search

end HarborBeacon.VectorSearch
