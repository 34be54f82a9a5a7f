import HarborBeacon.VectorSearch

/-!
The search in the index against the search in all rows. Both answer with the same scores exactly if
the entries that the search in all rows ranks first are fetched from the index, where they are
indexed, and are not crowded out by the rows that compete with them there.
-/

namespace HarborBeacon.VectorSearch

open Binary32 EmbeddingFiles FilledTables KnowledgeFiles Results TopRows VectorRows

structure SearchCall (α : Type) where
  host : SearchHost α
  storePath : FilePath
  store : KnowledgeEmbeddingStore
  vectors : List UInt8
  queryVector : List F32
  minimumScore : α
  topK : Nat
  requiredKeys : List String

abbrev Row : Type := KnowledgeEmbeddingEntry × Nat

def reportKeys (entry : KnowledgeEmbeddingEntry) : List String :=
  [entry.key, normalizedKey entry]

variable {α : Type} [LinearOrder α] [AddCommGroup α] [One α]

/-- Both searches return the same map. -/
def SameScores : Except String (Table α) → Except String (Table α) → Prop
  | .ok first, .ok second => ∀ key, first.lookup key = second.lookup key
  | _, _ => False

namespace SearchCall

section Statements

variable (c : SearchCall α)

def inMode (searchMode : Option String) : SearchCall α :=
  { c with host := { c.host with searchMode := searchMode } }

def answer : Except String (Table α) :=
  searchEmbeddingStore c.host c.storePath c.store c.queryVector c.minimumScore c.topK c.requiredKeys

def rows : List Row :=
  c.store.entries.zipIdx

def similarity (index : Nat) : α :=
  c.host.cosineSimilarityLeBytes c.queryVector
    (rowAt (c.store.vectorDimensions.getD 0) index c.vectors)

def score (index : Nat) : α :=
  rowScore c.host c.store c.queryVector c.vectors index

/-- The files of the store are there, the vector file has its size, and the keys under which an
active entry is reported are no other active entry's. -/
structure Consistent : Prop where
  schema : c.store.schemaVersion = embeddingStoreSchemaVersion ∨
    c.store.schemaVersion = hnswSnapshotEmbeddingStoreSchemaVersion
  vectorFile : ∃ path, embeddingVectorPath c.storePath c.store = .ok path ∧
    c.host.vectorFile path = some c.vectors
  size : validateEmbeddingVectorBytes c.storePath c.store c.vectors.length = .ok ()
  index : ∃ path, embeddingHnswPath c.storePath c.store = .ok path
  keys : ∀ first ∈ c.rows, ∀ second ∈ c.rows,
    first.1.superseded = false → second.1.superseded = false →
    ∀ key ∈ reportKeys first.1, key ∈ reportKeys second.1 → first.2 = second.2

/-- The `k` nearest of the indexed rows, or all there are, each with one minus its similarity as its
distance. -/
structure Nearest (k : Nat) (results : List (SearchResult α)) : Prop where
  chosen : Chosen (fun row => OrderDual.toDual (c.similarity row)) k
    (List.range (baseCount c.store)) (results.map SearchResult.id)
  distance : ∀ result ∈ results, result.distance = 1 - c.similarity result.id

/-- The library answers with the nearest rows. -/
def FindsNearest : Prop :=
  ∀ path, embeddingHnswPath c.storePath c.store = .ok path → ∀ k, ∃ results,
    c.host.searchIndex path c.queryVector k = .ok results ∧ c.Nearest k results

/-- No two rows have the same similarity. -/
def WithoutTies : Prop :=
  ∀ first < c.store.entries.length, ∀ second < c.store.entries.length,
    c.similarity first = c.similarity second → first = second

def eligible (row : Row) : Bool :=
  !row.1.superseded && !isRequired c.requiredKeys row.1 && decide (c.minimumScore ≤ c.score row.2)

def nearerRows (index : Nat) : Nat :=
  (List.range (baseCount c.store)).countP fun other => c.similarity index < c.similarity other

/-- An active entry that the search in the index ranks: a fetched one, be it required or not, or one
behind the indexed ones that is not required. -/
def competes (row : Row) : Bool :=
  !row.1.superseded && decide (c.minimumScore ≤ c.score row.2) &&
    if row.2 < baseCount c.store then decide (c.nearerRows row.2 < hnswTopK c.store c.topK)
    else !isRequired c.requiredKeys row.1

def rowsAhead (kind : Row → Bool) (row : Row) : Nat :=
  c.rows.countP fun other => kind other &&
    decide (rankKey (c.score other.2, other.2) < rankKey (c.score row.2, row.2))

/-- What exact search ranks among the first is fetched from the index, if it is indexed, and fewer
rows than are asked for rank ahead of it in the search in the index. -/
def Recalled : Prop :=
  ∀ row ∈ c.rows, c.eligible row = true → c.rowsAhead c.eligible row < max c.topK 1 →
    (row.2 < baseCount c.store → c.nearerRows row.2 < hnswTopK c.store c.topK) ∧
    c.rowsAhead c.competes row < max c.topK 1

instance : Decidable c.Recalled :=
  inferInstanceAs (Decidable (∀ row ∈ c.rows, _ → _ → _ ∧ _))

/-- The query is one that the store can answer. -/
def Answerable : Prop :=
  c.queryVector ≠ [] ∧ c.store.vectorDimensions.getD 0 = c.queryVector.length ∧ c.store.entries ≠ []

end Statements

section Collecting

variable {c : SearchCall α}

omit [LinearOrder α] [AddCommGroup α] [One α] in
theorem mapVectors_eq (h : c.Consistent) : mapVectors c.host c.storePath c.store = .ok c.vectors := by
  obtain ⟨path, hpath, hfile⟩ := h.vectorFile
  rw [mapVectors, hpath, ok_bind, hfile, orError, ok_bind, h.size]
  rfl

def scoredRow (c : SearchCall α) (row : Row) : α × Nat :=
  (c.score row.2, row.2)

def needed (c : SearchCall α) (row : Row) : Bool :=
  !row.1.superseded && isRequired c.requiredKeys row.1

def scoredRows (c : SearchCall α) (kind : Row → Bool) : List (α × Nat) :=
  (c.rows.filter kind).map c.scoredRow

def tailRows (c : SearchCall α) (kind : Row → Bool) : List (α × Nat) :=
  ((c.rows.drop (baseCount c.store)).filter kind).map c.scoredRow

theorem foldl_collectEmbeddingScore (rows : List Row) (collected : Collected α) :
    rows.foldl
      (fun collected row =>
        if row.1.superseded then collected
        else collectEmbeddingScore c.minimumScore c.requiredKeys row.1 row.2 (c.score row.2)
          collected) collected =
      { ranked := collected.ranked ++ (rows.filter c.eligible).map c.scoredRow
        required := collected.required ++ (rows.filter c.needed).map c.scoredRow } := by
  induction rows generalizing collected with
  | nil => simp
  | cons row rows ih =>
      rw [List.foldl_cons, ih, collectEmbeddingScore, List.filter_cons, List.filter_cons]
      rcases hsuperseded : row.1.superseded with _ | _
      · rcases hrequired : isRequired c.requiredKeys row.1 with _ | _
        · rcases Decidable.em (c.minimumScore ≤ c.score row.2) with hscore | hscore
          · simp [eligible, needed, hsuperseded, hrequired, hscore, scoredRow]
          · simp [eligible, needed, hsuperseded, hrequired, hscore]
        · simp [eligible, needed, hsuperseded, hrequired, scoredRow]
      · simp [eligible, needed, hsuperseded]

theorem collectDiskEmbeddingScoresFrom_eq (h : c.Consistent) (startIndex : Nat)
    (collected : Collected α) :
    collectDiskEmbeddingScoresFrom c.host c.storePath c.store c.queryVector c.minimumScore
        c.requiredKeys startIndex collected =
      .ok
        { ranked := collected.ranked ++
            ((c.rows.drop startIndex).filter c.eligible).map c.scoredRow
          required := collected.required ++
            ((c.rows.drop startIndex).filter c.needed).map c.scoredRow } := by
  rw [collectDiskEmbeddingScoresFrom, mapVectors_eq h, ok_bind]
  exact congrArg _ (foldl_collectEmbeddingScore _ _)

theorem foldl_required (rows : List Row) (collected : Collected α) :
    rows.foldl
      (fun collected row =>
        if row.1.superseded then collected
        else if !isRequired c.requiredKeys row.1 then collected
        else { collected with required := collected.required ++ [(c.score row.2, row.2)] })
      collected =
      { collected with
        required := collected.required ++ (rows.filter c.needed).map c.scoredRow } := by
  induction rows generalizing collected with
  | nil => simp
  | cons row rows ih =>
      rw [List.foldl_cons, ih, List.filter_cons]
      rcases hsuperseded : row.1.superseded with _ | _
      · rcases hrequired : isRequired c.requiredKeys row.1 with _ | _
        · simp [needed, hsuperseded, hrequired]
        · simp [needed, hsuperseded, hrequired, scoredRow]
      · simp [needed, hsuperseded]

theorem collectRequiredEmbeddingScores_eq (h : c.Consistent) (collected : Collected α) :
    collectRequiredEmbeddingScores c.host c.storePath c.store c.queryVector c.requiredKeys collected =
      .ok { collected with required := collected.required ++ c.scoredRows c.needed } := by
  rw [collectRequiredEmbeddingScores]
  split
  · rename_i hempty
    have hnone : c.rows.filter c.needed = [] := by
      rw [List.filter_eq_nil_iff]
      intro row _
      simp [needed, isRequired, List.isEmpty_iff.mp hempty]
    simp [scoredRows, hnone]
  · rw [mapVectors_eq h, ok_bind]
    exact congrArg _ (foldl_required _ _)

end Collecting

section Neighbours

variable {c : SearchCall α} {k : Nat} {results : List (SearchResult α)} {result : SearchResult α}
  {kind : Row → Bool} {index : Nat}

def neighbourRow (c : SearchCall α) (result : SearchResult α) : Option (α × Nat) :=
  (c.store.entries[result.id]?).bind fun entry =>
    if entry.superseded then none
    else if c.minimumScore ≤ clampScore (1 - result.distance) then
      some (clampScore (1 - result.distance), result.id)
    else none

theorem rankNeighbours_eq {ranked : List (α × Nat)}
    (hids : ∀ result ∈ results, result.id < baseCount c.store) :
    rankNeighbours c.store c.minimumScore results ranked =
      .ok (ranked ++ results.filterMap c.neighbourRow) := by
  induction results generalizing ranked with
  | nil => simp [rankNeighbours]
  | cons result results ih =>
      have hlt := hids result List.mem_cons_self
      have hrest : ∀ ranked, rankNeighbours c.store c.minimumScore results ranked =
          .ok (ranked ++ results.filterMap c.neighbourRow) := fun ranked =>
        ih fun other hother => hids other (List.mem_cons_of_mem _ hother)
      have hbase : result.id < c.store.entries.length := hlt.trans_le (Nat.min_le_right _ _)
      rw [rankNeighbours, List.getElem?_take, if_pos hlt, List.getElem?_eq_getElem hbase,
        List.filterMap_cons, neighbourRow, List.getElem?_eq_getElem hbase, Option.bind_some]
      simp only [hrest]
      split
      · rfl
      · split
        · simp
        · rfl

theorem clampScore_of_distance (index : Nat) :
    clampScore (1 - (1 - c.similarity index)) = c.score index := by
  rw [sub_sub_cancel]
  rfl

omit [LinearOrder α] [AddCommGroup α] [One α] in
theorem mem_rows_iff {entry : KnowledgeEmbeddingEntry} :
    (entry, index) ∈ c.rows ↔ c.store.entries[index]? = some entry :=
  List.mk_mem_zipIdx_iff_getElem?

omit [LinearOrder α] [AddCommGroup α] [One α] in
theorem row_eq_of_index {first second : Row} (hfirst : first ∈ c.rows) (hsecond : second ∈ c.rows)
    (h : first.2 = second.2) : first = second := by
  obtain ⟨entry, index⟩ := first
  obtain ⟨other, place⟩ := second
  obtain rfl : index = place := h
  have hentry := (mem_rows_iff.mp hfirst).symm.trans (mem_rows_iff.mp hsecond)
  rw [Option.some.inj hentry]

omit [LinearOrder α] [AddCommGroup α] [One α] in
theorem nodup_map_rankKey {rows : List (α × Nat)} (h : (rows.map Prod.snd).Nodup) :
    (rows.map rankKey).Nodup := by
  refine List.Nodup.of_map (fun key : αᵒᵈ ×ₗ Nat => (ofLex key).2) ?_
  rw [List.map_map]
  exact h

theorem nodup_snd_scoredRows (kind : Row → Bool) : ((c.scoredRows kind).map Prod.snd).Nodup := by
  rw [scoredRows, List.map_map]
  have hall : (c.rows.map Prod.snd).Nodup := by
    rw [rows, List.zipIdx_map_snd]
    exact List.nodup_range'
  exact hall.sublist (List.filter_sublist.map _)

theorem tailRows_sublist (kind : Row → Bool) : (c.tailRows kind).Sublist (c.scoredRows kind) :=
  ((List.drop_sublist _ _).filter _).map _

theorem mem_scoredRows {scored : α × Nat} :
    scored ∈ c.scoredRows kind ↔ ∃ row ∈ c.rows, kind row = true ∧ c.scoredRow row = scored := by
  simp only [scoredRows, List.mem_map, List.mem_filter, and_assoc]

omit [AddCommGroup α] in
theorem Nearest.lt_baseCount [AddCommGroup α] (h : c.Nearest k results) :
    ∀ result ∈ results, result.id < baseCount c.store := fun _ hresult =>
  List.mem_range.mp (h.chosen.subset _ (List.mem_map_of_mem hresult))

theorem mem_ids_iff (hties : c.WithoutTies) (h : c.Nearest k results)
    (hindex : index < baseCount c.store) :
    index ∈ results.map SearchResult.id ↔ c.nearerRows index < k := by
  have hbase : ∀ row ∈ List.range (baseCount c.store), row < c.store.entries.length :=
    fun row hrow => (List.mem_range.mp hrow).trans_le (Nat.min_le_right _ _)
  refine h.chosen.mem_iff List.nodup_range ?_ (List.mem_range.mpr hindex)
  intro first hfirst second hsecond heq
  exact hties first (hbase first hfirst) second (hbase second hsecond)
    (OrderDual.toDual.injective heq)

theorem mem_tailRows {scored : α × Nat} :
    scored ∈ c.tailRows kind ↔
      ∃ row ∈ c.rows, baseCount c.store ≤ row.2 ∧ kind row = true ∧ c.scoredRow row = scored := by
  have hdrop : ∀ {row : Row} {n : Nat}, row ∈ c.rows.drop n ↔ row ∈ c.rows ∧ n ≤ row.2 := by
    rintro ⟨entry, index⟩ n
    rw [mem_rows_iff, List.mem_iff_getElem?]
    simp only [rows, List.getElem?_drop, List.getElem?_zipIdx, Option.map_eq_some_iff,
      Prod.mk.injEq]
    constructor
    · rintro ⟨i, entry', hentry, rfl, hindex⟩
      have hplace : n + i = index := by omega
      exact ⟨hplace ▸ hentry, by omega⟩
    · rintro ⟨hentry, hle⟩
      have hplace : n + (index - n) = index := by omega
      exact ⟨index - n, entry, by rw [hplace]; exact hentry, rfl, by omega⟩
  simp only [tailRows, List.mem_map, List.mem_filter, hdrop, and_assoc]

theorem neighbourRow_eq_some_iff {scored : α × Nat}
    (hdistance : result.distance = 1 - c.similarity result.id) :
    c.neighbourRow result = some scored ↔
      ∃ entry, c.store.entries[result.id]? = some entry ∧ entry.superseded = false ∧
        c.minimumScore ≤ c.score result.id ∧ (c.score result.id, result.id) = scored := by
  rw [neighbourRow, hdistance, clampScore_of_distance, Option.bind_eq_some_iff]
  apply exists_congr
  intro entry
  rcases entry.superseded with _ | _
  · simp
  · simp

def indexedRows (c : SearchCall α) (results : List (SearchResult α)) : List (α × Nat) :=
  results.filterMap c.neighbourRow ++ c.tailRows c.eligible

theorem mem_indexedRows_iff (hties : c.WithoutTies) (h : c.Nearest (hnswTopK c.store c.topK) results)
    {scored : α × Nat} : scored ∈ c.indexedRows results ↔ scored ∈ c.scoredRows c.competes := by
  rw [indexedRows, List.mem_append, List.mem_filterMap, mem_tailRows, mem_scoredRows]
  constructor
  · rintro (⟨result, hresult, hscored⟩ | ⟨row, hmem, hbase, heligible, rfl⟩)
    · obtain ⟨entry, hentry, hactive, hscore, rfl⟩ :=
        (neighbourRow_eq_some_iff (h.distance result hresult)).mp hscored
      have hbase := h.lt_baseCount result hresult
      have hnear := (mem_ids_iff hties h hbase).mp (List.mem_map_of_mem hresult)
      refine ⟨(entry, result.id), mem_rows_iff.mpr hentry, ?_, rfl⟩
      simp [competes, hactive, hscore, hbase, hnear]
    · refine ⟨row, hmem, ?_, rfl⟩
      simp only [eligible, Bool.and_eq_true] at heligible
      obtain ⟨⟨hactive, hother⟩, hscore⟩ := heligible
      simp [competes, hactive, hscore, hother, hbase.not_gt]
  · rintro ⟨row, hmem, hcompetes, rfl⟩
    simp only [competes, Bool.and_eq_true] at hcompetes
    obtain ⟨⟨hactive, hscore⟩, hplace⟩ := hcompetes
    rcases Nat.lt_or_ge row.2 (baseCount c.store) with hbase | hbase
    · rw [if_pos hbase, decide_eq_true_iff] at hplace
      obtain ⟨result, hresult, hid⟩ := List.mem_map.mp ((mem_ids_iff hties h hbase).mpr hplace)
      left
      refine ⟨result, hresult, (neighbourRow_eq_some_iff (h.distance result hresult)).mpr ?_⟩
      rw [hid]
      exact ⟨row.1, mem_rows_iff.mp hmem, by simpa using hactive, of_decide_eq_true hscore, rfl⟩
    · rw [if_neg hbase.not_gt] at hplace
      right
      refine ⟨row, hmem, hbase, ?_, rfl⟩
      simp only [eligible, Bool.and_eq_true]
      exact ⟨⟨hactive, hplace⟩, hscore⟩

theorem snd_of_neighbourRow {scored : α × Nat} (h : c.neighbourRow result = some scored) :
    scored.2 = result.id := by
  obtain ⟨entry, -, h⟩ := Option.bind_eq_some_iff.mp h
  split at h
  · cases h
  · split at h
    · rw [← Option.some.inj h]
    · cases h

theorem nodup_snd_neighbours (h : (results.map SearchResult.id).Nodup) :
    ((results.filterMap c.neighbourRow).map Prod.snd).Nodup := by
  induction results with
  | nil => exact List.nodup_nil
  | cons result results ih =>
      obtain ⟨hfirst, hrest⟩ := List.nodup_cons.mp h
      rcases hscored : c.neighbourRow result with _ | scored
      · rw [List.filterMap_cons_none hscored]
        exact ih hrest
      · rw [List.filterMap_cons_some hscored, List.map_cons, List.nodup_cons]
        refine ⟨?_, ih hrest⟩
        rw [snd_of_neighbourRow hscored, List.mem_map]
        rintro ⟨other, hother, heq⟩
        obtain ⟨later, hlater, hfrom⟩ := List.mem_filterMap.mp hother
        apply hfirst
        rw [← heq, snd_of_neighbourRow hfrom]
        exact List.mem_map_of_mem hlater

theorem indexedRows_perm (hties : c.WithoutTies)
    (h : c.Nearest (hnswTopK c.store c.topK) results) :
    (c.indexedRows results).Perm (c.scoredRows c.competes) := by
  have hplaces : ((c.indexedRows results).map Prod.snd).Nodup := by
    rw [indexedRows, List.map_append, List.nodup_append]
    refine ⟨nodup_snd_neighbours h.chosen.nodup,
      (nodup_snd_scoredRows _).sublist ((tailRows_sublist _).map _), ?_⟩
    intro place hplace other hother
    obtain ⟨scored, hscored, rfl⟩ := List.mem_map.mp hplace
    obtain ⟨result, hresult, hfrom⟩ := List.mem_filterMap.mp hscored
    obtain ⟨later, hlater, rfl⟩ := List.mem_map.mp hother
    obtain ⟨row, -, hle, -, rfl⟩ := mem_tailRows.mp hlater
    rw [snd_of_neighbourRow hfrom]
    exact ((h.lt_baseCount result hresult).trans_le hle).ne
  apply (List.perm_ext_iff_of_nodup hplaces.of_map (nodup_snd_scoredRows _).of_map).mpr
  intro scored
  exact mem_indexedRows_iff hties h

end Neighbours

section Tables

variable {c : SearchCall α} {rows others : List (α × Nat)}

def Scored (c : SearchCall α) (rows : List (α × Nat)) : Prop :=
  ∀ scored ∈ rows, ∃ row ∈ c.rows, row.1.superseded = false ∧ scored = c.scoredRow row

theorem active_of_scored (hrows : c.Scored rows) {row : Row} (hrow : row ∈ c.rows)
    (hmem : c.scoredRow row ∈ rows) : row.1.superseded = false := by
  obtain ⟨other, hother, hactive, heq⟩ := hrows _ hmem
  rw [row_eq_of_index hrow hother (Prod.mk.inj heq).2]
  exact hactive

/-- Under a key stands the score of the row that is reported under it. -/
theorem lookup_scoreTable (h : c.Consistent) (hrows : c.Scored rows) {key : String} {score : α} :
    (scoreTable c.store rows).lookup key = some score ↔
      ∃ row ∈ c.rows, c.scoredRow row ∈ rows ∧ key ∈ reportKeys row.1 ∧ c.score row.2 = score := by
  induction rows using List.reverseRecOn with
  | nil => simp [scoreTable]
  | append_singleton rows scored ih =>
      have hearlier : c.Scored rows := fun other hother =>
        hrows other (List.mem_append_left _ hother)
      obtain ⟨row, hrow, hactive, rfl⟩ := hrows scored (by simp)
      have hentry := mem_rows_iff.mp hrow
      have hlast : scoreTable c.store (rows ++ [c.scoredRow row]) =
          ((scoreTable c.store rows).insert row.1.key (c.score row.2)).insert (normalizedKey row.1)
            (c.score row.2) := by
        rw [scoreTable, List.foldl_append]
        simp [scoreTable, scoredRow, hentry]
      have hlookup : (scoreTable c.store (rows ++ [c.scoredRow row])).lookup key =
          if key ∈ reportKeys row.1 then some (c.score row.2)
          else (scoreTable c.store rows).lookup key := by
        rw [hlast, Table.lookup_insert_eq_ite, Table.lookup_insert_eq_ite, reportKeys]
        rcases Decidable.em (key = normalizedKey row.1) with hnormalized | hnormalized
        · simp [hnormalized]
        · rcases Decidable.em (key = row.1.key) with hkey | hkey
          · simp [hkey]
          · simp [hnormalized, hkey]
      rw [hlookup]
      split
      · rename_i hkey
        rw [Option.some.injEq]
        constructor
        · intro hscore
          exact ⟨row, hrow, by simp, hkey, hscore⟩
        · rintro ⟨other, hother, hmem, hotherKey, hscore⟩
          have hsame := h.keys row hrow other hother hactive (active_of_scored hrows hother hmem) key
            hkey hotherKey
          rw [hsame]
          exact hscore
      · rename_i hkey
        rw [ih hearlier]
        constructor
        · rintro ⟨other, hother, hmem, hrest⟩
          exact ⟨other, hother, List.mem_append_left _ hmem, hrest⟩
        · rintro ⟨other, hother, hmem, hotherKey, hscore⟩
          refine ⟨other, hother, (List.mem_append.mp hmem).resolve_right fun hlast => ?_, hotherKey,
            hscore⟩
          have hsame := (Prod.mk.inj (List.mem_singleton.mp hlast)).2
          rw [row_eq_of_index hother hrow hsame] at hotherKey
          exact hkey hotherKey

theorem mem_of_lookup_eq (h : c.Consistent) (hrows : c.Scored rows) (hothers : c.Scored others)
    (hsame : ∀ key, (scoreTable c.store rows).lookup key = (scoreTable c.store others).lookup key)
    {scored : α × Nat} (hscored : scored ∈ rows) : scored ∈ others := by
  obtain ⟨row, hrow, hactive, rfl⟩ := hrows scored hscored
  have hkey : row.1.key ∈ reportKeys row.1 := List.mem_cons_self
  have hlookup := (lookup_scoreTable h hrows).mpr ⟨row, hrow, hscored, hkey, rfl⟩
  rw [hsame] at hlookup
  obtain ⟨other, hother, hmem, hotherKey, -⟩ := (lookup_scoreTable h hothers).mp hlookup
  have hplace := h.keys row hrow other hother hactive (active_of_scored hothers hother hmem) _ hkey
    hotherKey
  rw [row_eq_of_index hrow hother hplace]
  exact hmem

theorem lookup_scoreTable_eq_iff (h : c.Consistent) (hrows : c.Scored rows)
    (hothers : c.Scored others) :
    (∀ key, (scoreTable c.store rows).lookup key = (scoreTable c.store others).lookup key) ↔
      ∀ scored, scored ∈ rows ↔ scored ∈ others := by
  constructor
  · intro hsame scored
    exact ⟨fun hscored => mem_of_lookup_eq h hrows hothers hsame hscored,
      fun hscored => mem_of_lookup_eq h hothers hrows (fun key => (hsame key).symm) hscored⟩
  · intro hsame key
    apply Option.ext
    intro score
    simp only [lookup_scoreTable h hrows, lookup_scoreTable h hothers, hsame]

theorem scored_scoredRows {kind : Row → Bool}
    (hkind : ∀ row, kind row = true → row.1.superseded = false) : c.Scored (c.scoredRows kind) := by
  intro scored hscored
  obtain ⟨row, hmem, hactive, rfl⟩ := mem_scoredRows.mp hscored
  exact ⟨row, hmem, hkind row hactive, rfl⟩

theorem Scored.append (h : c.Scored rows) (hothers : c.Scored others) :
    c.Scored (rows ++ others) := by
  intro scored hscored
  rcases List.mem_append.mp hscored with hmem | hmem
  · exact h scored hmem
  · exact hothers scored hmem

theorem Scored.subset (h : c.Scored rows) (hsubset : ∀ scored ∈ others, scored ∈ rows) :
    c.Scored others := fun scored hscored =>
  h scored (hsubset scored hscored)

end Tables

section Agreement

variable {c : SearchCall α} {results : List (SearchResult α)} {scored : α × Nat} {row : Row}

def exactAnswer (c : SearchCall α) : List (α × Nat) :=
  (sortOn rankKey (c.scoredRows c.eligible)).take (max c.topK 1) ++ c.scoredRows c.needed

/-- The rows of the answer of the search in the index; the required ones behind the indexed rows are
collected twice. -/
def indexedAnswer (c : SearchCall α) (results : List (SearchResult α)) : List (α × Nat) :=
  (sortOn rankKey (c.indexedRows results)).take (max c.topK 1) ++
    (c.tailRows c.needed ++ c.scoredRows c.needed)

omit [LinearOrder α] [AddCommGroup α] [One α] in
theorem answerable_iff : (c.queryVector.isEmpty ||
    decide (c.store.vectorDimensions.getD 0 ≠ c.queryVector.length) || c.store.entries.isEmpty) =
      false ↔ c.Answerable := by
  simp [Answerable, and_assoc]

theorem search_exact (h : c.Consistent) (hanswer : c.Answerable)
    (hmode : useHnsw c.host c.store = false) :
    c.answer = .ok (scoreTable c.store c.exactAnswer) := by
  have hlegacy : ¬ c.store.schemaVersion = legacyEmbeddingStoreSchemaVersion := by
    rcases h.schema with hschema | hschema <;> rw [hschema] <;> decide
  rw [answer, searchEmbeddingStore, if_neg (by rw [answerable_iff.mpr hanswer]; decide), hmode,
    if_neg Bool.false_ne_true, if_neg hlegacy, collectDiskEmbeddingScores,
    collectDiskEmbeddingScoresFrom_eq h, ok_bind]
  rfl

theorem search_indexed (h : c.Consistent) (hfinds : c.FindsNearest) (hanswer : c.Answerable)
    (hmode : useHnsw c.host c.store = true) :
    ∃ results, c.Nearest (hnswTopK c.store c.topK) results ∧
      c.answer = .ok (scoreTable c.store (c.indexedAnswer results)) := by
  obtain ⟨path, hpath⟩ := h.index
  obtain ⟨results, hresults, hnearest⟩ := hfinds path hpath (hnswTopK c.store c.topK)
  refine ⟨results, hnearest, ?_⟩
  have hindex : (embeddingHnswPath c.storePath c.store).bind (fun path =>
      c.host.searchIndex path c.queryVector (hnswTopK c.store c.topK)) = .ok results := by
    rw [hpath]
    exact hresults
  rw [answer, searchEmbeddingStore, if_neg (by rw [answerable_iff.mpr hanswer]; decide), hmode,
    if_pos rfl, collectIndexedScores, hindex]
  simp only [rankNeighbours_eq hnearest.lt_baseCount, ok_bind, collectDiskEmbeddingScoresFrom_eq h,
    collectRequiredEmbeddingScores_eq h, List.nil_append]
  rfl

def NotRequired (c : SearchCall α) (scored : α × Nat) : Prop :=
  ∃ row ∈ c.rows, isRequired c.requiredKeys row.1 = false ∧ scored = c.scoredRow row

theorem notRequired_of_eligible (h : scored ∈ c.scoredRows c.eligible) : c.NotRequired scored := by
  obtain ⟨row, hmem, heligible, rfl⟩ := mem_scoredRows.mp h
  simp only [eligible, Bool.and_eq_true] at heligible
  exact ⟨row, hmem, by simpa using heligible.1.2, rfl⟩

theorem not_notRequired_of_needed (h : scored ∈ c.scoredRows c.needed) : ¬ c.NotRequired scored := by
  obtain ⟨row, hmem, hneeded, rfl⟩ := mem_scoredRows.mp h
  rintro ⟨other, hother, hfree, heq⟩
  rw [← row_eq_of_index hmem hother (Prod.mk.inj heq).2] at hfree
  simp [needed, hfree] at hneeded

theorem eligible_of_competes (h : c.competes row = true)
    (hfree : isRequired c.requiredKeys row.1 = false) : c.eligible row = true := by
  simp only [competes, Bool.and_eq_true] at h
  simp only [eligible, Bool.and_eq_true, hfree, Bool.not_false]
  exact ⟨⟨h.1.1, trivial⟩, h.1.2⟩

theorem needed_of_competes (h : c.competes row = true)
    (hrequired : isRequired c.requiredKeys row.1 = true) : c.needed row = true := by
  simp only [competes, Bool.and_eq_true] at h
  rw [needed, h.1.1, hrequired]
  rfl

theorem answers_agree_iff
    (hcompeting : ∀ scored ∈ c.indexedRows results, scored ∈ c.scoredRows c.competes) :
    (∀ scored, scored ∈ c.indexedAnswer results ↔ scored ∈ c.exactAnswer) ↔
    ∀ scored, c.NotRequired scored →
      (scored ∈ (sortOn rankKey (c.indexedRows results)).take (max c.topK 1) ↔
        scored ∈ (sortOn rankKey (c.scoredRows c.eligible)).take (max c.topK 1)) := by
  simp only [indexedAnswer, exactAnswer, List.mem_append]
  have htail : ∀ scored, scored ∈ c.tailRows c.needed → scored ∈ c.scoredRows c.needed :=
    fun scored hscored => (tailRows_sublist _).subset hscored
  constructor
  · intro hall scored hfree
    have hnot : scored ∉ c.scoredRows c.needed := fun hmem => not_notRequired_of_needed hmem hfree
    have hsame := hall scored
    rw [or_iff_left hnot, or_iff_left hnot, or_iff_left (fun hmem => hnot (htail scored hmem))]
      at hsame
    exact hsame
  · intro hagree scored
    constructor
    · rintro (htaken | hrest | hrequired)
      · obtain ⟨row, hrow, hcompetes, rfl⟩ :=
          mem_scoredRows.mp (hcompeting scored (mem_sortOn.mp (List.mem_of_mem_take htaken)))
        rcases hfree : isRequired c.requiredKeys row.1 with _ | _
        · exact Or.inl ((hagree _ ⟨row, hrow, hfree, rfl⟩).mp htaken)
        · exact Or.inr (mem_scoredRows.mpr ⟨row, hrow, needed_of_competes hcompetes hfree, rfl⟩)
      · exact Or.inr (htail scored hrest)
      · exact Or.inr hrequired
    · rintro (htaken | hrequired)
      · have hfree := notRequired_of_eligible (mem_sortOn.mp (List.mem_of_mem_take htaken))
        exact Or.inl ((hagree scored hfree).mpr htaken)
      · exact Or.inr (Or.inr hrequired)

theorem countP_scoredRows (kind : Row → Bool) (row : Row) :
    ((c.scoredRows kind).countP fun other => rankKey other < rankKey (c.scoredRow row)) =
      c.rowsAhead kind row := by
  rw [scoredRows, List.countP_map, List.countP_filter, rowsAhead]
  apply List.countP_congr
  intro other _
  rw [Bool.and_comm]
  rfl

/-- The rankings agree exactly if what exact search ranks first is recalled. -/
theorem recalled_iff {competing : List (α × Nat)}
    (hcompeting : competing.Perm (c.scoredRows c.competes)) :
    (∀ scored ∈ (sortOn rankKey (c.scoredRows c.eligible)).take (max c.topK 1),
      scored ∈ competing ∧
        (competing.countP fun other => rankKey other < rankKey scored) < max c.topK 1) ↔
      c.Recalled := by
  have htaken : ∀ row ∈ c.rows, c.eligible row = true →
      (c.scoredRow row ∈ (sortOn rankKey (c.scoredRows c.eligible)).take (max c.topK 1) ↔
        c.rowsAhead c.eligible row < max c.topK 1) := by
    intro row hrow heligible
    rw [mem_take_sortOn_iff_countP (nodup_map_rankKey (nodup_snd_scoredRows _))
      (mem_scoredRows.mpr ⟨row, hrow, heligible, rfl⟩), countP_scoredRows]
  have hcompetes : ∀ row ∈ c.rows, c.eligible row = true → (c.scoredRow row ∈ competing ↔
      (row.2 < baseCount c.store → c.nearerRows row.2 < hnswTopK c.store c.topK)) := by
    intro row hrow heligible
    simp only [eligible, Bool.and_eq_true] at heligible
    rw [hcompeting.mem_iff, mem_scoredRows]
    constructor
    · rintro ⟨other, hother, hwins, heq⟩ hbase
      rw [row_eq_of_index hother hrow (Prod.mk.inj heq).2] at hwins
      simp only [competes, Bool.and_eq_true, if_pos hbase, decide_eq_true_eq] at hwins
      exact hwins.2
    · intro hnear
      refine ⟨row, hrow, ?_, rfl⟩
      simp only [competes, Bool.and_eq_true]
      refine ⟨⟨heligible.1.1, heligible.2⟩, ?_⟩
      split
      · rename_i hbase
        exact decide_eq_true (hnear hbase)
      · exact heligible.1.2
  constructor
  · intro hall row hrow heligible hfew
    obtain ⟨hmem, hcount⟩ := hall _ ((htaken row hrow heligible).mpr hfew)
    refine ⟨(hcompetes row hrow heligible).mp hmem, ?_⟩
    rw [hcompeting.countP_eq, countP_scoredRows] at hcount
    exact hcount
  · intro hrecalled scored hscored
    obtain ⟨row, hrow, heligible, rfl⟩ :=
      mem_scoredRows.mp (mem_sortOn.mp (List.mem_of_mem_take hscored))
    obtain ⟨hnear, hcount⟩ := hrecalled row hrow heligible ((htaken row hrow heligible).mp hscored)
    refine ⟨(hcompetes row hrow heligible).mpr hnear, ?_⟩
    rw [hcompeting.countP_eq, countP_scoredRows]
    exact hcount

theorem tables_same_iff (hstore : c.Consistent) (hties : c.WithoutTies)
    (hnearest : c.Nearest (hnswTopK c.store c.topK) results) :
    (∀ key, (scoreTable c.store (c.indexedAnswer results)).lookup key =
      (scoreTable c.store c.exactAnswer).lookup key) ↔ c.Recalled := by
  have hperm := indexedRows_perm hties hnearest
  have heligible : ∀ row, c.eligible row = true → row.1.superseded = false := by
    intro row h
    simp only [eligible, Bool.and_eq_true] at h
    simpa using h.1.1
  have hcompetes : ∀ row, c.competes row = true → row.1.superseded = false := by
    intro row h
    simp only [competes, Bool.and_eq_true] at h
    simpa using h.1.1
  have hneeded : c.Scored (c.scoredRows c.needed) := by
    refine scored_scoredRows fun row h => ?_
    simp only [needed, Bool.and_eq_true] at h
    simpa using h.1
  have hindexed : c.Scored (c.indexedAnswer results) := by
    apply Scored.append
    · exact (scored_scoredRows hcompetes).subset fun scored hscored =>
        hperm.mem_iff.mp (mem_sortOn.mp (List.mem_of_mem_take hscored))
    · exact (hneeded.subset fun scored hscored => (tailRows_sublist _).subset hscored).append hneeded
  have hexact : c.Scored c.exactAnswer :=
    ((scored_scoredRows heligible).subset fun scored hscored =>
      mem_sortOn.mp (List.mem_of_mem_take hscored)).append hneeded
  have hkeys : ((c.indexedRows results).map rankKey).Nodup :=
    (hperm.map rankKey).nodup_iff.mpr (nodup_map_rankKey (nodup_snd_scoredRows _))
  have hfrom : ∀ scored ∈ c.indexedRows results, c.NotRequired scored →
      scored ∈ c.scoredRows c.eligible := by
    intro scored hscored hfree
    obtain ⟨row, hrow, hwins, rfl⟩ := mem_scoredRows.mp (hperm.mem_iff.mp hscored)
    obtain ⟨other, hother, hotherFree, heq⟩ := hfree
    rw [← row_eq_of_index hrow hother (Prod.mk.inj heq).2] at hotherFree
    exact mem_scoredRows.mpr ⟨row, hrow, eligible_of_competes hwins hotherFree, rfl⟩
  rw [lookup_scoreTable_eq_iff hstore hindexed hexact,
    answers_agree_iff (fun scored hscored => hperm.mem_iff.mp hscored), ← recalled_iff hperm]
  exact take_sortOn_agree_iff (nodup_map_rankKey (nodup_snd_scoredRows _)) hkeys
    (fun scored hscored => notRequired_of_eligible hscored) hfrom

/-- With an index that finds the nearest rows, the search in the index returns the same scores as the
search in all rows exactly if it recalls what that search ranks first. -/
theorem same_scores_iff (c : SearchCall α) (hstore : c.Consistent) (hfinds : c.FindsNearest)
    (hties : c.WithoutTies) :
    SameScores (c.inMode none).answer (c.inMode (some "exact")).answer ↔
      (c.Answerable → c.Recalled) := by
  rcases Classical.em c.Answerable with hanswer | hanswer
  · rw [imp_iff_right hanswer]
    have hconsistent : ∀ mode, (c.inMode mode).Consistent := fun _ =>
      ⟨hstore.schema, hstore.vectorFile, hstore.size, hstore.index, hstore.keys⟩
    have hfindsSame : (c.inMode none).FindsNearest := by
      intro path hpath k
      obtain ⟨results, hresults, hnearest⟩ := hfinds path hpath k
      exact ⟨results, hresults, hnearest.chosen, hnearest.distance⟩
    have hmode : useHnsw (c.inMode none).host c.store = true := by
      rw [useHnsw, Bool.and_eq_true, Bool.or_eq_true, decide_eq_true_eq, decide_eq_true_eq]
      exact ⟨hstore.schema, rfl⟩
    have hexact : useHnsw (c.inMode (some "exact")).host c.store = false := by
      have hequal : Text.eqIgnoreAsciiCase "exact" "exact" = true := by decide +kernel
      simp [useHnsw, inMode, hequal]
    obtain ⟨results, hnearest, hresult⟩ :=
      search_indexed (hconsistent none) hfindsSame hanswer hmode
    rw [hresult, search_exact (hconsistent (some "exact")) hanswer hexact]
    have hsame : (c.inMode none).WithoutTies := hties
    exact tables_same_iff (hconsistent none) hsame hnearest
  · have hempty : (c.queryVector.isEmpty ||
        decide (c.store.vectorDimensions.getD 0 ≠ c.queryVector.length) ||
          c.store.entries.isEmpty) = true := by
      rw [← Bool.not_eq_false, answerable_iff]
      exact hanswer
    have hnone : ∀ mode, (c.inMode mode).answer = .ok ∅ := fun mode => by
      rw [answer, searchEmbeddingStore]
      exact if_pos hempty
    rw [hnone, hnone]
    exact iff_of_true (fun _ => rfl) fun h => absurd h hanswer

end Agreement

end SearchCall

section Samples

def sampleEntry (path : String) : KnowledgeEmbeddingEntry where
  key := path ++ "::chunk-0001"
  path := path
  chunkId := none
  textHash := ""
  superseded := false
  vector := []

def sampleStore : KnowledgeEmbeddingStore where
  schemaVersion := embeddingStoreSchemaVersion
  root := "notes"
  providerKey := none
  modelEndpointId := none
  modelName := none
  vectorDimensions := some 2
  vectorFileName := some "notes.vectors-v4-1.f32"
  hnswIndexFileName := some "notes.vectors-v5-1.hnsw"
  hnswEntryCount := some 2
  entries := [sampleEntry "alpha.md", sampleEntry "beta.md"]

def one : F32 := ⟨0x3F800000⟩

def zero : F32 := ⟨0⟩

def three : F32 := ⟨0x40400000⟩

def four : F32 := ⟨0x40800000⟩

def sampleVectors : List UInt8 :=
  rowsBytes [[one, zero], [three, four]]

def sampleHost : SearchHost ℚ where
  searchMode := none
  vectorFile := fun path => if path.fileName = "notes.vectors-v4-1.f32" then some sampleVectors else none
  searchIndex := fun _ _ k => .ok (([⟨0, 0⟩, ⟨1, 2 / 5⟩] : List (SearchResult ℚ)).take k)
  cosineSimilarityLeBytes := fun _ row =>
    if row = vectorBytes [one, zero] then 1 else if row = vectorBytes [three, four] then 3 / 5 else 0
  cosineSimilarityF32 := fun _ _ => 0

def sampleCall (topK : Nat) (requiredKeys : List String) : SearchCall ℚ where
  host := sampleHost
  storePath := ⟨"index", "notes.embeddings.json"⟩
  store := sampleStore
  vectors := sampleVectors
  queryVector := [one, zero]
  minimumScore := 0
  topK := topK
  requiredKeys := requiredKeys

variable (topK : Nat) (requiredKeys : List String)

theorem consistent_sample : (sampleCall topK requiredKeys).Consistent := by
  constructor
  · exact Or.inl rfl
  · refine ⟨⟨"index", "notes.vectors-v4-1.f32"⟩, ?_⟩
    simp only [sampleCall]
    decide +kernel
  · simp only [sampleCall]
    decide +kernel
  · refine ⟨⟨"index", "notes.vectors-v5-1.hnsw"⟩, ?_⟩
    simp only [sampleCall]
    decide +kernel
  · simp only [sampleCall, SearchCall.rows]
    decide +kernel

theorem findsNearest_sample : (sampleCall topK requiredKeys).FindsNearest := by
  intro path _ k
  refine ⟨([⟨0, 0⟩, ⟨1, 2 / 5⟩] : List (SearchResult ℚ)).take k, rfl, ?_, ?_⟩
  · rw [List.map_take]
    apply chosen_take
    · exact List.nodup_range
    · simp only [sampleCall, SearchCall.similarity]
      decide +kernel
  · intro result hresult
    have hall : ∀ result ∈ ([⟨0, 0⟩, ⟨1, 2 / 5⟩] : List (SearchResult ℚ)), result.distance =
        1 - (sampleCall topK requiredKeys).similarity result.id := by
      simp only [sampleCall, SearchCall.similarity]
      decide +kernel
    exact hall result (List.mem_of_mem_take hresult)

theorem withoutTies_sample : (sampleCall topK requiredKeys).WithoutTies := by
  simp only [SearchCall.WithoutTies, sampleCall, SearchCall.similarity]
  decide +kernel

theorem same_scores_two_notes :
    SameScores ((sampleCall 2 []).inMode none).answer
      ((sampleCall 2 []).inMode (some "exact")).answer :=
  (SearchCall.same_scores_iff (sampleCall 2 []) (consistent_sample 2 []) (findsNearest_sample 2 [])
    (withoutTies_sample 2 [])).mpr fun _ => by decide +kernel

/-- A required note takes the one place that is asked for, and the other note is not answered. -/
theorem required_note_crowds_out :
    (sampleCall 1 ["alpha.md::chunk-0001"]).Consistent ∧
    (sampleCall 1 ["alpha.md::chunk-0001"]).FindsNearest ∧
    ¬ SameScores ((sampleCall 1 ["alpha.md::chunk-0001"]).inMode none).answer
      ((sampleCall 1 ["alpha.md::chunk-0001"]).inMode (some "exact")).answer := by
  refine ⟨consistent_sample _ _, findsNearest_sample _ _, ?_⟩
  have hindexed : (((sampleCall 1 ["alpha.md::chunk-0001"]).inMode none).answer.toOption.bind
      fun scores => scores.lookup "beta.md::chunk-0001") = none := by
    decide +kernel
  have hexact : (((sampleCall 1 ["alpha.md::chunk-0001"]).inMode (some "exact")).answer.toOption.bind
      fun scores => scores.lookup "beta.md::chunk-0001") = some (3 / 5) := by
    decide +kernel
  rcases hfirst : ((sampleCall 1 ["alpha.md::chunk-0001"]).inMode none).answer with _ | first
  · exact id
  · rcases hsecond : ((sampleCall 1 ["alpha.md::chunk-0001"]).inMode (some "exact")).answer
      with _ | second
    · exact id
    · intro hsame
      rw [hfirst] at hindexed
      rw [hsecond] at hexact
      have hlookup := hsame "beta.md::chunk-0001"
      change first.lookup _ = none at hindexed
      change second.lookup _ = some (3 / 5) at hexact
      rw [hindexed, hexact] at hlookup
      cases hlookup

end Samples

end HarborBeacon.VectorSearch
