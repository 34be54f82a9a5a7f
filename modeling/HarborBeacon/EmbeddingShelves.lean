import HarborBeacon.EmbeddingWarmup
import HarborBeacon.SizedShelves

/-!
The entries of a warm-up as a shelf. By their keys they hold text hashes, all with vectors of one
dimension, and a chunk is an item for it: a chunk whose hash is there is skipped, any other one is
put there with the vector that the service gives for its text.
-/

namespace HarborBeacon.EmbeddingShelves

open Binary32 Chunking EmbeddingFiles EmbeddingWarmup KnowledgeManifest SizedShelves

section Answers

variable {service : EmbeddingService} {looks : Nat}

theorem not_expired_of_le {look later : Nat} (hle : look ≤ later)
    (h : service.expired later = false) : service.expired look = false := by
  induction hle with
  | refl => exact h
  | step _ ih =>
      refine ih ?_
      by_contra hexpired
      rw [service.stays_expired _ (by simpa using hexpired)] at h
      exact absurd h (by decide)

def answer (service : EmbeddingService) (text : String) : EmbeddingExecution :=
  (runEmbeddingWithContextRetryUntil service.untimed text 0).1

theorem runEmbeddingBeforeDeadline_untimed (text : String) (h : service.expired looks = false)
    (other : Nat) :
    (runEmbeddingBeforeDeadline service text looks).1 =
      (runEmbeddingBeforeDeadline service.untimed text other).1 := by
  rw [runEmbeddingBeforeDeadline, if_neg (by simp [h])]
  rfl

theorem snd_runEmbeddingBeforeDeadline (service : EmbeddingService) (text : String) (looks : Nat) :
    (runEmbeddingBeforeDeadline service text looks).2 = looks + 1 := by
  rw [runEmbeddingBeforeDeadline]
  split <;> rfl

/-- The clock is only looked at, and as long as the deadline has not passed it changes nothing. -/
theorem contextRetryLoop_spec (retries : Nat) (input : String) (execution : EmbeddingExecution)
    (looks : Nat) :
    looks ≤ (contextRetryLoop service retries input execution looks).2 ∧
      (service.expired (contextRetryLoop service retries input execution looks).2 = false →
        ∀ other, (contextRetryLoop service retries input execution looks).1 =
          (contextRetryLoop service.untimed retries input execution other).1) := by
  induction retries generalizing input execution looks with
  | zero => exact ⟨Nat.le_refl _, fun _ _ => rfl⟩
  | succ retries ih =>
      rw [contextRetryLoop]
      split
      · rename_i hdone
        refine ⟨Nat.le_refl _, fun _ other => ?_⟩
        rw [contextRetryLoop, if_pos hdone]
      · rename_i hmore
        split
        · rename_i hexpired
          refine ⟨Nat.le_succ _, fun hlater => ?_⟩
          rw [not_expired_of_le (Nat.le_succ looks) hlater] at hexpired
          exact absurd hexpired (by decide)
        · rename_i hexpired
          have hnext := ih (truncateEmbeddingRetryInput input)
            (runEmbeddingBeforeDeadline service (truncateEmbeddingRetryInput input) (looks + 1)).1
            (runEmbeddingBeforeDeadline service (truncateEmbeddingRetryInput input) (looks + 1)).2
          have hlooks := snd_runEmbeddingBeforeDeadline service (truncateEmbeddingRetryInput input)
            (looks + 1)
          refine ⟨?_, fun hlater other => ?_⟩
          · have hle := hnext.1
            rw [hlooks] at hle
            dsimp only
            omega
          · have hle := hnext.1
            have hcalled : service.expired (looks + 1) = false := by
              refine not_expired_of_le ?_ hlater
              rw [hlooks] at hle
              dsimp only
              omega
            have huntimed : service.untimed.expired other = false := rfl
            conv_rhs => rw [contextRetryLoop, if_neg hmore, if_neg (by simp [huntimed])]
            dsimp only
            rw [hnext.2 hlater (runEmbeddingBeforeDeadline service.untimed
              (truncateEmbeddingRetryInput input) (other + 1)).2,
              runEmbeddingBeforeDeadline_untimed _ hcalled (other + 1)]

theorem run_eq_answer {text : String}
    (h : service.expired (runEmbeddingWithContextRetryUntil service text looks).2 = false) :
    (runEmbeddingWithContextRetryUntil service text looks).1 = answer service text := by
  rw [runEmbeddingWithContextRetryUntil] at h ⊢
  have hspec := @contextRetryLoop_spec service embeddingContextRetryLimit (Text.trim text)
    (runEmbeddingBeforeDeadline service (Text.trim text) looks).1
    (runEmbeddingBeforeDeadline service (Text.trim text) looks).2
  have hcalled : service.expired looks = false := by
    refine not_expired_of_le ?_ h
    have hfirst := snd_runEmbeddingBeforeDeadline service (Text.trim text) looks
    have hle := hspec.1
    dsimp only
    omega
  dsimp only at h ⊢
  rw [hspec.2 h (runEmbeddingBeforeDeadline service.untimed (Text.trim text) 0).2,
    runEmbeddingBeforeDeadline_untimed _ hcalled 0]
  rfl

end Answers

section Entries

structure ActiveAt (entries : List KnowledgeEmbeddingEntry) (key : String) (index : Nat)
    (entry : KnowledgeEmbeddingEntry) : Prop where
  place : entries[index]? = some entry
  key : entry.key = key
  active : entry.superseded = false

variable {entries : List KnowledgeEmbeddingEntry} {key : String} {index : Nat}
  {entry other : KnowledgeEmbeddingEntry} {replaced : Nat} {marked : Nat}

theorem activeAt_concat (hother : other.superseded = false) :
    ActiveAt (entries ++ [other]) key index entry ↔
      ActiveAt entries key index entry ∨
        (index = entries.length ∧ entry = other ∧ other.key = key) := by
  constructor
  · rintro ⟨hplace, hkey, hactive⟩
    rw [List.getElem?_append] at hplace
    split at hplace
    · exact Or.inl ⟨hplace, hkey, hactive⟩
    · rename_i hlast
      have hzero : index - entries.length = 0 := by
        by_contra hne
        rw [List.getElem?_eq_none (by simp; omega)] at hplace
        exact absurd hplace (by simp)
      rw [hzero, List.getElem?_cons_zero, Option.some.injEq] at hplace
      exact Or.inr ⟨by omega, hplace.symm, hplace ▸ hkey⟩
  · rintro (h | ⟨rfl, rfl, hkey⟩)
    · refine ⟨?_, h.key, h.active⟩
      rw [List.getElem?_append_left (List.getElem?_eq_some_iff.mp h.place).1]
      exact h.place
    · refine ⟨?_, hkey, hother⟩
      rw [List.getElem?_append_right (Nat.le_refl _), Nat.sub_self]
      rfl

theorem activeAt_modify :
    ActiveAt (entries.modify marked fun existing => { existing with superseded := true }) key index
        entry ↔
      index ≠ marked ∧ ActiveAt entries key index entry := by
  by_cases hindex : index = marked
  · constructor
    · rintro ⟨hplace, -, hactive⟩
      rw [hindex, List.getElem?_modify_eq] at hplace
      obtain ⟨existing, -, rfl⟩ := Option.map_eq_some_iff.mp hplace
      exact absurd hactive (by simp)
    · rintro ⟨hne, -⟩
      exact absurd hindex hne
  · have hsame : (entries.modify marked fun existing => { existing with superseded := true })[index]? =
        entries[index]? := List.getElem?_modify_ne _ _ (Ne.symm hindex)
    constructor
    · rintro ⟨hplace, hkey, hactive⟩
      exact ⟨hindex, hsame ▸ hplace, hkey, hactive⟩
    · rintro ⟨-, hplace, hkey, hactive⟩
      exact ⟨hsame.trans hplace, hkey, hactive⟩

theorem activeAt_set (hreplaced : replaced < entries.length) (hother : other.superseded = false) :
    ActiveAt (entries.set replaced other) key index entry ↔
      (index ≠ replaced ∧ ActiveAt entries key index entry) ∨
        (index = replaced ∧ entry = other ∧ other.key = key) := by
  by_cases hindex : index = replaced
  · subst hindex
    constructor
    · rintro ⟨hplace, hkey, -⟩
      rw [List.getElem?_set_self hreplaced, Option.some.injEq] at hplace
      exact Or.inr ⟨rfl, hplace.symm, hplace ▸ hkey⟩
    · rintro (⟨hne, -⟩ | ⟨-, rfl, hkey⟩)
      · exact absurd rfl hne
      · exact ⟨List.getElem?_set_self hreplaced, hkey, hother⟩
  · have hsame : (entries.set replaced other)[index]? = entries[index]? :=
      List.getElem?_set_ne (Ne.symm hindex)
    constructor
    · rintro ⟨hplace, hkey, hactive⟩
      exact Or.inl ⟨hindex, hsame ▸ hplace, hkey, hactive⟩
    · rintro (⟨-, hplace, hkey, hactive⟩ | ⟨hsame', -⟩)
      · exact ⟨hsame.trans hplace, hkey, hactive⟩
      · exact absurd hsame' hindex

def Indexed (entriesByKey : Table Nat) (entries : List KnowledgeEmbeddingEntry) : Prop :=
  ∀ key index, entriesByKey.lookup key = some index ↔ ∃ entry, ActiveAt entries key index entry

variable {entriesByKey : Table Nat}

theorem indexed_empty : Indexed ∅ [] := by
  intro key index
  rw [AList.lookup_empty]
  constructor
  · exact fun h => absurd h (by simp)
  · rintro ⟨entry, hplace, -⟩
    exact absurd hplace (by simp)

theorem Indexed.unique (h : Indexed entriesByKey entries) {i j : Nat}
    {a b : KnowledgeEmbeddingEntry} (ha : ActiveAt entries key i a) (hb : ActiveAt entries key j b) :
    i = j :=
  Option.some.inj (((h key i).mpr ⟨a, ha⟩).symm.trans ((h key j).mpr ⟨b, hb⟩))

theorem Indexed.insert (h : Indexed entriesByKey entries) (hother : other.superseded = false)
    {before : List KnowledgeEmbeddingEntry}
    (hbefore : ∀ key index, (∃ entry, ActiveAt before key index entry) ↔
      key ≠ other.key ∧ ∃ entry, ActiveAt entries key index entry) :
    Indexed (entriesByKey.insert other.key before.length) (before ++ [other]) := by
  intro key index
  rw [Table.lookup_insert_eq_ite]
  simp only [activeAt_concat hother, exists_or]
  rw [hbefore]
  split
  · rename_i hkey
    constructor
    · intro hindex
      exact Or.inr ⟨other, (Option.some.inj hindex).symm, rfl, hkey.symm⟩
    · rintro (⟨hne, -⟩ | ⟨_, rfl, -, -⟩)
      · exact absurd hkey hne
      · rfl
  · rename_i hkey
    rw [h]
    constructor
    · exact fun hactive => Or.inl ⟨hkey, hactive⟩
    · rintro (⟨-, hactive⟩ | ⟨_, -, -, hsame⟩)
      · exact hactive
      · exact absurd hsame.symm hkey

theorem Indexed.push (h : Indexed entriesByKey entries) (hother : other.superseded = false)
    (hnone : entriesByKey.lookup other.key = none) :
    Indexed (entriesByKey.insert other.key entries.length) (entries ++ [other]) := by
  refine h.insert hother fun key index => ⟨fun hactive => ⟨?_, hactive⟩, And.right⟩
  rintro rfl
  rw [(h _ _).mpr hactive] at hnone
  exact absurd hnone (by simp)

theorem Indexed.supersede (h : Indexed entriesByKey entries) (hother : other.superseded = false)
    (hmarked : entriesByKey.lookup other.key = some marked) :
    Indexed (entriesByKey.insert other.key entries.length)
      ((entries.modify marked fun existing => { existing with superseded := true }) ++ [other]) := by
  obtain ⟨old, hold⟩ := (h _ _).mp hmarked
  rw [← List.length_modify (fun existing => { existing with superseded := true }) entries marked]
  refine h.insert hother fun key index => ?_
  simp only [activeAt_modify]
  constructor
  · rintro ⟨entry, hne, hactive⟩
    refine ⟨?_, entry, hactive⟩
    rintro rfl
    exact hne (h.unique hactive hold)
  · rintro ⟨hne, entry, hactive⟩
    refine ⟨entry, ?_, hactive⟩
    rintro rfl
    have hsame : old = entry := Option.some.inj (hold.place.symm.trans hactive.place)
    exact hne (hactive.key.symm.trans (hsame ▸ hold.key))

theorem Indexed.set (h : Indexed entriesByKey entries) (hother : other.superseded = false)
    (hreplaced : entriesByKey.lookup other.key = some replaced) :
    Indexed entriesByKey (entries.set replaced other) := by
  obtain ⟨old, hold⟩ := (h _ _).mp hreplaced
  have hlt : replaced < entries.length := (List.getElem?_eq_some_iff.mp hold.place).1
  intro key index
  rw [h]
  simp only [activeAt_set hlt hother]
  constructor
  · rintro ⟨entry, hactive⟩
    by_cases hindex : index = replaced
    · subst hindex
      have hsame : old = entry := Option.some.inj (hold.place.symm.trans hactive.place)
      exact ⟨other, Or.inr ⟨rfl, rfl, hold.key.symm.trans (hsame ▸ hactive.key)⟩⟩
    · exact ⟨entry, Or.inl ⟨hindex, hactive⟩⟩
  · rintro ⟨entry, ⟨-, hactive⟩ | ⟨rfl, -, hkey⟩⟩
    · exact ⟨entry, hactive⟩
    · exact ⟨old, hkey ▸ hold⟩

/-- Active entries with keys of their own are found by them. -/
theorem indexed_indexEntries (h : ((activeEntries entries).map (·.key)).Nodup) :
    Indexed (indexEntries entries) entries := by
  induction entries using List.reverseRecOn with
  | nil => exact indexed_empty
  | append_singleton entries last ih =>
      have hactive : activeEntries (entries ++ [last]) =
          activeEntries entries ++ activeEntries [last] := List.filter_append ..
      rw [hactive, List.map_append, List.nodup_append] at h
      have hindexed := ih h.1
      have hsplit : indexEntries (entries ++ [last]) =
          if last.superseded then indexEntries entries
          else (indexEntries entries).insert last.key entries.length := by
        rw [indexEntries, List.zipIdx_append, List.filter_append, List.foldl_append, Nat.zero_add,
          List.zipIdx_singleton]
        cases hlast : last.superseded <;> simp [hlast, indexEntries]
      rw [hsplit]
      cases hlast : last.superseded with
      | true =>
          intro key index
          rw [if_pos rfl, hindexed]
          constructor
          · rintro ⟨entry, hplace, hkey, hentry⟩
            refine ⟨entry, ?_, hkey, hentry⟩
            rw [List.getElem?_append_left (List.getElem?_eq_some_iff.mp hplace).1]
            exact hplace
          · rintro ⟨entry, hplace, hkey, hentry⟩
            rw [List.getElem?_append] at hplace
            split at hplace
            · exact ⟨entry, hplace, hkey, hentry⟩
            · have hmem := List.mem_of_getElem? hplace
              rw [List.mem_singleton.mp hmem, hlast] at hentry
              exact absurd hentry (by decide)
      | false =>
          rw [if_neg (by decide)]
          refine hindexed.push hlast (Option.eq_none_iff_forall_ne_some.mpr ?_)
          intro index hlookup
          obtain ⟨entry, hplace, hkey, hentry⟩ := (hindexed _ _).mp hlookup
          have hmem : entry ∈ activeEntries entries :=
            List.mem_filter.mpr ⟨List.mem_of_getElem? hplace, by simp [hentry]⟩
          refine h.2.2 _ (List.mem_map_of_mem hmem) last.key ?_ hkey
          simp [activeEntries, hlast]

theorem Indexed.nodup_keys (h : Indexed entriesByKey entries) :
    ((activeEntries entries).map (·.key)).Nodup := by
  rw [List.Nodup, List.pairwise_map, activeEntries, List.pairwise_filter,
    List.pairwise_iff_getElem]
  intro i j hi hj hlt hactive hactive' hkey
  have ha : ActiveAt entries entries[i].key i entries[i] :=
    ⟨List.getElem?_eq_getElem hi, rfl, by simpa using hactive⟩
  have hb : ActiveAt entries entries[i].key j entries[j] :=
    ⟨List.getElem?_eq_getElem hj, hkey.symm, by simpa using hactive'⟩
  exact absurd (h.unique ha hb) (Nat.ne_of_lt hlt)

end Entries

section Shelves

def shelfOf (state : WarmupState) : Shelf String String where
  held key := (state.existing key).bind fun entry =>
    if !entry.superseded && hasVector state.incrementalReady entry then some entry.textHash else none
  size := state.store.vectorDimensions

def keyOf (chunk : String × KnowledgeIndexChunk) : String :=
  embeddingKeyForChunk chunk.1 (some chunk.2.chunkId)

def hashOf (sha256 : List UInt8 → List UInt8) (chunk : String × KnowledgeIndexChunk) : String :=
  embeddingTextHash sha256 (embeddedText chunk.2)

def answerTo (service : EmbeddingService) (chunk : String × KnowledgeIndexChunk) :
    EmbeddingExecution :=
  answer service (embeddedText chunk.2)

def chunkLabels (sha256 : List UInt8 → List UInt8) (service : EmbeddingService) :
    Labels (String × KnowledgeIndexChunk) String String where
  key := keyOf
  mark := hashOf sha256
  size chunk := (answerTo service chunk).vector.length

variable {state : WarmupState} {entry : KnowledgeEmbeddingEntry} {key : String}

theorem skips_iff {textHash : String} :
    state.skips key textHash = true ↔ (shelfOf state).held key = some textHash := by
  rw [WarmupState.skips, shelfOf]
  dsimp only
  cases state.existing key with
  | none => simp
  | some existing =>
      rw [Option.bind_some]
      cases hactive : !existing.superseded && hasVector state.incrementalReady existing <;>
        simp [hactive, Bool.and_assoc]

theorem existing_eq_some_iff (h : Indexed state.entriesByKey state.store.entries) :
    state.existing key = some entry ↔ ∃ index, ActiveAt state.store.entries key index entry := by
  rw [WarmupState.existing, Option.bind_eq_some_iff]
  constructor
  · rintro ⟨index, hlookup, hplace⟩
    obtain ⟨other, hother⟩ := (h key index).mp hlookup
    have hsame : other = entry := Option.some.inj (hother.place.symm.trans hplace)
    exact ⟨index, hsame ▸ hother⟩
  · rintro ⟨index, hactive⟩
    exact ⟨index, (h key index).mpr ⟨entry, hactive⟩, hactive.place⟩

theorem withDimensions_cases (state : WarmupState) (execution : EmbeddingExecution) :
    (state.store.vectorDimensions.any (· ≠ execution.vector.length) = true ∧
        (state.withDimensions execution).store.entries = [] ∧
        (state.withDimensions execution).entriesByKey = ∅ ∧
        (state.withDimensions execution).incrementalReady = false) ∨
      (¬ state.store.vectorDimensions.any (· ≠ execution.vector.length) = true ∧
        (state.withDimensions execution).store.entries = state.store.entries ∧
        (state.withDimensions execution).entriesByKey = state.entriesByKey ∧
        (state.withDimensions execution).incrementalReady = state.incrementalReady) := by
  rw [WarmupState.withDimensions]
  dsimp only
  split
  · rename_i hcleared
    exact Or.inl ⟨hcleared, rfl, rfl, rfl⟩
  · rename_i hkept
    exact Or.inr ⟨hkept, rfl, rfl, rfl⟩

theorem indexed_withDimensions (h : Indexed state.entriesByKey state.store.entries)
    (execution : EmbeddingExecution) :
    Indexed (state.withDimensions execution).entriesByKey
      (state.withDimensions execution).store.entries := by
  rcases withDimensions_cases state execution with
    ⟨-, hentries, htable, -⟩ | ⟨-, hentries, htable, -⟩
  · rw [hentries, htable]
    exact indexed_empty
  · rw [hentries, htable]
    exact h

theorem putEntry_cases (state : WarmupState) (entry : KnowledgeEmbeddingEntry) :
    (state.entriesByKey.lookup entry.key = none ∧
        (state.putEntry entry).store.entries = state.store.entries ++ [entry] ∧
        (state.putEntry entry).entriesByKey =
          state.entriesByKey.insert entry.key state.store.entries.length) ∨
      (∃ index, state.entriesByKey.lookup entry.key = some index ∧
        state.incrementalReady = true ∧
        (state.putEntry entry).store.entries = (state.store.entries.modify index
          fun existing => { existing with superseded := true }) ++ [entry] ∧
        (state.putEntry entry).entriesByKey =
          state.entriesByKey.insert entry.key state.store.entries.length) ∨
      ∃ index, state.entriesByKey.lookup entry.key = some index ∧
        state.incrementalReady = false ∧
        (state.putEntry entry).store.entries = state.store.entries.set index entry ∧
        (state.putEntry entry).entriesByKey = state.entriesByKey := by
  rw [WarmupState.putEntry]
  cases hlookup : state.entriesByKey.lookup entry.key with
  | none => exact Or.inl ⟨rfl, rfl, rfl⟩
  | some index =>
      cases hready : state.incrementalReady with
      | true =>
          refine Or.inr (Or.inl ⟨index, rfl, rfl, rfl, ?_⟩)
          simp [List.length_modify]
      | false => exact Or.inr (Or.inr ⟨index, rfl, rfl, rfl, rfl⟩)

theorem indexed_putEntry (h : Indexed state.entriesByKey state.store.entries)
    (hactive : entry.superseded = false) :
    Indexed (state.putEntry entry).entriesByKey (state.putEntry entry).store.entries := by
  rcases putEntry_cases state entry with
    ⟨hlookup, hentries, htable⟩ | ⟨index, hlookup, -, hentries, htable⟩ |
      ⟨index, hlookup, -, hentries, htable⟩
  · rw [hentries, htable]
    exact h.push hactive hlookup
  · rw [hentries, htable]
    exact h.supersede hactive hlookup
  · rw [hentries, htable]
    exact h.set hactive hlookup

theorem exists_activeAt_concat (hactive : entry.superseded = false)
    {entries before : List KnowledgeEmbeddingEntry} {other : KnowledgeEmbeddingEntry}
    (hbefore : ∀ index, ActiveAt before key index other ↔
      key ≠ entry.key ∧ ActiveAt entries key index other) :
    (∃ index, ActiveAt (before ++ [entry]) key index other) ↔
      (key = entry.key ∧ other = entry) ∨
        (key ≠ entry.key ∧ ∃ index, ActiveAt entries key index other) := by
  simp only [activeAt_concat hactive, hbefore]
  constructor
  · rintro ⟨index, ⟨hne, hold⟩ | ⟨-, hsame, hkey⟩⟩
    · exact Or.inr ⟨hne, index, hold⟩
    · exact Or.inl ⟨hkey.symm, hsame⟩
  · rintro (⟨hkey, hsame⟩ | ⟨hne, index, hold⟩)
    · exact ⟨before.length, Or.inr ⟨rfl, hsame, hkey.symm⟩⟩
    · exact ⟨index, Or.inl ⟨hne, hold⟩⟩

/-- An entry that is put is the one of its key, and those of other keys stay. -/
theorem activeAt_putEntry (h : Indexed state.entriesByKey state.store.entries)
    (hactive : entry.superseded = false) {other : KnowledgeEmbeddingEntry} :
    (∃ index, ActiveAt (state.putEntry entry).store.entries key index other) ↔
      (key = entry.key ∧ other = entry) ∨
        (key ≠ entry.key ∧ ∃ index, ActiveAt state.store.entries key index other) := by
  rcases putEntry_cases state entry with
    ⟨hlookup, hentries, -⟩ | ⟨marked, hlookup, -, hentries, -⟩ | ⟨replaced, hlookup, -, hentries, -⟩
  · rw [hentries]
    refine exists_activeAt_concat hactive fun index => ⟨fun hold => ⟨?_, hold⟩, And.right⟩
    rintro rfl
    rw [(h _ _).mpr ⟨other, hold⟩] at hlookup
    exact absurd hlookup (by simp)
  · obtain ⟨old, hold⟩ := (h _ _).mp hlookup
    rw [hentries]
    refine exists_activeAt_concat hactive fun index => ?_
    rw [activeAt_modify]
    constructor
    · rintro ⟨hne, hother⟩
      refine ⟨?_, hother⟩
      rintro rfl
      exact hne (h.unique hother hold)
    · rintro ⟨hne, hother⟩
      refine ⟨?_, hother⟩
      rintro rfl
      have hsame : old = other := Option.some.inj (hold.place.symm.trans hother.place)
      exact hne (hother.key.symm.trans (hsame ▸ hold.key))
  · obtain ⟨old, hold⟩ := (h _ _).mp hlookup
    have hlt : replaced < state.store.entries.length := (List.getElem?_eq_some_iff.mp hold.place).1
    rw [hentries]
    simp only [activeAt_set hlt hactive]
    constructor
    · rintro ⟨index, ⟨hne, hother⟩ | ⟨-, hsame, hkey⟩⟩
      · refine Or.inr ⟨?_, index, hother⟩
        rintro rfl
        exact hne (h.unique hother hold)
      · exact Or.inl ⟨hkey.symm, hsame⟩
    · rintro (⟨hkey, hsame⟩ | ⟨hne, index, hother⟩)
      · exact ⟨replaced, Or.inr ⟨rfl, hsame, hkey.symm⟩⟩
      · refine ⟨index, Or.inl ⟨?_, hother⟩⟩
        rintro rfl
        have hsame : old = other := Option.some.inj (hold.place.symm.trans hother.place)
        exact hne (hother.key.symm.trans (hsame ▸ hold.key))

theorem existing_putEntry (h : Indexed state.entriesByKey state.store.entries)
    (hactive : entry.superseded = false) (key : String) :
    (state.putEntry entry).existing key =
      if key = entry.key then some entry else state.existing key := by
  ext other
  rw [existing_eq_some_iff (indexed_putEntry h hactive), activeAt_putEntry h hactive]
  split
  · rename_i hkey
    simp [hkey, eq_comm]
  · rename_i hkey
    rw [existing_eq_some_iff h]
    simp [hkey]

theorem rest_putEntry (state : WarmupState) (entry : KnowledgeEmbeddingEntry) :
    state.putEntry entry = { state with
      store := (state.putEntry entry).store
      entriesByKey := (state.putEntry entry).entriesByKey } := by
  rw [WarmupState.putEntry]
  dsimp only
  split
  · split <;> rfl
  · rfl

theorem incrementalReady_putEntry (state : WarmupState) (entry : KnowledgeEmbeddingEntry) :
    (state.putEntry entry).incrementalReady = state.incrementalReady := by
  rw [rest_putEntry]

theorem rest_withDimensions (state : WarmupState) (execution : EmbeddingExecution) :
    (state.withDimensions execution).activeKeys = state.activeKeys ∧
      (state.withDimensions execution).stats = state.stats ∧
      (state.withDimensions execution).store.vectorFileName = state.store.vectorFileName ∧
      (state.withDimensions execution).store.hnswIndexFileName = state.store.hnswIndexFileName ∧
      ((state.withDimensions execution).incrementalReady = true →
        state.incrementalReady = true ∧
        (state.withDimensions execution).store.hnswEntryCount = state.store.hnswEntryCount) := by
  rw [WarmupState.withDimensions]
  dsimp only
  split
  · exact ⟨rfl, rfl, rfl, rfl, fun hready => absurd hready Bool.false_ne_true⟩
  · exact ⟨rfl, rfl, rfl, rfl, fun hready => ⟨hready, rfl⟩⟩

theorem store_putEntry (state : WarmupState) (entry : KnowledgeEmbeddingEntry) :
    (state.putEntry entry).store =
      { state.store with entries := (state.putEntry entry).store.entries } := by
  rw [WarmupState.putEntry]
  dsimp only
  split
  · split <;> rfl
  · rfl

theorem vectorDimensions_putEntry (state : WarmupState) (entry : KnowledgeEmbeddingEntry) :
    (state.putEntry entry).store.vectorDimensions = state.store.vectorDimensions := by
  rw [store_putEntry]

def answeredEntry (key path chunkId textHash : String) (execution : EmbeddingExecution) :
    KnowledgeEmbeddingEntry where
  key := key
  path := path
  chunkId := some chunkId
  textHash := textHash
  superseded := false
  vector := execution.vector

variable {path chunkId textHash : String} {execution : EmbeddingExecution}

theorem takeExecution_of_succeeded (h : execution.succeeded = true) (state : WarmupState) :
    state.takeExecution key path chunkId textHash execution =
      let put := (state.withDimensions execution).putEntry
        (answeredEntry key path chunkId textHash execution)
      { put with stats := { put.stats with completed := put.stats.completed + 1 }, dirty := true } :=
  if_pos h

theorem degraded_takeExecution_of_failed (h : ¬ execution.succeeded = true) (state : WarmupState) :
    (state.takeExecution key path chunkId textHash execution).stats.degraded = true := by
  rw [WarmupState.takeExecution, if_neg h]

theorem shelfOf_takeExecution (hindexed : Indexed state.entriesByKey state.store.entries)
    (h : execution.succeeded = true) :
    shelfOf (state.takeExecution key path chunkId textHash execution) =
      { held := Function.update
          (if state.store.vectorDimensions.any (· ≠ execution.vector.length) then fun _ => none
            else (shelfOf state).held) key (some textHash)
        size := some execution.vector.length } := by
  have hvector : hasVector (state.withDimensions execution).incrementalReady
      (answeredEntry key path chunkId textHash execution) = true :=
    Bool.or_eq_true_iff.mpr (Or.inr (Bool.and_eq_true_iff.mp h).2)
  have hexisting := existing_putEntry (indexed_withDimensions hindexed execution)
    (show (answeredEntry key path chunkId textHash execution).superseded = false from rfl)
  rw [takeExecution_of_succeeded h]
  generalize hput : (state.withDimensions execution).putEntry
    (answeredEntry key path chunkId textHash execution) = put at hexisting ⊢
  have hready : put.incrementalReady = (state.withDimensions execution).incrementalReady :=
    hput ▸ incrementalReady_putEntry _ _
  have hsize : put.store.vectorDimensions = some execution.vector.length := by
    rw [← hput, vectorDimensions_putEntry]
    rfl
  rw [shelfOf]
  congr 1
  funext other
  change ((put.existing other).bind fun entry =>
    if !entry.superseded && hasVector put.incrementalReady entry then some entry.textHash
      else none) = _
  rw [hexisting, hready]
  by_cases hother : other = key
  · have hkey : other = (answeredEntry key path chunkId textHash execution).key := hother
    rw [if_pos hkey, hother, Function.update_self, Option.bind_some, hvector]
    rfl
  · have hkey : ¬ other = (answeredEntry key path chunkId textHash execution).key := hother
    rw [if_neg hkey, Function.update_of_ne hother]
    rcases withDimensions_cases state execution with
      ⟨hcleared, hentries, htable, -⟩ | ⟨hkept, hentries, htable, hready'⟩
    · rw [if_pos hcleared, WarmupState.existing, htable, AList.lookup_empty]
      rfl
    · rw [if_neg hkept, hready', WarmupState.existing, htable, hentries]
      rfl

end Shelves

end HarborBeacon.EmbeddingShelves
