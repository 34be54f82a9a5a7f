import HarborBeacon.AuditTrail
import HarborBeacon.OffsetPages

/-!
Paging through the audit stream while records are appended to it. Every record has a serial number
that it keeps while the stream moves on; a reviewer follows the cursors from page to page.
-/

namespace HarborBeacon.AuditPaging

open AuditTrail OffsetPages Text

/-- The stream, and how many records have left it. -/
structure AuditLog where
  evicted : Nat
  records : List AuditRecord

def matching (filter : AuditRecordQuery) (first : Nat) (records : List AuditRecord) :
    List (AuditRecord × Nat) :=
  (records.zipIdx first).reverse.filter fun entry => auditRecordMatches filter entry.1

def AuditLog.view (log : AuditLog) (filter : AuditRecordQuery) : List Nat :=
  (matching filter log.evicted log.records).map Prod.snd

structure Append where
  env : AuditEnvironment
  record : AuditRecord

def Append.sanitized (append : Append) : AuditRecord :=
  sanitizeAuditRecord (append.env.newUuid 0) (append.env.nowUnix 0) append.record

def AuditLog.append (log : AuditLog) (append : Append) : AuditLog :=
  let records := appendBoundedAuditRecord append.env log.records append.record
  { evicted := log.evicted + (log.records.length + 1 - records.length), records }

def AuditLog.appendAll (log : AuditLog) (appends : List Append) : AuditLog :=
  appends.foldl AuditLog.append log

structure Turn where
  env : AuditEnvironment
  limit : Option Nat
  appends : List Append

/-- What a reviewer sees: the pages, the serial numbers of their records, how many records of the
query come in between the first and the last request, the stream at the last one, and whether no
cursor is left. -/
structure Walked where
  pages : List AuditRecordPage
  serials : List Nat
  appended : Nat
  last : AuditLog
  finished : Bool

def pageQuery (filter : AuditRecordQuery) (turn : Turn) (cursor : Option String) :
    AuditRecordQuery :=
  { filter with limit := turn.limit, cursor := parseCursor cursor }

def pageSerials (log : AuditLog) (query : AuditRecordQuery) (limit : Nat) : List Nat :=
  (page (matching query log.evicted log.records) (query.cursor.getD 0) limit).map Prod.snd

/-- The pages that follow from a cursor on, until there is no next cursor or no request left. -/
def walk (filter : AuditRecordQuery) :
    List Turn → Turn → AuditLog → Option String → Walked
  | [], turn, log, cursor =>
      let query := pageQuery filter turn cursor
      let found := queryAuditRecords turn.env log.records query
      { pages := [found], serials := pageSerials log query found.limit, appended := 0, last := log
        finished := found.nextCursor.isNone }
  | nextTurn :: rest, turn, log, cursor =>
      let query := pageQuery filter turn cursor
      let found := queryAuditRecords turn.env log.records query
      let serials := pageSerials log query found.limit
      match found.nextCursor with
      | none => { pages := [found], serials, appended := 0, last := log, finished := true }
      | some next =>
          let later := walk filter rest nextTurn (log.appendAll turn.appends) (some next)
          { pages := found :: later.pages
            serials := serials ++ later.serials
            appended := turn.appends.countP (fun append =>
              auditRecordMatches filter append.sanitized) + later.appended
            last := later.last
            finished := later.finished }

section Views

variable {filter : AuditRecordQuery}

theorem serials_append (first : Nat) (older newer : List AuditRecord) :
    (matching filter first (older ++ newer)).map Prod.snd =
      (matching filter (first + older.length) newer).map Prod.snd ++
        (matching filter first older).map Prod.snd := by
  simp only [matching, List.zipIdx_append, List.reverse_append, List.filter_append,
    List.map_append]

theorem serials_mapIdx (f : Nat → AuditRecord → AuditRecord) (first : Nat)
    {records : List AuditRecord}
    (hf : ∀ i, ∀ record ∈ records,
      auditRecordMatches filter (f i record) = auditRecordMatches filter record) :
    (matching filter first (records.mapIdx f)).map Prod.snd =
      (matching filter first records).map Prod.snd := by
  induction records generalizing first f with
  | nil => rfl
  | cons record rest ih =>
      have hrest := ih (fun i => f (i + 1)) (first + 1)
        fun i other hother => hf (i + 1) other (List.mem_cons_of_mem _ hother)
      have hfirst : (matching filter first [f 0 record]).map Prod.snd =
          (matching filter first [record]).map Prod.snd := by
        simp only [matching, List.zipIdx_singleton, List.reverse_singleton,
          List.filter_singleton, hf 0 record List.mem_cons_self]
        cases auditRecordMatches filter record <;> rfl
      rw [List.mapIdx_cons, ← List.singleton_append, ← List.singleton_append (l := rest),
        serials_append, serials_append, hfirst]
      exact congrArg (· ++ _) hrest

theorem length_view (log : AuditLog) :
    (log.view filter).length = (log.records.reverse.filter (auditRecordMatches filter)).length := by
  have hrecords : (matching filter log.evicted log.records).map Prod.fst =
      log.records.reverse.filter (auditRecordMatches filter) := by
    conv_rhs => rw [← List.zipIdx_map_fst log.evicted log.records, ← List.map_reverse,
      List.filter_map]
    rfl
  rw [← hrecords, AuditLog.view, List.length_map, List.length_map]

theorem serials_sublist (first : Nat) (records : List AuditRecord) :
    ((matching filter first records).map Prod.snd).Sublist
      (List.range' first records.length).reverse := by
  rw [← List.zipIdx_map_snd, ← List.map_reverse]
  exact List.filter_sublist.map Prod.snd

theorem nodup_view (log : AuditLog) : (log.view filter).Nodup :=
  (List.nodup_reverse.mpr List.nodup_range').sublist (serials_sublist log.evicted log.records)

end Views

section Streams

variable {filter : AuditRecordQuery}

/-- A record whose fields for queries are as the sanitizer leaves them. -/
structure Settled (record : AuditRecord) : Prop where
  entityKind : trimOrDefault record.entityKind "unknown" = record.entityKind
  entityId : trimOrDefault record.entityId "unknown" = record.entityId
  action : trimOrDefault record.action "unknown" = record.action

theorem trimOrDefault_idem {fallback : String} (hfallback : trimOrDefault fallback fallback = fallback)
    (value : String) :
    trimOrDefault (trimOrDefault value fallback) fallback = trimOrDefault value fallback := by
  have hcases : trimOrDefault value fallback = fallback ∨
      trimOrDefault value fallback = trim value ∧ trim value ≠ "" := by
    rw [trimOrDefault, nonEmpty, trim_trim]
    split
    · exact Or.inl rfl
    · rename_i hvalue
      exact Or.inr ⟨rfl, hvalue⟩
  rcases hcases with heq | ⟨heq, hvalue⟩
  · rw [heq, hfallback]
  · rw [heq, trimOrDefault, nonEmpty, trim_trim, trim_trim, if_neg hvalue]
    rfl

theorem settled_sanitizeAuditRecord (uuid now : String) (record : AuditRecord) :
    Settled (sanitizeAuditRecord uuid now record) := by
  have hunknown : trimOrDefault "unknown" "unknown" = "unknown" := by decide
  constructor <;> simp only [sanitizeAuditRecord, trimOrDefault_idem hunknown]

theorem Settled.auditRecordMatches_eq {record : AuditRecord} (h : Settled record)
    (uuid now : String) :
    auditRecordMatches filter (sanitizeAuditRecord uuid now record) =
      auditRecordMatches filter record := by
  rw [auditRecordMatches, auditRecordMatches, sanitizeAuditRecord, h.entityKind, h.entityId,
    h.action]

/-- A stream as the admin state holds it. -/
structure Kept (log : AuditLog) : Prop where
  settled : ∀ record ∈ log.records, Settled record
  bounded : log.records.length ≤ maxAdminAuditRecords

theorem kept_sanitizeAuditStream (env : AuditEnvironment) (evicted : Nat)
    (records : List AuditRecord) : Kept ⟨evicted, sanitizeAuditStream env records⟩ := by
  constructor
  · intro record hrecord
    dsimp only at hrecord
    rw [sanitizeAuditStream, List.mem_mapIdx] at hrecord
    obtain ⟨i, hi, heq⟩ := hrecord
    rw [← heq]
    exact settled_sanitizeAuditRecord _ _ _
  · rw [sanitizeAuditStream, List.length_mapIdx, List.length_drop]
    omega

variable {log : AuditLog}

def Append.later (append : Append) : AuditEnvironment where
  newUuid := fun i => append.env.newUuid (i + 1)
  nowUnix := fun i => append.env.nowUnix (i + 1)

theorem append_eq (log : AuditLog) (append : Append) :
    ∃ evicted, log.append append =
        ⟨evicted, sanitizeAuditStream append.later (log.records ++ [append.sanitized])⟩ ∧
      evicted = log.evicted + (log.records.length + 1 - maxAdminAuditRecords) := by
  have hlength : (sanitizeAuditStream append.later (log.records ++ [append.sanitized])).length =
      log.records.length + 1 - (log.records.length + 1 - maxAdminAuditRecords) := by
    rw [sanitizeAuditStream, List.length_mapIdx, List.length_drop, List.length_append,
      List.length_singleton]
  refine ⟨_, rfl, ?_⟩
  change log.evicted + (log.records.length + 1 - (sanitizeAuditStream append.later
    (log.records ++ [append.sanitized])).length) = _
  rw [hlength]
  omega

theorem appendAll_cons (log : AuditLog) (append : Append) (rest : List Append) :
    log.appendAll (append :: rest) = (log.append append).appendAll rest := by
  rw [AuditLog.appendAll, AuditLog.appendAll, List.foldl_cons]

theorem kept_append (log : AuditLog) (append : Append) : Kept (log.append append) := by
  obtain ⟨evicted, heq, -⟩ := append_eq log append
  rw [heq]
  exact kept_sanitizeAuditStream _ _ _

theorem Kept.appendAll (h : Kept log) (appends : List Append) : Kept (log.appendAll appends) := by
  induction appends generalizing log with
  | nil => exact h
  | cons append rest ih =>
      rw [appendAll_cons]
      exact ih (kept_append log append)

/-- The serial numbers after an append: the new one first, if the record is one of the query, and
those before without the ones that have left. -/
theorem Kept.view_append (h : Kept log) (filter : AuditRecordQuery) (append : Append) :
    ∃ front rest gone, log.view filter = rest ++ gone ∧
      (log.append append).view filter = front ++ rest ∧
      front.length = (if auditRecordMatches filter append.sanitized then 1 else 0) ∧
      ∀ serial ∈ gone, serial < (log.append append).evicted := by
  obtain ⟨evicted, heq, hevicted⟩ := append_eq log append
  have hbounded := h.bounded
  have hlong : 0 < maxAdminAuditRecords := by decide
  generalize hsurplus : log.records.length + 1 - maxAdminAuditRecords = surplus at hevicted
  have hle : surplus ≤ log.records.length := by omega
  have hdrop : (log.records ++ [append.sanitized]).drop surplus =
      log.records.drop surplus ++ [append.sanitized] :=
    List.drop_append_of_le_length hle
  have hsettled : ∀ record ∈ log.records.drop surplus ++ [append.sanitized], Settled record := by
    intro record hrecord
    rcases List.mem_append.mp hrecord with hmem | hmem
    · exact h.settled record (List.mem_of_mem_drop hmem)
    · rw [List.mem_singleton.mp hmem]
      exact settled_sanitizeAuditRecord _ _ _
  have hview : (log.append append).view filter = (matching filter (log.evicted + surplus)
      (log.records.drop surplus ++ [append.sanitized])).map Prod.snd := by
    rw [heq, AuditLog.view, sanitizeAuditStream, List.length_append, List.length_singleton, hsurplus,
      hdrop, hevicted]
    exact serials_mapIdx _ _ fun _ record hrecord =>
      (hsettled record hrecord).auditRecordMatches_eq _ _
  refine ⟨(matching filter (log.evicted + log.records.length) [append.sanitized]).map Prod.snd,
    (matching filter (log.evicted + surplus) (log.records.drop surplus)).map Prod.snd,
    (matching filter log.evicted (log.records.take surplus)).map Prod.snd, ?_, ?_, ?_, ?_⟩
  · conv_lhs => rw [AuditLog.view, ← List.take_append_drop surplus log.records]
    rw [serials_append, List.length_take_of_le hle]
  · have hend : log.evicted + surplus + (log.records.drop surplus).length =
        log.evicted + log.records.length := by
      rw [List.length_drop]
      omega
    rw [hview, serials_append, hend]
  · rw [List.length_map, matching, List.zipIdx_singleton, List.reverse_singleton,
      List.filter_singleton]
    cases auditRecordMatches filter append.sanitized <;> rfl
  · intro serial hserial
    have hmem := (serials_sublist _ _).subset hserial
    rw [List.mem_reverse, List.mem_range'_1, List.length_take_of_le hle] at hmem
    rw [heq, hevicted]
    exact hmem.2

theorem evicted_le_append (log : AuditLog) (append : Append) :
    log.evicted ≤ (log.append append).evicted := by
  obtain ⟨evicted, heq, hevicted⟩ := append_eq log append
  rw [heq, hevicted]
  exact Nat.le_add_right _ _

theorem evicted_le_appendAll (log : AuditLog) (appends : List Append) :
    log.evicted ≤ (log.appendAll appends).evicted := by
  induction appends generalizing log with
  | nil => exact Nat.le_refl _
  | cons append rest ih =>
      rw [appendAll_cons]
      exact (evicted_le_append log append).trans (ih _)

theorem Kept.grown_appendAll (h : Kept log) (filter : AuditRecordQuery) (appends : List Append)
    {evicted : Nat} (hevicted : (log.appendAll appends).evicted ≤ evicted) :
    Grown (evicted ≤ ·) (appends.countP fun append => auditRecordMatches filter append.sanitized)
      (log.view filter) ((log.appendAll appends).view filter) := by
  induction appends generalizing log with
  | nil => exact grown_refl _ _
  | cons append rest ih =>
      rw [appendAll_cons] at hevicted ⊢
      obtain ⟨front, kept, gone, hview, hview', hfront, hgone⟩ := h.view_append filter append
      have hfirst : Grown (evicted ≤ ·)
          (if auditRecordMatches filter append.sanitized then 1 else 0)
          (log.view filter) ((log.append append).view filter) := by
        rw [hview, hview', ← hfront]
        refine grown_append front kept ?_
        intro serial hserial hstays
        have hleft := hgone serial hserial
        have hlater := evicted_le_appendAll (log.append append) rest
        omega
      rw [List.countP_cons, Nat.add_comm]
      exact hfirst.trans (ih (kept_append log append) hevicted)

end Streams

theorem parseU64_toString {n : Nat} (h : n < 2 ^ 64) :
    TaskContract.parseU64 (toString n) = some (UInt64.ofNat n) := by
  have hdigits : (toString n).toList = Nat.toDigits 10 n := Nat.toList_repr
  have hall : ∀ c ∈ Nat.toDigits 10 n, c.isDigit = true := fun c hc =>
    Nat.isDigit_of_mem_toDigits (by decide) (by decide) hc
  have hvalue : (Nat.toDigits 10 n).foldl (fun n c => 10 * n + (c.toNat - '0'.toNat)) 0 = n := by
    rw [← Nat.ofDigitChars_eq_foldl, Nat.ofDigitChars_ten_toDigits]
  have hparse : ∀ digits, digits = Nat.toDigits 10 n →
      (if digits.isEmpty || !digits.all Char.isDigit then none
      else if digits.foldl (fun n c => 10 * n + (c.toNat - '0'.toNat)) 0 < 2 ^ 64 then
        some (UInt64.ofNat (digits.foldl (fun n c => 10 * n + (c.toNat - '0'.toNat)) 0))
      else none) = some (UInt64.ofNat n) := by
    rintro _ rfl
    rw [hvalue, if_neg, if_pos h]
    simp [List.isEmpty_eq_false_iff.mpr Nat.toDigits_ne_nil, List.all_eq_true.mpr hall]
  rw [TaskContract.parseU64, hdigits]
  refine hparse _ ?_
  split
  · rename_i rest hplus
    exact absurd (hall '+' (hplus ▸ List.mem_cons_self)) (by decide)
  · rfl

theorem parseCursor_toString {n : Nat} (h : n < 2 ^ 64) :
    parseCursor (some (toString n)) = some n := by
  rw [parseCursor, Option.bind_some, parseU64_toString h, Option.map_some, UInt64.toNat_ofNat',
    Nat.mod_eq_of_lt h]

section Reviews

variable {filter : AuditRecordQuery} {log : AuditLog}

theorem queryAuditRecords_spec (log : AuditLog) (filter : AuditRecordQuery) (turn : Turn)
    (cursor : Option String) :
    ∃ limit, 1 ≤ limit ∧
      (queryAuditRecords turn.env log.records (pageQuery filter turn cursor)).limit = limit ∧
      pageSerials log (pageQuery filter turn cursor) limit =
        page (log.view filter) ((parseCursor cursor).getD 0) limit ∧
      (queryAuditRecords turn.env log.records (pageQuery filter turn cursor)).nextCursor =
        let next := (parseCursor cursor).getD 0 +
          (page (log.view filter) ((parseCursor cursor).getD 0) limit).length
        if next < (log.view filter).length then some (toString next) else none := by
  refine ⟨min (max (turn.limit.getD 50) 1) 200, by omega, rfl, ?_, ?_⟩
  · rw [pageSerials, page, page, List.map_take, List.map_drop]
    rfl
  · have hpage : (page (log.view filter) ((parseCursor cursor).getD 0)
        (min (max (turn.limit.getD 50) 1) 200)).length =
        (((log.records.reverse.filter (auditRecordMatches filter)).drop
          ((parseCursor cursor).getD 0)).take (min (max (turn.limit.getD 50) 1) 200)).length := by
      rw [page, List.length_take, List.length_drop, length_view, List.length_take,
        List.length_drop]
    simp only [hpage, length_view]
    rw [queryAuditRecords]
    simp only [List.length_mapIdx]
    rfl

theorem Kept.length_view_le (h : Kept log) : (log.view filter).length ≤ maxAdminAuditRecords := by
  rw [length_view]
  exact (List.length_filter_le _ _).trans ((List.length_reverse).trans_le h.bounded)

theorem evicted_le_walk (filter : AuditRecordQuery) (rest : List Turn) (turn : Turn)
    (log : AuditLog) (cursor : Option String) :
    log.evicted ≤ (walk filter rest turn log cursor).last.evicted := by
  induction rest generalizing turn log cursor with
  | nil => exact Nat.le_refl _
  | cons nextTurn rest ih =>
      rw [walk]
      dsimp only
      split
      · exact Nat.le_refl _
      · exact (evicted_le_appendAll log turn.appends).trans (ih nextTurn _ _)

/-- The pages of a walk follow each other in the serial numbers. -/
theorem follows_walk (filter : AuditRecordQuery) (rest : List Turn) (turn : Turn)
    (h : Kept log) (cursor : Option String) :
    Follows ((walk filter rest turn log cursor).last.evicted ≤ ·) (log.view filter)
      ((parseCursor cursor).getD 0) (walk filter rest turn log cursor).serials
      (walk filter rest turn log cursor).appended
      ((walk filter rest turn log cursor).finished = true) := by
  obtain ⟨limit, -, hlimit, hserials, hnext⟩ := queryAuditRecords_spec log filter turn cursor
  dsimp only at hnext
  induction rest generalizing turn log cursor limit with
  | nil =>
      have hdone : ((queryAuditRecords turn.env log.records
          (pageQuery filter turn cursor)).nextCursor.isNone = true) =
          ((log.view filter).length ≤ (parseCursor cursor).getD 0 +
            (page (log.view filter) ((parseCursor cursor).getD 0) limit).length) := by
        rw [hnext, eq_iff_iff]
        split
        · simp; omega
        · simp; omega
      rw [walk]
      dsimp only
      rw [hlimit, hserials, hdone]
      exact .last _ _ _
  | cons nextTurn rest ih =>
      rw [walk]
      dsimp only
      rw [hlimit, hserials]
      split at hnext
      · rename_i hmore
        have hsmall : (log.view filter).length < 2 ^ 64 :=
          h.length_view_le.trans_lt (by decide)
        obtain ⟨limit', -, hlimit', hserials', hnext'⟩ := queryAuditRecords_spec
          (log.appendAll turn.appends) filter nextTurn (some (toString ((parseCursor cursor).getD 0 +
            (page (log.view filter) ((parseCursor cursor).getD 0) limit).length)))
        have hrest := ih nextTurn (h.appendAll turn.appends) _
          limit' hlimit' hserials' hnext'
        rw [parseCursor_toString (hmore.trans hsmall), Option.getD_some] at hrest
        rw [hnext]
        refine .next (h.grown_appendAll filter turn.appends ?_) hrest
        exact evicted_le_walk filter rest nextTurn _ _
      · rename_i hend
        rw [hnext]
        have hdone : (true = true) = ((log.view filter).length ≤ (parseCursor cursor).getD 0 +
            (page (log.view filter) ((parseCursor cursor).getD 0) limit).length) := by
          rw [eq_iff_iff]
          simp; omega
        dsimp only
        rw [hdone]
        exact .last _ _ _

theorem lt_cursor_of_next {cursor limit : Nat} (hlimit : 1 ≤ limit) {view : List Nat}
    (hmore : cursor + (page view cursor limit).length < view.length) :
    cursor + 1 ≤ cursor + (page view cursor limit).length := by
  rw [page, List.length_take, List.length_drop] at hmore ⊢
  omega

theorem lt_of_not_finished (filter : AuditRecordQuery) (rest : List Turn) (turn : Turn)
    (h : Kept log) (cursor : Option String)
    (hunfinished : (walk filter rest turn log cursor).finished = false) :
    (parseCursor cursor).getD 0 + rest.length + 1 < maxAdminAuditRecords := by
  obtain ⟨limit, hlimit, -, -, hnext⟩ := queryAuditRecords_spec log filter turn cursor
  have hbounded : (log.view filter).length ≤ maxAdminAuditRecords := h.length_view_le
  dsimp only at hnext
  induction rest generalizing turn log cursor limit with
  | nil =>
      rw [walk] at hunfinished
      dsimp only at hunfinished
      split at hnext
      · rename_i hmore
        have hstep := lt_cursor_of_next hlimit hmore
        rw [List.length_nil]
        omega
      · rw [hnext] at hunfinished
        cases hunfinished
  | cons nextTurn rest ih =>
      rw [walk] at hunfinished
      dsimp only at hunfinished
      split at hnext
      · rename_i hmore
        have hstep := lt_cursor_of_next hlimit hmore
        have hsmall : (log.view filter).length < 2 ^ 64 := hbounded.trans_lt (by decide)
        rw [hnext] at hunfinished
        have hkept := h.appendAll turn.appends
        obtain ⟨limit', hlimit', -, -, hnext'⟩ := queryAuditRecords_spec
          (log.appendAll turn.appends) filter nextTurn (some (toString ((parseCursor cursor).getD 0 +
            (page (log.view filter) ((parseCursor cursor).getD 0) limit).length)))
        have hrest := ih nextTurn hkept _ hunfinished limit'
          hlimit' hnext' hkept.length_view_le
        rw [parseCursor_toString (hmore.trans hsmall), Option.getD_some] at hrest
        rw [List.length_cons]
        omega
      · rw [hnext] at hunfinished
        cases hunfinished

def sampleEnvironment : AuditEnvironment where
  newUuid := fun i => toString i
  nowUnix := fun _ => "1750000000"

def sampleRecord (action : String) : AuditRecord where
  auditId := ""
  workspaceId := "home-1"
  entityKind := "home_guardian"
  entityId := "rule-porch"
  action := action
  actorKind := .user
  actorId := "user-1"
  requestSnapshot := .object []
  resultSnapshot := .object []
  createdAt := none

def everyRecord : AuditRecordQuery where
  limit := none
  cursor := none
  entityKind := none
  entityId := none
  action := none

def oneByOne (appends : List Append) : Turn where
  env := sampleEnvironment
  limit := some 1
  appends := appends

end Reviews

end HarborBeacon.AuditPaging
