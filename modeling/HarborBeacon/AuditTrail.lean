import HarborBeacon.TaskContract

/-!
The audit records of the control plane: their redaction, the bounded stream they are kept in and
the queries that show it page by page, the newest records first.
-/

namespace HarborBeacon.AuditTrail

open Json Json.Value Text

inductive AuditActorKind where
  | user
  | system
  | model
  | provider
deriving DecidableEq

structure AuditRecord where
  auditId : String
  workspaceId : String
  entityKind : String
  entityId : String
  action : String
  actorKind : AuditActorKind
  actorId : String
  requestSnapshot : Value
  resultSnapshot : Value
  createdAt : Option String
deriving DecidableEq

structure AuditRecordQuery where
  limit : Option Nat
  cursor : Option Nat
  entityKind : Option String
  entityId : Option String
  action : Option String
deriving DecidableEq

structure AuditRecordPage where
  records : List AuditRecord
  total : Nat
  limit : Nat
  cursor : Option String
  nextCursor : Option String
  metadataOnly : Bool
  secretScan : String
deriving DecidableEq

def maxAdminAuditRecords : Nat := 500

structure AuditEnvironment where
  newUuid : Nat → String
  nowUnix : Nat → String

def sensitiveAuditKey (key : String) : Bool :=
  containsText key "secret" || containsText key "token" || containsText key "password" ||
    containsText key "api_key" || containsText key "authorization" ||
    containsText key "credential" || key = "raw_path" || key = "path" ||
    "_path".toList.isSuffixOf key.toList || key = "url" || "_url".toList.isSuffixOf key.toList ||
    key = "uri" || "_uri".toList.isSuffixOf key.toList || containsText key "session"

def redactAuditString (value : String) : String :=
  let lower := toAsciiLowercase value
  if containsText lower "rtsp://" || containsText lower "token=" || containsText lower "secret=" ||
      containsText lower "api_key" || containsText lower "bearer " ||
      containsText lower "\\\\" || containsText lower "c:\\" || containsText lower "/mnt/" ||
      containsText lower ".harborbeacon/" then
    "[redacted]"
  else value

mutual

def redactAuditValue : Value → Value
  | object fields => object (redactAuditFields fields [])
  | array items => array (redactAuditItems items)
  | string value => string (redactAuditString value)
  | other => other

def redactAuditItems : List Value → List Value
  | [] => []
  | value :: rest => redactAuditValue value :: redactAuditItems rest

def redactAuditFields : List (String × Value) → Fields → Fields
  | [], redacted => redacted
  | (key, value) :: rest, redacted =>
      if toAsciiLowercase (trim key) = "route_key" then
        redactAuditFields rest (insertField "opaque_delivery_route_present" (bool true) redacted)
      else if sensitiveAuditKey (toAsciiLowercase (trim key)) then
        redactAuditFields rest (insertField key (string "[redacted]") redacted)
      else redactAuditFields rest (insertField key (redactAuditValue value) redacted)

end

def markMetadataOnly (value : Value) : Value :=
  let fields :=
    match value with
    | object fields => fields
    | other => [("value", other)]
  object (insertField "secret_scan" (string "clean")
    (insertField "redacted" (bool true) (insertField "metadata_only" (bool true) fields)))

section Stream

def nonEmpty (value : String) : Option String :=
  if trim value = "" then none else some (trim value)

def trimOrGenerated (uuid value idPrefix : String) : String :=
  (nonEmpty (trim value)).getD (idPrefix ++ "-" ++ uuid)

def trimOrDefault (value fallback : String) : String :=
  (nonEmpty (trim value)).getD fallback

def sanitizeAuditRecord (uuid now : String) (record : AuditRecord) : AuditRecord where
  auditId := trimOrGenerated uuid record.auditId "audit"
  workspaceId := trimOrDefault record.workspaceId "home-1"
  entityKind := trimOrDefault record.entityKind "unknown"
  entityId := trimOrDefault record.entityId "unknown"
  action := trimOrDefault record.action "unknown"
  actorKind := record.actorKind
  actorId := trimOrDefault record.actorId "system"
  requestSnapshot := markMetadataOnly (redactAuditValue record.requestSnapshot)
  resultSnapshot := markMetadataOnly (redactAuditValue record.resultSnapshot)
  createdAt := (record.createdAt.bind fun value => nonEmpty (trim value)).or (some now)

variable (env : AuditEnvironment)

def sanitizeAuditStream (records : List AuditRecord) : List AuditRecord :=
  (records.drop (records.length - maxAdminAuditRecords)).mapIdx fun i =>
    sanitizeAuditRecord (env.newUuid i) (env.nowUnix i)

/-- The record that comes in is sanitized with the identifiers of the first place, and the stream
with it with those of the next ones. -/
def appendBoundedAuditRecord (records : List AuditRecord) (record : AuditRecord) :
    List AuditRecord :=
  sanitizeAuditStream { newUuid := fun i => env.newUuid (i + 1), nowUnix := fun i => env.nowUnix (i + 1) }
    (records ++ [sanitizeAuditRecord (env.newUuid 0) (env.nowUnix 0) record])

end Stream

def auditRecordMatches (query : AuditRecordQuery) (record : AuditRecord) : Bool :=
  query.entityKind.all (record.entityKind = ·) && query.entityId.all (record.entityId = ·) &&
    query.action.all (record.action = ·)

def queryAuditRecords (env : AuditEnvironment) (records : List AuditRecord)
    (query : AuditRecordQuery) : AuditRecordPage :=
  let limit := min (max (query.limit.getD 50) 1) 200
  let cursor := query.cursor.getD 0
  let filtered := records.reverse.filter (auditRecordMatches query)
  let page := ((filtered.drop cursor).take limit).mapIdx fun i =>
    sanitizeAuditRecord (env.newUuid i) (env.nowUnix i)
  let nextOffset := cursor + page.length
  { records := page
    total := filtered.length
    limit := limit
    cursor := if 0 < cursor then some (toString cursor) else none
    nextCursor := if nextOffset < filtered.length then some (toString nextOffset) else none
    metadataOnly := true
    secretScan := "clean" }

/-- The `cursor` of a request to `handle_audit_records`. -/
def parseCursor (cursor : Option String) : Option Nat :=
  cursor.bind fun text => (TaskContract.parseU64 text).map UInt64.toNat

end HarborBeacon.AuditTrail
