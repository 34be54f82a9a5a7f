import HarborBeacon.ByteSlices
import HarborBeacon.Json
import HarborBeacon.Text

/-!
Evidence about devices in the admin state, and its redaction: the userinfos of URLs and the
values of secret keys are replaced in texts, the values of secret fields in JSON values. Offsets
are in bytes, as in the source, so a slice can fail.
-/

namespace HarborBeacon.DeviceEvidence

open ByteSlices Json Json.Value Text

def isSchemeChar (ch : Char) : Bool :=
  ch.isAlphanum || ch = '+' || ch = '-' || ch = '.'

def endsAuthority (ch : Char) : Bool :=
  ch ∈ ['/', '?', '#', '"', '\'', '<', '>', ' ', '\n', '\r', '\t']

def endsValue (ch : Char) : Bool :=
  ch ∈ ['&', ' ', '\n', '\r', '\t', '"', '\'', '<', '>']

def urlSchemes : List (List Char) :=
  ["rtsp".toList, "rtsps".toList, "http".toList, "https".toList]

instance (scheme : List Char) : Decidable (scheme ∈ urlSchemes) :=
  List.instDecidableMemOfLawfulBEq _ _

def schemeMark : List Char := "://".toList

def userinfoMarker : List Char := "redacted:redacted".toList

def valueMarker : List Char := "redacted".toList

def secretKeys : List (List Char) :=
  ["password".toList, "token".toList, "api_key".toList, "apikey".toList, "secret".toList]

/-- The loop over the URLs of a text, with the rounds that are left, the cursor and the output. -/
def redactUserinfoFrom (value : List Char) :
    Nat → Nat → List Char → Except Stop (List Char)
  | 0, _, _ => .error .unfinished
  | rounds + 1, cursor, output => do
      let rest ← sliceFrom value cursor
      match findText schemeMark rest with
      | none =>
          let tail ← sliceFrom value cursor
          return output ++ tail
      | some relativeSchemeEnd =>
          let schemeEnd := cursor + relativeSchemeEnd
          let front ← slice value 0 schemeEnd
          let schemeStart := ((rfindChar (fun ch => !isSchemeChar ch) front).map (· + 1)).getD 0
          let scheme ← slice value schemeStart schemeEnd
          if scheme ∈ urlSchemes then
            let authorityStart := schemeEnd + 3
            let afterScheme ← sliceFrom value authorityStart
            let authorityEnd := ((findChar endsAuthority afterScheme).map (authorityStart + ·)).getD
              (byteLen value)
            let authority ← slice value authorityStart authorityEnd
            match rfindChar (· = '@') authority with
            | some userinfoEnd =>
                let before ← slice value cursor authorityStart
                let host ← sliceFrom authority (userinfoEnd + 1)
                redactUserinfoFrom value rounds authorityEnd
                  (output ++ before ++ (userinfoMarker ++ ['@']) ++ host)
            | none =>
                let kept ← slice value cursor authorityEnd
                redactUserinfoFrom value rounds authorityEnd (output ++ kept)
          else
            let kept ← slice value cursor (schemeEnd + 3)
            redactUserinfoFrom value rounds (schemeEnd + 3) (output ++ kept)

def redactDeviceEvidenceUrlUserinfo (value : List Char) : Except Stop (List Char) :=
  redactUserinfoFrom value (value.length + 1) 0 []

def redactValuesFrom (value lower needle : List Char) :
    Nat → Nat → List Char → Except Stop (List Char)
  | 0, _, _ => .error .unfinished
  | rounds + 1, cursor, output => do
      let rest ← sliceFrom lower cursor
      match findText needle rest with
      | none =>
          let tail ← sliceFrom value cursor
          return output ++ tail
      | some relativeStart =>
          let start := cursor + relativeStart
          let valueStart := start + byteLen needle
          let afterNeedle ← sliceFrom value valueStart
          let valueEnd := ((findChar endsValue afterNeedle).map (valueStart + ·)).getD
            (byteLen value)
          let kept ← slice value cursor valueStart
          redactValuesFrom value lower needle rounds valueEnd (output ++ kept ++ valueMarker)

def redactQueryLikeSecret (value key : List Char) : Except Stop (List Char) :=
  redactValuesFrom value (value.map Char.toLower) (key ++ ['=']) (value.length + 1) 0 []

def redactDeviceEvidenceText (value : String) : Except Stop String := do
  let redacted ← redactDeviceEvidenceUrlUserinfo value.toList
  let redacted ← secretKeys.foldlM redactQueryLikeSecret redacted
  return String.ofList redacted

def isSecretLikeKey (key : String) : Bool :=
  ["password", "secret", "token", "api_key", "apikey", "credential"].any fun part =>
    containsText (toAsciiLowercase key) part

mutual

def redactDeviceEvidenceValue : Value → Except Stop Value
  | object fields => do
      let redacted ← redactDeviceEvidenceFields fields
      return object redacted
  | array items => do
      let redacted ← redactDeviceEvidenceItems items
      return array redacted
  | string text => do
      let redacted ← redactDeviceEvidenceText text
      return string redacted
  | other => .ok other

def redactDeviceEvidenceItems : List Value → Except Stop (List Value)
  | [] => .ok []
  | item :: rest => do
      let item ← redactDeviceEvidenceValue item
      let rest ← redactDeviceEvidenceItems rest
      return item :: rest

def redactDeviceEvidenceFields : Fields → Except Stop Fields
  | [] => .ok []
  | (key, value) :: rest => do
      let value ← if isSecretLikeKey key then .ok (string "redacted")
        else redactDeviceEvidenceValue value
      let rest ← redactDeviceEvidenceFields rest
      return (key, value) :: rest

end

structure DeviceEvidenceRecord where
  evidenceId : String
  deviceId : String
  evidenceKind : String
  status : String
  observedAt : String
  summary : String
  details : Value

def sanitizeDeviceEvidenceRecord (record : DeviceEvidenceRecord) :
    Except Stop (Option DeviceEvidenceRecord) := do
  let summary ← redactDeviceEvidenceText (trim record.summary)
  let details ← redactDeviceEvidenceValue record.details
  let record : DeviceEvidenceRecord :=
    { evidenceId := trim record.evidenceId
      deviceId := trim record.deviceId
      evidenceKind := trim record.evidenceKind
      status := trim record.status
      observedAt := trim record.observedAt
      summary
      details }
  if record.evidenceId = "" ∨ record.deviceId = "" ∨ record.evidenceKind = "" ∨
      record.status = "" ∨ record.observedAt = "" then
    return none
  else return some record

def sanitizeDeviceEvidenceRecords :
    List DeviceEvidenceRecord → Except Stop (List DeviceEvidenceRecord)
  | [] => .ok []
  | record :: rest => do
      let kept ← sanitizeDeviceEvidenceRecord record
      let rest ← sanitizeDeviceEvidenceRecords rest
      return kept.toList ++ rest

end HarborBeacon.DeviceEvidence
