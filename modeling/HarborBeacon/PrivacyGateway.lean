import HarborBeacon.ModelRouting
import HarborBeacon.TextEncoding

/-!
The privacy gateway in front of cloud-bound model calls: the query and the previews of the
citations are redacted word by word and cut to length, the texts are classified by the words
they mention, and the privacy level decides with these what may leave the home.
-/

namespace HarborBeacon.PrivacyGateway

open Json Json.Value LineLog ModelRouting Text TextEncoding Words

def privacyGatewayPolicyVersion : String := "harbor_privacy_gateway_ci_v1"

def factMaxChars : Nat := 360

def taskMaxChars : Nat := 180

structure KnowledgeSearchCitation where
  title : String
  path : String
  modality : String
  chunkId : Option String
  lineStart : Option Nat
  lineEnd : Option Nat
  preview : Option String
  sourcePath : Option String
deriving DecidableEq

structure PrivacyFlowRecord where
  senderRole : String
  subjectRole : String
  recipientKind : String
  informationTypes : List String
  purpose : String
  consentBasis : String
  destination : String
  privacyLevel : PrivacyLevel
  decision : String
  policyVersion : String
deriving DecidableEq

structure PrivacyGatewayDecision where
  decision : String
  cloudAllowed : Bool
  riskLevel : String
  reason : String
  warnings : List String
deriving DecidableEq

structure SanitizedCitation where
  citationRef : Nat
  modality : String
  sourceHash : String
  chunkHash : String
  lineRange : Option String
  fact : String
  riskTags : List String
deriving DecidableEq

structure SemanticCapsule where
  capsuleId : String
  task : String
  facts : List SanitizedCitation
  sourceHashes : List String
  transformSteps : List String
  redacted : Bool
  policyVersion : String
deriving DecidableEq

structure PrivacyTransformRecord where
  privacyTransformId : String
  workspaceId : String
  sourceKind : String
  sourceRef : String
  transformSteps : Value
  outputRef : Value
  policyVersion : String
  createdAt : Option String
deriving DecidableEq

structure PrivacyGatewayEvaluation where
  flow : PrivacyFlowRecord
  decision : PrivacyGatewayDecision
  semanticCapsule : Option SemanticCapsule
  privacyTransform : PrivacyTransformRecord
deriving DecidableEq

def urlMarkers : List String :=
  ["http://", "https://", "rtsp://"]

def credentialMarkers : List String :=
  ["token=", "secret=", "api_key", "apikey", "password", "passwd", "bearer"]

def pathMarkers : List String :=
  ["\\\\", "c:\\", "/mnt/", "/home/", ".harborbeacon/"]

def containsAny (value : String) (needles : List String) : Bool :=
  needles.any fun needle => containsText value needle

def shouldRedactToken (token : String) : Bool :=
  let lower := toAsciiLowercase token
  urlMarkers.any (fun marker => startsWithText lower marker) ||
    containsAny lower credentialMarkers || containsAny lower pathMarkers

def redactToken (token : String) : String :=
  if shouldRedactToken token then "[redacted]" else token

def redactedText (value : String) : String :=
  joinTexts " " ((splitWhitespace value).map redactToken)

def sanitizeFreeText (value : String) (maxChars : Nat) : Option String :=
  let text := redactedText value
  if isBlank text then none
  else if maxChars < text.toList.length then some (takeChars maxChars text)
  else some text

def mentions (words otherWords : List String) (value : String) : Bool :=
  containsAny (toAsciiLowercase value) words || containsAny value otherWords

def credentialWords : List String :=
  ["password", "passwd", "api_key", "apikey", "token", "credential", "secret"]

def mentionsCredential (value : String) : Bool :=
  mentions credentialWords ["密码", "凭据", "密钥"] value

/-- The outer test also looks for words that the inner one leaves out. -/
def mentionsChildLocation (value : String) : Bool :=
  mentions ["child", "kid", "minor", "location"] ["孩子", "儿童", "位置", "在哪"] value &&
    mentions ["child", "kid", "minor", "location"] ["孩子", "儿童"] value

def mentionsHealthStatus (value : String) : Bool :=
  mentions ["health", "medical", "medicine", "hospital", "diagnosis", "elderly"]
    ["健康", "生病", "药", "老人"] value

def mentionsHomeSecurity (value : String) : Bool :=
  mentions ["camera", "lock", "unlock", "visitor", "garage", "door"]
    ["摄像头", "门锁", "访客", "车库", "门口"] value

def mentionsPersonalIdentity (value : String) : Bool :=
  mentions ["phone", "email", "address", "passport"] ["手机号", "地址", "身份证"] value

def classifyText (value : String) : List String :=
  sortedSet
    ((if mentionsCredential value then ["credential"] else []) ++
      (if mentionsChildLocation value then ["child_location"] else []) ++
      (if mentionsHealthStatus value then ["health_status"] else []) ++
      (if mentionsHomeSecurity value then ["home_security"] else []) ++
      (if mentionsPersonalIdentity value then ["personal_identity"] else []))

/-- `preview.as_deref().unwrap_or_default()`. -/
def KnowledgeSearchCitation.previewText (citation : KnowledgeSearchCitation) : String :=
  citation.preview.getD ""

def classifyInformationTypes (query : String) (citations : List KnowledgeSearchCitation)
    (facts : List SanitizedCitation) : List String :=
  let tags := sortedSet
    (classifyText query ++
      (citations.flatMap fun citation =>
        classifyText citation.previewText ++ classifyText citation.title ++
          classifyText citation.modality) ++
      facts.flatMap fun fact => fact.riskTags)
  if tags = [] then ["knowledge_context"] else tags

def riskLevelForTypes (types : List String) : String :=
  if types.any (· = "credential") then "high"
  else if types.any (· ∈ ["child_location", "health_status", "home_security",
    "personal_identity"]) then "medium"
  else "low"

def consentBasisForLevel : PrivacyLevel → String
  | .strictLocal => "none"
  | .allowRedactedCloud => "workspace_policy_redacted_cloud"
  | .allowCloud => "workspace_policy_cloud"

def destinationForLevel : PrivacyLevel → String
  | .strictLocal => "local_only"
  | .allowRedactedCloud => "cloud_model"
  | .allowCloud => "cloud_model"

def normalizeRole (value default : String) : String :=
  if isBlank value then default
  else (sanitizeFreeText (trim value) 64).getD default

section Evaluation

variable (sha256 : List UInt8 → List UInt8)

def shortSha256 (input : String) : String :=
  String.ofList (hex ((sha256 (utf8 input)).take 6))

def lineRangeOf : Option Nat → Option Nat → Option String
  | some first, some last => some (toString first ++ "-" ++ toString last)
  | some first, none => some (toString first)
  | none, _ => none

def sanitizedAs (citationRef : Nat) (citation : KnowledgeSearchCitation) (fact : String) :
    SanitizedCitation where
  citationRef := citationRef
  modality := citation.modality
  sourceHash := shortSha256 sha256
    (citation.title ++ ":" ++ citation.path ++ ":" ++ citation.sourcePath.getD "")
  chunkHash := shortSha256 sha256
    (citation.path ++ ":" ++ citation.chunkId.getD "chunk" ++ ":" ++ toString citationRef)
  lineRange := lineRangeOf citation.lineStart citation.lineEnd
  fact := fact
  riskTags := classifyText
    (citation.previewText ++ " " ++ citation.title ++ " " ++ citation.modality)

def sanitizeCitation (citationRef : Nat) (citation : KnowledgeSearchCitation) :
    Option SanitizedCitation :=
  match sanitizeFreeText citation.previewText factMaxChars with
  | none => none
  | some fact => if isBlank fact then none else some (sanitizedAs sha256 citationRef citation fact)

def taskOf (query : String) : String :=
  ((sanitizeFreeText query taskMaxChars).filter fun value => !isBlank value).getD
    "answer from provided citations"

def factsOf (citations : List KnowledgeSearchCitation) : List SanitizedCitation :=
  citations.zipIdx.filterMap fun entry => sanitizeCitation sha256 (entry.2 + 1) entry.1

def decisionFor (privacyLevel : PrivacyLevel) (facts : List SanitizedCitation)
    (informationTypes : List String) : PrivacyGatewayDecision :=
  let riskLevel := riskLevelForTypes informationTypes
  match privacyLevel with
  | .strictLocal =>
      { decision := "blocked_or_degraded"
        cloudAllowed := false
        riskLevel := riskLevel
        reason := "strict_local blocks cloud execution"
        warnings := [] }
  | .allowRedactedCloud =>
      if facts = [] then
        { decision := "blocked_or_degraded"
          cloudAllowed := false
          riskLevel := riskLevel
          reason := "semantic capsule has no sanitized facts"
          warnings := ["privacy gateway did not emit a cloud-safe capsule"] }
      else if informationTypes.any (· = "credential") then
        { decision := "blocked_or_degraded"
          cloudAllowed := false
          riskLevel := "high"
          reason := "credential-like material is not allowed in redacted cloud mode"
          warnings :=
            ["credential-like material was detected and cloud execution was skipped"] }
      else
        { decision := "allow_redacted_cloud"
          cloudAllowed := true
          riskLevel := riskLevel
          reason := "redacted semantic capsule generated"
          warnings := [] }
  | .allowCloud =>
      { decision := "allow_cloud"
        cloudAllowed := true
        riskLevel := riskLevel
        reason := "workspace policy allows cloud; contextual integrity evidence recorded"
        warnings := [] }

def capsuleOf (sourceRef task : String) (facts : List SanitizedCitation)
    (sourceHashes : List String) : Option SemanticCapsule :=
  if facts = [] then none
  else
    some
      { capsuleId := "capsule-" ++ shortSha256 sha256 (sourceRef ++ ":" ++ task)
        task := task
        facts := facts
        sourceHashes := sourceHashes
        transformSteps :=
          ["hash_source_refs", "redact_paths_urls_credentials",
            "truncate_facts_to_" ++ toString factMaxChars ++ "_chars",
            "emit_task_minimal_semantic_capsule"]
        redacted := true
        policyVersion := privacyGatewayPolicyVersion }

def evaluateRagAnswerCloudContext (query : String) (citations : List KnowledgeSearchCitation)
    (privacyLevel : PrivacyLevel) (workspaceId sourceRef senderRole now : String) :
    PrivacyGatewayEvaluation :=
  let task := taskOf query
  let facts := factsOf sha256 citations
  let sourceHashes := sortedSet (facts.map fun fact => fact.sourceHash)
  let informationTypes := classifyInformationTypes query citations facts
  let decision := decisionFor privacyLevel facts informationTypes
  let capsule := capsuleOf sha256 sourceRef task facts sourceHashes
  { flow :=
      { senderRole := normalizeRole senderRole "user"
        subjectRole := "household_context"
        recipientKind := "cloud_model"
        informationTypes := informationTypes
        purpose := "retrieval.answer"
        consentBasis := consentBasisForLevel privacyLevel
        destination := destinationForLevel privacyLevel
        privacyLevel := privacyLevel
        decision := decision.decision
        policyVersion := privacyGatewayPolicyVersion }
    decision := decision
    semanticCapsule := capsule
    privacyTransform :=
      { privacyTransformId :=
          "privacy-transform-" ++ shortSha256 sha256 (sourceRef ++ ":" ++ decision.decision)
        workspaceId := workspaceId
        sourceKind := "rag_answer_context"
        sourceRef := sourceRef
        transformSteps :=
          match capsule with
          | some capsule => ofStrings capsule.transformSteps
          | none => ofStrings ["cloud_blocked_no_capsule"]
        outputRef := obj
          [("capsule_id", ofOption (capsule.map fun capsule => capsule.capsuleId)),
           ("source_hashes", ofStrings sourceHashes),
           ("redacted", .bool true),
           ("metadata_only", .bool true)]
        policyVersion := privacyGatewayPolicyVersion
        createdAt := some now } }

def factLine (fact : SanitizedCitation) : String :=
  "[" ++ toString fact.citationRef ++ "] modality=" ++ fact.modality ++ " chunk_hash=" ++
    fact.chunkHash ++ " risk_tags=" ++
    (if fact.riskTags = [] then "none" else joinTexts "," fact.riskTags) ++ " fact=" ++ fact.fact

def SemanticCapsule.promptLines (capsule : SemanticCapsule) : List String :=
  ["Harbor Privacy Gateway capsule: " ++ capsule.capsuleId,
    "Answer only from the numbered facts below.",
    "Do not infer identities, locations, credentials, file paths, or extra household details beyond the facts.",
    "Every substantive statement must include a [n] citation marker.",
    "",
    "Task: " ++ capsule.task,
    "",
    "Facts:"] ++ capsule.facts.map factLine

def SemanticCapsule.toCloudPrompt (capsule : SemanticCapsule) : String :=
  joinTexts "\n" capsule.promptLines

end Evaluation

theorem containsText_iff {s pattern : String} :
    containsText s pattern = true ↔ pattern.toList <:+: s.toList := by
  simp [containsText]

theorem toList_redactToken (token : String) :
    (redactToken token).toList =
      if shouldRedactToken token then "[redacted]".toList else token.toList := by
  unfold redactToken
  split
  · rfl
  · rfl

theorem redactToken_of_mem {value token : String} (h : token ∈ splitWhitespace value) :
    (redactToken token).toList ≠ [] ∧
      ∀ c ∈ (redactToken token).toList, isWhitespace c = false := by
  obtain ⟨hne, -, hword⟩ := mem_splitWhitespace h
  rw [toList_redactToken]
  split
  · have hmarker : "[redacted]".toList.all (fun c => !isWhitespace c) = true := by decide
    exact ⟨by decide, by simpa using List.all_eq_true.mp hmarker⟩
  · exact ⟨hne, hword⟩

theorem toList_redactedText (value : String) :
    (redactedText value).toList =
      [' '].intercalate ((splitWhitespace value).map fun token => (redactToken token).toList) := by
  simp [redactedText, joinTexts, Function.comp_def]

variable {citations : List KnowledgeSearchCitation} {value : String}

theorem head_redactedText (h : isBlank value = false) :
    ∃ c rest, (redactedText value).toList = c :: rest ∧ isWhitespace c = false := by
  have hne : splitWhitespace value ≠ [] := by
    intro hnil
    rw [splitWhitespace_eq_nil_iff.mp hnil] at h
    cases h
  obtain ⟨token, tokens, htokens⟩ := List.exists_cons_of_ne_nil hne
  obtain ⟨hword, hclean⟩ := redactToken_of_mem (htokens ▸ List.mem_cons_self)
  obtain ⟨c, chars, hchars⟩ := List.exists_cons_of_ne_nil hword
  rw [toList_redactedText, htokens, List.map_cons, hchars, List.intercalate_cons_cons_left]
  exact ⟨c, _, rfl, hclean c (by simp [hchars])⟩

theorem isBlank_redactedText (value : String) : isBlank (redactedText value) = isBlank value := by
  cases h : isBlank value with
  | true =>
      have hempty : redactedText value = "" := by
        rw [← String.toList_inj, toList_redactedText, splitWhitespace_eq_nil_iff.mpr h]
        rfl
      rw [hempty]
      decide
  | false =>
      obtain ⟨c, rest, hchars, hc⟩ := head_redactedText h
      exact isBlank_eq_false_of_mem (by simp [hchars]) hc

theorem isBlank_takeChars {n : Nat} (hn : 0 < n) (h : isBlank value = false) :
    isBlank (takeChars n (redactedText value)) = false := by
  obtain ⟨c, rest, hchars, hc⟩ := head_redactedText h
  obtain ⟨n, rfl⟩ := Nat.exists_eq_add_of_lt hn
  apply isBlank_eq_false_of_mem _ hc
  simp [takeChars, hchars]

theorem sanitizeFreeText_eq (value : String) (n : Nat) :
    sanitizeFreeText value n =
      if isBlank value then none else some (takeChars n (redactedText value)) := by
  simp only [sanitizeFreeText, isBlank_redactedText]
  split
  · rfl
  · split
    · rfl
    · rename_i hshort
      rw [takeChars, List.take_of_length_le (by omega), String.ofList_toList]

theorem taskOf_eq (query : String) :
    taskOf query =
      if isBlank query then "answer from provided citations"
      else takeChars taskMaxChars (redactedText query) := by
  unfold taskOf
  rw [sanitizeFreeText_eq]
  cases h : isBlank query with
  | true => rfl
  | false =>
      have htext := isBlank_takeChars (n := taskMaxChars) (by decide) h
      simp [Option.filter, htext]

theorem sanitizeCitation_eq (sha256 : List UInt8 → List UInt8) (citationRef : Nat)
    (citation : KnowledgeSearchCitation) :
    sanitizeCitation sha256 citationRef citation =
      if isBlank citation.previewText then none
      else
        some (sanitizedAs sha256 citationRef citation
          (takeChars factMaxChars (redactedText citation.previewText))) := by
  unfold sanitizeCitation
  rw [sanitizeFreeText_eq]
  cases h : isBlank citation.previewText with
  | true => rfl
  | false =>
      have htext := isBlank_takeChars (n := factMaxChars) (by decide) h
      simp [htext]

theorem mem_factsOf_iff {sha256 : List UInt8 → List UInt8} {fact : SanitizedCitation} :
    fact ∈ factsOf sha256 citations ↔
      ∃ citation place, (citation, place) ∈ citations.zipIdx ∧
        isBlank citation.previewText = false ∧
        fact = sanitizedAs sha256 (place + 1) citation
          (takeChars factMaxChars (redactedText citation.previewText)) := by
  simp only [factsOf, List.mem_filterMap, Prod.exists, sanitizeCitation_eq]
  constructor
  · rintro ⟨citation, place, hmem, hfact⟩
    split at hfact
    · cases hfact
    · rename_i hblank
      exact ⟨citation, place, hmem, by simpa using hblank, (Option.some.inj hfact).symm⟩
  · rintro ⟨citation, place, hmem, hblank, rfl⟩
    exact ⟨citation, place, hmem, by simp [hblank]⟩

theorem exists_fact_iff (sha256 : List UInt8 → List UInt8)
    (citations : List KnowledgeSearchCitation) (p : String → Prop) :
    (∃ fact ∈ factsOf sha256 citations, p fact.fact) ↔
      ∃ citation ∈ citations, isBlank citation.previewText = false ∧
        p (takeChars factMaxChars (redactedText citation.previewText)) := by
  constructor
  · rintro ⟨fact, hfact, hp⟩
    obtain ⟨citation, place, hmem, hblank, rfl⟩ := mem_factsOf_iff.mp hfact
    exact ⟨citation, List.fst_mem_of_mem_zipIdx hmem, hblank, hp⟩
  · rintro ⟨citation, hmem, hblank, hp⟩
    obtain ⟨place, hplace⟩ := List.mem_iff_getElem?.mp hmem
    exact ⟨_, mem_factsOf_iff.mpr
      ⟨citation, place, List.mk_mem_zipIdx_iff_getElem?.mpr hplace, hblank, rfl⟩, hp⟩

theorem factsOf_eq_nil_iff (sha256 : List UInt8 → List UInt8) :
    factsOf sha256 citations = [] ↔
      ∀ citation ∈ citations, isBlank citation.previewText = true := by
  have hexists := exists_fact_iff sha256 citations fun _ => True
  constructor
  · intro hnil citation hmem
    by_contra hblank
    obtain ⟨fact, hfact, -⟩ :=
      hexists.mpr ⟨citation, hmem, by simpa using hblank, trivial⟩
    simp [hnil] at hfact
  · intro hall
    rw [List.eq_nil_iff_forall_not_mem]
    intro fact hfact
    obtain ⟨citation, hmem, hblank, -⟩ := hexists.mp ⟨fact, hfact, trivial⟩
    rw [hall citation hmem] at hblank
    cases hblank

def SemanticCapsule.promptTexts (capsule : SemanticCapsule) : List String :=
  capsule.task :: capsule.facts.map fun fact => fact.fact

theorem promptTexts_within {capsule : SemanticCapsule} {text : String}
    (h : text ∈ capsule.promptTexts) : text.toList <:+: capsule.toCloudPrompt.toList := by
  have hline : ∀ lead, lead ++ text ∈ capsule.promptLines →
      text.toList <:+: capsule.toCloudPrompt.toList := by
    intro lead hmem
    rw [SemanticCapsule.toCloudPrompt, joinTexts, String.toList_ofList]
    refine List.IsInfix.trans ?_ (infix_intercalate_of_mem (List.mem_map_of_mem hmem))
    rw [String.toList_append]
    exact List.infix_append_right
  rcases List.mem_cons.mp h with rfl | hmem
  · exact hline "Task: " (by simp [SemanticCapsule.promptLines])
  · obtain ⟨fact, hfact, rfl⟩ := List.mem_map.mp hmem
    exact hline _ (List.mem_append_right _ (List.mem_map_of_mem hfact))

def classifiedTexts (query : String) (citations : List KnowledgeSearchCitation) : List String :=
  query :: citations.flatMap fun citation =>
    [citation.previewText, citation.title, citation.modality]

def promptSources (query : String) (citations : List KnowledgeSearchCitation) : List String :=
  query :: citations.map fun citation => citation.previewText

theorem classified_of_promptSource {query text : String} (h : text ∈ promptSources query citations)
    :
    text ∈ classifiedTexts query citations := by
  rcases List.mem_cons.mp h with rfl | hmem
  · exact List.mem_cons_self
  · obtain ⟨citation, hcitation, rfl⟩ := List.mem_map.mp hmem
    exact List.mem_cons_of_mem _ (List.mem_flatMap.mpr ⟨citation, hcitation, by simp⟩)

theorem containsText_append_space {a b pattern : String} (hne : pattern.toList ≠ [])
    (hspace : ' ' ∉ pattern.toList) :
    containsText (a ++ " " ++ b) pattern = (containsText a pattern || containsText b pattern) := by
  rw [Bool.eq_iff_iff]
  simp only [Bool.or_eq_true, containsText_iff, String.toList_append, List.append_assoc]
  exact infix_append_sep_iff hne hspace

theorem toAsciiLowercase_append_space (a b : String) :
    toAsciiLowercase (a ++ " " ++ b) = toAsciiLowercase a ++ " " ++ toAsciiLowercase b := by
  rw [← String.toList_inj]
  simp [toAsciiLowercase]

theorem containsAny_append_space {a b : String} {needles : List String}
    (h : ∀ needle ∈ needles, needle.toList ≠ [] ∧ ' ' ∉ needle.toList) :
    containsAny (a ++ " " ++ b) needles = (containsAny a needles || containsAny b needles) := by
  unfold containsAny
  induction needles with
  | nil => rfl
  | cons needle rest ih =>
      obtain ⟨hne, hspace⟩ := h needle List.mem_cons_self
      rw [List.any_cons, List.any_cons, List.any_cons, containsText_append_space hne hspace,
        ih fun other hother => h other (List.mem_cons_of_mem _ hother)]
      grind

theorem mentionsCredential_append_space (a b : String) :
    mentionsCredential (a ++ " " ++ b) = (mentionsCredential a || mentionsCredential b) := by
  unfold mentionsCredential mentions
  rw [toAsciiLowercase_append_space, containsAny_append_space (by decide),
    containsAny_append_space (by decide)]
  grind

theorem credential_mem_classifyText :
    "credential" ∈ classifyText value ↔ mentionsCredential value = true := by
  simp [classifyText]

theorem exists_classified_iff (query : String) (citations : List KnowledgeSearchCitation)
    (p : String → Prop) :
    (∃ text ∈ classifiedTexts query citations, p text) ↔
      p query ∨ ∃ citation ∈ citations,
        p citation.previewText ∨ p citation.title ∨ p citation.modality := by
  simp only [classifiedTexts, List.mem_cons, List.mem_flatMap, List.not_mem_nil, or_false,
    exists_eq_or_imp]
  refine or_congr_right ?_
  constructor
  · rintro ⟨text, ⟨citation, hmem, rfl | rfl | rfl⟩, hp⟩
    · exact ⟨citation, hmem, Or.inl hp⟩
    · exact ⟨citation, hmem, Or.inr (Or.inl hp)⟩
    · exact ⟨citation, hmem, Or.inr (Or.inr hp)⟩
  · rintro ⟨citation, hmem, hp | hp | hp⟩
    · exact ⟨_, ⟨citation, hmem, Or.inl rfl⟩, hp⟩
    · exact ⟨_, ⟨citation, hmem, Or.inr (Or.inl rfl)⟩, hp⟩
    · exact ⟨_, ⟨citation, hmem, Or.inr (Or.inr rfl)⟩, hp⟩

theorem riskTags_sanitizedAs (sha256 : List UInt8 → List UInt8) (citationRef : Nat)
    (citation : KnowledgeSearchCitation) (fact : String) :
    (sanitizedAs sha256 citationRef citation fact).riskTags = classifyText
      (citation.previewText ++ " " ++ citation.title ++ " " ++ citation.modality) := by
  simp only [sanitizedAs]

theorem mem_of_defaulted {tags : List String} {tag other : String} (hne : tag ≠ other) :
    (tag ∈ if tags = [] then [other] else tags) ↔ tag ∈ tags := by
  split
  · rename_i hnil
    simp [hnil, hne]
  · rfl

theorem credential_mem_informationTypes {sha256 : List UInt8 → List UInt8} {query : String} :
    "credential" ∈ classifyInformationTypes query citations (factsOf sha256 citations) ↔
      ∃ text ∈ classifiedTexts query citations, mentionsCredential text = true := by
  rw [exists_classified_iff, classifyInformationTypes, mem_of_defaulted (by decide)]
  simp only [mem_sortedSet, List.mem_append, List.mem_flatMap, credential_mem_classifyText,
    or_assoc]
  constructor
  · rintro (hquery | hcitation | ⟨fact, hfact, htag⟩)
    · exact Or.inl hquery
    · exact Or.inr hcitation
    · obtain ⟨citation, place, hplace, -, rfl⟩ := mem_factsOf_iff.mp hfact
      rw [riskTags_sanitizedAs, credential_mem_classifyText, mentionsCredential_append_space, mentionsCredential_append_space, Bool.or_eq_true,
        Bool.or_eq_true, or_assoc] at htag
      exact Or.inr ⟨citation, List.fst_mem_of_mem_zipIdx hplace, htag⟩
  · rintro (hquery | hcitation)
    · exact Or.inl hquery
    · exact Or.inr (Or.inl hcitation)

theorem cloudAllowed_decisionFor {facts : List SanitizedCitation} {types : List String} :
    (decisionFor .allowRedactedCloud facts types).cloudAllowed = true ↔
      facts ≠ [] ∧ "credential" ∉ types := by
  simp only [decisionFor]
  split
  · simp_all
  · split
    · simp_all
    · simp_all

theorem cloudAllowed_iff (sha256 : List UInt8 → List UInt8) (query : String)
    (citations : List KnowledgeSearchCitation) (workspaceId sourceRef senderRole now : String) :
    (evaluateRagAnswerCloudContext sha256 query citations .allowRedactedCloud workspaceId
        sourceRef senderRole now).decision.cloudAllowed = true ↔
      ¬ (∀ citation ∈ citations, isBlank citation.previewText = true) ∧
        ¬ ∃ text ∈ classifiedTexts query citations, mentionsCredential text = true := by
  rw [evaluateRagAnswerCloudContext, cloudAllowed_decisionFor, credential_mem_informationTypes,
    ne_eq, factsOf_eq_nil_iff sha256]

theorem toAsciiLowercase_within {a b : String} (h : a.toList <:+: b.toList) :
    (toAsciiLowercase a).toList <:+: (toAsciiLowercase b).toList := by
  simpa [toAsciiLowercase] using h.map Char.toLower

theorem exists_credentialWord : ∀ marker ∈ credentialMarkers, marker ≠ "bearer" →
    ∃ word ∈ credentialWords, word.toList <:+: marker.toList := by
  decide

theorem mentionsCredential_of_marker {text token marker : String}
    (htoken : token ∈ splitWhitespace text) (hmarker : marker ∈ credentialMarkers)
    (hcontains : containsText (toAsciiLowercase token) marker = true) (hne : marker ≠ "bearer") :
    mentionsCredential text = true := by
  obtain ⟨word, hword, hwithin⟩ := exists_credentialWord marker hmarker hne
  have htext : word.toList <:+: (toAsciiLowercase text).toList :=
    (hwithin.trans (containsText_iff.mp hcontains)).trans
      (toAsciiLowercase_within (mem_splitWhitespace htoken).2.1)
  unfold mentionsCredential mentions
  rw [Bool.or_eq_true]
  exact Or.inl (List.any_eq_true.mpr ⟨word, hword, containsText_iff.mpr htext⟩)

theorem capsuleOf_cases (sha256 : List UInt8 → List UInt8) (sourceRef task : String)
    (facts : List SanitizedCitation) (sourceHashes : List String) :
    (capsuleOf sha256 sourceRef task facts sourceHashes = none ∧ facts = []) ∨
      ∃ capsule, capsuleOf sha256 sourceRef task facts sourceHashes = some capsule ∧
        capsule.task = task ∧ capsule.facts = facts ∧ ¬ facts = [] := by
  unfold capsuleOf
  split
  · exact Or.inl ⟨rfl, by assumption⟩
  · exact Or.inr ⟨_, rfl, rfl, rfl, by assumption⟩

theorem semanticCapsule_cases (sha256 : List UInt8 → List UInt8) (query : String)
    (citations : List KnowledgeSearchCitation) (privacyLevel : PrivacyLevel)
    (workspaceId sourceRef senderRole now : String) :
    ((evaluateRagAnswerCloudContext sha256 query citations privacyLevel workspaceId sourceRef
        senderRole now).semanticCapsule = none ∧
      ∀ citation ∈ citations, isBlank citation.previewText = true) ∨
    ∃ capsule, (evaluateRagAnswerCloudContext sha256 query citations privacyLevel workspaceId
        sourceRef senderRole now).semanticCapsule = some capsule ∧
      capsule.task = taskOf query ∧ capsule.facts = factsOf sha256 citations ∧
      ¬ ∀ citation ∈ citations, isBlank citation.previewText = true := by
  simp only [evaluateRagAnswerCloudContext]
  rw [← factsOf_eq_nil_iff sha256]
  exact capsuleOf_cases _ _ _ _ _

def CarriesMarker (token : String) : Prop :=
  ∃ marker ∈ credentialMarkers, containsText (toAsciiLowercase token) marker = true

/-- What a request that is allowed to the cloud must not hold: a word with a credential
marker, and after it a value that the prompt repeats. -/
def FreeOfCredentials (evaluation : PrivacyGatewayEvaluation) (query : String)
    (citations : List KnowledgeSearchCitation) : Prop :=
  evaluation.decision.cloudAllowed = true →
    ∀ text ∈ promptSources query citations,
      (∀ token ∈ splitWhitespace text, ¬ CarriesMarker token) ∧
      ∀ capsule before marked value after, evaluation.semanticCapsule = some capsule →
        splitWhitespace text = before ++ marked :: value :: after → CarriesMarker marked →
        containsText capsule.toCloudPrompt value = false

/-- The redacted cloud gets no credential exactly when nothing is sent, a classified text
blocks the request, or no word holds the one marker that blocks nothing. -/
theorem redacted_cloud_free_of_credentials_iff (sha256 : List UInt8 → List UInt8)
    (query : String) (citations : List KnowledgeSearchCitation)
    (workspaceId sourceRef senderRole now : String) :
    FreeOfCredentials
        (evaluateRagAnswerCloudContext sha256 query citations .allowRedactedCloud workspaceId
          sourceRef senderRole now) query citations ↔
      (∀ citation ∈ citations, isBlank citation.previewText = true) ∨
      (∃ text ∈ classifiedTexts query citations, mentionsCredential text = true) ∨
      ∀ text ∈ promptSources query citations, ∀ token ∈ splitWhitespace text,
        containsText (toAsciiLowercase token) "bearer" = false := by
  unfold FreeOfCredentials
  rw [cloudAllowed_iff]
  constructor
  · intro hfree
    by_contra hcondition
    push Not at hcondition
    obtain ⟨⟨citation, hcitation, hblank⟩, hclassified, text, htext, token, htoken, hbearer⟩ :=
      hcondition
    have hallowed : ¬ (∀ citation ∈ citations, isBlank citation.previewText = true) ∧
        ¬ ∃ text ∈ classifiedTexts query citations, mentionsCredential text = true := by
      push Not
      exact ⟨⟨citation, hcitation, hblank⟩, hclassified⟩
    apply (hfree hallowed text htext).1 token htoken
    exact ⟨"bearer", by decide, by simpa using hbearer⟩
  · rintro hcondition ⟨hsent, hclassified⟩ text htext
    have hnone : ∀ token ∈ splitWhitespace text, ¬ CarriesMarker token := by
      rintro token htoken ⟨marker, hmarker, hcontains⟩
      rcases hcondition with hblank | hblocked | hbearer
      · exact hsent hblank
      · exact hclassified hblocked
      · by_cases hne : marker = "bearer"
        · rw [hne, hbearer text htext token htoken] at hcontains
          cases hcontains
        · apply hclassified
          refine ⟨text, ?_, mentionsCredential_of_marker htoken hmarker hcontains hne⟩
          exact classified_of_promptSource htext
    refine ⟨hnone, ?_⟩
    intro capsule before marked value after _ hsplit hmarked
    exact absurd hmarked (hnone marked (by simp [hsplit]))

def gardenNote (preview : String) : KnowledgeSearchCitation where
  title := "garden-note.md"
  path := "garden-note.md"
  modality := "document"
  chunkId := some "chunk-1"
  lineStart := some 1
  lineEnd := some 1
  preview := some preview
  sourcePath := none

/-- The word `Bearer` is redacted, the value after it is sent. -/
theorem bearer_value_reaches_cloud :
    redactedText "Call it with Bearer abc123" = "Call it with [redacted] abc123" ∧
      ∀ sha256 : List UInt8 → List UInt8,
        (∃ capsule, (evaluateRagAnswerCloudContext sha256 "how is the pump called"
            [gardenNote "Call it with Bearer abc123"] .allowRedactedCloud "home-1" "task-1"
            "owner" "0").semanticCapsule = some capsule ∧
          containsText capsule.toCloudPrompt "abc123" = true) ∧
        ¬ FreeOfCredentials
          (evaluateRagAnswerCloudContext sha256 "how is the pump called"
            [gardenNote "Call it with Bearer abc123"] .allowRedactedCloud "home-1" "task-1"
            "owner" "0") "how is the pump called" [gardenNote "Call it with Bearer abc123"] := by
  refine ⟨by decide, fun sha256 => ⟨?_, ?_⟩⟩
  · rcases semanticCapsule_cases sha256 "how is the pump called"
      [gardenNote "Call it with Bearer abc123"] .allowRedactedCloud "home-1" "task-1" "owner"
      "0" with ⟨-, hblank⟩ | ⟨capsule, hsome, -, hfacts, -⟩
    · exact absurd hblank (by decide)
    · obtain ⟨fact, hfact, hcontains⟩ := (exists_fact_iff sha256
        [gardenNote "Call it with Bearer abc123"] fun text =>
          containsText text "abc123" = true).mpr (by decide)
      rw [← hfacts] at hfact
      have htext : fact.fact ∈ capsule.promptTexts :=
        List.mem_cons_of_mem _ (List.mem_map_of_mem hfact)
      exact ⟨capsule, hsome, containsText_iff.mpr
        ((containsText_iff.mp hcontains).trans (promptTexts_within htext))⟩
  · intro hfree
    have hallowed := (cloudAllowed_iff sha256 "how is the pump called"
      [gardenNote "Call it with Bearer abc123"] "home-1" "task-1" "owner" "0").mpr
      (by decide)
    have hnone := (hfree hallowed "Call it with Bearer abc123" (by decide)).1
    exact hnone "Bearer" (by decide) ⟨"bearer", by decide, by decide⟩

def leakMarkers : List String :=
  ["http://", "https://", "rtsp://", "c:\\", "/mnt/", "/home/", ".harborbeacon/"]

/-- Neither the task nor a fact shows a URL or a local path. -/
def FreeOfLeaks (evaluation : PrivacyGatewayEvaluation) : Prop :=
  ∀ capsule, evaluation.semanticCapsule = some capsule →
    ∀ text ∈ capsule.promptTexts, ∀ marker ∈ leakMarkers,
      containsText (toAsciiLowercase text) marker = false

def roomFor (tokens : List String) : Nat :=
  (tokens.map fun token => (redactToken token).toList.length + 1).sum

def LeavesUrl (limit : Nat) (value : String) : Prop :=
  ∃ before token after lead marker, splitWhitespace value = before ++ token :: after ∧
    shouldRedactToken token = false ∧ marker ∈ urlMarkers ∧
    lead ++ marker.toList <+: (toAsciiLowercase token).toList ∧
    roomFor before + lead.length + marker.toList.length ≤ limit

theorem toList_toAsciiLowercase (s : String) :
    (toAsciiLowercase s).toList = s.toList.map Char.toLower := by
  simp [toAsciiLowercase]

def shownWord (token : String) : List Char :=
  (toAsciiLowercase (redactToken token)).toList

theorem toList_lowercase_takeChars (value : String) (n : Nat) :
    (toAsciiLowercase (takeChars n (redactedText value))).toList =
      ([' '].intercalate ((splitWhitespace value).map shownWord)).take n := by
  have hspace : Char.toLower ' ' = ' ' := by decide
  have hshown : shownWord = fun token => (redactToken token).toList.map Char.toLower := by
    funext token
    exact toList_toAsciiLowercase _
  simp only [hshown, toList_toAsciiLowercase, takeChars, String.toList_ofList, List.map_take,
    toList_redactedText, map_intercalate, List.map_cons, List.map_nil, hspace, List.map_map,
    Function.comp_def]

theorem length_logOf_shownWord (tokens : List String) :
    (logOf ' ' (tokens.map shownWord)).length = roomFor tokens := by
  induction tokens with
  | nil => rfl
  | cons token rest ih =>
      rw [List.map_cons, logOf_cons, List.length_append, List.length_cons, ih,
        shownWord, toList_toAsciiLowercase, List.length_map, roomFor, roomFor, List.map_cons,
        List.sum_cons]
      omega

theorem leakMarkers_nonempty : ∀ marker ∈ leakMarkers,
    marker.toList ≠ [] ∧ ' ' ∉ marker.toList ∧
      ¬ marker.toList <:+: (toAsciiLowercase "[redacted]").toList ∧
      (marker ∈ urlMarkers ∨ marker ∈ pathMarkers) := by
  decide

theorem urlMarkers_leak : ∀ marker ∈ urlMarkers, marker ∈ leakMarkers := by
  decide

theorem not_contains_pathMarker {token marker : String} (h : shouldRedactToken token = false)
    (hmarker : marker ∈ pathMarkers) : ¬ marker.toList <:+: (toAsciiLowercase token).toList := by
  intro hwithin
  simp only [shouldRedactToken, Bool.or_eq_false_iff] at h
  have hany : containsAny (toAsciiLowercase token) pathMarkers = true :=
    List.any_eq_true.mpr ⟨marker, hmarker, containsText_iff.mpr hwithin⟩
  rw [h.2] at hany
  cases hany

theorem exists_leak_iff (value : String) (n : Nat) :
    (∃ marker ∈ leakMarkers,
        containsText (toAsciiLowercase (takeChars n (redactedText value))) marker = true) ↔
      LeavesUrl n value := by
  simp only [containsText_iff, toList_lowercase_takeChars, infix_iff_exists_lead,
    List.prefix_take_iff]
  constructor
  · rintro ⟨marker, hmarker, lead, hstarts, hlength⟩
    obtain ⟨hne, hspace, hredacted, hkind⟩ := leakMarkers_nonempty marker hmarker
    obtain ⟨before', word, after', lead', hparts, rfl, hword⟩ :=
      (prefix_intercalate_iff hne hspace).mp hstarts
    obtain ⟨before, rest, hsplit, rfl, hrest⟩ := List.map_eq_append_iff.mp hparts
    obtain ⟨token, after, rfl, rfl, rfl⟩ := List.map_eq_cons_iff.mp hrest
    rw [shownWord] at hword
    have hwithin : marker.toList <:+: (toAsciiLowercase (redactToken token)).toList :=
      infix_iff_exists_lead.mpr ⟨lead', hword⟩
    -- a redacted word shows nothing, and a word that is left has no path in it
    cases hredact : shouldRedactToken token with
    | true =>
        rw [redactToken, if_pos hredact] at hwithin
        exact absurd hwithin hredacted
    | false =>
        have hkept : redactToken token = token := by simp [redactToken, hredact]
        rw [hkept] at hword hwithin
        rcases hkind with hurl | hpath
        · refine ⟨before, token, after, lead', marker, hsplit, hredact, hurl, hword, ?_⟩
          rw [List.length_append, List.length_append, length_logOf_shownWord] at hlength
          omega
        · exact absurd hwithin (not_contains_pathMarker hredact hpath)
  · rintro ⟨before, token, after, lead, marker, hsplit, hredact, hurl, hstarts, hlength⟩
    have hleak := urlMarkers_leak marker hurl
    obtain ⟨hne, hspace, -, -⟩ := leakMarkers_nonempty marker hleak
    have hkept : redactToken token = token := by simp [redactToken, hredact]
    refine ⟨marker, hleak, logOf ' ' (before.map shownWord) ++ lead, ?_, ?_⟩
    · refine (prefix_intercalate_iff hne hspace).mpr
        ⟨before.map shownWord, shownWord token, after.map shownWord, lead, ?_, rfl, ?_⟩
      · rw [hsplit, List.map_append, List.map_cons]
      · rwa [shownWord, hkept]
    · rw [List.length_append, List.length_append, length_logOf_shownWord]
      omega

theorem not_isBlank_of_leavesUrl {limit : Nat} (h : LeavesUrl limit value) :
    isBlank value = false := by
  obtain ⟨before, token, after, lead, marker, hsplit, -⟩ := h
  by_contra hblank
  rw [splitWhitespace_eq_nil_iff.mpr (by simpa using hblank)] at hsplit
  simp at hsplit

theorem exists_taskLeak_iff (query : String) :
    (∃ marker ∈ leakMarkers, containsText (toAsciiLowercase (taskOf query)) marker = true) ↔
      LeavesUrl taskMaxChars query := by
  rw [taskOf_eq]
  cases hblank : isBlank query with
  | true =>
      rw [if_pos rfl]
      refine iff_of_false (by decide) ?_
      intro hleaves
      rw [not_isBlank_of_leavesUrl hleaves] at hblank
      cases hblank
  | false =>
      rw [if_neg (by simp)]
      exact exists_leak_iff query taskMaxChars

theorem exists_factLeak_iff (sha256 : List UInt8 → List UInt8)
    (citations : List KnowledgeSearchCitation) :
    (∃ fact ∈ factsOf sha256 citations, ∃ marker ∈ leakMarkers,
        containsText (toAsciiLowercase fact.fact) marker = true) ↔
      ∃ citation ∈ citations, LeavesUrl factMaxChars citation.previewText := by
  have hfacts := exists_fact_iff sha256 citations fun text =>
    ∃ marker ∈ leakMarkers, containsText (toAsciiLowercase text) marker = true
  rw [hfacts]
  constructor
  · rintro ⟨citation, hmem, -, hleak⟩
    exact ⟨citation, hmem, (exists_leak_iff _ _).mp hleak⟩
  · rintro ⟨citation, hmem, hleaves⟩
    exact ⟨citation, hmem, not_isBlank_of_leavesUrl hleaves, (exists_leak_iff _ _).mpr hleaves⟩

/-- The prompt shows no URL and no local path exactly when there is no prompt, or neither the
query nor a preview leaves a URL. -/
theorem prompt_free_of_leaks_iff (sha256 : List UInt8 → List UInt8) (query : String)
    (citations : List KnowledgeSearchCitation) (privacyLevel : PrivacyLevel)
    (workspaceId sourceRef senderRole now : String) :
    FreeOfLeaks
        (evaluateRagAnswerCloudContext sha256 query citations privacyLevel workspaceId sourceRef
          senderRole now) ↔
      (∀ citation ∈ citations, isBlank citation.previewText = true) ∨
      (¬ LeavesUrl taskMaxChars query ∧
        ∀ citation ∈ citations, ¬ LeavesUrl factMaxChars citation.previewText) := by
  unfold FreeOfLeaks
  have htaskLeak := exists_taskLeak_iff query
  have hfactLeak := exists_factLeak_iff sha256 citations
  rcases semanticCapsule_cases sha256 query citations privacyLevel workspaceId sourceRef
    senderRole now with ⟨hnone, hblank⟩ | ⟨capsule, hsome, htask, hfacts, hsent⟩
  · rw [hnone]
    exact iff_of_true (fun capsule h => by cases h) (Or.inl hblank)
  · rw [← htask] at htaskLeak
    rw [← hfacts] at hfactLeak
    constructor
    · intro hfree
      have hclean := hfree capsule hsome
      refine Or.inr ⟨?_, ?_⟩
      · intro hleaves
        obtain ⟨marker, hmarker, hcontains⟩ := htaskLeak.mpr hleaves
        rw [hclean capsule.task List.mem_cons_self marker hmarker] at hcontains
        cases hcontains
      · intro citation hmem hleaves
        obtain ⟨fact, hfact, marker, hmarker, hcontains⟩ :=
          hfactLeak.mpr ⟨citation, hmem, hleaves⟩
        have htext : fact.fact ∈ capsule.promptTexts :=
          List.mem_cons_of_mem _ (List.mem_map_of_mem hfact)
        rw [hclean fact.fact htext marker hmarker] at hcontains
        cases hcontains
    · rintro (hblank | ⟨hquery, hpreviews⟩) other hother text htext marker hmarker
      · exact absurd hblank hsent
      · obtain rfl : capsule = other := Option.some.inj (hsome.symm.trans hother)
        by_contra hcontains
        rw [Bool.not_eq_false] at hcontains
        rcases List.mem_cons.mp htext with rfl | hmem
        · exact hquery (htaskLeak.mp ⟨marker, hmarker, hcontains⟩)
        · obtain ⟨fact, hfact, rfl⟩ := List.mem_map.mp hmem
          obtain ⟨citation, hcitation, hleaves⟩ :=
            hfactLeak.mp ⟨fact, hfact, marker, hmarker, hcontains⟩
          exact hpreviews citation hcitation hleaves

theorem bracketed_url_reaches_prompt :
    shouldRedactToken "(https://example.test/private)" = false ∧
      ∀ sha256 : List UInt8 → List UInt8,
        ¬ FreeOfLeaks
          (evaluateRagAnswerCloudContext sha256 "what does the note say"
            [gardenNote "The plan is here (https://example.test/private)"] .allowRedactedCloud
            "home-1" "task-1" "owner" "0") := by
  refine ⟨by decide, ?_⟩
  intro sha256 hfree
  rcases semanticCapsule_cases sha256 "what does the note say"
    [gardenNote "The plan is here (https://example.test/private)"] .allowRedactedCloud "home-1"
    "task-1" "owner" "0" with ⟨-, hblank⟩ | ⟨capsule, hsome, -, hfacts, -⟩
  · exact absurd hblank (by decide)
  · obtain ⟨fact, hfact, hcontains⟩ := (exists_fact_iff sha256
      [gardenNote "The plan is here (https://example.test/private)"] fun text =>
        containsText (toAsciiLowercase text) "https://" = true).mpr (by decide)
    rw [← hfacts] at hfact
    have htext : fact.fact ∈ capsule.promptTexts :=
      List.mem_cons_of_mem _ (List.mem_map_of_mem hfact)
    rw [hfree capsule hsome fact.fact htext "https://" (by decide)] at hcontains
    cases hcontains

end HarborBeacon.PrivacyGateway
