import HarborBeacon.GuardianRuns

/-!
The keys by which the home guardian recognises an action that was run before. A key joins the
rule, the event and the action with colons, and the part for the action depends on words that its
kind holds.
-/

namespace HarborBeacon.GuardianKeys

open AdminConsole HomeGuardian Json Text VisionEvents Words

/-- A rule by its own identifier, or by the one of its review when it has none. -/
inductive RuleName where
  | rule (ruleId : String)
  | review (reviewId : String)
deriving DecidableEq

def ruleName (review : AutomationRuleReview) : RuleName :=
  match review.ruleId.filter fun ruleId => !isBlank ruleId with
  | some ruleId => .rule ruleId
  | none => .review review.reviewId

def RuleName.text : RuleName → String
  | rule ruleId => ruleId
  | review reviewId => reviewId

/-- What an action is for: a notification of a kind to a target, a call of a service of Home
Assistant, or nothing when it is of a kind that is not supported. -/
inductive ActionEffect where
  | notification (target : Option String) (kind : String)
  | serviceCall (request : HomeGuardianHaServiceRequest)
  | nothing
deriving DecidableEq

def actionEffect (action : Value) : ActionEffect :=
  if homeGuardianActionIsNotify action then
    .notification (jsonStringAtPaths action [["target"]]) (homeGuardianActionKind action)
  else if homeGuardianActionIsHaServiceAction action then
    .serviceCall (homeGuardianHaServiceRequest action)
  else .nothing

structure PlannedAction where
  review : AutomationRuleReview
  stored : StoredLocalVisionEvent
  action : Value

def PlannedAction.key (planned : PlannedAction) : String :=
  (homeGuardianActionExecutionPlan planned.review planned.stored planned.action).idempotencyKey

def Differ (first second : PlannedAction) : Prop :=
  ruleName first.review ≠ ruleName second.review ∨
    first.stored.event.eventId ≠ second.stored.event.eventId ∨
    actionEffect first.action ≠ actionEffect second.action

instance (first second : PlannedAction) : Decidable (Differ first second) :=
  inferInstanceAs (Decidable (_ ∨ _ ∨ _))

/-- What the key says about an action. Every kind with the word `notify` is one notification, and
every other kind with the letters `ha` is a call of a service. -/
def actionFields (action : Value) : List String :=
  let kind := homeGuardianActionKind action
  if containsText kind "notify" then ["notify_default_target"]
  else if containsText kind "ha" || containsText kind "home_assistant" then
    let request := homeGuardianHaServiceRequest action
    ["ha", request.domain, request.service, request.entityId]
  else if kind = "" then ["unsupported"]
  else [kind]

def keyFields (planned : PlannedAction) : List String :=
  (ruleName planned.review).text :: planned.stored.event.eventId :: actionFields planned.action

def keyPieces (planned : PlannedAction) : List (List Char) :=
  (keyFields planned).flatMap fun field => field.toList.splitOn ':'

theorem ruleName_text (review : AutomationRuleReview) : (ruleName review).text =
    (review.ruleId.filter fun ruleId => !isBlank ruleId).getD review.reviewId := by
  rw [ruleName]
  rcases review.ruleId.filter fun ruleId => !isBlank ruleId with _ | ruleId
  · rfl
  · rfl

theorem homeGuardianActionKey_eq (action : Value) :
    homeGuardianActionKey action = joinTexts ":" (actionFields action) := by
  rw [homeGuardianActionKey, actionFields]
  split
  · rfl
  split
  · rw [← String.toList_inj]
    simp [joinTexts, List.intercalate]
  split
  · rfl
  · rw [← String.toList_inj]
    simp [joinTexts, List.intercalate]

theorem actionFields_ne_nil (action : Value) : actionFields action ≠ [] := by
  rw [actionFields]
  split
  · simp
  split
  · simp
  split
  · simp
  · simp

theorem key_eq (planned : PlannedAction) : planned.key = joinTexts ":" (keyFields planned) := by
  have hne : (actionFields planned.action).map String.toList ≠ [] := by
    simpa using actionFields_ne_nil planned.action
  rw [PlannedAction.key, homeGuardianActionExecutionPlan, homeGuardianIdempotencyKey,
    homeGuardianActionKey_eq, ← ruleName_text, keyFields, ← String.toList_inj]
  simp only [joinTexts, String.toList_append, String.toList_ofList, List.map_cons]
  rw [List.intercalate_cons_of_ne_nil (List.cons_ne_nil _ _),
    List.intercalate_cons_of_ne_nil hne]
  simp only [List.append_assoc]

theorem key_eq_iff {first second : PlannedAction} :
    first.key = second.key ↔ keyPieces first = keyPieces second := by
  have hcolon : ":".toList = [':'] := rfl
  have hne : ∀ planned, (keyFields planned).map String.toList ≠ [] := fun _ =>
    List.cons_ne_nil _ _
  rw [key_eq, key_eq, ← String.toList_inj, joinTexts, joinTexts, hcolon,
    String.toList_ofList, String.toList_ofList, intercalate_eq_iff (hne first) (hne second), List.flatMap_map,
    List.flatMap_map]
  rfl

/-- Actions of different rules, for different events or with different effects have different keys
exactly if the fields of their keys leave different pieces between the colons. -/
theorem keys_differ_iff (first second : PlannedAction) :
    (Differ first second → first.key ≠ second.key) ↔
      (Differ first second → keyPieces first ≠ keyPieces second) := by
  rw [ne_eq, ne_eq, key_eq_iff]

def notifyAction (kind target : String) : Value :=
  obj [("kind", .string kind), ("target", .string target)]

def serviceAction (service entityId : String) : Value :=
  obj [("kind", .string "ha_service_action"), ("domain", .string "light"),
    ("service", .string service), ("entity_id", .string entityId)]

def visitAction (eventId : String) (action : Value) : PlannedAction where
  review := visitRule
  stored := storedVisit eventId
  action := action

/-- One key each for an action that is not supported and a notification, for notifications to two
targets, and for calls of two services with a colon in a different field. -/
theorem actions_share_keys :
    (Differ (visitAction "event-1" (notifyAction "notify_sms" "kitchen"))
        (visitAction "event-1" (notifyAction "notify" "kitchen")) ∧
      (visitAction "event-1" (notifyAction "notify_sms" "kitchen")).key =
        (visitAction "event-1" (notifyAction "notify" "kitchen")).key) ∧
    (Differ (visitAction "event-1" (notifyAction "notify" "kitchen"))
        (visitAction "event-1" (notifyAction "notify" "bedroom")) ∧
      (visitAction "event-1" (notifyAction "notify" "kitchen")).key =
        (visitAction "event-1" (notifyAction "notify" "bedroom")).key) ∧
    (Differ (visitAction "event-1" (serviceAction "turn_on:light" "entry"))
        (visitAction "event-1" (serviceAction "turn_on" "light:entry")) ∧
      (visitAction "event-1" (serviceAction "turn_on:light" "entry")).key =
        (visitAction "event-1" (serviceAction "turn_on" "light:entry")).key) := by
  decide +kernel

end HarborBeacon.GuardianKeys
