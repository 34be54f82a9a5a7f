import HarborBeacon.AdminConsole
import HarborBeacon.VisionEvents

/-!
The rules of the home guardian: a vision event is matched against the trigger of a rule, the
actions of the rule are planned and run, and a summary of the run is added to the history of
the rule, by which an action that was run before is recognised.
-/

namespace HarborBeacon.HomeGuardian

open AdminConsole Json Json.Value TaskContract Text TextEncoding VisionEvents

def quotingChars : List Char :=
  [quote, Char.ofNat 39, ',', ';', ')', '(']

def trimQuoting (token : String) : String :=
  String.ofList ((token.toList.dropWhile quotingChars.contains).rdropWhile quotingChars.contains)

def looksLikeLocalPath (value : String) : Bool :=
  let trimmed := trimQuoting value
  let bytes := utf8 trimmed
  if 2 < bytes.length ∧ bytes[1]? = some 58 then bytes[2]? = some 92 || bytes[2]? = some 47
  else ["/home/", "/Users/", "/mnt/", "/var/", "/tmp/"].any fun start => startsWithText trimmed start

def redactHomeGuardianString (value : String) : String :=
  joinTexts " " ((splitWhitespace value).map fun token =>
    let lower := toAsciiLowercase token
    if (["token=", "password=", "secret=", "authorization:", "bearer "].any fun needle =>
          containsText lower needle) ||
        (["rtsp://", "http://", "https://"].any fun scheme => startsWithText lower scheme) ||
        looksLikeLocalPath token then "[redacted]"
    else token)

def compactRedactedReason (reason : String) : String :=
  takeChars 240 (redactHomeGuardianString reason)

def jsonStringAtPaths (value : Value) (paths : List (List String)) : Option String :=
  stringAtPaths value paths

structure HomeGuardianHaServiceRequest where
  entityId : String
  domain : String
  service : String
deriving DecidableEq

inductive HomeGuardianActionExecutionKind where
  | notifyDefaultTarget
  | homeAssistantService
  | unsupported
deriving DecidableEq

structure HomeGuardianActionExecutionPlan where
  action : Value
  actionKey : String
  idempotencyKey : String
  kind : HomeGuardianActionExecutionKind
deriving DecidableEq

def homeGuardianActionPlanActions (actionPlan : Option Value) : List Value :=
  match actionPlan with
  | none => []
  | some actionPlan =>
      match (actionPlan.pointer ["actions"]).bind asArray with
      | some actions => actions
      | none => if actionPlan.isObject then [actionPlan] else []

def homeGuardianActionKind (action : Value) : String :=
  toAsciiLowercase (trim ((jsonStringAtPaths action [["kind"], ["action"], ["type"]]).getD ""))

def homeGuardianHaServiceRequest (action : Value) : HomeGuardianHaServiceRequest :=
  let nested := ((action.pointer ["home_assistant"]).or (action.pointer ["ha"])).getD action
  { entityId := (jsonStringAtPaths nested [["entity_id"]]).getD ""
    domain := (jsonStringAtPaths nested [["domain"]]).getD ""
    service := (jsonStringAtPaths nested [["service"]]).getD "" }

def homeGuardianActionKey (action : Value) : String :=
  let kind := homeGuardianActionKind action
  if containsText kind "notify" then "notify_default_target"
  else if containsText kind "ha" || containsText kind "home_assistant" then
    let request := homeGuardianHaServiceRequest action
    "ha:" ++ request.domain ++ ":" ++ request.service ++ ":" ++ request.entityId
  else if kind = "" then "unsupported"
  else kind

def homeGuardianActionIsNotify (action : Value) : Bool :=
  decide (homeGuardianActionKind action ∈
    ["notify", "notify_default_target", "event_notify", "notification"])

def homeGuardianActionIsHaServiceAction (action : Value) : Bool :=
  decide (homeGuardianActionKind action ∈
    ["ha_service_action", "home_assistant_service_action", "home_assistant"])

def homeGuardianIdempotencyKey (review : AutomationRuleReview) (stored : StoredLocalVisionEvent)
    (actionKey : String) : String :=
  ((review.ruleId.filter fun ruleId => !isBlank ruleId).getD review.reviewId) ++ ":" ++
    stored.event.eventId ++ ":" ++ actionKey

def homeGuardianActionExecutionPlan (review : AutomationRuleReview)
    (stored : StoredLocalVisionEvent) (action : Value) : HomeGuardianActionExecutionPlan :=
  let actionKey := homeGuardianActionKey action
  { action := action
    actionKey := actionKey
    idempotencyKey := homeGuardianIdempotencyKey review stored actionKey
    kind :=
      if homeGuardianActionIsNotify action then .notifyDefaultTarget
      else if homeGuardianActionIsHaServiceAction action then .homeAssistantService
      else .unsupported }

def homeGuardianIdempotentActionResult (actionKey idempotencyKey : String) : Value :=
  obj
    [("action", string actionKey),
     ("status", string "skipped"),
     ("executed", .bool false),
     ("idempotency_key", string idempotencyKey),
     ("reason", string "idempotent duplicate event/action run"),
     ("redacted", .bool true)]

def homeGuardianUnsupportedActionResult (actionKey idempotencyKey : String) : Value :=
  obj
    [("action", string actionKey),
     ("status", string "blocked"),
     ("executed", .bool false),
     ("idempotency_key", string idempotencyKey),
     ("reason", string "Unsupported Home Guardian action."),
     ("redacted", .bool true)]

def getStr (value : Value) (key : String) : Option String :=
  (value.get key).bind asStr

def getBool (value : Value) (key : String) : Bool :=
  ((value.get key).bind asBool).getD false

def compactHomeGuardianActionResult (action : Value) : Value :=
  obj
    [("action", string ((getStr action "action").getD "unknown")),
     ("status", string ((getStr action "status").getD "unknown")),
     ("executed", .bool (getBool action "executed")),
     ("idempotency_key", ofOption (getStr action "idempotency_key")),
     ("domain", ofOption (getStr action "domain")),
     ("service", ofOption (getStr action "service")),
     ("entity_id", ofOption (getStr action "entity_id")),
     ("notification_status", ofOption (getStr action "notification_status")),
     ("reason", ofOption ((getStr action "reason").map compactRedactedReason)),
     ("redacted", .bool true)]

structure RunStamp where
  uuid : String
  now : UInt64

def homeGuardianRuleRunSummary (review : AutomationRuleReview) (stored : StoredLocalVisionEvent)
    (status : String) (isMatch executed : Bool) (reason : String) (actions : List Value)
    (stamp : RunStamp) : Value :=
  obj
    [("run_id", string ("guardian_run_" ++ stamp.uuid)),
     ("review_id", string review.reviewId),
     ("rule_id", ofOption review.ruleId),
     ("event_id", string stored.event.eventId),
     ("camera_id", string stored.event.cameraId),
     ("event_type", string stored.event.eventType),
     ("status", string status),
     ("matched", .bool isMatch),
     ("executed", .bool executed),
     ("reason", string (redactHomeGuardianString reason)),
     ("actions", array (actions.map compactHomeGuardianActionResult)),
     ("created_at", string (toString stamp.now.toNat)),
     ("metadata_only", .bool true),
     ("secret_scan", string "clean")]

def hasStatus (statuses : List String) (action : Value) : Bool :=
  (getStr action "status").any fun status => decide (status ∈ statuses)

def homeGuardianRunStatusFromActions (actions : List Value) : String :=
  if actions.any (hasStatus ["delivered", "acted"]) then "acted"
  else if actions.any (hasStatus ["failed"]) then "failed"
  else if actions.any (hasStatus ["blocked"]) then "blocked"
  else "skipped"

def completeHomeGuardianRuleExecution (review : AutomationRuleReview)
    (stored : StoredLocalVisionEvent) (actionResults : List Value) (stamp : RunStamp) : Value :=
  homeGuardianRuleRunSummary review stored (homeGuardianRunStatusFromActions actionResults) true
    (actionResults.any fun result => getBool result "executed")
    "Home Guardian rule evaluated against a local vision event." actionResults stamp

/-- `Option<String>::cmp`: a missing text comes first. -/
def optionLe : Option String → Option String → Bool
  | none, _ => true
  | some _, none => false
  | some a, some b => decide (a ≤ b)

def summaryTime (summary : Value) : Option String :=
  jsonStringAtPaths summary [["created_at"], ["evaluated_at"]]

def latestHomeGuardianRunSummaries (summaries : List Value) : List Value :=
  ((summaries.mergeSort fun left right =>
    optionLe (summaryTime right) (summaryTime left)).take 50).reverse

def appendHomeGuardianRunSummary (review : AutomationRuleReview) (summary : Value) :
    AutomationRuleReview :=
  { review with runSummaries := latestHomeGuardianRunSummaries (review.runSummaries ++ [summary]) }

def homeGuardianRunAlreadyRecorded (review : AutomationRuleReview) (idempotencyKey : String) :
    Bool :=
  review.runSummaries.any fun summary =>
    match (summary.pointer ["actions"]).bind asArray with
    | none => false
    | some actions =>
        actions.any fun action =>
          (getStr action "idempotency_key" == some idempotencyKey) &&
            hasStatus ["delivered", "acted", "skipped"] action

section Plans

/-- Whether a confidence, given by its bits, is below a number of the trigger as an `f32`. -/
abbrev ConfidenceBelow := UInt32 → Number → Bool

variable (confidenceBelow : ConfidenceBelow)

def asNumber : Value → Option Number
  | .number n => some n
  | _ => none

def homeGuardianTriggerMatchesEvent (trigger : Value) (stored : StoredLocalVisionEvent) :
    Bool × String :=
  let event := stored.event
  let differs := fun (wanted : Option String) (found : String) =>
    wanted.any fun wanted => toAsciiLowercase (trim wanted) ≠ toAsciiLowercase found
  let required := ((((trigger.pointer ["labels"]).bind asArray).getD []).filterMap asStr).map
    (fun label => toAsciiLowercase (trim label)) |>.filter (· ≠ "")
  if differs (jsonStringAtPaths trigger [["camera_id"], ["camera"]]) event.cameraId then
    (false, "camera_id did not match")
  else if differs (jsonStringAtPaths trigger [["event_type"]]) event.eventType then
    (false, "event_type did not match")
  else if ((trigger.pointer ["min_confidence"]).bind asNumber).any
      (confidenceBelow event.confidence) then
    (false, "confidence below rule threshold")
  else if !required.all (fun label =>
      (event.labels.any fun existing => toAsciiLowercase existing = label) ||
        toAsciiLowercase event.eventType = label) then
    (false, "labels did not match")
  else (true, "matched")

def automationReviewIsHomeGuardian (review : AutomationRuleReview) : Bool :=
  let source := toAsciiLowercase (trim review.source)
  source = "home_guardian" || source = "harbornavi_home_guardian" ||
    ((((review.metadata.bind fun metadata => metadata.pointer ["home_guardian"]).bind
      asBool).getD false)) ||
    ((review.metadata.bind fun metadata => metadata.pointer ["feature"]).bind asStr =
      some "home_guardian")

inductive HomeGuardianRuleEvaluationPlan where
  | completed (review : AutomationRuleReview) (summary : Value) (persistSummary : Bool)
  | execute (review : AutomationRuleReview) (actions : List HomeGuardianActionExecutionPlan)

def buildHomeGuardianRuleEvaluationPlan (review : AutomationRuleReview)
    (stored : StoredLocalVisionEvent) (onlyReviewRequested executeActive : Bool)
    (stamp : RunStamp) : Option HomeGuardianRuleEvaluationPlan :=
  let completed := fun (status : String) (isMatch : Bool) (reason : String) (persist : Bool) =>
    HomeGuardianRuleEvaluationPlan.completed review
      (homeGuardianRuleRunSummary review stored status isMatch false reason [] stamp) persist
  if !automationReviewIsHomeGuardian review then
    if onlyReviewRequested then
      some (completed "skipped" false "Automation review is not a Home Guardian rule." false)
    else none
  else
    match review.triggerDefinition with
    | none =>
        some (completed "blocked" false "Home Guardian rule is missing a trigger definition." false)
    | some trigger =>
        let (isMatch, matchReason) := homeGuardianTriggerMatchesEvent confidenceBelow trigger stored
        if !isMatch then some (completed "skipped" false matchReason onlyReviewRequested)
        else if review.status ≠ "active" || !executeActive then
          some (completed "skipped" true
            "Home Guardian rule is not active; explicit enable is required before execution." true)
        else
          let actions := homeGuardianActionPlanActions review.actionPlan
          if actions = [] then
            some (completed "blocked" true "Home Guardian rule has no supported action plan."
              onlyReviewRequested)
          else
            some (.execute review (actions.map (homeGuardianActionExecutionPlan review stored)))

end Plans

section Evaluations

structure ActionOutcome (idempotencyKey : String) where
  result : Value
  names_key : getStr result "idempotency_key" = some idempotencyKey

/-- An event to evaluate, with what the evaluation finds outside: the clock, the identifier that
it draws, and how the action at each place of the plan ends if it is run. -/
structure Evaluation where
  stored : StoredLocalVisionEvent
  stamp : RunStamp
  onlyReviewRequested : Bool
  executeActive : Bool
  perform : Nat → (plan : HomeGuardianActionExecutionPlan) → ActionOutcome plan.idempotencyKey

inductive ActionRun where
  | skipped (plan : HomeGuardianActionExecutionPlan)
  | unsupported (plan : HomeGuardianActionExecutionPlan)
  | performed (plan : HomeGuardianActionExecutionPlan)
      (outcome : ActionOutcome plan.idempotencyKey)

def ActionRun.result : ActionRun → Value
  | skipped plan => homeGuardianIdempotentActionResult plan.actionKey plan.idempotencyKey
  | unsupported plan => homeGuardianUnsupportedActionResult plan.actionKey plan.idempotencyKey
  | performed _ outcome => outcome.result

def runAction (review : AutomationRuleReview) (evaluation : Evaluation) (place : Nat)
    (plan : HomeGuardianActionExecutionPlan) : ActionRun :=
  if homeGuardianRunAlreadyRecorded review plan.idempotencyKey then .skipped plan
  else
    match plan.kind with
    | .notifyDefaultTarget => .performed plan (evaluation.perform place plan)
    | .homeAssistantService => .performed plan (evaluation.perform place plan)
    | .unsupported => .unsupported plan

variable (confidenceBelow : ConfidenceBelow)

/-- Evaluate an event against a rule: the rule with its new history, the actions in order, and
the summary that was added. -/
def evaluateRule (review : AutomationRuleReview) (evaluation : Evaluation) :
    AutomationRuleReview × List ActionRun × Option Value :=
  match buildHomeGuardianRuleEvaluationPlan confidenceBelow review evaluation.stored
    evaluation.onlyReviewRequested evaluation.executeActive evaluation.stamp with
  | none => (review, [], none)
  | some (.completed review summary persistSummary) =>
      if persistSummary then (appendHomeGuardianRunSummary review summary, [], some summary)
      else (review, [], none)
  | some (.execute review actions) =>
      let runs := actions.mapIdx (runAction review evaluation)
      let summary := completeHomeGuardianRuleExecution review evaluation.stored
        (runs.map ActionRun.result) evaluation.stamp
      (appendHomeGuardianRunSummary review summary, runs, some summary)

/-- The rule after a sequence of events. -/
def evaluateAll (review : AutomationRuleReview) (evaluations : List Evaluation) :
    AutomationRuleReview :=
  evaluations.foldl (fun review evaluation => (evaluateRule confidenceBelow review evaluation).1)
    review

end Evaluations

end HarborBeacon.HomeGuardian
