import HarborBeacon.Json
import HarborBeacon.Text

/-!
The action contract and the policy that every action passes before it is executed:
operation and service-name checks, the built-in risk table and the approval gate.
-/

namespace HarborBeacon.Policy

open Json Text

inductive RiskLevel where
  | low
  | medium
  | high
  | critical
deriving DecidableEq, Inhabited

namespace RiskLevel

def rank : RiskLevel → Nat
  | low => 0
  | medium => 1
  | high => 2
  | critical => 3

instance : LE RiskLevel := ⟨fun a b => a.rank ≤ b.rank⟩

instance : DecidableRel (α := RiskLevel) (· ≤ ·) :=
  fun a b => inferInstanceAs (Decidable (a.rank ≤ b.rank))

/-- The name that `{:?}` prints. -/
def debugName : RiskLevel → String
  | low => "Low"
  | medium => "Medium"
  | high => "High"
  | critical => "Critical"

end RiskLevel

structure Action where
  domain : String
  operation : String
  resource : Value
  args : Value
  riskLevel : RiskLevel
  requiresApproval : Bool
  dryRun : Bool
deriving DecidableEq

structure ApprovalContext where
  token : Option String
  requiredToken : Option String
  approverId : Option String
deriving DecidableEq

structure PolicyViolation where
  code : String
  message : String
deriving DecidableEq

def supportedServiceOps : List String :=
  ["status", "start", "stop", "restart", "enable"]

def supportedFileOps : List String :=
  ["search", "copy", "move", "archive", "list", "stat", "read_text"]

def defaultRequiresApproval (action : Action) : Bool :=
  match toLowercase (trim action.domain), toLowercase (trim action.operation) with
  | "camera", "connect" => true
  | _, _ => false

def defaultRiskLevel (action : Action) : RiskLevel :=
  match toLowercase (trim action.domain), toLowercase (trim action.operation) with
  | "service", "status" => .low
  | "service", "start" | "service", "enable" => .medium
  | "service", "stop" | "service", "restart" => .high
  | "files", "search" | "files", "list" | "files", "stat" | "files", "read_text" => .low
  | "files", "copy" =>
      let overwrite := ((action.args.get "overwrite").bind Value.asBool).getD false
      if overwrite then .high else .medium
  | "files", "move" => .high
  | "files", "archive" => .medium
  | "camera", "connect" => .medium
  | _, _ => .low

def effectiveRiskLevel (action : Action) : RiskLevel :=
  match action.riskLevel with
  | .low => defaultRiskLevel action
  | other => other

def actionRequiresApproval (action : Action) : Bool :=
  action.requiresApproval ||
    (match effectiveRiskLevel action with
      | .high | .critical => true
      | _ => false) ||
    defaultRequiresApproval action

def Action.normalize (action : Action) : Action :=
  match action.riskLevel with
  | .high | .critical => { action with requiresApproval := true }
  | _ => action

def applyGovernanceDefaults (action : Action) : Action :=
  let action := { action with riskLevel := effectiveRiskLevel action }.normalize
  { action with requiresApproval := actionRequiresApproval action }

def checkOperation (action : Action) : Except PolicyViolation Unit :=
  match action.domain with
  | "service" =>
      if action.operation ∈ supportedServiceOps then .ok ()
      else .error
        { code := "UNSUPPORTED_OPERATION"
          message := "Unsupported service operation: " ++ action.operation }
  | "files" =>
      if action.operation ∈ supportedFileOps then .ok ()
      else .error
        { code := "UNSUPPORTED_OPERATION"
          message := "Unsupported file operation: " ++ action.operation }
  | _ => .ok ()

def serviceNameChar (c : Char) : Bool :=
  ('a' ≤ c && c ≤ 'z') || ('0' ≤ c && c ≤ '9') || c == '_' || c == '-'

def checkServiceName (action : Action) : Except PolicyViolation Unit :=
  if action.domain ≠ "service" then .ok ()
  else
    match (action.resource.get "service_name").bind Value.asStr with
    | none => .error { code := "INVALID_SERVICE_NAME", message := "service_name is required" }
    | some serviceName =>
        if serviceName = "" ∨ 64 < serviceName.utf8ByteSize then
          .error
            { code := "INVALID_SERVICE_NAME"
              message := "Invalid service name: " ++ serviceName }
        else if serviceName.toList.all serviceNameChar then .ok ()
        else .error
          { code := "INVALID_SERVICE_NAME"
            message := "Invalid service name: " ++ serviceName }

def approvalRequired (action : Action) : PolicyViolation where
  code := "APPROVAL_REQUIRED"
  message := action.domain ++ "." ++ action.operation ++ " (risk=" ++
    (effectiveRiskLevel action).debugName ++ ") requires approval"

def checkRiskGate (action : Action) (approval : Option ApprovalContext) :
    Except PolicyViolation Unit :=
  if !actionRequiresApproval action then .ok ()
  else
    match approval with
    | none => .error (approvalRequired action)
    | some ctx =>
        match ctx.token with
        | none => .error (approvalRequired action)
        | some token =>
            match ctx.requiredToken with
            | none => .ok ()
            | some requiredToken =>
                if token ≠ requiredToken then
                  .error
                    { code := "APPROVAL_TOKEN_MISMATCH"
                      message := "Approval token does not match for " ++ action.domain ++
                        "." ++ action.operation }
                else .ok ()

def enforce (action : Action) (approval : Option ApprovalContext) :
    Except PolicyViolation Unit := do
  checkOperation action
  checkServiceName action
  checkRiskGate action approval

/-- `enforce` returns an error. -/
def Refused (action : Action) (approval : Option ApprovalContext) : Prop :=
  ∃ violation, enforce action approval = .error violation

/-- The checks that read neither the risk nor the approval. -/
def WellFormed (action : Action) : Prop :=
  checkOperation action = .ok () ∧ checkServiceName action = .ok ()

variable {action : Action} {approval : Option ApprovalContext}

theorem enforce_of_wellFormed (h : WellFormed action) (approval : Option ApprovalContext) :
    enforce action approval = checkRiskGate action approval := by
  unfold enforce
  rw [h.1, h.2]
  rfl

theorem refused_of_not_wellFormed (h : ¬ WellFormed action) (approval : Option ApprovalContext) :
    Refused action approval := by
  unfold Refused enforce
  rcases hop : checkOperation action with violation | ⟨⟩
  · exact ⟨violation, rfl⟩
  · rcases hname : checkServiceName action with violation | ⟨⟩
    · exact ⟨violation, rfl⟩
    · exact absurd ⟨hop, hname⟩ h

theorem wellFormed_withRisk (action : Action) (risk : RiskLevel) :
    WellFormed { action with riskLevel := risk } ↔ WellFormed action := Iff.rfl

theorem checkRiskGate_eq_ok_iff (action : Action) (approval : Option ApprovalContext) :
    checkRiskGate action approval = .ok () ↔
      actionRequiresApproval action = true →
        ∃ ctx token, approval = some ctx ∧ ctx.token = some token ∧
          ∀ required, ctx.requiredToken = some required → token = required := by
  unfold checkRiskGate
  cases hreq : actionRequiresApproval action with
  | false => simp
  | true =>
      rcases approval with _ | ⟨token, required, approver⟩
      · simp
      · rcases token with _ | token
        · simp
        · rcases required with _ | required
          · simp
          · by_cases heq : token = required <;> simp [heq]

theorem enforce_eq_ok_iff (action : Action) (approval : Option ApprovalContext) :
    enforce action approval = .ok () ↔
      WellFormed action ∧ checkRiskGate action approval = .ok () := by
  constructor
  · intro hok
    by_cases hwf : WellFormed action
    · exact ⟨hwf, by rw [← enforce_of_wellFormed hwf]; exact hok⟩
    · obtain ⟨violation, herror⟩ := refused_of_not_wellFormed hwf approval
      rw [hok] at herror
      cases herror
  · rintro ⟨hwf, hgate⟩
    rw [enforce_of_wellFormed hwf, hgate]

theorem refused_iff_not_ok (action : Action) (approval : Option ApprovalContext) :
    Refused action approval ↔ enforce action approval ≠ .ok () := by
  unfold Refused
  rcases enforce action approval with violation | ⟨⟩ <;> simp

theorem defaultRiskLevel_ne_high_of_defaultRequiresApproval
    (h : defaultRequiresApproval action = true) : defaultRiskLevel action ≠ .high := by
  unfold defaultRequiresApproval at h
  split at h
  · rename_i hdomain hoperation
    simp [defaultRiskLevel, hdomain, hoperation]
  · cases h

theorem defaultRiskLevel_ne_critical (action : Action) :
    defaultRiskLevel action ≠ .critical := by
  simp only [defaultRiskLevel]
  split
  case h_10 =>
      split <;> decide
  all_goals decide

theorem defaultRiskLevel_withRisk (action : Action) (risk : RiskLevel) :
    defaultRiskLevel { action with riskLevel := risk } = defaultRiskLevel action := by
  simp only [defaultRiskLevel]

theorem defaultRequiresApproval_withRisk (action : Action) (risk : RiskLevel) :
    defaultRequiresApproval { action with riskLevel := risk } =
      defaultRequiresApproval action := by
  simp only [defaultRequiresApproval]

theorem actionRequiresApproval_iff (action : Action) :
    actionRequiresApproval action = true ↔
      action.requiresApproval = true ∨ defaultRequiresApproval action = true ∨
        action.riskLevel = .high ∨ action.riskLevel = .critical ∨
          (action.riskLevel = .low ∧ defaultRiskLevel action = .high) := by
  have hcritical := defaultRiskLevel_ne_critical action
  simp only [actionRequiresApproval, effectiveRiskLevel, Bool.or_eq_true]
  generalize defaultRiskLevel action = rated at hcritical ⊢
  generalize defaultRequiresApproval action = floor
  generalize action.requiresApproval = declared
  generalize action.riskLevel = risk
  cases risk <;> cases rated <;> simp_all

theorem actionRequiresApproval_withRisk_iff (action : Action) (risk : RiskLevel) :
    actionRequiresApproval { action with riskLevel := risk } = true ↔
      action.requiresApproval = true ∨ defaultRequiresApproval action = true ∨
        risk = .high ∨ risk = .critical ∨
          (risk = .low ∧ defaultRiskLevel action = .high) := by
  rw [actionRequiresApproval_iff, defaultRiskLevel_withRisk,
    defaultRequiresApproval_withRisk]

/-- The policy's floor under an action, whatever its caller declares: an action that the
built-in tables rate high or subject to approval is refused without a token, and
declaring a higher risk never lifts a refusal. -/
def RiskFloor (action : Action) : Prop :=
  ((defaultRiskLevel action = .high ∨ defaultRequiresApproval action = true) →
      ∀ approval : Option ApprovalContext, approval.bind (·.token) = none →
        Refused action approval) ∧
    ∀ (risk : RiskLevel) (approval : Option ApprovalContext), action.riskLevel ≤ risk →
      Refused action approval → Refused { action with riskLevel := risk } approval

/-- The declarations under which a high rating of the table does not count: the caller
declares neither an approval nor a high or critical risk. -/
def DeclaredBelowHigh (action : Action) : Prop :=
  action.requiresApproval = false ∧
    (action.riskLevel = .low ∨ action.riskLevel = .medium)

theorem refused_of_requiresApproval (h : actionRequiresApproval action = true)
    (htoken : approval.bind (·.token) = none) : Refused action approval := by
  rw [refused_iff_not_ok, Ne, enforce_eq_ok_iff, checkRiskGate_eq_ok_iff]
  rintro ⟨-, hgate⟩
  obtain ⟨ctx, token, rfl, hctx, -⟩ := hgate h
  simp [hctx] at htoken

theorem refused_withRisk {risk : RiskLevel} (hkeep : actionRequiresApproval action = true →
      actionRequiresApproval { action with riskLevel := risk } = true) (h : Refused action approval) :
    Refused { action with riskLevel := risk } approval := by
  rw [refused_iff_not_ok, Ne, enforce_eq_ok_iff, checkRiskGate_eq_ok_iff] at h ⊢
  rintro ⟨hwf, hgate⟩
  exact h ⟨hwf, fun hreq => hgate (hkeep hreq)⟩

theorem RiskLevel.high_or_critical_of_le {declared risk : RiskLevel}
    (hle : declared ≤ risk) (h : declared = .high ∨ declared = .critical) :
    risk = .high ∨ risk = .critical := by
  rcases h with rfl | rfl
  · cases risk with
    | low | medium => exact absurd hle (by decide)
    | high => exact .inl rfl
    | critical => exact .inr rfl
  · cases risk with
    | low | medium | high => exact absurd hle (by decide)
    | critical => exact .inr rfl

theorem requiresApproval_withRisk {risk : RiskLevel} (hle : action.riskLevel ≤ risk)
    (h : ¬ (defaultRiskLevel action = .high ∧ DeclaredBelowHigh action))
    (hreq : actionRequiresApproval action = true) :
    actionRequiresApproval { action with riskLevel := risk } = true := by
  rw [actionRequiresApproval_iff] at hreq
  rw [actionRequiresApproval_withRisk_iff]
  rw [← or_assoc (a := action.riskLevel = .high)] at hreq
  rw [← or_assoc (a := risk = .high)]
  rcases hreq with hdeclared | hdefault | hrisk | ⟨hlow, hrated⟩
  · exact Or.inl hdeclared
  · exact Or.inr (Or.inl hdefault)
  · exact Or.inr (Or.inr (Or.inl (RiskLevel.high_or_critical_of_le hle hrisk)))
  · have happroval : action.requiresApproval = true := by
      by_contra hnone
      exact h ⟨hrated, by simpa using hnone, Or.inl hlow⟩
    exact Or.inl happroval

/-- The floor holds for exactly those actions that the table does not rate high, that
are refused for their operation or service name anyway, or whose caller declares an
approval or a risk of at least high. -/
theorem riskFloor_iff (action : Action) :
    RiskFloor action ↔
      ¬ (defaultRiskLevel action = .high ∧ WellFormed action ∧
        DeclaredBelowHigh action) := by
  constructor
  · rintro ⟨hfloor, hraise⟩ ⟨hhigh, hwf, hnone, hdecl⟩
    have happroval : defaultRequiresApproval action ≠ true := fun h =>
      defaultRiskLevel_ne_high_of_defaultRequiresApproval h hhigh
    -- declared as medium, the action needs no approval and passes without one
    have haccepted : ¬ Refused { action with riskLevel := .medium } none := by
      rw [refused_iff_not_ok, not_not, enforce_eq_ok_iff, checkRiskGate_eq_ok_iff]
      refine ⟨(wellFormed_withRisk action .medium).mpr hwf, fun hreq => absurd hreq ?_⟩
      rw [actionRequiresApproval_withRisk_iff]
      simp [hnone, happroval]
    have hrefused := hfloor (Or.inl hhigh) none rfl
    refine haccepted (hraise .medium none ?_ hrefused)
    rcases hdecl with hdecl | hdecl <;> rw [hdecl] <;> decide
  · intro hcond
    by_cases hwf : WellFormed action
    · have hbelow : ¬ (defaultRiskLevel action = .high ∧ DeclaredBelowHigh action) :=
        fun h => hcond ⟨h.1, hwf, h.2⟩
      refine ⟨?_, fun risk approval hle h =>
        refused_withRisk (requiresApproval_withRisk hle hbelow) h⟩
      intro hrated approval htoken
      refine refused_of_requiresApproval ?_ htoken
      rw [actionRequiresApproval_iff]
      rcases hrated with hhigh | happroval
      · have hdecl : ¬ DeclaredBelowHigh action := fun h => hbelow ⟨hhigh, h⟩
        simp only [DeclaredBelowHigh, not_and_or, Bool.not_eq_false] at hdecl
        cases hlevel : action.riskLevel with
        | low => simp [hhigh]
        | medium => simpa [hlevel] using Or.inl hdecl
        | high => simp
        | critical => simp
      · exact Or.inr (Or.inl happroval)
    · exact ⟨fun _ approval _ => refused_of_not_wellFormed hwf approval,
        fun risk approval _ _ =>
          refused_of_not_wellFormed ((wellFormed_withRisk action risk).not.mpr hwf) approval⟩

/-- A restart of a service whose caller declares a medium risk and no approval. -/
def restartDeclaredMedium : Action where
  domain := "service"
  operation := "restart"
  resource := obj [("service_name", .string "ssh")]
  args := obj []
  riskLevel := .medium
  requiresApproval := false
  dryRun := false

theorem restartDeclaredMedium_passes :
    defaultRiskLevel restartDeclaredMedium = .high ∧
      enforce restartDeclaredMedium none = .ok () ∧ ¬ RiskFloor restartDeclaredMedium := by
  refine ⟨by decide, by decide, ?_⟩
  rintro ⟨hfloor, -⟩
  obtain ⟨violation, hviolation⟩ := hfloor (Or.inl (by decide)) none rfl
  have haccepted : enforce restartDeclaredMedium none = .ok () := by decide
  rw [haccepted] at hviolation
  cases hviolation

end HarborBeacon.Policy
