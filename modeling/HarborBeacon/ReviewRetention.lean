import HarborBeacon.FilledTables
import HarborBeacon.MemberRoster
import HarborBeacon.Results
import HarborBeacon.StableSearch
import HarborBeacon.TargetUpserts
import HarborBeacon.TrimmedTexts

/-!
What a saved automation review leaves of the others. The list is cut to the hundred that were
updated last, whatever their status.
-/

namespace HarborBeacon.AdminConsole

open FilledTables FileProgram JsonText Results StableSearch Text TextEncoding TrimmedTexts Words

variable {ρ π : Type} {env : Environment ρ π} {uuid : String} {position : Nat}

/-- A text without a sensitive word, in any letter case. -/
def Harmless (text : List Char) : Prop :=
  ∀ needle ∈ sensitivePayloadNeedles, ¬ needle.toList <:+: text.map Char.toLower

/-- What stands before the times in the text of a review. -/
def fieldsBeforeTimes (env : Environment ρ π) (review : AutomationRuleReview) :
    List (String × List Char) :=
  let value := JsonText.render env.renderF64
  [("review_id", jsonString review.reviewId),
    ("workspace_id", jsonString review.workspaceId),
    ("source", jsonString review.source),
    ("source_channel", renderOptionText review.sourceChannel),
    ("source_conversation_id", renderOptionText review.sourceConversationId),
    ("original_prompt", jsonString review.originalPrompt),
    ("status", jsonString review.status),
    ("trigger_definition", renderOption value review.triggerDefinition),
    ("condition_definition", renderOption value review.conditionDefinition),
    ("action_plan", renderOption value review.actionPlan),
    ("device_refs", renderList (review.deviceRefs.map value)),
    ("risk_level", renderOptionText review.riskLevel),
    ("requires_approval", renderBool review.requiresApproval)]

def fieldsAfterTimes (env : Environment ρ π) (review : AutomationRuleReview) :
    List (String × List Char) :=
  let value := JsonText.render env.renderF64
  [("expires_at", renderOptionText review.expiresAt),
    ("rule_id", renderOptionText review.ruleId),
    ("run_summaries", renderList (review.runSummaries.map value)),
    ("metadata", renderOption value review.metadata)]

theorem render_eq (review : AutomationRuleReview) : review.render env =
    renderFields (fieldsBeforeTimes env review ++
      [("created_at", renderOptionText review.createdAt),
        ("updated_at", renderOptionText review.updatedAt)] ++ fieldsAfterTimes env review) :=
  rfl

theorem hasSensitivePayload_eq_false_iff {review : AutomationRuleReview} :
    automationReviewHasSensitivePayload env review = false ↔ Harmless (review.render env) := by
  rw [automationReviewHasSensitivePayload, List.any_eq_false]
  simp [containsText, toAsciiLowercase, Harmless]

theorem needle_spec : ∀ needle ∈ sensitivePayloadNeedles, needle.toList ≠ [] ∧
    (∀ c ∈ needle.toList, c ≠ ',' ∧ c ≠ openBrace ∧ c ≠ closeBrace ∧ c ≠ quote ∧
      c.isDigit = false) := by
  have hall : ∀ needle ∈ sensitivePayloadNeedles, needle.toList ≠ [] ∧
      (needle.toList.all fun c => decide (c ≠ ',' ∧ c ≠ openBrace ∧ c ≠ closeBrace ∧ c ≠ quote ∧
        c.isDigit = false)) = true :=
    forall_mem_of_all (by decide)
  intro needle hneedle
  exact ⟨(hall needle hneedle).1, forall_mem_of_all (hall needle hneedle).2⟩

theorem harmless_renderFields_iff {fields : List (String × List Char)} :
    Harmless (renderFields fields) ↔
      ∀ field ∈ fields, Harmless (jsonString field.1 ++ ':' :: field.2) := by
  have hone : ∀ needle ∈ sensitivePayloadNeedles,
      (needle.toList <:+: (renderFields fields).map Char.toLower ↔
        ∃ field ∈ fields,
          needle.toList <:+: (jsonString field.1 ++ ':' :: field.2).map Char.toLower) := by
    intro needle hneedle
    obtain ⟨hne, hchars⟩ := needle_spec needle hneedle
    have hopen : openBrace ∉ needle.toList := fun hmem => (hchars _ hmem).2.1 rfl
    have hclose : closeBrace ∉ needle.toList := fun hmem => (hchars _ hmem).2.2.1 rfl
    have hcomma : ',' ∉ needle.toList := fun hmem => (hchars _ hmem).1 rfl
    have htext : (renderFields fields).map Char.toLower = [] ++ openBrace ::
        ([','].intercalate ((fields.map fun field => jsonString field.1 ++ ':' :: field.2).map
          fun part => part.map Char.toLower) ++ closeBrace :: []) := by
      rw [renderFields, List.map_cons, List.map_append, map_intercalate]
      rfl
    rw [htext, infix_append_sep_iff hne hopen, infix_append_sep_iff hne hclose,
      infix_intercalate_iff hne hcomma]
    simp [hne]
  constructor
  · intro h field hfield needle hneedle hwithin
    exact h needle hneedle ((hone needle hneedle).mpr ⟨field, hfield, hwithin⟩)
  · intro h needle hneedle hwithin
    obtain ⟨field, hfield, hpart⟩ := (hone needle hneedle).mp hwithin
    exact h field hfield needle hneedle hpart

theorem digit_spec {c : Char} (h : c.isDigit = true) : escapeChar c = [c] ∧ c.toLower = c := by
  refine forall_ascii (P := fun c => c.isDigit = true → escapeChar c = [c] ∧ c.toLower = c)
    (by decide) (toNat_of_isAlphanum ?_) h
  rw [Char.isAlphanum, h, Bool.or_true]

theorem created_at_harmless : Harmless (jsonString "created_at" ++ [':']) := by
  unfold Harmless
  decide

theorem updated_at_harmless : Harmless (jsonString "updated_at" ++ [':']) := by
  unfold Harmless
  decide

theorem harmless_time {name : String} (hname : Harmless (jsonString name ++ [':']))
    (seconds : Nat) :
    Harmless (jsonString name ++ ':' :: renderOptionText (some (toString seconds))) := by
  have hdigits : ∀ c ∈ (toString seconds).toList, c.isDigit = true :=
    fun c hc => isDigit_of_mem_toString hc
  have hescaped : (toString seconds).toList.flatMap escapeChar = (toString seconds).toList := by
    calc
      (toString seconds).toList.flatMap escapeChar =
          (toString seconds).toList.flatMap fun c => [c] :=
        List.flatMap_congr fun c hc => (digit_spec (hdigits c hc)).1
      _ = (toString seconds).toList := by simp
  have htext : (jsonString name ++ ':' :: renderOptionText (some (toString seconds))).map
      Char.toLower = (jsonString name ++ [':']).map Char.toLower ++ quote ::
        ((toString seconds).toList.map Char.toLower ++ quote :: []) := by
    have hquote : quote.toLower = quote := by decide
    rw [renderOptionText, renderOption, jsonString.eq_def (toString seconds), hescaped]
    simp [hquote]
  intro needle hneedle hwithin
  obtain ⟨hne, hchars⟩ := needle_spec needle hneedle
  have hquote : quote ∉ needle.toList := fun hmem => (hchars _ hmem).2.2.2.1 rfl
  rw [htext, infix_append_sep_iff hne hquote, infix_append_sep_iff hne hquote] at hwithin
  rcases hwithin with hstart | hseconds | hnil
  · exact hname needle hneedle hstart
  · obtain ⟨c, rest, hcons⟩ := List.exists_cons_of_ne_nil hne
    have hc : c ∈ needle.toList := hcons ▸ List.mem_cons_self
    obtain ⟨d, hd, rfl⟩ := List.mem_map.mp (hseconds.subset hc)
    have hletter := (hchars _ hc).2.2.2.2
    rw [(digit_spec (hdigits d hd)).2, hdigits d hd] at hletter
    cases hletter
  · exact hne (List.infix_nil.mp hnil)

structure SettledReview (env : Environment ρ π) (review : AutomationRuleReview) : Prop where
  reviewId : Trimmed review.reviewId
  workspaceId : Trimmed review.workspaceId
  source : Trimmed review.source
  sourceChannel : review.sourceChannel.bind nonEmptyOpt = review.sourceChannel
  sourceConversationId : review.sourceConversationId.bind nonEmptyOpt = review.sourceConversationId
  originalPrompt : Trimmed review.originalPrompt
  status : sanitizeAutomationReviewStatus review.status = .ok review.status
  riskLevel : review.riskLevel.bind nonEmptyOpt = review.riskLevel
  createdAt : review.createdAt.bind nonEmptyOpt = review.createdAt
  updatedAt : review.updatedAt.bind nonEmptyOpt = review.updatedAt
  expiresAt : review.expiresAt.bind nonEmptyOpt = review.expiresAt
  ruleId : review.ruleId.bind nonEmptyOpt = review.ruleId
  payload : automationReviewHasSensitivePayload env review = false

def trimmedReview (uuid status : String) (review : AutomationRuleReview) : AutomationRuleReview :=
  { review with
    reviewId :=
      if trim review.reviewId = "" then newAutomationReviewId uuid else trim review.reviewId
    workspaceId := trimOr defaultWorkspaceId review.workspaceId
    source := trimOr "harbor_assistant" review.source
    sourceChannel := review.sourceChannel.bind nonEmptyOpt
    sourceConversationId := review.sourceConversationId.bind nonEmptyOpt
    originalPrompt := trim review.originalPrompt
    status
    riskLevel := review.riskLevel.bind nonEmptyOpt
    createdAt := review.createdAt.bind nonEmptyOpt
    updatedAt := review.updatedAt.bind nonEmptyOpt
    expiresAt := review.expiresAt.bind nonEmptyOpt
    ruleId := review.ruleId.bind nonEmptyOpt }

theorem sanitizeAutomationReview_of_status {uuid status : String} {review : AutomationRuleReview}
    (hprompt : trim review.originalPrompt ≠ "")
    (hstatus : sanitizeAutomationReviewStatus review.status = .ok status) :
    sanitizeAutomationReview env uuid review =
      if automationReviewHasSensitivePayload env (trimmedReview uuid status review) then
        .error "automation review payload 包含敏感字段，已拒绝保存"
      else .ok (trimmedReview uuid status review) := by
  rw [sanitizeAutomationReview, if_neg hprompt, hstatus]
  unfold trimmedReview trimOr
  simp only [ok_bind]
  split
  · rfl
  · rfl

theorem sanitizeAutomationReview_eq_ok_iff {review sanitized : AutomationRuleReview} :
    sanitizeAutomationReview env uuid review = .ok sanitized ↔
      trim review.originalPrompt ≠ "" ∧ ∃ status,
        sanitizeAutomationReviewStatus review.status = .ok status ∧
        automationReviewHasSensitivePayload env (trimmedReview uuid status review) = false ∧
        sanitized = trimmedReview uuid status review := by
  constructor
  · intro h
    have hprompt : trim review.originalPrompt ≠ "" := by
      intro hblank
      rw [sanitizeAutomationReview, if_pos hblank] at h
      cases h
    cases hstatus : sanitizeAutomationReviewStatus review.status with
    | error message =>
        rw [sanitizeAutomationReview, if_neg hprompt, hstatus] at h
        cases h
    | ok status =>
        rw [sanitizeAutomationReview_of_status hprompt hstatus] at h
        split at h
        · cases h
        · rename_i hpayload
          exact ⟨hprompt, status, rfl, Bool.eq_false_iff.mpr hpayload, (Except.ok.inj h).symm⟩
  · rintro ⟨hprompt, status, hstatus, hpayload, rfl⟩
    rw [sanitizeAutomationReview_of_status hprompt hstatus, hpayload]
    rfl

theorem SettledReview.trimmedReview {review : AutomationRuleReview} (h : SettledReview env review)
    (uuid : String) : trimmedReview uuid review.status review = review := by
  have hid : trim review.reviewId ≠ "" := h.reviewId.1.symm ▸ h.reviewId.2
  rw [AdminConsole.trimmedReview, if_neg hid, h.reviewId.1, trimOr_of_trimmed h.workspaceId,
    trimOr_of_trimmed h.source, h.sourceChannel, h.sourceConversationId, h.originalPrompt.1,
    h.riskLevel, h.createdAt, h.updatedAt, h.expiresAt, h.ruleId]

theorem SettledReview.sanitize {review : AutomationRuleReview} (h : SettledReview env review)
    (uuid : String) : sanitizeAutomationReview env uuid review = .ok review := by
  have hprompt : trim review.originalPrompt ≠ "" := h.originalPrompt.1.symm ▸ h.originalPrompt.2
  refine sanitizeAutomationReview_eq_ok_iff.mpr ⟨hprompt, review.status, h.status, ?_, ?_⟩
  · rw [h.trimmedReview]
    exact h.payload
  · exact (h.trimmedReview uuid).symm

theorem sanitizeAutomationReviewStatus_idem {status sanitized : String}
    (h : sanitizeAutomationReviewStatus status = .ok sanitized) :
    sanitizeAutomationReviewStatus sanitized = .ok sanitized := by
  have hall : ∀ known ∈ ["draft", "pending", "active", "paused", "discarded", "expired"],
      sanitizeAutomationReviewStatus known = .ok known := by
    decide
  have hkept : ∀ normalized, (if normalized ∈
      ["draft", "pending", "active", "paused", "discarded", "expired"] then .ok normalized
      else .error ("不支持的 automation review status " ++ status)) = Except.ok sanitized →
      sanitizeAutomationReviewStatus sanitized = .ok sanitized := by
    intro normalized hnormalized
    split at hnormalized
    · rename_i hknown
      rw [← Except.ok.inj hnormalized]
      exact hall _ hknown
    · cases hnormalized
  rw [sanitizeAutomationReviewStatus] at h
  exact hkept _ h

theorem trimmed_newAutomationReviewId (h : ∀ c ∈ uuid.toList, isWhitespace c = false) :
    Trimmed (newAutomationReviewId uuid) := by
  apply trimmed_of_no_whitespace
  · intro hempty
    have hlength := congrArg String.length hempty
    rw [newAutomationReviewId, String.length_append] at hlength
    have hstart : "review-".length = 7 := by decide
    have hnone : "".length = 0 := rfl
    omega
  · intro c hc
    rw [newAutomationReviewId, String.toList_append] at hc
    have hstart : ∀ c ∈ "review-".toList, isWhitespace c = false :=
      forall_mem_of_all (by decide)
    rcases List.mem_append.mp hc with hc | hc
    · exact hstart c hc
    · exact h c hc

theorem settled_sanitizeAutomationReview {review sanitized : AutomationRuleReview}
    (huuid : ∀ c ∈ uuid.toList, isWhitespace c = false)
    (h : sanitizeAutomationReview env uuid review = .ok sanitized) :
    SettledReview env sanitized := by
  obtain ⟨hprompt, status, hstatus, hpayload, rfl⟩ := sanitizeAutomationReview_eq_ok_iff.mp h
  refine ⟨?_, trimmed_trimOr (by decide) _, trimmed_trimOr (by decide) _,
    bind_nonEmptyOpt_idem _, bind_nonEmptyOpt_idem _, trimmed_trim hprompt,
    sanitizeAutomationReviewStatus_idem hstatus, bind_nonEmptyOpt_idem _, bind_nonEmptyOpt_idem _,
    bind_nonEmptyOpt_idem _, bind_nonEmptyOpt_idem _, bind_nonEmptyOpt_idem _, hpayload⟩
  rw [AdminConsole.trimmedReview]
  dsimp only
  split
  · exact trimmed_newAutomationReviewId huuid
  · rename_i hid
    exact trimmed_trim hid

theorem SettledReview.withTimes {review : AutomationRuleReview} (h : SettledReview env review)
    {createdAt : Option String} {seconds : Nat}
    (hcreated : createdAt = review.createdAt ∨ createdAt = some (toString seconds)) :
    SettledReview env
      { review with createdAt, updatedAt := some (toString seconds) } := by
  have htime : (some (toString seconds)).bind nonEmptyOpt = some (toString seconds) := by
    rw [Option.bind_some, nonEmptyOpt_of_trimmed (trimmed_toString seconds)]
  have hclean := hasSensitivePayload_eq_false_iff.mp h.payload
  rw [render_eq, harmless_renderFields_iff] at hclean
  simp only [List.mem_append, List.mem_cons, List.not_mem_nil, or_false] at hclean
  have htimes : createdAt.bind nonEmptyOpt = createdAt ∧
      Harmless (jsonString "created_at" ++ ':' :: renderOptionText createdAt) := by
    rcases hcreated with rfl | rfl
    · exact ⟨h.createdAt, hclean _ (Or.inl (Or.inr (Or.inl rfl)))⟩
    · exact ⟨htime, harmless_time created_at_harmless seconds⟩
  refine ⟨h.reviewId, h.workspaceId, h.source, h.sourceChannel, h.sourceConversationId,
    h.originalPrompt, h.status, h.riskLevel, htimes.1, htime, h.expiresAt, h.ruleId, ?_⟩
  rw [hasSensitivePayload_eq_false_iff, render_eq, harmless_renderFields_iff]
  simp only [List.mem_append, List.mem_cons, List.not_mem_nil, or_false]
  rintro field ((hbefore | rfl | rfl) | hafter)
  · exact hclean field (Or.inl (Or.inl hbefore))
  · exact htimes.2
  · exact harmless_time updated_at_harmless seconds
  · exact hclean field (Or.inr hafter)

def acceptedReviews (env : Environment ρ π) (position : Nat) :
    List AutomationRuleReview → List AutomationRuleReview
  | [] => []
  | review :: rest =>
      match sanitizeAutomationReview env (env.uuidAt position) review with
      | .error _ => acceptedReviews env (position + 1) rest
      | .ok review => review :: acceptedReviews env (position + 1) rest

theorem collect_eq_keepFirst (position : Nat) (seenIds : List String)
    (reviews : List AutomationRuleReview) :
    collectAutomationReviews env position seenIds reviews =
      keepFirst AutomationRuleReview.reviewId seenIds (acceptedReviews env position reviews) := by
  induction reviews generalizing position seenIds with
  | nil => rfl
  | cons review rest ih =>
      rw [collectAutomationReviews, acceptedReviews]
      cases hsanitized : sanitizeAutomationReview env (env.uuidAt position) review with
      | error message => exact ih _ _
      | ok sanitized =>
          dsimp only
          rw [keepFirst, ih, ih]

theorem settled_of_mem_accepted (huuids : PlainUuids env) {reviews : List AutomationRuleReview} :
    ∀ review ∈ acceptedReviews env position reviews, SettledReview env review := by
  induction reviews generalizing position with
  | nil => exact fun _ h => absurd h List.not_mem_nil
  | cons review rest ih =>
      rw [acceptedReviews]
      cases hsanitized : sanitizeAutomationReview env (env.uuidAt position) review with
      | error message => exact ih
      | ok sanitized =>
          exact List.forall_mem_cons.mpr
            ⟨settled_sanitizeAutomationReview (huuids.uuidAt position) hsanitized, ih⟩

theorem accepted_of_settled {reviews : List AutomationRuleReview}
    (h : ∀ review ∈ reviews, SettledReview env review) :
    acceptedReviews env position reviews = reviews := by
  induction reviews generalizing position with
  | nil => rfl
  | cons review rest ih =>
      rw [List.forall_mem_cons] at h
      rw [acceptedReviews, h.1.sanitize]
      dsimp only
      rw [ih h.2]

def updatedNotBefore (left right : AutomationRuleReview) : Bool :=
  optionTextLe right.updatedAt left.updatedAt

theorem updatedNotBefore_trans (a b c : AutomationRuleReview) (hab : updatedNotBefore a b = true)
    (hbc : updatedNotBefore b c = true) : updatedNotBefore a c = true := by
  revert hab hbc
  simp only [updatedNotBefore]
  rcases a.updatedAt with _ | a <;> rcases b.updatedAt with _ | b <;>
    rcases c.updatedAt with _ | c <;> simp [optionTextLe]
  exact fun hba hcb => hcb.trans hba

theorem updatedNotBefore_total (a b : AutomationRuleReview) :
    (updatedNotBefore a b || updatedNotBefore b a) = true := by
  simp only [updatedNotBefore]
  rcases a.updatedAt with _ | a <;> rcases b.updatedAt with _ | b <;> simp [optionTextLe]
  exact le_total b a

def newestFirst (env : Environment ρ π) (reviews : List AutomationRuleReview) :
    List AutomationRuleReview :=
  (collectAutomationReviews env 0 [] reviews).mergeSort updatedNotBefore

theorem sanitizeAutomationReviews_eq (reviews : List AutomationRuleReview) :
    sanitizeAutomationReviews env reviews = (newestFirst env reviews).take 100 :=
  rfl

structure SettledReviews (env : Environment ρ π) (reviews : List AutomationRuleReview) : Prop where
  settled : ∀ review ∈ reviews, SettledReview env review
  ids : (reviews.map AutomationRuleReview.reviewId).Nodup

theorem SettledReviews.of_sublist {reviews fewer : List AutomationRuleReview}
    (h : SettledReviews env reviews) (hfewer : fewer.Sublist reviews) :
    SettledReviews env fewer :=
  ⟨fun review hmem => h.settled review (hfewer.subset hmem), h.ids.sublist (hfewer.map _)⟩

theorem SettledReviews.of_perm {reviews others : List AutomationRuleReview}
    (h : SettledReviews env reviews) (hperm : others.Perm reviews) : SettledReviews env others :=
  ⟨fun review hmem => h.settled review (hperm.mem_iff.mp hmem),
    (hperm.map _).nodup_iff.mpr h.ids⟩

theorem SettledReviews.collect {reviews : List AutomationRuleReview}
    (h : SettledReviews env reviews) : collectAutomationReviews env 0 [] reviews = reviews := by
  rw [collect_eq_keepFirst, accepted_of_settled h.settled]
  exact keepFirst_eq_self h.ids fun _ _ => List.not_mem_nil

theorem settledReviews_newestFirst (huuids : PlainUuids env)
    (reviews : List AutomationRuleReview) : SettledReviews env (newestFirst env reviews) := by
  refine SettledReviews.of_perm ⟨?_, ?_⟩ (List.mergeSort_perm _ _)
  · rw [collect_eq_keepFirst]
    exact fun review hmem => settled_of_mem_accepted huuids review (keepFirst_sublist.subset hmem)
  · rw [collect_eq_keepFirst]
    exact nodup_keepFirst

theorem pairwise_newestFirst (reviews : List AutomationRuleReview) :
    (newestFirst env reviews).Pairwise fun a b => updatedNotBefore a b = true :=
  List.pairwise_mergeSort updatedNotBefore_trans updatedNotBefore_total _

theorem SettledReviews.newestFirst_of_pairwise {reviews : List AutomationRuleReview}
    (h : SettledReviews env reviews)
    (hsorted : reviews.Pairwise fun a b => updatedNotBefore a b = true) :
    newestFirst env reviews = reviews := by
  rw [newestFirst, h.collect, List.mergeSort_of_pairwise hsorted]

theorem sanitizeAutomationReviews_idem (huuids : PlainUuids env)
    (reviews : List AutomationRuleReview) :
    sanitizeAutomationReviews env (sanitizeAutomationReviews env reviews) =
      sanitizeAutomationReviews env reviews := by
  rw [sanitizeAutomationReviews_eq, sanitizeAutomationReviews_eq,
    ((settledReviews_newestFirst huuids reviews).of_sublist
      (List.take_sublist 100 _)).newestFirst_of_pairwise
      ((pairwise_newestFirst reviews).sublist (List.take_sublist 100 _)), List.take_take]
  rfl

section Upserted

variable {before reviews : List AutomationRuleReview} {new : AutomationRuleReview} {α : Type}

theorem upsertBy_perm {key : α → String} {new : α} {items : List α} (hkeys : (items.map key).Nodup)
    :
    (upsertBy key new items).Perm (new :: items.filter fun item => key item ≠ key new) := by
  have hothers : ∀ {rest : List α}, (∀ item ∈ rest, key item ≠ key new) →
      rest.filter (fun item => key item ≠ key new) = rest := by
    intro rest hrest
    exact List.filter_eq_self.mpr fun item hitem => decide_eq_true (hrest item hitem)
  rw [upsertBy]
  split
  · rename_i hany
    induction items with
    | nil => cases hany
    | cons item rest ih =>
        rw [List.map_cons, List.nodup_cons] at hkeys
        rw [updateFirst]
        by_cases hsame : key item = key new
        · have hrest : ∀ other ∈ rest, key other ≠ key new :=
            fun other hother heq => hkeys.1 ((hsame.trans heq.symm) ▸ List.mem_map_of_mem hother)
          rw [if_pos (decide_eq_true hsame), List.filter_cons_of_neg (by simpa using hsame),
            hothers hrest]
        · have hany' : (rest.any fun item => key item = key new) = true := by
            simpa [hsame] using hany
          rw [if_neg (by simpa using hsame), List.filter_cons_of_pos (by simpa using hsame)]
          exact ((ih hkeys.2 hany').cons item).trans (List.Perm.swap _ _ _)
  · rename_i hnone
    have hnew : ∀ item ∈ items, key item ≠ key new := by
      intro item hitem heq
      exact hnone (List.any_eq_true.mpr ⟨item, hitem, decide_eq_true heq⟩)
    rw [hothers hnew]
    exact List.perm_append_singleton new items

theorem length_upsertBy_of_mem {key : α → String} {new : α} {items : List α}
    (h : ∃ item ∈ items, key item = key new) : (upsertBy key new items).length = items.length := by
  obtain ⟨item, hmem, hsame⟩ := h
  rw [upsertBy, if_pos (List.any_eq_true.mpr ⟨item, hmem, decide_eq_true hsame⟩)]
  have hmapped : (updateFirst (fun item => key item = key new) (fun _ => new) items).map
      (fun _ => ()) = items.map fun _ => () :=
    map_updateFirst fun _ _ _ => rfl
  simpa using congrArg List.length hmapped

theorem length_le_upsertBy (key : α → String) (new : α) (items : List α) :
    items.length ≤ (upsertBy key new items).length := by
  by_cases h : ∃ item ∈ items, key item = key new
  · rw [length_upsertBy_of_mem h]
  · rw [upsertBy, if_neg]
    · simp
    · intro hany
      obtain ⟨item, hmem, hsame⟩ := List.any_eq_true.mp hany
      exact h ⟨item, hmem, of_decide_eq_true hsame⟩

def otherReviews (new : AutomationRuleReview) (reviews : List AutomationRuleReview) :
    List AutomationRuleReview :=
  reviews.filter fun review => review.reviewId ≠ new.reviewId

/-- Fewer than a hundred reviews are held, or one of the hundred newest has the id of the saved
one or was updated earlier. -/
def HasPlace (before : List AutomationRuleReview) (new : AutomationRuleReview) : Prop :=
  before.length < 100 ∨
    ∃ review ∈ before.take 100, review.reviewId = new.reviewId ∨ updatedNotBefore review new = false

theorem SettledReviews.upsertBy (h : SettledReviews env reviews) (hnew : SettledReview env new) :
    SettledReviews env (upsertBy AutomationRuleReview.reviewId new reviews) := by
  refine SettledReviews.of_perm ⟨?_, ?_⟩ (upsertBy_perm h.ids)
  · exact List.forall_mem_cons.mpr
      ⟨hnew, fun review hmem => h.settled review (List.mem_filter.mp hmem).1⟩
  · rw [List.map_cons, List.nodup_cons]
    refine ⟨?_, h.ids.sublist (List.filter_sublist.map _)⟩
    intro hmem
    obtain ⟨review, hreview, hsame⟩ := List.mem_map.mp hmem
    exact of_decide_eq_true (List.mem_filter.mp hreview).2 hsame

theorem take_otherReviews (h : (before.map AutomationRuleReview.reviewId).Nodup) :
    (otherReviews new before).take 99 = (otherReviews new (before.take 100)).take 99 := by
  by_cases hfew : before.length ≤ 100
  · rw [List.take_of_length_le hfew]
  · have hids : ((before.take 100).map AutomationRuleReview.reviewId).Nodup :=
      h.sublist ((List.take_sublist 100 _).map _)
    have hperm : (upsertBy AutomationRuleReview.reviewId new (before.take 100)).Perm
        (new :: otherReviews new (before.take 100)) := upsertBy_perm hids
    have hlength := hperm.length_eq
    have hgrown := length_le_upsertBy AutomationRuleReview.reviewId new (before.take 100)
    have hmany : 99 ≤ (otherReviews new (before.take 100)).length := by
      rw [List.length_cons] at hlength
      rw [List.length_take] at hgrown
      omega
    have hsplit : otherReviews new before =
        otherReviews new (before.take 100) ++ otherReviews new (before.drop 100) := by
      rw [otherReviews, otherReviews, otherReviews, ← List.filter_append, List.take_append_drop]
    rw [hsplit, List.take_append_of_le_length hmany]

theorem sanitize_upsertBy_perm (h : SettledReviews env before)
    (hsorted : before.Pairwise fun a b => updatedNotBefore a b = true)
    (hnew : SettledReview env new) (hplace : HasPlace before new) :
    (sanitizeAutomationReviews env
      (AdminConsole.upsertBy AutomationRuleReview.reviewId new (before.take 100))).Perm
      (new :: (otherReviews new before).take 99) := by
  have hread := h.of_sublist (List.take_sublist 100 before)
  have hperm : (AdminConsole.upsertBy AutomationRuleReview.reviewId new (before.take 100)).Perm
      (new :: otherReviews new (before.take 100)) := upsertBy_perm hread.ids
  have hlength : (before.take 100).length ≤ 100 := List.length_take_le _ _
  rw [take_otherReviews h.ids, sanitizeAutomationReviews_eq, newestFirst,
    (hread.upsertBy hnew).collect]
  by_cases hknown : ∃ review ∈ before.take 100, review.reviewId = new.reviewId
  · have hsame := length_upsertBy_of_mem hknown
    have hall := hperm.length_eq
    rw [List.length_cons] at hall
    have hmerged := (List.mergeSort_perm (AdminConsole.upsertBy AutomationRuleReview.reviewId new
      (before.take 100)) updatedNotBefore).trans hperm
    have hshort : ((AdminConsole.upsertBy AutomationRuleReview.reviewId new
        (before.take 100)).mergeSort updatedNotBefore).length ≤ 100 := by
      rw [List.length_mergeSort]
      omega
    have hothers : (otherReviews new (before.take 100)).length ≤ 99 := by
      omega
    rw [List.take_of_length_le hshort, List.take_of_length_le hothers]
    exact hmerged
  · have hothers : otherReviews new (before.take 100) = before.take 100 := by
      apply List.filter_eq_self.mpr
      intro review hmem
      exact decide_eq_true fun hsame => hknown ⟨review, hmem, hsame⟩
    have hadded : AdminConsole.upsertBy AutomationRuleReview.reviewId new (before.take 100) =
        before.take 100 ++ [new] := by
      rw [AdminConsole.upsertBy, if_neg]
      intro hany
      obtain ⟨review, hmem, hsame⟩ := List.any_eq_true.mp hany
      exact hknown ⟨review, hmem, of_decide_eq_true hsame⟩
    rw [hothers, hadded]
    refine take_mergeSort_concat_perm updatedNotBefore_trans updatedNotBefore_total
      (hsorted.sublist (List.take_sublist 100 _)) hlength ?_
    rcases hplace with hfew | ⟨review, hmem, hsame | hearlier⟩
    · left
      rw [List.length_take]
      omega
    · exact absurd ⟨review, hmem, hsame⟩ hknown
    · exact Or.inr ⟨review, hmem, hearlier⟩

end Upserted

section Saved

variable {file : StateFile ρ π} {state saved : AdminConsoleState ρ π}
  {review : AutomationRuleReview} {status : String}

def fileReviews (env : Environment ρ π) : StateFile ρ π → List AutomationRuleReview
  | .missing => env.defaultState.automationReviews
  | .unreadable _ => []
  | .holds state => state.automationReviews

def savedReview (env : Environment ρ π) (status : String) (review : AutomationRuleReview) :
    AutomationRuleReview :=
  { trimmedReview env.newUuid status review with
    createdAt := (review.createdAt.bind nonEmptyOpt).or (some env.modelTestTimestamp)
    updatedAt := some env.modelTestTimestamp }

theorem automationReviews_loadedState (huuids : PlainUuids env)
    (h : loadedState env file = .ok state) :
    state.automationReviews = sanitizeAutomationReviews env (fileReviews env file) := by
  have hhints : ∀ {loaded : AdminConsoleState ρ π}, applyRegistryHints env loaded = .ok state →
      state.automationReviews = sanitizeAutomationReviews env loaded.automationReviews := by
    intro loaded hloaded
    rw [applyRegistryHints] at hloaded
    cases hsections : env.applyRtspHints loaded.sections with
    | error message =>
        rw [hsections] at hloaded
        cases hloaded
    | ok sections =>
        rw [hsections] at hloaded
        rw [← Except.ok.inj hloaded]
        exact sanitizeAutomationReviews_idem huuids _
  cases file with
  | missing => exact hhints h
  | unreadable message => cases h
  | holds stored => exact hhints h

theorem upsertAutomationReview_saved (huuids : PlainUuids env)
    (hloaded : loadedState env file = .ok state)
    (hsaved : ((upsertAutomationReview env review).run.exec file).result = .ok saved) :
    ∃ status, sanitizeAutomationReview env env.newUuid review =
        .ok (trimmedReview env.newUuid status review) ∧
      sanitizeAutomationReviewStatus review.status = .ok status ∧
      saved.automationReviews = sanitizeAutomationReviews env
        (upsertBy AutomationRuleReview.reviewId (savedReview env status review)
          ((newestFirst env (fileReviews env file)).take 100)) ∧
      ∃ stored, ((upsertAutomationReview env review).run.exec file).file = .holds stored ∧
        stored.automationReviews = saved.automationReviews := by
  have hread := automationReviews_loadedState huuids hloaded
  rw [sanitizeAutomationReviews_eq] at hread
  rw [upsertAutomationReview, exec_run_bind_of_ok (exec_loadOrCreateState hloaded)] at hsaved ⊢
  cases hgiven : sanitizeAutomationReview env env.newUuid review with
  | error message =>
      rw [hgiven] at hsaved
      cases hsaved
  | ok given =>
      obtain ⟨-, status, hstatus, -, rfl⟩ := sanitizeAutomationReview_eq_ok_iff.mp hgiven
      rw [hgiven] at hsaved
      have hreviews : saved.automationReviews = sanitizeAutomationReviews env
          (upsertBy AutomationRuleReview.reviewId (savedReview env status review)
            ((newestFirst env (fileReviews env file)).take 100)) := by
        rw [← hread, ← sanitizeAutomationReviews_idem huuids, ← Except.ok.inj hsaved]
        rfl
      refine ⟨status, rfl, hstatus, hreviews, sanitizeAdminState env saved, ?_, ?_⟩
      · rw [← Except.ok.inj hsaved]
        rfl
      · change sanitizeAutomationReviews env saved.automationReviews = _
        rw [hreviews, sanitizeAutomationReviews_idem huuids]

/-- The saved review and the ninety-nine of the others that were updated last are kept. -/
structure KeepsNewest (before after : List AutomationRuleReview) (new : AutomationRuleReview) :
    Prop where
  kept : after.Perm (new :: (otherReviews new before).take 99)
  evicted : ∀ evicted ∈ before, evicted.reviewId ∉ after.map AutomationRuleReview.reviewId →
    ∀ kept ∈ after, kept.reviewId ≠ new.reviewId → updatedNotBefore kept evicted = true

theorem keepsNewest_of_perm {before after : List AutomationRuleReview}
    {new : AutomationRuleReview} (hsorted : before.Pairwise fun a b => updatedNotBefore a b = true)
    (h : after.Perm (new :: (otherReviews new before).take 99)) : KeepsNewest before after new := by
  refine ⟨h, ?_⟩
  intro evicted hbefore hgone kept hkept hother
  have hgone' : ∀ review ∈ new :: (otherReviews new before).take 99,
      evicted.reviewId ≠ review.reviewId :=
    fun review hmem hsame => hgone (hsame ▸ List.mem_map_of_mem (h.mem_iff.mpr hmem))
  rw [List.forall_mem_cons] at hgone'
  have hevicted : evicted ∈ (otherReviews new before).drop 99 := by
    have hmem : evicted ∈ otherReviews new before :=
      List.mem_filter.mpr ⟨hbefore, decide_eq_true hgone'.1⟩
    rw [← List.take_append_drop 99 (otherReviews new before)] at hmem
    exact (List.mem_append.mp hmem).resolve_left fun htaken => hgone'.2 evicted htaken rfl
  have htaken : kept ∈ (otherReviews new before).take 99 := by
    rcases List.mem_cons.mp (h.mem_iff.mp hkept) with rfl | hmem
    · exact absurd rfl hother
    · exact hmem
  have hothers : (otherReviews new before).Pairwise fun a b => updatedNotBefore a b = true :=
    hsorted.sublist List.filter_sublist
  rw [← List.take_append_drop 99 (otherReviews new before)] at hothers
  exact (List.pairwise_append.mp hothers).2.2 kept htaken evicted hevicted

theorem settled_savedReview (huuids : PlainUuids env) {seconds : Nat}
    (hclock : env.modelTestTimestamp = toString seconds)
    (h : sanitizeAutomationReview env env.newUuid review =
      .ok (trimmedReview env.newUuid status review)) :
    SettledReview env (savedReview env status review) := by
  have hgiven := settled_sanitizeAutomationReview huuids.newUuid h
  rw [savedReview, hclock]
  apply hgiven.withTimes
  cases hcreated : review.createdAt.bind nonEmptyOpt with
  | none => exact Or.inr rfl
  | some created => exact Or.inl hcreated.symm

/-- An accepted review is saved under an id of its own. The list is cut to the hundred reviews
that were updated last, whatever their status. -/
theorem upsertAutomationReview_keepsNewest (huuids : PlainUuids env) {seconds : Nat}
    (hclock : env.modelTestTimestamp = toString seconds)
    (hloaded : loadedState env file = .ok state)
    (hsaved : ((upsertAutomationReview env review).run.exec file).result = .ok saved) :
    ∃ status, sanitizeAutomationReviewStatus review.status = .ok status ∧
      (saved.automationReviews.map AutomationRuleReview.reviewId).Nodup ∧
      saved.automationReviews.length ≤ 100 ∧
      (HasPlace (newestFirst env (fileReviews env file)) (savedReview env status review) →
        KeepsNewest (newestFirst env (fileReviews env file)) saved.automationReviews
          (savedReview env status review)) ∧
      ∃ stored, ((upsertAutomationReview env review).run.exec file).file = .holds stored ∧
        stored.automationReviews = saved.automationReviews := by
  obtain ⟨status, hgiven, hstatus, hreviews, hstored⟩ :=
    upsertAutomationReview_saved huuids hloaded hsaved
  refine ⟨status, hstatus, ?_, ?_, ?_, hstored⟩
  · rw [hreviews, sanitizeAutomationReviews_eq]
    exact ((settledReviews_newestFirst huuids _).of_sublist (List.take_sublist 100 _)).ids
  · rw [hreviews, sanitizeAutomationReviews_eq]
    exact List.length_take_le _ _
  · intro hplace
    have hsorted : (newestFirst env (fileReviews env file)).Pairwise
        fun a b => updatedNotBefore a b = true := pairwise_newestFirst _
    rw [hreviews]
    exact keepsNewest_of_perm hsorted (sanitize_upsertBy_perm
      (settledReviews_newestFirst huuids _) hsorted (settled_savedReview huuids hclock hgiven)
      hplace)

def rule (number : Nat) (status : String) : AutomationRuleReview where
  reviewId := toString number
  workspaceId := "home-1"
  source := "home_guardian"
  sourceChannel := none
  sourceConversationId := none
  originalPrompt := "Tell me when someone is at the door"
  status
  triggerDefinition := none
  conditionDefinition := none
  actionPlan := none
  deviceRefs := []
  riskLevel := none
  requiresApproval := true
  createdAt := some (toString 1700000000)
  updatedAt := some (toString 1700000000)
  expiresAt := none
  ruleId := none
  runSummaries := []
  metadata := none

def laterEnvironment : Environment Unit Unit :=
  { targetEnvironment with modelTestTimestamp := toString 1700000001 }

theorem laterEnvironment_time :
    laterEnvironment.modelTestTimestamp = toString 1700000001 := by
  rw [laterEnvironment]

theorem plainUuids_laterEnvironment : PlainUuids laterEnvironment :=
  ⟨plainUuids_targetEnvironment.newUuid, plainUuids_targetEnvironment.uuidAt⟩

theorem upsertAutomationReview_accepted (hloaded : loadedState env file = .ok state)
    {given : AutomationRuleReview}
    (hgiven : sanitizeAutomationReview env env.newUuid review = .ok given) :
    ∃ saved, ((upsertAutomationReview env review).run.exec file).result = .ok saved := by
  rw [upsertAutomationReview, exec_run_bind_of_ok (exec_loadOrCreateState hloaded), hgiven]
  exact ⟨_, rfl⟩

theorem settled_rule (number : Nat) (h : status = "active" ∨ status = "paused") :
    SettledReview laterEnvironment (rule number status) := by
  have htime : (some (toString 1700000000)).bind nonEmptyOpt = some (toString 1700000000) := by
    rw [Option.bind_some, nonEmptyOpt_of_trimmed (trimmed_toString 1700000000)]
  have hstatus : sanitizeAutomationReviewStatus status = .ok status := by
    rcases h with rfl | rfl
    · decide
    · decide
  have hid : Harmless (jsonString "review_id" ++ [':']) := by
    unfold Harmless
    decide
  have hbefore : ∀ field ∈ fieldsBeforeTimes laterEnvironment (rule number status),
      Harmless (jsonString field.1 ++ ':' :: field.2) := by
    refine List.forall_mem_cons.mpr ⟨harmless_time hid number, ?_⟩
    dsimp only [rule]
    unfold Harmless
    rcases h with rfl | rfl
    · decide +kernel
    · decide +kernel
  have hafter : ∀ field ∈ fieldsAfterTimes laterEnvironment (rule number status),
      Harmless (jsonString field.1 ++ ':' :: field.2) := by
    dsimp only [fieldsAfterTimes, rule]
    unfold Harmless
    decide
  refine ⟨trimmed_toString number, ?_, ?_, rfl, rfl, ?_, hstatus, rfl, htime, htime, rfl, rfl, ?_⟩
  · change Trimmed "home-1"
    decide
  · change Trimmed "home_guardian"
    decide
  · change Trimmed "Tell me when someone is at the door"
    decide
  · rw [hasSensitivePayload_eq_false_iff, render_eq, harmless_renderFields_iff]
    simp only [List.mem_append, List.mem_cons, List.not_mem_nil, or_false]
    rintro field ((hfield | rfl | rfl) | hfield)
    · exact hbefore field hfield
    · exact harmless_time created_at_harmless _
    · exact harmless_time updated_at_harmless _
    · exact hafter field hfield

def storedRules (rules : List AutomationRuleReview) : StateFile Unit Unit :=
  .holds { plainState with automationReviews := rules }

theorem storedRules_loaded (rules : List AutomationRuleReview) :
    ∃ state, loadedState laterEnvironment (storedRules rules) = .ok state :=
  ⟨_, rfl⟩

theorem keepsNewest_second_rule : ∃ state saved,
    loadedState laterEnvironment (storedRules [rule 1 "active"]) = .ok state ∧
    ((upsertAutomationReview laterEnvironment (rule 2 "paused")).run.exec
      (storedRules [rule 1 "active"])).result = .ok saved ∧
    ∃ status, sanitizeAutomationReviewStatus (rule 2 "paused").status = .ok status ∧
      (saved.automationReviews.map AutomationRuleReview.reviewId).Nodup ∧
      saved.automationReviews.length ≤ 100 ∧
      (HasPlace (newestFirst laterEnvironment
            (fileReviews laterEnvironment (storedRules [rule 1 "active"])))
          (savedReview laterEnvironment status (rule 2 "paused")) →
        KeepsNewest (newestFirst laterEnvironment
            (fileReviews laterEnvironment (storedRules [rule 1 "active"])))
          saved.automationReviews (savedReview laterEnvironment status (rule 2 "paused"))) ∧
      ∃ stored, ((upsertAutomationReview laterEnvironment (rule 2 "paused")).run.exec
          (storedRules [rule 1 "active"])).file = .holds stored ∧
        stored.automationReviews = saved.automationReviews := by
  obtain ⟨state, hloaded⟩ := storedRules_loaded [rule 1 "active"]
  obtain ⟨saved, hsaved⟩ := upsertAutomationReview_accepted hloaded
    ((settled_rule 2 (Or.inr rfl)).sanitize _)
  exact ⟨state, saved, hloaded, hsaved, upsertAutomationReview_keepsNewest
    plainUuids_laterEnvironment laterEnvironment_time hloaded hsaved⟩

/-- The saved review is among those after it, and no active review is lost while another one
stays. -/
structure KeepsActive (before after : List AutomationRuleReview) (new : AutomationRuleReview) :
    Prop where
  saved : new ∈ after
  ids : (after.map AutomationRuleReview.reviewId).Nodup
  active : ∀ evicted ∈ before, evicted.reviewId ∉ after.map AutomationRuleReview.reviewId →
    evicted.status = "active" → ∀ kept ∈ after, kept.status = "active"

def hundredRules : List AutomationRuleReview :=
  (List.range 100).map fun number => rule number (if number = 99 then "active" else "paused")

theorem newestFirst_hundredRules :
    newestFirst laterEnvironment hundredRules = hundredRules := by
  apply SettledReviews.newestFirst_of_pairwise
  · refine ⟨?_, ?_⟩
    · intro review hmem
      obtain ⟨number, -, rfl⟩ := List.mem_map.mp hmem
      apply settled_rule
      split
      · exact Or.inl rfl
      · exact Or.inr rfl
    · rw [hundredRules, List.map_map]
      exact List.nodup_range.map fun _ _ => eq_of_toString_eq
  · rw [hundredRules, List.pairwise_map]
    apply List.pairwise_of_forall
    intro _ _
    change decide (toString 1700000000 ≤ toString 1700000000) = true
    exact decide_eq_true le_rfl

/-- A new rule that is paused takes the place of the active one. -/
theorem active_rule_evicted :
    ¬ ∀ (env : Environment Unit Unit) (file : StateFile Unit Unit)
        (state saved : AdminConsoleState Unit Unit) (review : AutomationRuleReview)
        (status : String) (seconds : Nat),
      PlainUuids env → env.modelTestTimestamp = toString seconds →
      loadedState env file = .ok state →
      ((upsertAutomationReview env review).run.exec file).result = .ok saved →
      sanitizeAutomationReviewStatus review.status = .ok status →
      KeepsActive (newestFirst env (fileReviews env file)) saved.automationReviews
        (savedReview env status review) := by
  intro h
  obtain ⟨state, hloaded⟩ := storedRules_loaded hundredRules
  have hnew := settled_rule 100 (Or.inr rfl)
  obtain ⟨saved, hsaved⟩ := upsertAutomationReview_accepted hloaded (hnew.sanitize _)
  have hkept := h laterEnvironment _ state saved _ "paused" 1700000001
    plainUuids_laterEnvironment laterEnvironment_time hloaded hsaved hnew.status
  obtain ⟨status, hgiven, hstatus, hreviews, -⟩ :=
    upsertAutomationReview_saved plainUuids_laterEnvironment hloaded hsaved
  obtain rfl : "paused" = status := Except.ok.inj (hnew.status.symm.trans hstatus)
  have hnewId : (savedReview laterEnvironment "paused" (rule 100 "paused")).reviewId =
      toString 100 :=
    congrArg AutomationRuleReview.reviewId (hnew.trimmedReview laterEnvironment.newUuid)
  have hothers : otherReviews (savedReview laterEnvironment "paused" (rule 100 "paused"))
      hundredRules = hundredRules := by
    apply List.filter_eq_self.mpr
    intro review hmem
    obtain ⟨number, hnumber, rfl⟩ := List.mem_map.mp hmem
    apply decide_eq_true
    rw [hnewId]
    intro hsame
    have := List.mem_range.mp hnumber
    have : number = 100 := eq_of_toString_eq hsame
    omega
  have hfirst : rule 0 "paused" ∈ hundredRules :=
    List.mem_map.mpr ⟨0, List.mem_range.mpr (by omega), rfl⟩
  have hplace : HasPlace hundredRules
      (savedReview laterEnvironment "paused" (rule 100 "paused")) := by
    refine Or.inr ⟨rule 0 "paused", ?_, Or.inr ?_⟩
    · rw [List.take_of_length_le (by simp [hundredRules])]
      exact hfirst
    · change decide (laterEnvironment.modelTestTimestamp ≤ toString 1700000000) = false
      rw [laterEnvironment_time]
      decide
  have hperm := sanitize_upsertBy_perm
    (settledReviews_newestFirst plainUuids_laterEnvironment hundredRules)
    (pairwise_newestFirst hundredRules)
    (settled_savedReview plainUuids_laterEnvironment laterEnvironment_time hgiven)
    (newestFirst_hundredRules.symm ▸ hplace)
  have hbefore : newestFirst laterEnvironment
      (fileReviews laterEnvironment (storedRules hundredRules)) = hundredRules :=
    newestFirst_hundredRules
  have htaken : hundredRules.take 99 = (List.range 99).map fun number =>
      rule number (if number = 99 then "active" else "paused") := by
    rw [hundredRules, ← List.map_take, List.take_range]
    rfl
  rw [hbefore] at hkept hreviews
  rw [newestFirst_hundredRules, hothers, ← hreviews, htaken] at hperm
  have hlast : rule 99 "active" ∈ hundredRules :=
    List.mem_map.mpr ⟨99, List.mem_range.mpr (by omega), rfl⟩
  have hgone : (rule 99 "active").reviewId ∉
      saved.automationReviews.map AutomationRuleReview.reviewId := by
    intro hmem
    obtain ⟨review, hreview, hsame⟩ := List.mem_map.mp hmem
    rcases List.mem_cons.mp (hperm.mem_iff.mp hreview) with rfl | hrest
    · rw [hnewId] at hsame
      have : 100 = 99 := eq_of_toString_eq hsame
      omega
    · obtain ⟨number, hnumber, rfl⟩ := List.mem_map.mp hrest
      have : number = 99 := eq_of_toString_eq hsame
      have := List.mem_range.mp hnumber
      omega
  have hstays : rule 0 "paused" ∈ saved.automationReviews :=
    hperm.mem_iff.mpr (List.mem_cons_of_mem _
      (List.mem_map.mpr ⟨0, List.mem_range.mpr (by omega), rfl⟩))
  exact absurd (hkept.active _ hlast hgone rfl _ hstays) (by decide)

end Saved

end HarborBeacon.AdminConsole
