import HarborBeacon.AccessDecisions
import HarborBeacon.ChunkTokens
import HarborBeacon.Policy
import Mathlib.Data.Finset.Max
import Mathlib.Data.List.MinMax

/-!
The workflow compiler. A workflow turns a text into a candidate of the node that scores best, by its
phrases and keywords as they are after the normalization.
-/

namespace HarborBeacon.WorkflowCompiler

open Policy Text

def allowedGeneralMessageCandidates : List String :=
  ["capability_summary", "clarify", "conversation_continue", "conversation_boundary",
   "conversation_repair", "conversation_cancel", "conversation_clarify_continue",
   "camera_replay_recent_clip", "camera_snapshot", "camera_record_clip", "knowledge_search",
   "rag_answer", "ha_service_action", "vision_event_summary", "vision_event_notify_latest",
   "vlm_describe_latest_event", "vlm_describe_event", "family_memory_summary", "system_readiness",
   "evt_readiness", "evt_preflight", "evt_evidence_bundle", "family_timeline_summary",
   "family_timeline_query", "guardian_rule_proposal", "guardian_rule_list", "guardian_rule_enable",
   "guardian_rule_pause", "guardian_status", "family_memory_confirm", "family_memory_favorite",
   "family_memory_hide"]

structure WorkflowNode where
  id : String
  candidateKind : String
  phrases : List String
  keywordsAny : List String
  keywordsAll : List String
  readOnly : Bool
  action : Option Action
  confidence : Nat
  reason : String
deriving DecidableEq

structure WorkflowSpec where
  id : String
  version : String
  summary : String
  minConfidence : Nat
  denyPhrases : List String
  nodes : List WorkflowNode
deriving DecidableEq

structure WorkflowCandidate where
  workflowId : String
  nodeId : String
  candidateKind : String
  confidence : Nat
  reason : String
  readOnly : Bool
  action : Option Action
deriving DecidableEq

def readOnlyOperations : List (String × String) :=
  [("service", "status"), ("files", "search"), ("files", "list"), ("files", "stat"),
   ("files", "read_text"), ("diagnostics", "read")]

def workflowActionIsReadOnly (action : Action) : Bool :=
  if action.riskLevel ≠ .low ∨ action.requiresApproval = true then false
  else readOnlyOperations.contains
    (toAsciiLowercase (trim action.domain), toAsciiLowercase (trim action.operation))

def WorkflowCandidate.hasUnsafeAction (candidate : WorkflowCandidate) : Bool :=
  candidate.action.any fun action => !workflowActionIsReadOnly action

def validateNodes (ids : List String) : List WorkflowNode → Except String Unit
  | [] => .ok ()
  | node :: rest =>
      if isBlank node.id then .error "INVALID_WORKFLOW_SPEC: node id is required"
      else if node.id ∈ ids then
        .error ("INVALID_WORKFLOW_SPEC: duplicate node id " ++ node.id)
      else if node.candidateKind ∉ allowedGeneralMessageCandidates then
        .error ("INVALID_WORKFLOW_SPEC: unsupported candidate kind " ++ node.candidateKind)
      else if node.phrases = [] ∧ node.keywordsAny = [] ∧ node.keywordsAll = [] then
        .error ("INVALID_WORKFLOW_SPEC: node " ++ node.id ++ " has no match criteria")
      else if node.action.any fun action => !workflowActionIsReadOnly action then
        .error ("UNSAFE_WORKFLOW_ACTION: node " ++ node.id ++ " contains a non-read-only action")
      else validateNodes (node.id :: ids) rest

def validateWorkflowSpec (spec : WorkflowSpec) : Except String WorkflowSpec :=
  if isBlank spec.id then .error "INVALID_WORKFLOW_SPEC: id is required"
  else if spec.nodes = [] then .error "INVALID_WORKFLOW_SPEC: at least one node is required"
  else (validateNodes [] spec.nodes).map fun _ => spec

def ignoredChars : List Char := [':', '：', '-', '_', '/', '\\']

def normalizedChars (chars : List Char) : List Char :=
  ((trimChars chars).flatMap lowercaseChar).filter fun c =>
    !isWhitespace c && !ignoredChars.contains c

def normalizeWorkflowText (input : String) : String :=
  String.ofList (normalizedChars input.toList)

def containsPhrase (normalized phrase : String) : Bool :=
  containsText normalized (normalizeWorkflowText phrase)

def denyPhraseMatches (normalized : String) (denyPhrases : List String) : Bool :=
  denyPhrases.any fun phrase =>
    decide (normalizeWorkflowText phrase ≠ "") && containsPhrase normalized phrase

def phraseScore (confidence : Nat) (normalized : String) (score : Nat) (phrase : String) : Nat :=
  if normalizeWorkflowText phrase = "" then score
  else if normalized = normalizeWorkflowText phrase then
    max score (min (min (confidence + 5) 255) 100)
  else if containsPhrase normalized phrase then max score confidence
  else score

/-- What the keywords of a node add, if `found` says which of them the text contains. -/
def keywordScore (node : WorkflowNode) (found : String → Bool) : Nat :=
  let allMatch := !node.keywordsAll.isEmpty && node.keywordsAll.all found
  let anyMatch := !node.keywordsAny.isEmpty && node.keywordsAny.any found
  match !node.keywordsAll.isEmpty, !node.keywordsAny.isEmpty with
  | true, true => if allMatch && anyMatch then node.confidence - 5 else 0
  | true, false => if allMatch then node.confidence - 5 else 0
  | false, true => if anyMatch then node.confidence - 15 else 0
  | false, false => 0

def rawScore (node : WorkflowNode) (normalized : String) : Nat :=
  max (node.phrases.foldl (phraseScore node.confidence normalized) 0)
    (keywordScore node (containsPhrase normalized))

def nodeScore (node : WorkflowNode) (normalized : String) : Option Nat :=
  if 0 < rawScore node normalized then some (rawScore node normalized) else none

def bestMatch (normalized : String) (best : Option (WorkflowNode × Nat)) :
    List WorkflowNode → Option (WorkflowNode × Nat)
  | [] => best
  | node :: rest =>
      match nodeScore node normalized with
      | none => bestMatch normalized best rest
      | some score =>
          if best.all fun earlier => earlier.2 < score then
            bestMatch normalized (some (node, score)) rest
          else bestMatch normalized best rest

def bestNodeMatch (spec : WorkflowSpec) (normalized : String) : Option (WorkflowNode × Nat) :=
  bestMatch normalized none spec.nodes

def candidateOf (spec : WorkflowSpec) (node : WorkflowNode) (score : Nat) : WorkflowCandidate where
  workflowId := spec.id
  nodeId := node.id
  candidateKind := node.candidateKind
  confidence := min score 100
  reason := node.reason
  readOnly := node.readOnly && node.action.all workflowActionIsReadOnly
  action := node.action

def compileWorkflowCandidate (spec : WorkflowSpec) (rawText : String) : Option WorkflowCandidate :=
  let normalized := normalizeWorkflowText rawText
  if normalized = "" ∨ denyPhraseMatches normalized spec.denyPhrases = true then none
  else (bestNodeMatch spec normalized).bind fun best =>
    if best.2 < spec.minConfidence then none else some (candidateOf spec best.1 best.2)

section Normalization

theorem normalizedChars_eq (chars : List Char) :
    normalizedChars chars = (chars.flatMap lowercaseChar).filter fun c =>
      !isWhitespace c && !ignoredChars.contains c := by
  have hspaces : ∀ spaces : List Char, (∀ c ∈ spaces, isWhitespace c = true) →
      ((spaces.flatMap lowercaseChar).filter fun c =>
        !isWhitespace c && !ignoredChars.contains c) = [] := by
    intro spaces h
    refine List.filter_eq_nil_iff.mpr fun x hx => ?_
    obtain ⟨c, hc, hxc⟩ := List.mem_flatMap.mp hx
    rw [AccessDecisions.isWhitespace_lowercaseChar hxc, h c hc]
    simp
  obtain ⟨before, after, hbefore, hafter, heq⟩ := ChunkTokens.exists_trimChars chars
  conv_rhs => rw [heq]
  rw [List.flatMap_append, List.flatMap_append, List.filter_append, List.filter_append,
    hspaces before hbefore, hspaces after hafter, List.nil_append, List.append_nil]
  rfl

theorem normalizeWorkflowText_append (a b : String) :
    normalizeWorkflowText (a ++ b) = normalizeWorkflowText a ++ normalizeWorkflowText b := by
  apply String.toList_inj.mp
  simp only [normalizeWorkflowText, String.toList_ofList, String.toList_append,
    normalizedChars_eq, List.flatMap_append, List.filter_append]

end Normalization

section Scores

variable {node : WorkflowNode} {normalized phrase : String} {confidence score bound : Nat}

def RealMatch (node : WorkflowNode) (normalized : String) : Prop :=
  ∃ criterion ∈ node.phrases ++ node.keywordsAll ++ node.keywordsAny,
    normalizeWorkflowText criterion ≠ "" ∧ containsPhrase normalized criterion = true

def emptyScore (node : WorkflowNode) : Nat :=
  keywordScore node fun keyword => decide (normalizeWorkflowText keyword = "")

theorem containsPhrase_iff : containsPhrase normalized phrase = true ↔
    (normalizeWorkflowText phrase).toList <:+: normalized.toList := by
  rw [containsPhrase, containsText, decide_eq_true_eq]

theorem containsPhrase_of_empty (h : normalizeWorkflowText phrase = "") :
    containsPhrase normalized phrase = true := by
  rw [containsPhrase_iff, h]
  exact List.nil_infix

theorem containsPhrase_self : containsPhrase (normalizeWorkflowText phrase) phrase = true :=
  containsPhrase_iff.mpr (List.infix_refl _)

theorem foldl_phraseScore_le {phrases : List String} {start : Nat} :
    phrases.foldl (phraseScore confidence normalized) start ≤ bound ↔
      start ≤ bound ∧ ∀ phrase ∈ phrases, phraseScore confidence normalized 0 phrase ≤ bound := by
  induction phrases generalizing start with
  | nil => simp
  | cons phrase rest ih =>
      have hround : phraseScore confidence normalized start phrase =
          max start (phraseScore confidence normalized 0 phrase) := by
        simp only [phraseScore]
        split_ifs <;> omega
      rw [List.foldl_cons, ih, hround, max_le_iff, List.forall_mem_cons, and_assoc]

theorem keywordScore_le (node : WorkflowNode) (found : String → Bool) :
    keywordScore node found ≤ node.confidence - 5 := by
  rw [keywordScore]
  split
  · split_ifs <;> omega
  · split_ifs <;> omega
  · split_ifs <;> omega
  · exact Nat.zero_le _

theorem rawScore_of_not_real (h : ¬ RealMatch node normalized) :
    rawScore node normalized = emptyScore node := by
  have hempty : ∀ criterion ∈ node.phrases ++ node.keywordsAll ++ node.keywordsAny,
      containsPhrase normalized criterion = true → normalizeWorkflowText criterion = "" :=
    fun criterion hmem hcontains => not_not.mp fun hne => h ⟨criterion, hmem, hne, hcontains⟩
  have hphrases : node.phrases.foldl (phraseScore node.confidence normalized) 0 = 0 := by
    refine Nat.le_zero.mp (foldl_phraseScore_le.mpr ⟨le_rfl, fun phrase hphrase => ?_⟩)
    have hreal := hempty phrase
      (List.mem_append_left _ (List.mem_append_left _ hphrase))
    rw [phraseScore]
    split_ifs with hnil hsame hcontains
    · exact le_rfl
    · exact absurd (hreal (hsame ▸ containsPhrase_self)) hnil
    · exact absurd (hreal hcontains) hnil
    · exact le_rfl
  have hfound : ∀ keyword ∈ node.keywordsAll ++ node.keywordsAny,
      containsPhrase normalized keyword = decide (normalizeWorkflowText keyword = "") := by
    intro keyword hkeyword
    rw [Bool.eq_iff_iff, decide_eq_true_eq]
    refine ⟨hempty keyword ?_, containsPhrase_of_empty⟩
    rw [List.append_assoc]
    exact List.mem_append_right _ hkeyword
  have hall : node.keywordsAll.all (containsPhrase normalized) =
      node.keywordsAll.all fun keyword => decide (normalizeWorkflowText keyword = "") := by
    rw [Bool.eq_iff_iff, List.all_eq_true, List.all_eq_true]
    exact forall₂_congr fun keyword hkeyword => by
      rw [hfound keyword (List.mem_append_left _ hkeyword)]
  have hany : node.keywordsAny.any (containsPhrase normalized) =
      node.keywordsAny.any fun keyword => decide (normalizeWorkflowText keyword = "") := by
    rw [Bool.eq_iff_iff, List.any_eq_true, List.any_eq_true]
    exact exists_congr fun keyword => and_congr_right fun hkeyword => by
      rw [hfound keyword (List.mem_append_right _ hkeyword)]
  rw [rawScore, hphrases, Nat.zero_max, emptyScore, keywordScore, keywordScore, hall, hany]

/-- A text that is the phrase scores at least as much as any text that contains it. -/
def FairPhrase (node : WorkflowNode) (phrase : String) : Prop :=
  ∀ text, containsPhrase (normalizeWorkflowText text) phrase = true →
    rawScore node (normalizeWorkflowText text) ≤ rawScore node (normalizeWorkflowText phrase)

theorem le_rawScore (h : phrase ∈ node.phrases) :
    phraseScore node.confidence normalized 0 phrase ≤ rawScore node normalized :=
  le_trans ((foldl_phraseScore_le.mp le_rfl).2 phrase h) (le_max_left _ _)

theorem fairPhrase_of_le (hconfidence : node.confidence ≤ 100) (hphrase : phrase ∈ node.phrases)
    (hne : normalizeWorkflowText phrase ≠ "") : FairPhrase node phrase := by
  intro text _
  refine le_trans (max_le (foldl_phraseScore_le.mpr ⟨Nat.zero_le _, fun other _ => ?_⟩)
    (le_trans (keywordScore_le _ _) ?_)) (le_rawScore hphrase)
  · rw [phraseScore, phraseScore, if_neg hne, if_pos rfl]
    split_ifs <;> omega
  · rw [phraseScore, if_neg hne, if_pos rfl]
    omega

theorem exists_unfair (hconfidence : 100 < node.confidence) (hphrase : phrase ∈ node.phrases)
    (hne : normalizeWorkflowText phrase ≠ "") :
    ∃ shortest ∈ node.phrases, normalizeWorkflowText shortest ≠ "" ∧
      ¬ FairPhrase node shortest := by
  obtain ⟨shortest, hmem, hmin⟩ := Finset.exists_min_image
    (node.phrases.filter fun phrase => normalizeWorkflowText phrase ≠ "").toFinset
    (fun phrase => (normalizeWorkflowText phrase).toList.length)
    ⟨phrase, List.mem_toFinset.mpr (List.mem_filter.mpr ⟨hphrase, decide_eq_true hne⟩)⟩
  obtain ⟨hmem, hshortest⟩ := List.mem_filter.mp (List.mem_toFinset.mp hmem)
  have hshortest := of_decide_eq_true hshortest
  have hlength : 0 < (normalizeWorkflowText shortest).toList.length :=
    List.length_pos_of_ne_nil fun hnil => hshortest (String.toList_eq_nil_iff.mp hnil)
  refine ⟨shortest, hmem, hshortest, fun hfair => ?_⟩
  -- No other phrase fits into the shortest one, and written twice it still contains itself.
  have hexact : rawScore node (normalizeWorkflowText shortest) ≤ node.confidence - 1 := by
    refine max_le (foldl_phraseScore_le.mpr ⟨Nat.zero_le _, fun other hother => ?_⟩)
      (le_trans (keywordScore_le _ _) (by omega))
    rw [phraseScore]
    split_ifs with hnil hsame hinside
    · exact Nat.zero_le _
    · omega
    · have hwithin := containsPhrase_iff.mp hinside
      have hle := hmin other (List.mem_toFinset.mpr
        (List.mem_filter.mpr ⟨hother, decide_eq_true hnil⟩))
      exact absurd (String.toList_inj.mp
        (hwithin.eq_of_length (le_antisymm hwithin.length_le hle))).symm hsame
    · exact Nat.zero_le _
  have htwice : containsPhrase (normalizeWorkflowText (shortest ++ shortest)) shortest = true := by
    rw [containsPhrase_iff, normalizeWorkflowText_append, String.toList_append]
    exact (List.prefix_append _ _).isInfix
  have hlonger : normalizeWorkflowText (shortest ++ shortest) ≠ normalizeWorkflowText shortest := by
    intro heq
    have hlist := congrArg (fun text => text.toList.length) heq
    rw [normalizeWorkflowText_append, String.toList_append, List.length_append] at hlist
    omega
  have hscore : phraseScore node.confidence (normalizeWorkflowText (shortest ++ shortest)) 0
      shortest ≤ rawScore node (normalizeWorkflowText (shortest ++ shortest)) := le_rawScore hmem
  rw [phraseScore, if_neg hshortest, if_neg hlonger, if_pos htwice, Nat.zero_max] at hscore
  have hfair := hfair (shortest ++ shortest) htwice
  omega

end Scores

section Best

variable {normalized : String} {rest : List WorkflowNode} {node : WorkflowNode} {score : Nat}

/-- The first node of the highest score, which is positive. -/
def FirstBest (normalized : String) (nodes : List WorkflowNode) (node : WorkflowNode) : Prop :=
  node ∈ nodes.argmax (rawScore · normalized) ∧ 0 < rawScore node normalized

theorem mem_argmax_iff_split {α : Type} [DecidableEq α] {f : α → Nat} {items : List α} {item : α} :
    item ∈ items.argmax f ↔ ∃ front back, items = front ++ item :: back ∧
      (∀ other ∈ front, f other < f item) ∧ ∀ other ∈ back, f other ≤ f item := by
  rw [List.mem_argmax_iff]
  constructor
  · rintro ⟨hmem, hmax, hfirst⟩
    obtain ⟨front, back, rfl, hfresh⟩ := List.eq_append_cons_of_mem hmem
    refine ⟨front, back, rfl, fun other hother => ?_, fun other hother =>
      hmax other (List.mem_append_right _ (List.mem_cons_of_mem _ hother))⟩
    by_contra hle
    have hplace := hfirst other (List.mem_append_left _ hother) (not_lt.mp hle)
    rw [List.idxOf_append_of_mem hother, List.idxOf_append_of_notMem hfresh] at hplace
    have hbefore := List.idxOf_lt_length_iff.mpr hother
    omega
  · rintro ⟨front, back, rfl, hfront, hback⟩
    have hfresh : item ∉ front := fun hmem => lt_irrefl _ (hfront item hmem)
    refine ⟨List.mem_append_right _ List.mem_cons_self, ?_, fun other _ hle => ?_⟩
    · simp only [List.forall_mem_append, List.forall_mem_cons]
      exact ⟨fun other hother => (hfront other hother).le, le_rfl, hback⟩
    · have hother : other ∉ front := fun hmem => absurd (hfront other hmem) (not_lt.mpr hle)
      rw [List.idxOf_append_of_notMem hfresh, List.idxOf_append_of_notMem hother,
        List.idxOf_cons_self]
      omega

def scored (normalized : String) (best : Option WorkflowNode) : Option (WorkflowNode × Nat) :=
  (best.filter fun node => 0 < rawScore node normalized).map fun node =>
    (node, rawScore node normalized)

theorem scored_of_pos (h : 0 < rawScore node normalized) :
    scored normalized (some node) = some (node, rawScore node normalized) := by
  rw [scored, Option.filter_some, if_pos (decide_eq_true h), Option.map_some]

theorem scored_of_not_pos (h : ¬ 0 < rawScore node normalized) :
    scored normalized (some node) = none := by
  rw [scored, Option.filter_some, if_neg (by simpa using h), Option.map_none]

theorem all_scored_iff (h : 0 < score) :
    (scored normalized (some node)).all (fun earlier => earlier.2 < score) = true ↔
      rawScore node normalized < score := by
  by_cases hpos : 0 < rawScore node normalized
  · rw [scored_of_pos hpos, Option.all_some, decide_eq_true_iff]
  · rw [scored_of_not_pos hpos, Option.all_none]
    exact iff_of_true rfl (by omega)

theorem bestMatch_scored (best : Option WorkflowNode) :
    bestMatch normalized (scored normalized best) rest = scored normalized (rest.foldl
      (List.argAux fun node best => rawScore best normalized < rawScore node normalized) best) := by
  induction rest generalizing best with
  | nil => rfl
  | cons node rest ih =>
      rw [List.foldl_cons, ← ih, bestMatch, nodeScore]
      by_cases hpos : 0 < rawScore node normalized
      · rw [if_pos hpos]
        rcases best with _ | earlier
        · rw [List.argAux, scored_of_pos hpos]
          rfl
        · dsimp only [List.argAux]
          simp only [all_scored_iff hpos]
          split_ifs
          · rw [scored_of_pos hpos]
          · rfl
      · rw [if_neg hpos]
        rcases best with _ | earlier
        · rw [List.argAux, scored_of_not_pos hpos]
          rfl
        · dsimp only [List.argAux]
          rw [if_neg (by omega)]

theorem bestNodeMatch_eq_some_iff {spec : WorkflowSpec} :
    bestNodeMatch spec normalized = some (node, score) ↔
      score = rawScore node normalized ∧ FirstBest normalized spec.nodes node := by
  have hbest : bestNodeMatch spec normalized =
      scored normalized (spec.nodes.argmax (rawScore · normalized)) :=
    bestMatch_scored none
  rw [hbest, scored, Option.map_eq_some_iff]
  simp only [Option.filter_eq_some_iff, decide_eq_true_eq, Prod.mk.injEq, FirstBest]
  constructor
  · rintro ⟨_, hfirst, rfl, rfl⟩
    exact ⟨rfl, hfirst⟩
  · rintro ⟨rfl, hfirst⟩
    exact ⟨node, hfirst, rfl, rfl⟩

end Best

section Candidates

variable {spec : WorkflowSpec} {rawText : String} {candidate : WorkflowCandidate}
  {ids : List String} {nodes : List WorkflowNode}

theorem readOnly_of_validateNodes (h : validateNodes ids nodes = .ok ()) :
    ∀ node ∈ nodes, ∀ action ∈ node.action, workflowActionIsReadOnly action = true := by
  induction nodes generalizing ids with
  | nil => simp
  | cons node rest ih =>
      rw [validateNodes] at h
      split_ifs at h with _ _ _ _ hsafe
      rw [List.forall_mem_cons]
      refine ⟨fun action haction => ?_, ih h⟩
      rw [Option.mem_def.mp haction, Option.any_some, Bool.not_eq_true', Bool.not_eq_false] at hsafe
      exact hsafe

theorem readOnly_of_valid (h : validateWorkflowSpec spec = .ok spec) :
    ∀ node ∈ spec.nodes, ∀ action ∈ node.action, workflowActionIsReadOnly action = true := by
  rw [validateWorkflowSpec] at h
  split_ifs at h
  rcases hnodes : validateNodes [] spec.nodes with error | _
  · rw [hnodes] at h
    exact absurd h (by simp [Except.map])
  · exact readOnly_of_validateNodes hnodes

/-- The text contains no deny phrase that is not empty once normalized. -/
def NotDenied (spec : WorkflowSpec) (normalized : String) : Prop :=
  ∀ phrase ∈ spec.denyPhrases, normalizeWorkflowText phrase ≠ "" →
    containsPhrase normalized phrase = false

/-- The node that the candidate for the text comes from. -/
def Chosen (spec : WorkflowSpec) (normalized : String) (node : WorkflowNode) : Prop :=
  FirstBest normalized spec.nodes node ∧ spec.minConfidence ≤ rawScore node normalized

theorem compileWorkflowCandidate_eq_some_iff :
    compileWorkflowCandidate spec rawText = some candidate ↔
      normalizeWorkflowText rawText ≠ "" ∧ NotDenied spec (normalizeWorkflowText rawText) ∧
        ∃ node, Chosen spec (normalizeWorkflowText rawText) node ∧
          candidate = candidateOf spec node (rawScore node (normalizeWorkflowText rawText)) := by
  have hdenied : ¬ denyPhraseMatches (normalizeWorkflowText rawText) spec.denyPhrases = true ↔
      NotDenied spec (normalizeWorkflowText rawText) := by
    simp [denyPhraseMatches, NotDenied]
  rw [compileWorkflowCandidate, Option.ite_none_left_eq_some, not_or, hdenied, and_assoc,
    Option.bind_eq_some_iff]
  refine and_congr_right fun _ => and_congr_right fun _ => ⟨?_, ?_⟩
  · rintro ⟨⟨node, score⟩, hbest, hcandidate⟩
    obtain ⟨rfl, hfirst⟩ := bestNodeMatch_eq_some_iff.mp hbest
    rw [Option.ite_none_left_eq_some] at hcandidate
    exact ⟨node, ⟨hfirst, not_lt.mp hcandidate.1⟩, (Option.some.inj hcandidate.2).symm⟩
  · rintro ⟨node, ⟨hfirst, hscore⟩, rfl⟩
    exact ⟨_, bestNodeMatch_eq_some_iff.mpr ⟨rfl, hfirst⟩, if_neg (not_lt.mpr hscore)⟩

/-- A candidate comes from a criterion that says something, and a phrase itself is not worth less
than a text around it. -/
structure RealCriteria (spec : WorkflowSpec) (rawText : String) : Prop where
  supported : ∀ candidate, compileWorkflowCandidate spec rawText = some candidate →
    NotDenied spec (normalizeWorkflowText rawText) ∧ ∃ node,
      Chosen spec (normalizeWorkflowText rawText) node ∧
      candidate = candidateOf spec node (rawScore node (normalizeWorkflowText rawText)) ∧
      RealMatch node (normalizeWorkflowText rawText) ∧
      ∀ action ∈ node.action, workflowActionIsReadOnly action = true
  fair : ∀ node ∈ spec.nodes, ∀ phrase ∈ node.phrases, normalizeWorkflowText phrase ≠ "" →
    FairPhrase node phrase

/-- No node wins by its empty keywords alone. -/
def NoEmptyWinner (spec : WorkflowSpec) (normalized : String) : Prop :=
  normalized = "" ∨ ¬ NotDenied spec normalized ∨
    ∀ front node back, spec.nodes = front ++ node :: back →
      RealMatch node normalized ∨ emptyScore node = 0 ∨ emptyScore node < spec.minConfidence ∨
        (∃ other ∈ front, emptyScore node ≤ rawScore other normalized) ∨
        ∃ other ∈ back, emptyScore node < rawScore other normalized

theorem noEmptyWinner_of_supported (h : ∀ candidate,
    compileWorkflowCandidate spec rawText = some candidate → ∃ node,
      Chosen spec (normalizeWorkflowText rawText) node ∧
        RealMatch node (normalizeWorkflowText rawText)) :
    NoEmptyWinner spec (normalizeWorkflowText rawText) := by
  refine or_iff_not_imp_left.mpr fun hne => or_iff_not_imp_left.mpr fun hdenied => ?_
  intro front node back hnodes
  refine or_iff_not_imp_left.mpr fun hunreal => ?_
  have hscore := rawScore_of_not_real hunreal
  by_contra! hwins
  obtain ⟨hpos, hmin, hfront, hback⟩ := hwins
  rw [← hscore] at hpos hmin hfront hback
  have hfirst : FirstBest (normalizeWorkflowText rawText) spec.nodes node :=
    ⟨mem_argmax_iff_split.mpr ⟨front, back, hnodes, hfront, hback⟩, Nat.pos_of_ne_zero hpos⟩
  obtain ⟨chosen, hchosen, hreal⟩ := h _ (compileWorkflowCandidate_eq_some_iff.mpr
    ⟨hne, not_not.mp hdenied, node, ⟨hfirst, hmin⟩, rfl⟩)
  exact hunreal (Option.mem_unique hchosen.1.1 hfirst.1 ▸ hreal)

theorem realMatch_of_noEmptyWinner (h : NoEmptyWinner spec (normalizeWorkflowText rawText))
    (hne : normalizeWorkflowText rawText ≠ "")
    (hdenied : NotDenied spec (normalizeWorkflowText rawText)) {node : WorkflowNode}
    (hchosen : Chosen spec (normalizeWorkflowText rawText) node) :
    RealMatch node (normalizeWorkflowText rawText) := by
  obtain ⟨⟨hbest, hpos⟩, hmin⟩ := hchosen
  obtain ⟨front, back, hnodes, hfront, hback⟩ := mem_argmax_iff_split.mp hbest
  by_contra hunreal
  rw [rawScore_of_not_real hunreal] at hpos hmin hfront hback
  rcases h with hnil | hdeny | hevery
  · exact hne hnil
  · exact hdeny hdenied
  · rcases hevery front node back hnodes with hreal | hzero | hlow | hearlier | hlater
    · exact hunreal hreal
    · omega
    · omega
    · obtain ⟨other, hother, hle⟩ := hearlier
      exact absurd (hfront other hother) (not_lt.mpr hle)
    · obtain ⟨other, hother, hlt⟩ := hlater
      exact absurd hlt (not_lt.mpr (hback other hother))

/-- Empty keywords match everything, and only the score of an exact phrase is capped. -/
theorem realCriteria_iff (spec : WorkflowSpec) (rawText : String)
    (hvalid : validateWorkflowSpec spec = .ok spec) :
    RealCriteria spec rawText ↔
      NoEmptyWinner spec (normalizeWorkflowText rawText) ∧
        ∀ node ∈ spec.nodes, (∃ phrase ∈ node.phrases, normalizeWorkflowText phrase ≠ "") →
          node.confidence ≤ 100 := by
  constructor
  · intro h
    refine ⟨noEmptyWinner_of_supported fun candidate hcandidate => ?_, ?_⟩
    · obtain ⟨_, node, hchosen, _, hreal, _⟩ := h.supported candidate hcandidate
      exact ⟨node, hchosen, hreal⟩
    · rintro node hnode ⟨phrase, hphrase, hne⟩
      by_contra hlarge
      obtain ⟨shortest, hmem, hshortest, hunfair⟩ := exists_unfair (not_le.mp hlarge) hphrase hne
      exact hunfair (h.fair node hnode shortest hmem hshortest)
  · rintro ⟨hwinner, hconfidence⟩
    constructor
    · intro candidate hcandidate
      obtain ⟨hne, hdenied, node, hchosen, rfl⟩ :=
        compileWorkflowCandidate_eq_some_iff.mp hcandidate
      exact ⟨hdenied, node, hchosen, rfl,
        realMatch_of_noEmptyWinner hwinner hne hdenied hchosen,
        readOnly_of_valid hvalid node (List.argmax_mem hchosen.1.1)⟩
    · intro node hnode phrase hphrase hne
      exact fairPhrase_of_le (hconfidence node hnode ⟨phrase, hphrase, hne⟩) hphrase hne

def statusNode : WorkflowNode where
  id := "status"
  candidateKind := "system_readiness"
  phrases := ["status"]
  keywordsAny := ["-"]
  keywordsAll := []
  readOnly := true
  action := none
  confidence := 90
  reason := "matched a status request"

def statusWorkflow : WorkflowSpec where
  id := "status_v1"
  version := "1.0.0"
  summary := ""
  minConfidence := 60
  denyPhrases := []
  nodes := [statusNode]

theorem realCriteria_status : RealCriteria statusWorkflow "Status?" := by
  refine (realCriteria_iff statusWorkflow "Status?" (by decide)).mpr
    ⟨Or.inr (Or.inr fun front node back hnodes => Or.inl ?_), ?_⟩
  · have hmem : node ∈ statusWorkflow.nodes := by simp [hnodes]
    obtain rfl := List.mem_singleton.mp hmem
    exact ⟨"status", by decide, by decide, by decide⟩
  · intro node hnode _
    obtain rfl := List.mem_singleton.mp hnode
    decide

theorem not_realCriteria_greeting :
    validateWorkflowSpec statusWorkflow = .ok statusWorkflow ∧
      ¬ RealCriteria statusWorkflow "Good morning" := by
  refine ⟨by decide, fun h => ?_⟩
  obtain ⟨_, node, hchosen, _, ⟨criterion, hmem, hne, hcontains⟩, _⟩ :=
    h.supported (candidateOf statusWorkflow statusNode 75) (by decide)
  obtain rfl := List.mem_singleton.mp (List.argmax_mem hchosen.1.1)
  rcases List.mem_pair.mp hmem with rfl | rfl
  · exact absurd hcontains (by decide)
  · exact hne (by decide)

end Candidates

end HarborBeacon.WorkflowCompiler
