import HarborBeacon.Json
import HarborBeacon.TokenTruncation

/-!
The prompt of an answer from evidence. It is built again with shorter evidence, and in the end
without the history, until it fits into the context of the model or nothing is left to shorten.
-/

namespace HarborBeacon.RagPromptBudget

open Json Text TokenTruncation

section Model

structure RagConversationEvidence where
  path : String
  title : String
  modality : String
  context : String

structure RagConversationTurn where
  user : String
  effectiveQuery : String
  assistant : String
  evidence : List RagConversationEvidence

structure KnowledgeSearchCitation where
  title : String
  path : String
  modality : String
  chunkId : Option String
  answerContext : String
  preview : Option String
  modifiedUnixMillis : Option Nat

def ragContextTokenLimit (configured : Nat) : Nat :=
  max 4096 (min configured 8192)

def ragPromptInputTokenBudget (contextTokenLimit outputTokens : Nat) : Nat :=
  max (ragContextTokenLimit contextTokenLimit - outputTokens - 256) 512

def citationAnswerContext (citation : KnowledgeSearchCitation) : String :=
  trim (if isBlank citation.answerContext then citation.preview.getD "" else citation.answerContext)

/-- The tokenizer, the printer of JSON values, the system prompt and the text that shows a
question with its evidence. -/
structure Writer (Understanding : Type) where
  llmTextTokenCount : String → Nat
  render : Value → String
  systemPrompt : String
  buildRagAnswerPrompt :
    String → List KnowledgeSearchCitation → Option Understanding → String

variable {Understanding : Type} (writer : Writer Understanding)

def Writer.truncate (text : String) (maxTokens : Nat) : String :=
  truncateLlmTextToTokens writer.llmTextTokenCount text maxTokens

def ragChatPromptTokenCount (prompt : String) : Nat :=
  writer.llmTextTokenCount writer.systemPrompt + writer.llmTextTokenCount prompt + 32

def conversationEntry (turn : RagConversationTurn) : String :=
  writer.render (obj
    [("user", .string (writer.truncate turn.user 96)),
     ("effective_query", .string (writer.truncate turn.effectiveQuery 96)),
     ("assistant", .string (writer.truncate turn.assistant 160)),
     ("evidence", .array ((turn.evidence.take 2).map fun item => obj
        [("path", .string (writer.truncate item.path 64)),
         ("title", .string (writer.truncate item.title 32)),
         ("modality", .string item.modality),
         ("context", .string (writer.truncate item.context 64))]))])

def selectEntries (tokenBudget : Nat) : List RagConversationTurn → List String → List String
  | [], selected => selected
  | turn :: earlier, selected =>
      let candidate := conversationEntry writer turn :: selected
      if tokenBudget < writer.llmTextTokenCount ("\n".intercalate candidate) then selected
      else selectEntries tokenBudget earlier candidate

def formatCompactRagConversationContext (turns : List RagConversationTurn) (tokenBudget : Nat) :
    String :=
  if turns = [] ∨ tokenBudget = 0 then ""
  else
    let selected := selectEntries writer tokenBudget turns.reverse []
    if selected = [] then ""
    else "<conversation_state>\n" ++ "\n".intercalate selected ++ "\n</conversation_state>\n" ++
      "Use this compact state only to resolve references. The current question is authoritative."

def compactCitation (perEvidenceTokens : Nat) (citation : KnowledgeSearchCitation) :
    KnowledgeSearchCitation :=
  { citation with
    answerContext := writer.truncate (citationAnswerContext citation) perEvidenceTokens
    preview := none }

variable (query : String) (citations : List KnowledgeSearchCitation)
  (understanding : Option Understanding)

def promptOf (perEvidenceTokens : Nat) (history : String) : String :=
  let answerPrompt := writer.buildRagAnswerPrompt query
    (citations.map (compactCitation writer perEvidenceTokens)) understanding
  if history = "" then answerPrompt else history ++ "\n\n" ++ answerPrompt

def budgetLoop (inputBudget perEvidenceTokens : Nat) (history : String) : String :=
  let prompt := promptOf writer query citations understanding perEvidenceTokens history
  if ragChatPromptTokenCount writer prompt ≤ inputBudget then prompt
  else if 64 < perEvidenceTokens then
    budgetLoop inputBudget (max (perEvidenceTokens * 4 / 5) 64) history
  else if history ≠ "" then budgetLoop inputBudget perEvidenceTokens ""
  else prompt
termination_by perEvidenceTokens + if history = "" then 0 else 1
decreasing_by
  · omega
  · simp_all

def buildBudgetedRagAnswerPromptWithHistory (turns : List RagConversationTurn)
    (contextTokenLimit outputTokens : Nat) : String :=
  let inputBudget := ragPromptInputTokenBudget contextTokenLimit outputTokens
  budgetLoop writer query citations understanding inputBudget
    (max (min (inputBudget / max citations.length 1 - 96) 1200) 48)
    (formatCompactRagConversationContext writer turns (min 640 (inputBudget / 5)))

end Model

section Budget

variable {Understanding : Type} {writer : Writer Understanding} {query : String}
  {citations : List KnowledgeSearchCitation} {understanding : Option Understanding}

/-- The prompt without history, with evidence cut to at most 64 tokens. -/
def Minimal (writer : Writer Understanding) (query : String)
    (citations : List KnowledgeSearchCitation) (understanding : Option Understanding)
    (prompt : String) : Prop :=
  ∃ limit ≤ 64,
    prompt = writer.buildRagAnswerPrompt query (citations.map (compactCitation writer limit))
      understanding ∧
    ∀ citation ∈ citations, (compactCitation writer limit citation).answerContext = "" ∨
      writer.llmTextTokenCount (compactCitation writer limit citation).answerContext ≤ limit

theorem budgetLoop_spec (inputBudget perEvidenceTokens : Nat) (history : String) :
    ragChatPromptTokenCount writer
        (budgetLoop writer query citations understanding inputBudget perEvidenceTokens history) ≤
          inputBudget ∨
      Minimal writer query citations understanding
        (budgetLoop writer query citations understanding inputBudget perEvidenceTokens history) := by
  fun_induction budgetLoop writer query citations understanding inputBudget perEvidenceTokens
    history with
  | case1 perEvidenceTokens history prompt hfits => exact Or.inl hfits
  | case2 perEvidenceTokens history prompt hlong hshorten ih => exact ih
  | case3 perEvidenceTokens history prompt hlong hshort hhistory ih => exact ih
  | case4 perEvidenceTokens history prompt hlong hshort hhistory =>
      refine Or.inr ⟨perEvidenceTokens, not_lt.mp hshort, if_pos (not_not.mp hhistory), ?_⟩
      exact fun citation _ => truncateLlmTextToTokens_fits _

/-- Whatever the tokenizer is, the prompt fits or nothing was left to shorten. -/
theorem budgeted_or_minimal (writer : Writer Understanding) (query : String)
    (turns : List RagConversationTurn) (citations : List KnowledgeSearchCitation)
    (understanding : Option Understanding) (contextTokenLimit outputTokens : Nat) :
    let prompt := buildBudgetedRagAnswerPromptWithHistory writer query citations understanding
      turns contextTokenLimit outputTokens
    ragChatPromptTokenCount writer prompt ≤
        ragPromptInputTokenBudget contextTokenLimit outputTokens ∨
      Minimal writer query citations understanding prompt :=
  budgetLoop_spec _ _ _

end Budget

end HarborBeacon.RagPromptBudget
