import HarborBeacon.DecimalText
import HarborBeacon.PrivacyGateway

/-!
The citation markers of an answer. An answer whose markers do not pass the check is replaced by one
made of the previews of the citations. The check reads the numerals of the markers into a machine
word and passes over those that do not fit, so an answer with such a marker can pass.
-/

namespace HarborBeacon.AnswerCitations

open DecimalText Json Json.Value PrivacyGateway Text Words

def truncateChars (maxChars : Nat) (text : String) : String :=
  if text.toList.length ≤ maxChars then text
  else String.ofList (text.toList.take maxChars ++ ['…'])

def cleanedCitationPreview (citation : KnowledgeSearchCitation) : String :=
  let preview := joinTexts " " (splitWhitespace (citation.preview.getD ""))
  if isBlank preview then "" else truncateChars 220 preview

def previewLine (index : Nat) (preview : String) : String :=
  toString (index + 1) ++ ". " ++ preview ++ " [" ++ toString (index + 1) ++ "]"

def limitedAnswerHead : String :=
  "基于当前检索到的引用，只能给出有限回答。[1]"

def limitedAnswerNote : String :=
  "已找到匹配来源，但这些来源缺少可直接引用的文本片段；需要刷新索引或换一个更具体的问题。[1]"

def buildLimitedRagAnswer (citations : List KnowledgeSearchCitation) : String :=
  let added := (citations.take 3).zipIdx.filterMap fun (citation, index) =>
    let preview := cleanedCitationPreview citation
    if preview = "" then none else some (previewLine index preview)
  joinTexts "\n" (limitedAnswerHead :: (added ++ if added = [] then [limitedAnswerNote] else []))

/-- `split_once(']')`, the first of the two parts. -/
def beforeBracket (suffix : List Char) : Option (List Char) :=
  if ']' ∈ suffix then some (suffix.takeWhile (· ≠ ']')) else none

/-- `parse::<usize>` of decimal digits. -/
def parseUsize (digits : List Char) : Option Nat :=
  if value digits < 2 ^ 64 then some (value digits) else none

def readIndex (suffix : List Char) : Option Nat := do
  let candidate ← beforeBracket suffix
  let candidate := trimChars candidate
  if !candidate.isEmpty && candidate.all Char.isDigit then parseUsize candidate else none

/-- The set of the indices, without its order. -/
def ragAnswerReferencedIndices (answer : String) : List Nat :=
  let answer := replaceChar '】' ']' (replaceChar '【' '[' answer)
  ((answer.toList.splitOn '[').tail.filterMap readIndex).dedup

def ragAnswerHasCitationMarker (answer : String) (citationCount : Nat) : Bool :=
  (List.range citationCount).any fun index =>
    containsText answer ("[" ++ toString (index + 1) ++ "]") ||
      containsText answer ("【" ++ toString (index + 1) ++ "】")

def validateRagAnswerCitations (answer : String) (citationCount : Nat) :
    Except String (List Nat) :=
  if isBlank answer then .error "empty_answer"
  else
    let citedIndices := ragAnswerReferencedIndices answer
    if citedIndices = [] then .error "missing_citation"
    else if citedIndices.any fun index => index = 0 || citationCount < index then
      .error "citation_out_of_range"
    else if (lines answer).any fun line =>
        !isBlank line && !ragAnswerHasCitationMarker (trim line) citationCount then
      .error "uncited_content_line"
    else .ok citedIndices

structure RagCitationFinalization where
  answer : String
  citedIndices : Option (List Nat)
  answerReview : Value
  degradedReason : Option String
  warning : Option String

def encodeIndices (indices : List Nat) : Value :=
  array (indices.map fun index => number (.unsigned (UInt64.ofNat index)))

def unsummarizedAnswer : String :=
  "已找到匹配来源，但暂时无法生成完整的证据摘要。[1]"

def finalizeRagAnswerCitations (answer generationStatus : String)
    (citations : List KnowledgeSearchCitation) : RagCitationFinalization :=
  match validateRagAnswerCitations answer citations.length with
  | .ok citedIndices =>
      { answer
        citedIndices := some citedIndices
        answerReview := obj
          [("mode", string "deterministic_citation_validation"),
           ("status", string "passed"),
           ("generation_status", string generationStatus),
           ("used_citation_ids", encodeIndices citedIndices)]
        degradedReason := none
        warning := none }
  | .error validationReason =>
      let fallbackCandidate := buildLimitedRagAnswer citations
      let (fallbackAnswer, fallbackIndices, fallbackValidationReason) :=
        match validateRagAnswerCitations fallbackCandidate citations.length with
        | .ok indices => (fallbackCandidate, indices, none)
        | .error reason => (unsummarizedAnswer, [1], some reason)
      let warningSubject := if generationStatus = "generated_once" then "模型回答" else "回答"
      { answer := fallbackAnswer
        citedIndices := some fallbackIndices
        answerReview := obj
          [("mode", string "deterministic_citation_validation"),
           ("status", string "fallback"),
           ("generation_status", string "citation_validation_fallback"),
           ("reason", string "citation_validation_failed"),
           ("validation_reason", string validationReason),
           ("fallback_validation_reason", ofOption fallbackValidationReason),
           ("source_generation_status", string generationStatus),
           ("used_citation_ids", encodeIndices fallbackIndices)]
        degradedReason := some "citation_validation_failed"
        warning := some (warningSubject ++ "的引用校验未通过（" ++ validationReason ++
          "），已舍弃不合规文本并返回确定性证据摘要。") }

/-- A number in brackets, in ASCII or full-width ones. -/
def Marked (chars digits : List Char) : Prop :=
  digits ≠ [] ∧ (∀ c ∈ digits, c.isDigit = true) ∧
    ('[' :: (digits ++ [']']) <:+: chars ∨ '【' :: (digits ++ ['】']) <:+: chars)

/-- An answer is not blank, its lines that are not blank carry markers, and its markers denote
citations. -/
structure CitationsValid (answer : String) (citationCount : Nat) : Prop where
  notBlank : isBlank answer = false
  cited : ∀ line ∈ lines answer, isBlank line = false → ∃ digits, Marked line.toList digits
  inRange : ∀ digits, Marked answer.toList digits → 1 ≤ value digits ∧ value digits ≤ citationCount

/-- The markers hold numbers that fit into a machine word. -/
def FitsWord (text : String) : Prop :=
  ∀ digits, Marked text.toList digits → value digits < 2 ^ 64

/-- Whichever text passes the check has only markers that fit into a machine word: the answer, or
the previews in the limited answer. -/
def MarkersReadable (answer : String) (citations : List KnowledgeSearchCitation) : Prop :=
  if (validateRagAnswerCitations answer citations.length).isOk then FitsWord answer
  else (validateRagAnswerCitations (buildLimitedRagAnswer citations) citations.length).isOk →
    ∀ citation ∈ citations.take 3, FitsWord (cleanedCitationPreview citation)

section Occurrences

variable {chars before after digits number : List Char} {c sep : Char} {text : String}

theorem isDigit_ne (h : c.isDigit = true) {other : Char} (hother : other.isDigit = false) :
    c ≠ other := by
  rintro rfl
  exact Bool.false_ne_true (hother.symm.trans h)

theorem not_mem_digits (h : ∀ c ∈ digits, c.isDigit = true) (hsep : sep.isDigit = false) :
    sep ∉ digits := by
  intro hmem
  exact isDigit_ne (h sep hmem) hsep rfl

theorem not_marked_of_not_mem (hopen : '[' ∉ chars) (hwide : '【' ∉ chars) :
    ¬ Marked chars digits := by
  rintro ⟨-, -, hinside | hinside⟩
  · exact hopen (hinside.subset List.mem_cons_self)
  · exact hwide (hinside.subset List.mem_cons_self)

def isBracket (c : Char) : Bool :=
  ['[', ']', '【', '】'].contains c

theorem not_mem_marker {first last : Char} (h : ∀ c ∈ digits, c.isDigit = true)
    (hdigit : sep.isDigit = false) (hsep : isBracket sep = false) (hfirst : isBracket first = true)
    (hlast : isBracket last = true) : sep ∉ first :: (digits ++ [last]) := by
  intro hmem
  rcases List.mem_cons.mp hmem with rfl | hmem
  · exact Bool.false_ne_true (hsep.symm.trans hfirst)
  rcases List.mem_append.mp hmem with hmem | hmem
  · exact not_mem_digits h hdigit hmem
  · rw [List.mem_singleton.mp hmem] at hsep
    exact Bool.false_ne_true (hsep.symm.trans hlast)

theorem marked_append_sep (hdigit : sep.isDigit = false) (hsep : isBracket sep = false) :
    Marked (before ++ sep :: after) digits ↔ Marked before digits ∨ Marked after digits := by
  by_cases hdigits : ∀ c ∈ digits, c.isDigit = true
  · have hplain : sep ∉ '[' :: (digits ++ [']']) :=
      not_mem_marker hdigits hdigit hsep (by decide) (by decide)
    have hwide : sep ∉ '【' :: (digits ++ ['】']) :=
      not_mem_marker hdigits hdigit hsep (by decide) (by decide)
    rw [Marked, Marked, Marked, infix_append_sep_iff (List.cons_ne_nil _ _) hplain,
      infix_append_sep_iff (List.cons_ne_nil _ _) hwide]
    tauto
  · refine iff_of_false (fun h => hdigits h.2.1) ?_
    rintro (h | h) <;> exact hdigits h.2.1

theorem marked_intercalate_iff {parts : List (List Char)} (hdigit : sep.isDigit = false)
    (hsep : isBracket sep = false) :
    Marked ([sep].intercalate parts) digits ↔ ∃ part ∈ parts, Marked part digits := by
  by_cases hdigits : ∀ c ∈ digits, c.isDigit = true
  · have hplain : sep ∉ '[' :: (digits ++ [']']) :=
      not_mem_marker hdigits hdigit hsep (by decide) (by decide)
    have hwide : sep ∉ '【' :: (digits ++ ['】']) :=
      not_mem_marker hdigits hdigit hsep (by decide) (by decide)
    simp only [Marked, infix_intercalate_iff (List.cons_ne_nil _ _) hplain,
      infix_intercalate_iff (List.cons_ne_nil _ _) hwide]
    constructor
    · rintro ⟨hne, -, ⟨part, hpart, hmarked⟩ | ⟨part, hpart, hmarked⟩⟩
      · exact ⟨part, hpart, hne, hdigits, Or.inl hmarked⟩
      · exact ⟨part, hpart, hne, hdigits, Or.inr hmarked⟩
    · rintro ⟨part, hpart, hne, -, hmarked | hmarked⟩
      · exact ⟨hne, hdigits, Or.inl ⟨part, hpart, hmarked⟩⟩
      · exact ⟨hne, hdigits, Or.inr ⟨part, hpart, hmarked⟩⟩
  · refine iff_of_false (fun h => hdigits h.2.1) ?_
    rintro ⟨part, -, h⟩
    exact hdigits h.2.1

theorem marked_marker (hnumber : ∀ c ∈ number, c.isDigit = true)
    (h : Marked ('[' :: (number ++ [']'])) digits) : digits = number := by
  obtain ⟨-, hdigits, hinside | hinside⟩ := h
  · rw [List.infix_cons_iff, List.cons_prefix_cons] at hinside
    rcases hinside with ⟨-, tail, hprefix⟩ | hlater
    · -- both numbers end where the first closing bracket stands
      have hends : ∀ chars : List Char, (∀ c ∈ chars, c.isDigit = true) → ∀ rest,
          (chars ++ ']' :: rest).takeWhile Char.isDigit = chars := by
        intro chars hchars rest
        rw [List.takeWhile_append_of_pos hchars, List.takeWhile_cons_of_neg (by decide),
          List.append_nil]
      rw [List.append_assoc, List.singleton_append] at hprefix
      rw [← hends digits hdigits tail, hprefix, hends number hnumber []]
    · have hmem : '[' ∈ number ++ [']'] := hlater.subset List.mem_cons_self
      rcases List.mem_append.mp hmem with hmem | hmem
      · exact absurd hmem (not_mem_digits hnumber (by decide))
      · exact absurd (List.mem_singleton.mp hmem) (by decide)
  · have hmem : '【' ∈ '[' :: (number ++ [']']) := hinside.subset List.mem_cons_self
    rcases List.mem_cons.mp hmem with hmem | hmem
    · exact absurd hmem (by decide)
    rcases List.mem_append.mp hmem with hmem | hmem
    · exact absurd hmem (not_mem_digits hnumber (by decide))
    · exact absurd (List.mem_singleton.mp hmem) (by decide)

theorem not_isWhitespace_of_isDigit (h : c.isDigit = true) : isWhitespace c = false := by
  have hrange : 48 ≤ c.toNat ∧ c.toNat ≤ 57 := by
    rw [Char.isDigit, Bool.and_eq_true, decide_eq_true_eq, decide_eq_true_eq] at h
    exact h
  by_contra hspace
  rw [Bool.not_eq_false] at hspace
  simp only [isWhitespace, Bool.or_eq_true, Bool.and_eq_true, decide_eq_true_eq, beq_iff_eq]
    at hspace
  omega

theorem trimChars_digits (h : ∀ c ∈ digits, c.isDigit = true) : trimChars digits = digits := by
  have htrim : trim (String.ofList digits) = String.ofList digits := by
    refine trim_eq_self ?_
    rw [String.toList_ofList]
    exact fun c hc => not_isWhitespace_of_isDigit (h c hc)
  rw [trim, String.toList_ofList, String.ofList_inj] at htrim
  exact htrim

theorem map_digits {old new : Char} (h : ∀ c ∈ digits, c.isDigit = true)
    (hold : old.isDigit = false) : digits.map (fun c => if c = old then new else c) = digits := by
  have hkept : ∀ c ∈ digits, (if c = old then new else c) = c := fun c hc =>
    if_neg (isDigit_ne (h c hc) hold)
  rw [List.map_congr_left hkept, List.map_id']

theorem marker_infix_replaced (h : Marked text.toList digits) : '[' :: (digits ++ [']']) <:+:
    (replaceChar '】' ']' (replaceChar '【' '[' text)).toList := by
  obtain ⟨-, hdigits, hinside⟩ := h
  have hopen := @map_digits digits '【' '[' hdigits (by decide)
  have hclose := @map_digits digits '】' ']' hdigits (by decide)
  rw [replaceChar, replaceChar, String.toList_ofList, String.toList_ofList]
  rcases hinside with hinside | hinside
  · have hmapped := (hinside.map fun c => if c = '【' then '[' else c).map
      fun c => if c = '】' then ']' else c
    rw [List.map_cons, List.map_append, hopen, List.map_cons, List.map_append, hclose] at hmapped
    exact hmapped
  · have hmapped := (hinside.map fun c => if c = '【' then '[' else c).map
      fun c => if c = '】' then ']' else c
    rw [List.map_cons, List.map_append, hopen, List.map_cons, List.map_append, hclose] at hmapped
    exact hmapped

theorem exists_first_piece (h : sep ∉ before) :
    ∃ rest others, (before ++ after).splitOn sep = (before ++ rest) :: others := by
  induction before with
  | nil => exact List.exists_cons_of_ne_nil (List.splitOn_ne_nil sep after)
  | cons c before ih =>
      obtain ⟨hc, hbefore⟩ := List.ne_and_not_mem_of_not_mem_cons h
      obtain ⟨rest, others, hsplit⟩ := ih hbefore
      refine ⟨rest, others, ?_⟩
      rw [List.cons_append, List.splitOn_cons_eq_if_modifyHead, if_neg, hsplit]
      · rfl
      · rw [beq_iff_eq]
        exact hc.symm

theorem value_mem_referenced (h : Marked text.toList digits) (hfits : value digits < 2 ^ 64) :
    value digits ∈ ragAnswerReferencedIndices text := by
  obtain ⟨front, rest, hparts⟩ := marker_infix_replaced h
  obtain ⟨hne, hdigits, -⟩ := h
  have hopen : '[' ∉ digits ++ [']'] := by
    rw [List.mem_append, not_or]
    exact ⟨not_mem_digits hdigits (by decide), by decide⟩
  have hclose : ∀ c ∈ digits, decide (c ≠ ']') = true := by
    intro c hc
    exact decide_eq_true (isDigit_ne (hdigits c hc) (by decide))
  obtain ⟨tail, others, hpiece⟩ := @exists_first_piece (digits ++ [']']) rest '[' hopen
  rw [ragAnswerReferencedIndices, List.mem_dedup, List.mem_filterMap, ← hparts, List.append_assoc,
    List.cons_append, List.splitOn_append_cons_self, hpiece,
    List.tail_append_of_ne_nil (List.splitOn_ne_nil _ _)]
  refine ⟨_, List.mem_append_right _ List.mem_cons_self, ?_⟩
  have hread : beforeBracket (digits ++ [']'] ++ tail) = some digits := by
    rw [beforeBracket, if_pos (by simp), List.append_assoc, List.takeWhile_append_of_pos hclose,
      List.singleton_append, List.takeWhile_cons_of_neg (by simp), List.append_nil]
  have hnumeral : (!digits.isEmpty && digits.all Char.isDigit) = true := by
    rw [Bool.and_eq_true, Bool.not_eq_true', List.isEmpty_eq_false_iff, List.all_eq_true]
    exact ⟨hne, hdigits⟩
  simp only [readIndex, hread, Option.bind_eq_bind, Option.bind_some, trimChars_digits hdigits,
    hnumeral, if_true, parseUsize, if_pos hfits]

end Occurrences

section Validation

variable {answer : String} {citationCount : Nat} {indices : List Nat}
  {citations : List KnowledgeSearchCitation} {digits : List Char}

theorem errorIf_eq_ok_iff {α : Type} {c : Prop} [Decidable c] {reason : String}
    {next : Except String α} {a : α} :
    (if c then .error reason else next) = .ok a ↔ ¬ c ∧ next = .ok a := by
  by_cases h : c
  · rw [if_pos h]
    exact iff_of_false nofun fun hnot => hnot.1 h
  · rw [if_neg h]
    exact (and_iff_right h).symm

theorem validate_eq_ok (h : validateRagAnswerCitations answer citationCount = .ok indices) :
    isBlank answer = false ∧ indices = ragAnswerReferencedIndices answer ∧
      (∀ index ∈ indices, 1 ≤ index ∧ index ≤ citationCount) ∧
      ∀ line ∈ lines answer, isBlank line = false →
        ragAnswerHasCitationMarker (trim line) citationCount = true := by
  rw [validateRagAnswerCitations, errorIf_eq_ok_iff, errorIf_eq_ok_iff, errorIf_eq_ok_iff,
    errorIf_eq_ok_iff] at h
  obtain ⟨hblank, -, hrange, hline, hindices⟩ := h
  obtain rfl := Except.ok.inj hindices
  refine ⟨by simpa using hblank, rfl, ?_, ?_⟩
  · intro index hindex
    have hin : ¬ (decide (index = 0) || decide (citationCount < index)) = true :=
      fun hbad => hrange (List.any_eq_true.mpr ⟨index, hindex, hbad⟩)
    rw [Bool.or_eq_true, decide_eq_true_eq, decide_eq_true_eq, not_or] at hin
    omega
  · intro line hmem hcontent
    by_contra hmissing
    refine hline (List.any_eq_true.mpr ⟨line, hmem, ?_⟩)
    rw [hcontent, Bool.not_false, Bool.true_and, Bool.not_eq_true']
    exact Bool.eq_false_iff.mpr hmissing

theorem isDigit_of_mem_numeral {n : Nat} {c : Char} (h : c ∈ (toString n).toList) :
    c.isDigit = true := by
  rw [Nat.toString_eq_repr, Nat.toList_repr] at h
  exact Nat.isDigit_of_mem_toDigits (by decide) (by decide) h

theorem numeral_ne_nil (n : Nat) : (toString n).toList ≠ [] := by
  rw [Nat.toString_eq_repr, Nat.toList_repr]
  exact Nat.toDigits_ne_nil

theorem marked_of_citationMarker {line : String}
    (h : ragAnswerHasCitationMarker line citationCount = true) :
    ∃ digits, Marked line.toList digits := by
  rw [ragAnswerHasCitationMarker, List.any_eq_true] at h
  obtain ⟨index, -, hcontains⟩ := h
  rw [Bool.or_eq_true, containsText, containsText, decide_eq_true_eq, decide_eq_true_eq,
    String.toList_append, String.toList_append, String.toList_append, String.toList_append]
    at hcontains
  refine ⟨(toString (index + 1)).toList, numeral_ne_nil _, fun c => isDigit_of_mem_numeral, ?_⟩
  rcases hcontains with hplain | hwide
  · left
    rwa [List.append_assoc] at hplain
  · right
    rwa [List.append_assoc] at hwide

theorem infix_trim (line : String) : (trim line).toList <:+: line.toList := by
  rw [trim, String.toList_ofList]
  exact (List.rdropWhile_prefix _ _).isInfix.trans (List.dropWhile_suffix _).isInfix

theorem valid_of_validate (h : validateRagAnswerCitations answer citationCount = .ok indices)
    (hfits : FitsWord answer) : CitationsValid answer citationCount := by
  obtain ⟨hblank, hindices, hrange, hlines⟩ := validate_eq_ok h
  rw [hindices] at hrange
  refine ⟨hblank, ?_, ?_⟩
  · intro line hmem hcontent
    obtain ⟨digits, hne, hdigits, hmarked⟩ := marked_of_citationMarker (hlines line hmem hcontent)
    refine ⟨digits, hne, hdigits, ?_⟩
    exact hmarked.imp (fun hplain => hplain.trans (infix_trim line))
      fun hwide => hwide.trans (infix_trim line)
  · intro digits hmarked
    exact hrange _ (value_mem_referenced hmarked (hfits digits hmarked))

theorem fitsWord_of_valid (hcount : citationCount < 2 ^ 64)
    (h : CitationsValid answer citationCount) : FitsWord answer := by
  intro digits hmarked
  exact lt_of_le_of_lt (h.inRange digits hmarked).2 hcount

end Validation

section Limited

variable {citations : List KnowledgeSearchCitation} {digits : List Char}

def EndsWithFirst (text : String) : Prop :=
  ∃ front last, text.toList = front ++ last :: ['[', '1', ']'] ∧ '[' ∉ front ∧ '【' ∉ front ∧
    last.isDigit = false ∧ isBracket last = false

theorem digits_of_endsWithFirst {text : String} (h : EndsWithFirst text)
    (hmarked : Marked text.toList digits) : digits = ['1'] := by
  obtain ⟨front, last, htext, hopen, hwide, hdigit, hlast⟩ := h
  rw [htext, marked_append_sep hdigit hlast] at hmarked
  rcases hmarked with hfront | hmarker
  · exact absurd hfront (not_marked_of_not_mem hopen hwide)
  · exact marked_marker (List.forall_mem_singleton.mpr (by decide)) hmarker

theorem endsWithFirst_head : EndsWithFirst limitedAnswerHead :=
  ⟨limitedAnswerHead.toList.dropLast.dropLast.dropLast.dropLast, '。', by decide, by decide,
    by decide, by decide, by decide⟩

set_option maxRecDepth 2000 in
theorem endsWithFirst_note : EndsWithFirst limitedAnswerNote :=
  ⟨limitedAnswerNote.toList.dropLast.dropLast.dropLast.dropLast, '。', by decide, by decide,
    by decide, by decide, by decide⟩

theorem endsWithFirst_unsummarized : EndsWithFirst unsummarizedAnswer :=
  ⟨unsummarizedAnswer.toList.dropLast.dropLast.dropLast.dropLast, '。', by decide, by decide,
    by decide, by decide, by decide⟩

theorem marked_numeral (index : Nat) :
    Marked ('[' :: ((toString index).toList ++ [']'])) (toString index).toList :=
  ⟨numeral_ne_nil index, fun _ => isDigit_of_mem_numeral, Or.inl List.infix_rfl⟩

theorem marked_previewLine_iff {index : Nat} {preview : String} :
    Marked (previewLine index preview).toList digits ↔
      Marked preview.toList digits ∨ digits = (toString (index + 1)).toList := by
  have hline : (previewLine index preview).toList =
      ((toString (index + 1)).toList ++ ['.']) ++ ' ' ::
        (preview.toList ++ ' ' :: '[' :: ((toString (index + 1)).toList ++ [']'])) := by
    simp [previewLine]
  have hnumber : ¬ Marked ((toString (index + 1)).toList ++ ['.']) digits := by
    have hmem : ∀ c ∈ (toString (index + 1)).toList ++ ['.'], c ≠ '[' ∧ c ≠ '【' := by
      intro c hc
      rcases List.mem_append.mp hc with hc | hc
      · have hdigit := isDigit_of_mem_numeral hc
        exact ⟨isDigit_ne hdigit (by decide), isDigit_ne hdigit (by decide)⟩
      · rw [List.mem_singleton.mp hc]
        decide
    exact not_marked_of_not_mem (fun h => (hmem _ h).1 rfl) fun h => (hmem _ h).2 rfl
  rw [hline, marked_append_sep (by decide) (by decide), or_iff_right hnumber,
    marked_append_sep (by decide) (by decide)]
  refine or_congr_right ⟨?_, ?_⟩
  · exact marked_marker fun c => isDigit_of_mem_numeral
  · rintro rfl
    exact marked_numeral _

theorem value_numeral (n : Nat) : value (toString n).toList = n := by
  rw [Nat.toString_eq_repr, Nat.toList_repr]
  exact Nat.ofDigitChars_ten_toDigits

/-- The limited answer adds only small numbers to the markers of its previews. -/
theorem fitsWord_limited_iff : FitsWord (buildLimitedRagAnswer citations) ↔
    ∀ citation ∈ citations.take 3, FitsWord (cleanedCitationPreview citation) := by
  have hjoined : ∀ parts digits, Marked (joinTexts "\n" parts).toList digits ↔
      ∃ part ∈ parts, Marked part.toList digits := by
    intro parts digits
    have hbreak : "\n".toList = ['\n'] := rfl
    rw [joinTexts, String.toList_ofList, hbreak, marked_intercalate_iff (by decide) (by decide)]
    simp only [List.mem_map, exists_exists_and_eq_and]
  have hone : value ['1'] < 2 ^ 64 := by decide
  rw [buildLimitedRagAnswer]
  simp only [FitsWord, hjoined]
  constructor
  · intro hfits citation hcitation digits hmarked
    obtain ⟨index, hindex⟩ := List.mem_iff_getElem?.mp hcitation
    have hne : cleanedCitationPreview citation ≠ "" := by
      intro hempty
      rw [hempty] at hmarked
      exact not_marked_of_not_mem List.not_mem_nil List.not_mem_nil hmarked
    refine hfits digits ⟨previewLine index (cleanedCitationPreview citation),
      List.mem_cons_of_mem _ (List.mem_append_left _ ?_),
      marked_previewLine_iff.mpr (Or.inl hmarked)⟩
    exact List.mem_filterMap.mpr
      ⟨(citation, index), List.mk_mem_zipIdx_iff_getElem?.mpr hindex, if_neg hne⟩
  · rintro hpreviews digits ⟨part, hpart, hmarked⟩
    rcases List.mem_cons.mp hpart with rfl | hpart
    · rw [digits_of_endsWithFirst endsWithFirst_head hmarked]
      exact hone
    rcases List.mem_append.mp hpart with hadded | hnote
    · obtain ⟨⟨citation, index⟩, hmem, hline⟩ := List.mem_filterMap.mp hadded
      by_cases hempty : cleanedCitationPreview citation = ""
      · rw [if_pos hempty] at hline
        cases hline
      rw [if_neg hempty] at hline
      rw [← Option.some.inj hline, marked_previewLine_iff] at hmarked
      rcases hmarked with hpreview | rfl
      · exact hpreviews citation (List.fst_mem_of_mem_zipIdx hmem) digits hpreview
      · have hindex : index < 3 := (List.snd_lt_of_mem_zipIdx hmem).trans_le
          (List.length_take_le 3 citations)
        rw [value_numeral]
        omega
    · split at hnote
      · rw [List.mem_singleton.mp hnote] at hmarked
        rw [digits_of_endsWithFirst endsWithFirst_note hmarked]
        exact hone
      · cases hnote

theorem unsummarizedAnswer_valid (hne : citations ≠ []) :
    CitationsValid unsummarizedAnswer citations.length := by
  have hmarker : Marked unsummarizedAnswer.toList ['1'] :=
    ⟨List.cons_ne_nil _ _, forall_mem_of_all (by decide),
      Or.inl ⟨unsummarizedAnswer.toList.dropLast.dropLast.dropLast, [], by decide⟩⟩
  have hlines : lines unsummarizedAnswer = [unsummarizedAnswer] := by decide
  refine ⟨by decide, ?_, ?_⟩
  · intro line hline _
    rw [hlines] at hline
    exact ⟨['1'], List.mem_singleton.mp hline ▸ hmarker⟩
  · intro digits hmarked
    rw [digits_of_endsWithFirst endsWithFirst_unsummarized hmarked]
    exact ⟨by decide, List.length_pos_of_ne_nil hne⟩

end Limited

section Main

variable {answer generationStatus : String} {citations : List KnowledgeSearchCitation}

theorem finalized_of_passed {indices : List Nat}
    (h : validateRagAnswerCitations answer citations.length = .ok indices) :
    (finalizeRagAnswerCitations answer generationStatus citations).answer = answer := by
  rw [finalizeRagAnswerCitations, h]

theorem finalized_of_limited {reason : String} {indices : List Nat}
    (h : validateRagAnswerCitations answer citations.length = .error reason)
    (hlimited : validateRagAnswerCitations (buildLimitedRagAnswer citations) citations.length =
      .ok indices) :
    (finalizeRagAnswerCitations answer generationStatus citations).answer =
      buildLimitedRagAnswer citations := by
  rw [finalizeRagAnswerCitations, h]
  simp only [hlimited]

theorem finalized_of_unsummarized {reason reason' : String}
    (h : validateRagAnswerCitations answer citations.length = .error reason)
    (hlimited : validateRagAnswerCitations (buildLimitedRagAnswer citations) citations.length =
      .error reason') :
    (finalizeRagAnswerCitations answer generationStatus citations).answer = unsummarizedAnswer := by
  rw [finalizeRagAnswerCitations, h]
  simp only [hlimited]

/-- The finalized answer is valid exactly if the text that passes the check, the answer or the one
made of previews, has no marker whose number does not fit into a machine word. -/
theorem finalized_valid_iff (answer generationStatus : String)
    (citations : List KnowledgeSearchCitation) (hne : citations ≠ [])
    (hcount : citations.length < 2 ^ 64) :
    CitationsValid (finalizeRagAnswerCitations answer generationStatus citations).answer
      citations.length ↔ MarkersReadable answer citations := by
  rw [MarkersReadable]
  cases hanswer : validateRagAnswerCitations answer citations.length with
  | ok indices =>
      rw [finalized_of_passed hanswer]
      exact ⟨fitsWord_of_valid hcount, valid_of_validate hanswer⟩
  | error reason =>
      cases hlimited : validateRagAnswerCitations (buildLimitedRagAnswer citations)
          citations.length with
      | ok indices =>
          rw [finalized_of_limited hanswer hlimited, ← fitsWord_limited_iff]
          exact ⟨fun h _ => fitsWord_of_valid hcount h,
            fun h => valid_of_validate hlimited (h rfl)⟩
      | error reason' =>
          rw [finalized_of_unsummarized hanswer hlimited]
          exact iff_of_true (unsummarizedAnswer_valid hne) nofun

def springCitation : KnowledgeSearchCitation where
  title := "spring.md"
  path := "/knowledge/spring.md"
  modality := "document"
  chunkId := none
  lineStart := none
  lineEnd := none
  preview := none
  sourcePath := none

theorem finalized_valid_spring :
    CitationsValid (finalizeRagAnswerCitations "ok [1]" "generated_once" [springCitation]).answer
      [springCitation].length ↔ MarkersReadable "ok [1]" [springCitation] :=
  finalized_valid_iff "ok [1]" "generated_once" [springCitation] (List.cons_ne_nil _ _) (by decide)

/-- A number that does not fit into a machine word is passed over. -/
theorem long_marker_passes : ¬ ∀ (answer generationStatus : String)
    (citations : List KnowledgeSearchCitation), citations ≠ [] →
      CitationsValid (finalizeRagAnswerCitations answer generationStatus citations).answer
        citations.length := by
  intro hall
  have hvalid := hall "[1][18446744073709551616]" "generated_once" [springCitation]
    (List.cons_ne_nil _ _)
  have hpassed : validateRagAnswerCitations "[1][18446744073709551616]" [springCitation].length =
      .ok [1] := by decide
  rw [finalized_of_passed hpassed] at hvalid
  have hmarker : Marked "[1][18446744073709551616]".toList "18446744073709551616".toList :=
    ⟨List.cons_ne_nil _ _, forall_mem_of_all (by decide), Or.inl ⟨"[1]".toList, [], by decide⟩⟩
  exact absurd (hvalid.inRange _ hmarker).2 (by decide)

end Main

end HarborBeacon.AnswerCitations
