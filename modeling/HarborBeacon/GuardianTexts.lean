import HarborBeacon.HomeGuardian

/-!
The texts that the home guardian shows. Words with a secret, URLs and paths of this machine are
replaced by a placeholder; whether a word is replaced depends on the word alone.
-/

namespace HarborBeacon.GuardianTexts

open HomeGuardian Text Words

section Redaction

def redacted : String := "[redacted]"

def urlSchemes : List String := ["rtsp://", "http://", "https://"]

def secretMarkers : List String := ["token=", "password=", "secret="]

/-- A word is replaced by the placeholder. -/
def isRedacted (token : String) : Bool :=
  let lower := toAsciiLowercase token
  ((secretMarkers ++ ["authorization:", "bearer "]).any fun marker => containsText lower marker) ||
    (urlSchemes.any fun scheme => startsWithText lower scheme) || looksLikeLocalPath token

def shownWord (token : String) : String :=
  if isRedacted token then redacted else token

theorem redactHomeGuardianString_eq (value : String) :
    redactHomeGuardianString value = joinTexts " " ((splitWhitespace value).map shownWord) :=
  rfl

theorem isRedacted_redacted : isRedacted redacted = false := by
  decide

variable {token : String}

theorem shownWord_of_redacted (h : isRedacted token = true) :
    shownWord token = redacted := by
  rw [shownWord, if_pos h]

theorem shownWord_of_kept (h : isRedacted token = false) :
    shownWord token = token := by
  rw [shownWord, if_neg (by simp [h])]

theorem isRedacted_shownWord (token : String) : isRedacted (shownWord token) = false := by
  rcases h : isRedacted token with _ | _
  · rw [shownWord_of_kept h, h]
  · rw [shownWord_of_redacted h, isRedacted_redacted]

theorem shownWord_word {value token : String} (h : token ∈ splitWhitespace value) :
    (shownWord token).toList ≠ [] ∧ ∀ c ∈ (shownWord token).toList, isWhitespace c = false := by
  rcases hredacted : isRedacted token with _ | _
  · rw [shownWord_of_kept hredacted]
    obtain ⟨hne, -, hword⟩ := mem_splitWhitespace h
    exact ⟨hne, hword⟩
  · rw [shownWord_of_redacted hredacted]
    exact ⟨by decide, forall_mem_of_all (by decide)⟩

variable (value : String)

theorem toList_redactHomeGuardianString : (redactHomeGuardianString value).toList =
    [' '].intercalate ((splitWhitespace value).map fun token => (shownWord token).toList) := by
  simp [redactHomeGuardianString_eq, joinTexts, Function.comp_def]

theorem splitWhitespace_redactHomeGuardianString :
    splitWhitespace (redactHomeGuardianString value) = (splitWhitespace value).map shownWord := by
  rw [splitWhitespace, toList_redactHomeGuardianString, words_intercalate]
  · simp [Function.comp_def]
  · decide
  · intro part hpart
    obtain ⟨token, htoken, rfl⟩ := List.mem_map.mp hpart
    exact shownWord_word htoken

/-- What was redacted stays as it is. -/
theorem redactHomeGuardianString_again :
    redactHomeGuardianString (redactHomeGuardianString value) = redactHomeGuardianString value := by
  have hword : ∀ token, shownWord (shownWord token) = shownWord token := by
    intro token
    rw [shownWord_of_kept (isRedacted_shownWord token)]
  simp only [redactHomeGuardianString_eq (redactHomeGuardianString value),
    splitWhitespace_redactHomeGuardianString, List.map_map, Function.comp_def, hword]
  rfl

theorem containsText_lowercase_redactHomeGuardianString {pattern : String}
    (hne : pattern.toList ≠ []) (hspace : ' ' ∉ pattern.toList) :
    containsText (toAsciiLowercase (redactHomeGuardianString value)) pattern = true ↔
      ∃ token ∈ splitWhitespace value,
        containsText (toAsciiLowercase (shownWord token)) pattern = true := by
  have hlower : Char.toLower ' ' = ' ' := by decide
  simp only [containsText, decide_eq_true_eq, toAsciiLowercase, String.toList_ofList,
    toList_redactHomeGuardianString, map_intercalate, List.map_cons, List.map_nil, hlower,
    infix_intercalate_iff hne hspace, List.mem_map, exists_exists_and_eq_and]

end Redaction

section Statements

/-- What a text may show of another one: no URL and no secret marker anywhere, none of the words
after a word `Bearer`, and no word that is a path of this machine. -/
structure Clean (value output : String) : Prop where
  noUrl : ∀ scheme ∈ urlSchemes, containsText (toAsciiLowercase output) scheme = false
  noMarker : ∀ marker ∈ secretMarkers, containsText (toAsciiLowercase output) marker = false
  noCredential : ∀ before bearer credential after,
    splitWhitespace value = before ++ bearer :: credential :: after →
      toAsciiLowercase bearer = "bearer" → credential ≠ redacted →
        credential ∉ splitWhitespace output
  noPath : ∀ word ∈ splitWhitespace output, looksLikeLocalPath word = false

/-- A kept word has a URL at its start only. -/
def KeepsNoUrl (value : String) : Prop :=
  ∀ token ∈ splitWhitespace value, isRedacted token = false →
    ∀ scheme ∈ urlSchemes, containsText (toAsciiLowercase token) scheme = false

/-- A word after a word `Bearer` is replaced for a reason of its own, or is the placeholder. -/
def KeepsNoCredential (value : String) : Prop :=
  ∀ before bearer credential after,
    splitWhitespace value = before ++ bearer :: credential :: after →
      toAsciiLowercase bearer = "bearer" → isRedacted credential = true ∨ credential = redacted

variable {value : String}

theorem not_containsText_iff {pattern : String} (hne : pattern.toList ≠ [])
    (hspace : ' ' ∉ pattern.toList)
    (hplaceholder : containsText (toAsciiLowercase redacted) pattern = false) :
    containsText (toAsciiLowercase (redactHomeGuardianString value)) pattern = false ↔
      ∀ token ∈ splitWhitespace value, isRedacted token = false →
        containsText (toAsciiLowercase token) pattern = false := by
  rw [Bool.eq_false_iff, ne_eq, containsText_lowercase_redactHomeGuardianString value hne hspace]
  simp only [not_exists, not_and, Bool.not_eq_true]
  apply forall_congr'
  intro token
  apply imp_congr_right
  intro _
  rcases h : isRedacted token with _ | _
  · simp [shownWord_of_kept h]
  · simp [shownWord_of_redacted h, hplaceholder]

theorem noUrl_iff : (∀ scheme ∈ urlSchemes,
    containsText (toAsciiLowercase (redactHomeGuardianString value)) scheme = false) ↔
      KeepsNoUrl value := by
  have hscheme : ∀ scheme ∈ urlSchemes, scheme.toList ≠ [] ∧ ' ' ∉ scheme.toList ∧
      containsText (toAsciiLowercase redacted) scheme = false := by decide
  constructor
  · intro h token htoken hkept scheme hmem
    obtain ⟨hne, hspace, hplaceholder⟩ := hscheme scheme hmem
    exact (not_containsText_iff hne hspace hplaceholder).mp (h scheme hmem) token htoken hkept
  · intro h scheme hmem
    obtain ⟨hne, hspace, hplaceholder⟩ := hscheme scheme hmem
    rw [not_containsText_iff hne hspace hplaceholder]
    exact fun token htoken hkept => h token htoken hkept scheme hmem

theorem noMarker : ∀ marker ∈ secretMarkers,
    containsText (toAsciiLowercase (redactHomeGuardianString value)) marker = false := by
  intro marker hmem
  have hmarker : ∀ marker ∈ secretMarkers, marker.toList ≠ [] ∧ ' ' ∉ marker.toList ∧
      containsText (toAsciiLowercase redacted) marker = false := by decide
  obtain ⟨hne, hspace, hplaceholder⟩ := hmarker marker hmem
  rw [not_containsText_iff hne hspace hplaceholder]
  intro token _ hkept
  simp only [isRedacted, Bool.or_eq_false_iff, List.any_eq_false, List.mem_append] at hkept
  simpa using hkept.1.1 marker (Or.inl hmem)

theorem noPath : ∀ word ∈ splitWhitespace (redactHomeGuardianString value),
    looksLikeLocalPath word = false := by
  rw [splitWhitespace_redactHomeGuardianString]
  intro word hword
  obtain ⟨token, -, rfl⟩ := List.mem_map.mp hword
  have h := isRedacted_shownWord token
  rw [isRedacted, Bool.or_eq_false_iff] at h
  exact h.2

theorem mem_shownWords_iff {credential : String} (hmem : credential ∈ splitWhitespace value) :
    credential ∈ splitWhitespace (redactHomeGuardianString value) ↔
      isRedacted credential = false := by
  rw [splitWhitespace_redactHomeGuardianString, List.mem_map]
  constructor
  · rintro ⟨token, -, hshown⟩
    rw [← hshown]
    exact isRedacted_shownWord token
  · intro hkept
    exact ⟨credential, hmem, shownWord_of_kept hkept⟩

theorem noCredential_iff : (∀ before bearer credential after,
    splitWhitespace value = before ++ bearer :: credential :: after →
      toAsciiLowercase bearer = "bearer" → credential ≠ redacted →
        credential ∉ splitWhitespace (redactHomeGuardianString value)) ↔
      KeepsNoCredential value := by
  have hplace : ∀ before bearer credential after,
      splitWhitespace value = before ++ bearer :: credential :: after →
        (credential ∉ splitWhitespace (redactHomeGuardianString value) ↔
          isRedacted credential = true) := by
    intro before bearer credential after hsplit
    rw [mem_shownWords_iff (by simp [hsplit]), Bool.not_eq_false]
  constructor
  · intro h before bearer credential after hsplit hbearer
    rw [or_iff_not_imp_right, ← hplace before bearer credential after hsplit]
    exact h before bearer credential after hsplit hbearer
  · intro h before bearer credential after hsplit hbearer hne
    rw [hplace before bearer credential after hsplit]
    exact (h before bearer credential after hsplit hbearer).resolve_right hne

end Statements

/-- The result shows no secret if and only if no word that is kept has a URL behind its start, and
every word after a word `Bearer` is replaced for a reason of its own. -/
theorem redacted_clean_iff (value : String) :
    Clean value (redactHomeGuardianString value) ↔
      KeepsNoUrl value ∧ KeepsNoCredential value := by
  rw [← noUrl_iff, ← noCredential_iff]
  constructor
  · intro h
    exact ⟨h.noUrl, h.noCredential⟩
  · rintro ⟨hurl, hcredential⟩
    exact ⟨hurl, noMarker, hcredential, noPath⟩

/-- A URL in the middle of a word and the word after `Bearer` are shown. -/
theorem redacted_shows_secrets :
    ¬ Clean "see:http://cam.local" (redactHomeGuardianString "see:http://cam.local") ∧
      ¬ Clean "Bearer abc123" (redactHomeGuardianString "Bearer abc123") := by
  constructor
  · intro h
    exact absurd (h.noUrl "http://" (by decide)) (by decide +kernel)
  · intro h
    exact h.noCredential [] "Bearer" "abc123" [] (by decide +kernel) (by decide) (by decide)
      (by decide +kernel)

end HarborBeacon.GuardianTexts
