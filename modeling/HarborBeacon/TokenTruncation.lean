import HarborBeacon.Text

/-!
Texts cut to a number of tokens: a binary search over the prefixes, an ellipsis, and characters
taken off again while the counter is not satisfied. With the built-in counter none is taken off.
-/

namespace HarborBeacon.TokenTruncation

open Text

def countChar : Nat × Nat → Char → Nat × Nat
  | (count, asciiRun), ch =>
      if ch.isAlphanum then (count, asciiRun + 1)
      else
        let count := if 0 < asciiRun then count + (asciiRun + 2) / 3 else count
        (if isWhitespace ch then count else count + 1, 0)

def closedCount (counted : Nat × Nat) : Nat :=
  counted.1 + (counted.2 + 2) / 3

def conservativeTextTokenCount (text : String) : Nat :=
  closedCount (text.toList.foldl countChar (0, 0))

section Truncation

variable (llmTextTokenCount : String → Nat)

def searchPrefix (chars : List Char) (maxTokens low high : Nat) : Nat :=
  if low < high then
    let mid := (low + high + 1) / 2
    if llmTextTokenCount (String.ofList (chars.take mid)) ≤ maxTokens - 1 then
      searchPrefix chars maxTokens mid high
    else searchPrefix chars maxTokens low (mid - 1)
  else low
termination_by high - low

def popUntilFits (maxTokens : Nat) (truncated : List Char) : List Char :=
  if truncated ≠ [] ∧ maxTokens < llmTextTokenCount (String.ofList truncated) then
    popUntilFits maxTokens truncated.dropLast
  else truncated
termination_by truncated.length
decreasing_by
  rename_i h
  have hpos := List.length_pos_iff.mpr h.1
  rw [List.length_dropLast]
  omega

def truncateLlmTextToTokens (text : String) (maxTokens : Nat) : String :=
  if maxTokens = 0 then ""
  else if llmTextTokenCount text ≤ maxTokens then text
  else
    let chars := text.toList
    let low := searchPrefix llmTextTokenCount chars maxTokens 0 chars.length
    String.ofList (popUntilFits llmTextTokenCount maxTokens (chars.take low ++ ['…']))

variable {llmTextTokenCount} {maxTokens : Nat}

theorem truncateLlmTextToTokens_fits (text : String) :
    truncateLlmTextToTokens llmTextTokenCount text maxTokens = "" ∨
      llmTextTokenCount (truncateLlmTextToTokens llmTextTokenCount text maxTokens) ≤ maxTokens := by
  have hpop : ∀ chars, popUntilFits llmTextTokenCount maxTokens chars = [] ∨
      llmTextTokenCount (String.ofList (popUntilFits llmTextTokenCount maxTokens chars)) ≤
        maxTokens := by
    intro chars
    fun_induction popUntilFits llmTextTokenCount maxTokens chars with
    | case1 chars hlong ih => exact ih
    | case2 chars hfits =>
        rw [not_and_or, not_not, not_lt] at hfits
        exact hfits
  rw [truncateLlmTextToTokens]
  split_ifs with hzero hfits
  · exact Or.inl rfl
  · exact Or.inr hfits
  · apply (hpop _).imp_left
    intro hempty
    exact (congrArg String.ofList hempty).trans (by decide)

end Truncation

section Tightness

variable {chars longer : List Char} {maxTokens low high : Nat}

theorem closedCount_le_countChar (counted : Nat × Nat) (ch : Char) :
    closedCount counted ≤ closedCount (countChar counted ch) := by
  obtain ⟨count, asciiRun⟩ := counted
  simp only [countChar, closedCount]
  split_ifs <;> simp only <;> omega

theorem closedCount_le_foldl (chars : List Char) (counted : Nat × Nat) :
    closedCount counted ≤ closedCount (chars.foldl countChar counted) := by
  induction chars generalizing counted with
  | nil => exact le_refl _
  | cons ch rest ih => exact (closedCount_le_countChar counted ch).trans (ih _)

theorem conservativeTextTokenCount_mono (h : chars <+: longer) :
    conservativeTextTokenCount (String.ofList chars) ≤
      conservativeTextTokenCount (String.ofList longer) := by
  obtain ⟨rest, rfl⟩ := h
  rw [conservativeTextTokenCount, conservativeTextTokenCount, String.toList_ofList,
    String.toList_ofList, List.foldl_append]
  exact closedCount_le_foldl rest _

theorem conservativeTextTokenCount_ellipsis (chars : List Char) :
    conservativeTextTokenCount (String.ofList (chars ++ ['…'])) =
      conservativeTextTokenCount (String.ofList chars) + 1 := by
  have hchar : ('…').isAlphanum = false ∧ isWhitespace '…' = false := by decide
  rw [conservativeTextTokenCount, conservativeTextTokenCount, String.toList_ofList,
    String.toList_ofList, List.foldl_concat]
  generalize chars.foldl countChar (0, 0) = counted
  obtain ⟨count, asciiRun⟩ := counted
  simp only [countChar, closedCount, hchar, Bool.false_eq_true, if_false]
  split_ifs <;> omega

theorem searchPrefix_spec
    (hlow : conservativeTextTokenCount (String.ofList (chars.take low)) ≤ maxTokens - 1)
    (hle : low ≤ high)
    (hhigh : ∀ n, high < n →
      maxTokens - 1 < conservativeTextTokenCount (String.ofList (chars.take n))) :
    let found := searchPrefix conservativeTextTokenCount chars maxTokens low high
    conservativeTextTokenCount (String.ofList (chars.take found)) ≤ maxTokens - 1 ∧
      ∀ n, found < n →
        maxTokens - 1 < conservativeTextTokenCount (String.ofList (chars.take n)) := by
  fun_induction searchPrefix conservativeTextTokenCount chars maxTokens low high with
  | case1 low high hlt mid hfits ih => exact ih hfits (by omega) hhigh
  | case2 low high hlt mid hlong ih =>
      refine ih hlow (by omega) fun n hn => ?_
      have hmono := conservativeTextTokenCount_mono
        (List.take_prefix_take_left (l := chars) (show mid ≤ n by omega))
      omega
  | case3 low high hge =>
      refine ⟨hlow, fun n hn => hhigh n ?_⟩
      omega

/-- Blank texts aside for the limit zero, a text that fits stays as it is; from any other the
longest prefix is kept that leaves room for the ellipsis. -/
theorem truncateLlmTextToTokens_tight (text : String) (maxTokens : Nat) :
    let truncated := truncateLlmTextToTokens conservativeTextTokenCount text maxTokens
    conservativeTextTokenCount truncated ≤ maxTokens ∧
      (maxTokens = 0 → truncated = "") ∧
      (1 ≤ maxTokens → conservativeTextTokenCount text ≤ maxTokens → truncated = text) ∧
      (1 ≤ maxTokens → maxTokens < conservativeTextTokenCount text →
        ∃ kept, kept <+: text.toList ∧
          conservativeTextTokenCount (String.ofList kept) ≤ maxTokens - 1 ∧
          (∀ other, other <+: text.toList →
            conservativeTextTokenCount (String.ofList other) ≤ maxTokens - 1 →
              other.length ≤ kept.length) ∧
          truncated = String.ofList (kept ++ ['…'])) := by
  intro truncated
  have hzero : maxTokens = 0 → truncated = "" := fun h => if_pos h
  have hfits : 1 ≤ maxTokens → conservativeTextTokenCount text ≤ maxTokens → truncated = text :=
    fun hpos hle => (if_neg (by omega)).trans (if_pos hle)
  have hcut : 1 ≤ maxTokens → maxTokens < conservativeTextTokenCount text →
      ∃ kept, kept <+: text.toList ∧
        conservativeTextTokenCount (String.ofList kept) ≤ maxTokens - 1 ∧
        (∀ other, other <+: text.toList →
          conservativeTextTokenCount (String.ofList other) ≤ maxTokens - 1 →
            other.length ≤ kept.length) ∧
        truncated = String.ofList (kept ++ ['…']) := by
    intro hpos hlong
    have hempty : conservativeTextTokenCount (String.ofList (text.toList.take 0)) ≤ maxTokens - 1 := by
      rw [List.take_zero, show conservativeTextTokenCount (String.ofList []) = 0 by decide]
      exact Nat.zero_le _
    have hwhole : ∀ n, text.toList.length < n →
        maxTokens - 1 < conservativeTextTokenCount (String.ofList (text.toList.take n)) := by
      intro n hn
      rw [List.take_of_length_le hn.le, String.ofList_toList]
      omega
    obtain ⟨hkept, hlongest⟩ := searchPrefix_spec hempty (Nat.zero_le _) hwhole
    refine ⟨_, List.take_prefix _ _, hkept, fun other hother hcount => ?_, ?_⟩
    · by_contra hlonger
      rw [List.prefix_iff_eq_take.mp hother] at hcount
      refine absurd hcount (not_le.mpr (hlongest _ ?_))
      have hlength := hother.length_le
      rw [List.length_take] at hlonger
      omega
    · have hcount := conservativeTextTokenCount_ellipsis (text.toList.take
        (searchPrefix conservativeTextTokenCount text.toList maxTokens 0 text.toList.length))
      refine (if_neg (by omega)).trans ((if_neg (by omega)).trans (congrArg String.ofList ?_))
      rw [popUntilFits, if_neg]
      rintro ⟨-, hmore⟩
      omega
  refine ⟨?_, hzero, hfits, hcut⟩
  rcases Nat.eq_zero_or_pos maxTokens with h | hpos
  · rw [hzero h]
    exact Nat.zero_le _
  · rcases le_or_gt (conservativeTextTokenCount text) maxTokens with hle | hlt
    · rw [hfits hpos hle]
      exact hle
    · obtain ⟨kept, -, hkept, -, heq⟩ := hcut hpos hlt
      rw [heq, conservativeTextTokenCount_ellipsis]
      omega

/-- A blank text has no tokens, and yet it is not kept for the limit zero. -/
theorem blank_text_not_kept :
    ¬ ∀ (text : String) (maxTokens : Nat), conservativeTextTokenCount text ≤ maxTokens →
      truncateLlmTextToTokens conservativeTextTokenCount text maxTokens = text := by
  intro h
  have hblank := h " " 0 (by decide)
  revert hblank
  decide

end Tightness

end HarborBeacon.TokenTruncation
