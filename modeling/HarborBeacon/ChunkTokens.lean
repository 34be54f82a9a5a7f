import HarborBeacon.Chunking
import HarborBeacon.OverlapPacking
import Mathlib.Algebra.Order.BigOperators.Group.List

/-!
The estimate of tokens: white space ends a word and counts nothing, so the lines of a chunk count
what they count alone, and a line is cut into segments that fit and lose nothing.
-/

namespace HarborBeacon.ChunkTokens

open Chunking OverlapPacking Text

def estimate (chars : List Char) : Nat :=
  (chars.foldl TokenCount.push {}).flushAsciiRun.tokens

theorem estimatedTokenCount_eq (text : String) :
    estimatedTokenCount text = estimate text.toList := rfl

theorem tokens_flushAsciiRun (count : TokenCount) :
    count.flushAsciiRun.tokens = count.tokens + divCeil count.asciiRun 4 := by
  rw [TokenCount.flushAsciiRun]
  split
  · rfl
  · rename_i hrun
    have hzero : count.asciiRun = 0 := by omega
    rw [hzero]
    rfl

theorem asciiRun_flushAsciiRun (count : TokenCount) : count.flushAsciiRun.asciiRun = 0 := by
  rw [TokenCount.flushAsciiRun]
  split
  · rfl
  · omega

theorem tokens_foldl_push (chars : List Char) (tokens run : Nat) :
    (chars.foldl TokenCount.push ⟨tokens, run⟩).flushAsciiRun.tokens =
      tokens + (chars.foldl TokenCount.push ⟨0, run⟩).flushAsciiRun.tokens := by
  induction chars generalizing tokens run with
  | nil =>
      rw [List.foldl_nil, List.foldl_nil, tokens_flushAsciiRun, tokens_flushAsciiRun]
      exact congrArg (tokens + ·) (Nat.zero_add _).symm
  | cons c rest ih =>
      have hpush : ∀ start, TokenCount.push ⟨start, run⟩ c =
          ⟨start + (TokenCount.push ⟨0, run⟩ c).tokens, (TokenCount.push ⟨0, run⟩ c).asciiRun⟩ := by
        intro start
        simp only [TokenCount.push, TokenCount.flushAsciiRun]
        split_ifs <;> simp
        omega
      rw [List.foldl_cons, List.foldl_cons, hpush tokens, ih, ih (TokenCount.push ⟨0, run⟩ c).tokens]
      omega

variable {spaces : List Char} {c : Char}

theorem toNat_of_isWordChar (h : isWordChar c = true) :
    48 ≤ c.toNat ∧ c.toNat ≤ 122 := by
  rw [isWordChar, Bool.or_eq_true, decide_eq_true_eq] at h
  rcases h with h | rfl
  · simp only [Char.isAlphanum, isAlpha_eq, isUpper_eq, isLower_eq, Char.isDigit,
      Bool.or_eq_true, Bool.and_eq_true, decide_eq_true_eq, UInt32.le_iff_toNat_le, ge_iff_le] at h
    have hchar : c.toNat = c.val.toNat := rfl
    have hA : 'A'.val.toNat = 65 := rfl
    have hZ : 'Z'.val.toNat = 90 := rfl
    have ha : 'a'.val.toNat = 97 := rfl
    have hz : 'z'.val.toNat = 122 := rfl
    have hzero : '0'.val.toNat = 48 := rfl
    have hnine : '9'.val.toNat = 57 := rfl
    omega
  · decide

theorem isWordChar_of_isWhitespace (hc : isWhitespace c = true) :
    isWordChar c = false := by
  have hrange : c.toNat ≤ 32 ∨ 133 ≤ c.toNat := by
    simp only [isWhitespace, Bool.or_eq_true, Bool.and_eq_true, decide_eq_true_eq, beq_iff_eq] at hc
    omega
  by_contra hword
  have hword := toNat_of_isWordChar (Bool.not_eq_false _ ▸ hword)
  omega

theorem estimate_append_space (a b : List Char) (hc : isWhitespace c = true) :
    estimate (a ++ c :: b) = estimate a + estimate b := by
  have hword := isWordChar_of_isWhitespace hc
  have hpush : ∀ count : TokenCount, count.push c = ⟨count.flushAsciiRun.tokens, 0⟩ := by
    intro count
    rw [TokenCount.push, if_neg (by simp [hword]), if_pos hc, ← asciiRun_flushAsciiRun count]
  rw [estimate, List.foldl_append, List.foldl_cons, hpush, tokens_foldl_push]
  rfl

theorem estimate_nil : estimate [] = 0 := rfl

theorem estimate_cons_symbol (hword : isWordChar c = false) (hspace : isWhitespace c = false)
    (chars : List Char) :
    estimate (c :: chars) = 1 + estimate chars := by
  have hpush : TokenCount.push {} c = ⟨1, 0⟩ := by
    simp [TokenCount.push, TokenCount.flushAsciiRun, hword, hspace]
  rw [estimate, List.foldl_cons, hpush, tokens_foldl_push]
  rfl

theorem estimate_cons_space (hc : isWhitespace c = true) (chars : List Char) :
    estimate (c :: chars) = estimate chars := by
  have h := estimate_append_space [] chars hc
  rw [estimate_nil, Nat.zero_add] at h
  exact h

theorem estimate_append_spaces (chars : List Char) (h : ∀ c ∈ spaces, isWhitespace c = true) :
    estimate (chars ++ spaces) = estimate chars := by
  induction spaces generalizing chars with
  | nil => rw [List.append_nil]
  | cons c rest ih =>
      have hc := h c List.mem_cons_self
      have hrest := ih [] fun d hd => h d (List.mem_cons_of_mem _ hd)
      rw [List.nil_append] at hrest
      rw [estimate_append_space _ _ hc, hrest, estimate_nil, Nat.add_zero]

theorem estimate_spaces_append (chars : List Char) (h : ∀ c ∈ spaces, isWhitespace c = true) :
    estimate (spaces ++ chars) = estimate chars := by
  induction spaces with
  | nil => rfl
  | cons c rest ih =>
      rw [List.cons_append, estimate_cons_space (h c List.mem_cons_self),
        ih fun d hd => h d (List.mem_cons_of_mem _ hd)]

def inkChars (chars : List Char) : List Char :=
  chars.filter fun c => !isWhitespace c

def ink (text : String) : List Char :=
  inkChars text.toList

theorem inkChars_append (a b : List Char) : inkChars (a ++ b) = inkChars a ++ inkChars b :=
  List.filter_append ..

theorem inkChars_spaces (h : ∀ c ∈ spaces, isWhitespace c = true) :
    inkChars spaces = [] :=
  List.filter_eq_nil_iff.mpr fun c hc => by simp [h c hc]

theorem exists_rdropWhile (chars : List Char) :
    ∃ spaces, (∀ c ∈ spaces, isWhitespace c = true) ∧
      chars = chars.rdropWhile isWhitespace ++ spaces :=
  ⟨chars.rtakeWhile isWhitespace, fun _ hc => List.mem_rtakeWhile_imp hc,
    (List.rdropWhile_append_rtakeWhile ..).symm⟩

theorem exists_trimChars (chars : List Char) :
    ∃ before after, (∀ c ∈ before, isWhitespace c = true) ∧ (∀ c ∈ after, isWhitespace c = true) ∧
      chars = before ++ trimChars chars ++ after := by
  obtain ⟨after, hafter, heq⟩ := exists_rdropWhile (chars.dropWhile isWhitespace)
  refine ⟨chars.takeWhile isWhitespace, after, fun _ hc => List.mem_takeWhile_imp hc, hafter, ?_⟩
  rw [List.append_assoc]
  conv_lhs => rw [← List.takeWhile_append_dropWhile (p := isWhitespace) (l := chars), heq]
  rfl

theorem estimate_rdropWhile (chars : List Char) :
    estimate (chars.rdropWhile isWhitespace) = estimate chars := by
  obtain ⟨spaces, hspaces, heq⟩ := exists_rdropWhile chars
  conv_rhs => rw [heq, estimate_append_spaces _ hspaces]

theorem inkChars_rdropWhile (chars : List Char) :
    inkChars (chars.rdropWhile isWhitespace) = inkChars chars := by
  obtain ⟨spaces, hspaces, heq⟩ := exists_rdropWhile chars
  conv_rhs => rw [heq, inkChars_append, inkChars_spaces hspaces, List.append_nil]

theorem estimate_trimChars (chars : List Char) : estimate (trimChars chars) = estimate chars := by
  obtain ⟨before, after, hbefore, hafter, heq⟩ := exists_trimChars chars
  conv_rhs => rw [heq, estimate_append_spaces _ hafter, estimate_spaces_append _ hbefore]

theorem inkChars_trimChars (chars : List Char) : inkChars (trimChars chars) = inkChars chars := by
  obtain ⟨before, after, hbefore, hafter, heq⟩ := exists_trimChars chars
  conv_rhs => rw [heq, inkChars_append, inkChars_append, inkChars_spaces hbefore,
    inkChars_spaces hafter, List.nil_append, List.append_nil]

section Joins

theorem estimate_intercalate (parts : List (List Char)) :
    estimate (['\n'].intercalate parts) = (parts.map estimate).sum := by
  induction parts with
  | nil => rfl
  | cons first rest ih =>
      rcases eq_or_ne rest [] with rfl | hrest
      · simp
      · rw [List.intercalate_cons_of_ne_nil hrest, List.append_assoc, List.singleton_append,
          estimate_append_space _ _ (by decide), ih, List.map_cons, List.sum_cons]

theorem inkChars_intercalate (parts : List (List Char)) :
    inkChars (['\n'].intercalate parts) = parts.flatMap inkChars := by
  induction parts with
  | nil => rfl
  | cons first rest ih =>
      rcases eq_or_ne rest [] with rfl | hrest
      · simp
      · have hbreak : inkChars ['\n'] = [] := by decide
        rw [List.intercalate_cons_of_ne_nil hrest, inkChars_append, inkChars_append, hbreak,
          List.append_nil, ih, List.flatMap_cons]

variable (lines : List ChunkSourceLine) {text : String}

theorem toList_joinChunkSourceLines : (joinChunkSourceLines lines).toList =
    trimChars (['\n'].intercalate
      (lines.map fun line => line.text.toList.rdropWhile isWhitespace)) := by
  simp [joinChunkSourceLines, trim, joinTexts, trimEnd, Function.comp_def]

theorem estimatedTokenCount_join : estimatedTokenCount (joinChunkSourceLines lines) =
    (lines.map fun line => estimatedTokenCount line.text).sum := by
  rw [estimatedTokenCount_eq, toList_joinChunkSourceLines, estimate_trimChars,
    estimate_intercalate, List.map_map]
  refine congrArg List.sum (List.map_congr_left ?_)
  intro line _
  exact estimate_rdropWhile _

theorem estimatedTokenCount_join_le :
    estimatedTokenCount (joinChunkSourceLines lines) ≤ estimatedLinesTokenCount lines := by
  rw [estimatedTokenCount_join, estimatedLinesTokenCount]
  exact List.sum_le_sum fun line _ => Nat.le_max_left _ _

theorem ink_join : ink (joinChunkSourceLines lines) = lines.flatMap fun line => ink line.text := by
  rw [ink, toList_joinChunkSourceLines, inkChars_trimChars, inkChars_intercalate, List.flatMap_map]
  refine List.flatMap_congr ?_
  intro line _
  exact inkChars_rdropWhile _

theorem ink_eq_nil_iff : ink text = [] ↔ isBlank text = true := by
  rw [isBlank_iff, ink, inkChars, List.filter_eq_nil_iff]
  simp

theorem ink_eq_nil_of_eq_empty (h : text = "") : ink text = [] := by
  rw [h]
  rfl

theorem join_eq_empty_iff : joinChunkSourceLines lines = "" ↔
    ∀ line ∈ lines, ink line.text = [] := by
  rw [← List.flatMap_eq_nil_iff, ← ink_join]
  constructor
  · exact ink_eq_nil_of_eq_empty
  · intro h
    have hblank := ink_eq_nil_iff.mp h
    rw [joinChunkSourceLines] at hblank ⊢
    rw [isBlank, trim_trim, beq_iff_eq] at hblank
    exact hblank

end Joins

section Segments

/-- What the loop over the characters of a line knows: the current segment is counted as the
estimate counts it. -/
structure Segmented (tokenBudget : Nat) (state : SegmentState) (chars : List Char) : Prop where
  flatten : state.segments.flatten ++ state.current = chars
  asciiRun : (state.current.foldl TokenCount.push {}).asciiRun = state.asciiRun
  tokens : (state.current.foldl TokenCount.push {}).tokens + divCeil state.asciiRun 4 =
    state.currentTokens
  fits : state.currentTokens ≤ tokenBudget
  segments : ∀ segment ∈ state.segments, estimate segment ≤ tokenBudget
  started : chars ≠ [] → state.current ≠ []

variable {tokenBudget : Nat} {state : SegmentState} {chars : List Char}

theorem segmented_nil (tokenBudget : Nat) : Segmented tokenBudget {} [] :=
  ⟨rfl, rfl, rfl, Nat.zero_le _, by simp, by simp⟩

theorem Segmented.estimate_current (h : Segmented tokenBudget state chars) :
    estimate state.current = state.currentTokens := by
  rw [estimate, tokens_flushAsciiRun, h.asciiRun, h.tokens]

theorem divCeil_succ (n : Nat) :
    divCeil n 4 ≤ divCeil (n + 1) 4 ∧ divCeil (n + 1) 4 ≤ divCeil n 4 + 1 := by
  simp only [divCeil]
  omega

theorem tokenIncrement_le_one (state : SegmentState) (c : Char) : state.tokenIncrement c ≤ 1 := by
  have hcount := divCeil_succ state.asciiRun
  rw [SegmentState.tokenIncrement]
  split_ifs <;> omega

theorem push_eq (count : TokenCount) (c : Char) :
    count.push c = if isWordChar c then ⟨count.tokens, count.asciiRun + 1⟩ else
      ⟨count.tokens + divCeil count.asciiRun 4 + if isWhitespace c then 0 else 1, 0⟩ := by
  have hflush : count.flushAsciiRun = ⟨count.tokens + divCeil count.asciiRun 4, 0⟩ := by
    rw [← tokens_flushAsciiRun, ← asciiRun_flushAsciiRun count]
  rw [TokenCount.push]
  split
  · rfl
  · rw [hflush]
    split <;> rfl

theorem Segmented.push_of_full (h : Segmented tokenBudget state chars) {c : Char}
    (hbudget : 1 ≤ tokenBudget) (hfull : tokenBudget < state.currentTokens + state.tokenIncrement c) :
    Segmented tokenBudget
      { segments := state.segments ++ [state.current]
        current := [c]
        currentTokens := state.tokenIncrement c
        asciiRun := if isWordChar c then 1 else 0 } (chars ++ [c]) where
  flatten := by
    rw [← h.flatten]
    simp
  asciiRun := by
    rw [List.foldl_cons, List.foldl_nil, push_eq]
    split <;> rfl
  tokens := by
    have hfits := h.fits
    have hone : state.tokenIncrement c = 1 := by
      have hle := tokenIncrement_le_one state c
      omega
    have hcount := hone
    rw [SegmentState.tokenIncrement] at hcount
    rw [hone, List.foldl_cons, List.foldl_nil, push_eq]
    split
    · simp [divCeil]
    · rename_i hword
      rw [if_neg hword] at hcount
      simp [hcount, divCeil]
  fits := (tokenIncrement_le_one state c).trans hbudget
  segments := by
    intro segment hsegment
    rcases List.mem_append.mp hsegment with hold | hnew
    · exact h.segments segment hold
    · rw [List.mem_singleton.mp hnew, h.estimate_current]
      exact h.fits
  started := by simp

theorem Segmented.push_of_fits (h : Segmented tokenBudget state chars) {c : Char}
    (hfits : state.currentTokens + state.tokenIncrement c ≤ tokenBudget) :
    Segmented tokenBudget
      { state with
        current := state.current ++ [c]
        currentTokens := state.currentTokens + state.tokenIncrement c
        asciiRun := if isWordChar c then state.asciiRun + 1 else 0 } (chars ++ [c]) where
  flatten := by
    rw [← h.flatten, List.append_assoc]
  asciiRun := by
    rw [List.foldl_append, List.foldl_cons, List.foldl_nil, push_eq, h.asciiRun]
    split <;> rfl
  tokens := by
    have htokens := h.tokens
    have hcount := divCeil_succ state.asciiRun
    have hzero : divCeil 0 4 = 0 := rfl
    rw [List.foldl_append, List.foldl_cons, List.foldl_nil, push_eq, h.asciiRun,
      SegmentState.tokenIncrement]
    by_cases hword : isWordChar c = true
    · simp only [if_pos hword]
      omega
    · simp only [if_neg hword]
      omega
  fits := hfits
  segments := h.segments
  started := by simp

theorem Segmented.push (h : Segmented tokenBudget state chars) (hbudget : 1 ≤ tokenBudget)
    (c : Char) : Segmented tokenBudget (state.push tokenBudget c) (chars ++ [c]) := by
  rw [SegmentState.push]
  split
  · rename_i hfull
    exact h.push_of_full hbudget hfull.2
  · rename_i hcut
    refine h.push_of_fits ?_
    by_cases hcurrent : state.current = []
    · -- an empty segment takes any character
      have hzero : state.currentTokens = 0 := by
        rw [← h.estimate_current, hcurrent, estimate_nil]
      have hle := tokenIncrement_le_one state c
      omega
    · exact Nat.not_lt.mp fun hfull => hcut ⟨hcurrent, hfull⟩

theorem Segmented.foldl (h : Segmented tokenBudget state chars) (hbudget : 1 ≤ tokenBudget)
    (more : List Char) :
    Segmented tokenBudget (more.foldl (SegmentState.push tokenBudget) state) (chars ++ more) := by
  induction more generalizing state chars with
  | nil => simpa using h
  | cons c rest ih =>
      rw [List.foldl_cons, List.append_cons]
      exact ih (h.push hbudget c)

theorem splitSourceLine_spec (line : ChunkSourceLine) (hbudget : 1 ≤ tokenBudget) :
    (splitSourceLine line tokenBudget).flatMap (fun segment => segment.text.toList) =
        line.text.toList ∧
      splitSourceLine line tokenBudget ≠ [] ∧
      ∀ segment ∈ splitSourceLine line tokenBudget,
        estimatedTokenCount segment.text ≤ tokenBudget ∧ segment.number = line.number ∧
          segment.sectionPath = line.sectionPath := by
  rw [splitSourceLine]
  split
  · rename_i hwhole
    refine ⟨by simp, by simp, ?_⟩
    intro segment hsegment
    rw [List.mem_singleton.mp hsegment]
    refine ⟨?_, rfl, rfl⟩
    rcases hwhole with hfits | hempty
    · exact hfits
    · rw [hempty]
      exact Nat.zero_le _
  · rename_i hcut
    have h := (segmented_nil tokenBudget).foldl hbudget line.text.toList
    rw [List.nil_append] at h
    have hnonempty : line.text.toList ≠ [] := by
      intro hnil
      exact hcut (Or.inr (String.toList_eq_nil_iff.mp hnil))
    have hcurrent := h.started hnonempty
    simp only [if_neg hcurrent]
    refine ⟨?_, by simp, ?_⟩
    · rw [List.flatMap_map]
      simp only [String.toList_ofList]
      rw [List.flatMap_id', List.flatten_append, List.flatten_singleton, h.flatten]
    · intro segment hsegment
      obtain ⟨part, hpart, rfl⟩ := List.mem_map.mp hsegment
      refine ⟨?_, rfl, rfl⟩
      rw [estimatedTokenCount_eq, String.toList_ofList]
      rcases List.mem_append.mp hpart with hold | hnew
      · exact h.segments part hold
      · rw [List.mem_singleton.mp hnew, h.estimate_current]
        exact h.fits

end Segments

end HarborBeacon.ChunkTokens
