import HarborBeacon.Slugs

/-!
Texts that are not blank and have no white space around them, and the fields that are trimmed or
take a fallback. Such a field stays as it is when it is trimmed again.
-/

namespace HarborBeacon.TrimmedTexts

open AdminConsole Text

/-- A text with nothing to trim that is not empty. -/
def Trimmed (s : String) : Prop :=
  trim s = s ∧ s ≠ ""

instance instDecidableTrimmed (s : String) : Decidable (Trimmed s) :=
  inferInstanceAs (Decidable (_ ∧ _))

variable {s : String}

theorem trimmed_trim (h : trim s ≠ "") : Trimmed (trim s) :=
  ⟨trim_trim s, h⟩

theorem trimmed_of_no_whitespace (hne : s ≠ "") (h : ∀ c ∈ s.toList, isWhitespace c = false) :
    Trimmed s :=
  ⟨trim_eq_self h, hne⟩

theorem trimmed_toString (n : Nat) : Trimmed (toString n) := by
  apply trimmed_of_no_whitespace
  · intro hempty
    have hlength := Nat.toDigits_ne_nil (n := n) (b := 10)
    apply hlength
    rw [← Nat.toList_repr]
    exact String.toList_eq_nil_iff.mpr hempty
  · intro c hc
    have hdigit := isDigit_of_mem_toString hc
    refine forall_ascii (P := fun c => c.isDigit = true → isWhitespace c = false) (by decide +kernel)
      (toNat_of_isAlphanum ?_) hdigit
    rw [Char.isAlphanum, hdigit, Bool.or_true]

theorem Trimmed.append {a b : String} (ha : Trimmed a) (hb : Trimmed b) (middle : String) :
    Trimmed (a ++ middle ++ b) := by
  have hends : ∀ {s : String}, Trimmed s →
      ((∀ c ∈ s.toList.head?, isWhitespace c = false) ∧
        ∀ c ∈ s.toList.getLast?, isWhitespace c = false) ∧ s.toList ≠ [] := by
    intro s hs
    refine ⟨trimMatches_eq_self_iff.mp ?_, fun hnil => hs.2 (String.toList_eq_nil_iff.mp hnil)⟩
    have htrim := congrArg String.toList hs.1
    rwa [trim, String.toList_ofList] at htrim
  obtain ⟨⟨hafront, -⟩, hane⟩ := hends ha
  obtain ⟨⟨-, hbback⟩, hbne⟩ := hends hb
  obtain ⟨c, arest, hacons⟩ := List.exists_cons_of_ne_nil hane
  obtain ⟨brest, d, hbconcat⟩ := (List.eq_nil_or_concat b.toList).resolve_left hbne
  have hall : (a ++ middle ++ b).toList = a.toList ++ middle.toList ++ b.toList := by
    rw [String.toList_append, String.toList_append]
  refine ⟨?_, ?_⟩
  · have hwhole : trimChars (a ++ middle ++ b).toList = (a ++ middle ++ b).toList := by
      rw [trimChars, trimMatches_eq_self_iff, hall]
      rw [hacons] at hafront
      rw [hbconcat] at hbback
      refine ⟨?_, ?_⟩
      · rw [hacons]
        exact hafront
      · rw [hbconcat]
        simpa using hbback
    rw [trim, hwhole, String.ofList_toList]
  · intro hempty
    have hnil := congrArg String.toList hempty
    rw [hall] at hnil
    exact hane (by simpa using (List.append_eq_nil_iff.mp
      (List.append_eq_nil_iff.mp hnil).1).1)

def trimOr (fallback text : String) : String :=
  (nonEmptyOpt text).getD fallback

theorem nonEmptyOpt_of_trimmed (h : Trimmed s) : nonEmptyOpt s = some s := by
  rw [nonEmptyOpt, h.1, if_neg h.2]

theorem trimmed_of_nonEmptyOpt {s t : String} (h : nonEmptyOpt s = some t) : Trimmed t := by
  rw [nonEmptyOpt] at h
  split at h
  · exact absurd h (by simp)
  · rename_i hne
    rw [← Option.some.inj h]
    exact trimmed_trim hne

theorem bind_nonEmptyOpt_idem (value : Option String) :
    (value.bind nonEmptyOpt).bind nonEmptyOpt = value.bind nonEmptyOpt := by
  cases value with
  | none => rfl
  | some s =>
      cases h : nonEmptyOpt s with
      | none => rw [Option.bind_some, h, Option.bind_none]
      | some t => rw [Option.bind_some, h, Option.bind_some,
          nonEmptyOpt_of_trimmed (trimmed_of_nonEmptyOpt h)]

theorem trimmed_trimOr {fallback : String} (h : Trimmed fallback) (text : String) :
    Trimmed (trimOr fallback text) := by
  rw [trimOr]
  cases htext : nonEmptyOpt text with
  | none => exact h
  | some t => exact trimmed_of_nonEmptyOpt htext

theorem trimOr_of_trimmed {text : String} (h : Trimmed text) (fallback : String) :
    trimOr fallback text = text := by
  rw [trimOr, nonEmptyOpt_of_trimmed h, Option.getD_some]

theorem trimOr_again_iff {fallback text : String} :
    trimOr fallback (trimOr fallback text) = trimOr fallback text ↔
      (isBlank text = true → trim fallback = fallback ∨ trim fallback = "") := by
  by_cases hblank : trim text = ""
  · have htext : trimOr fallback text = fallback := by
      rw [trimOr, nonEmptyOpt, if_pos hblank, Option.getD_none]
    have hblank' : isBlank text = true := beq_iff_eq.mpr hblank
    rw [htext, trimOr, nonEmptyOpt]
    by_cases hfallback : trim fallback = ""
    · simp [hfallback]
    · simp [hfallback, hblank']
  · have htext : trimOr fallback text = trim text := by
      rw [trimOr, nonEmptyOpt, if_neg hblank, Option.getD_some]
    have hnot : isBlank text = false := isBlank_eq_false_iff.mpr hblank
    rw [htext, trimOr_of_trimmed (trimmed_trim hblank)]
    simp [hnot]

theorem trimOr_trimOr {fallback : String} (h : Trimmed fallback) (other text : String) :
    trimOr other (trimOr fallback text) = trimOr fallback text :=
  trimOr_of_trimmed (trimmed_trimOr h text) other

end HarborBeacon.TrimmedTexts
