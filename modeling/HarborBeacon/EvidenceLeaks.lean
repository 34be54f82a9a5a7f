import HarborBeacon.EvidenceRedaction

/-!
The redaction of JSON values with ASCII texts. It always returns; its result shows no secret and
is kept by a second redaction exactly if no text of the value exposes a userinfo.
-/

namespace HarborBeacon.DeviceEvidence

open ByteSlices Json KeyedValues Text AdminConsole

section Ascii

def Ascii (text : List Char) : Prop :=
  ∀ c ∈ text, c.toNat < 128

variable {text front back : List Char}

theorem Ascii.append (hfront : Ascii front) (hback : Ascii back) : Ascii (front ++ back) :=
  fun c hc => (List.mem_append.mp hc).elim (hfront c) (hback c)

theorem Ascii.of_subset (h : Ascii text) (hsub : front ⊆ text) : Ascii front :=
  fun c hc => h c (hsub hc)

theorem mem_of_mem_schemeFronts (h : front ∈ schemeFronts text) : front ⊆ text := by
  induction hn : text.length using Nat.strong_induction_on generalizing text with
  | _ n ih =>
      cases hsplit : splitAtText schemeMark text with
      | none =>
          rw [schemeFronts_none hsplit] at h
          cases h
      | some cut =>
          obtain ⟨gap, after⟩ := cut
          have htext := splitAtText_eq hsplit
          have hgap : gap ⊆ text := by
            rw [htext, List.append_assoc]
            exact List.subset_append_left _ _
          have hafter : after ⊆ text := by
            rw [htext]
            exact List.subset_append_right _ _
          by_cases hscheme : schemeOf gap ∈ urlSchemes
          · rw [schemeFronts_url hsplit hscheme] at h
            have hshorter := length_tail_lt (p := fun ch => !endsAuthority ch) hsplit
            rcases List.mem_cons.mp h with rfl | hrest
            · exact hgap
            · have hsub := ih _ (by omega) hrest rfl
              exact fun c hc => hafter ((List.dropWhile_subset _) (hsub hc))
          · rw [schemeFronts_other hsplit hscheme] at h
            have hshorter := length_after_lt hsplit
            rcases List.mem_cons.mp h with rfl | hrest
            · exact hgap
            · exact fun c hc => hafter (ih _ (by omega) hrest rfl hc)

theorem schemesClear_of_ascii (h : Ascii text) : SchemesClear text := by
  intro front hfront
  have hall : Ascii (front.rdropWhile isSchemeChar) := by
    refine (h.of_subset (mem_of_mem_schemeFronts hfront)).of_subset ?_
    exact (List.rdropWhile_prefix _ _).subset
  rw [clearFront]
  cases hlast : (front.rdropWhile isSchemeChar).getLast? with
  | none => rfl
  | some c =>
      have hsize : c.utf8Size = 1 := by
        refine forall_ascii (P := fun c => c.utf8Size = 1) (by decide) ?_
        exact hall c (List.mem_of_getLast? hlast)
      simpa using hsize

theorem ascii_withoutUserinfo (h : Ascii text) : Ascii (withoutUserinfo text) := by
  rw [withoutUserinfo]
  split_ifs
  · have hmarker : Ascii (userinfoMarker ++ ['@']) := by
      have hall : ∀ c ∈ userinfoMarker ++ ['@'], c.toNat < 128 :=
        forall_mem_of_all (by decide)
      exact hall
    exact hmarker.append (h.of_subset (List.rtakeWhile_suffix _ _).subset)
  · exact h

theorem ascii_hideUserinfo (h : Ascii text) : Ascii (hideUserinfo text) := by
  induction hn : text.length using Nat.strong_induction_on generalizing text with
  | _ n ih =>
      cases hsplit : splitAtText schemeMark text with
      | none => rwa [hideUserinfo_none hsplit]
      | some cut =>
          obtain ⟨gap, after⟩ := cut
          have htext := splitAtText_eq hsplit
          have hfront : Ascii (gap ++ schemeMark) := by
            refine h.of_subset ?_
            rw [htext]
            exact List.subset_append_left _ _
          have hafter : Ascii after := by
            refine h.of_subset ?_
            rw [htext]
            exact List.subset_append_right _ _
          by_cases hscheme : schemeOf gap ∈ urlSchemes
          · have hshorter := length_tail_lt (p := fun ch => !endsAuthority ch) hsplit
            have hauthority := hafter.of_subset
              (List.takeWhile_prefix fun ch => !endsAuthority ch).subset
            have hpast := hafter.of_subset
              (List.dropWhile_subset fun ch => !endsAuthority ch)
            rw [hideUserinfo_url hsplit hscheme]
            exact (hfront.append (ascii_withoutUserinfo hauthority)).append
              (ih _ (by omega) hpast rfl)
          · have hshorter := length_after_lt hsplit
            rw [hideUserinfo_other hsplit hscheme]
            exact hfront.append (ih _ (by omega) hafter rfl)

theorem ascii_hideSecrets (h : Ascii text) : Ascii (hideSecrets text) := by
  have hmarker : ∀ c ∈ valueMarker, c.toNat < 128 := forall_mem_of_all (by decide)
  intro c hc
  by_cases hmem : c ∈ secretReading.marker
  · exact hmarker c hmem
  · obtain ⟨before, rest, htext, -⟩ := (mem_hideFrom hmem).mp hc
    apply ascii_hideUserinfo h c
    rw [htext]
    exact List.mem_append_right _ List.mem_cons_self

end Ascii

section Values

variable {p q : String → Prop} {change : String → String}

mutual

def SecretsHidden : Value → Prop
  | .object fields => SecretsHiddenFields fields
  | .array items => SecretsHiddenItems items
  | _ => True

def SecretsHiddenItems : List Value → Prop
  | [] => True
  | item :: rest => SecretsHidden item ∧ SecretsHiddenItems rest

def SecretsHiddenFields : Fields → Prop
  | [] => True
  | (key, value) :: rest =>
      (isSecretLikeKey key = true → value = .string "redacted") ∧ SecretsHidden value ∧
        SecretsHiddenFields rest

end

mutual

theorem secretsHidden_hideTexts (change : String → String) :
    ∀ value : Value, SecretsHidden (hideTexts change value)
  | .object fields => by
      rw [hideTexts, SecretsHidden]
      exact secretsHiddenFields_hideTexts change fields
  | .array items => by
      rw [hideTexts, SecretsHidden]
      exact secretsHiddenItems_hideTexts change items
  | .string _ => trivial
  | .null => trivial
  | .bool _ => trivial
  | .number _ => trivial

theorem secretsHiddenItems_hideTexts (change : String → String) :
    ∀ items : List Value, SecretsHiddenItems (hideTextsItems change items)
  | [] => trivial
  | item :: rest =>
      ⟨secretsHidden_hideTexts change item, secretsHiddenItems_hideTexts change rest⟩

theorem secretsHiddenFields_hideTexts (change : String → String) :
    ∀ fields : Fields, SecretsHiddenFields (hideTextsFields change fields)
  | [] => trivial
  | (key, value) :: rest => by
      rw [hideTextsFields, SecretsHiddenFields]
      refine ⟨fun hkey => if_pos hkey, ?_, secretsHiddenFields_hideTexts change rest⟩
      split_ifs
      · trivial
      · exact secretsHidden_hideTexts change value

end

mutual

theorem allTexts_hideTexts (p : String → Prop) (change : String → String) :
    ∀ value : Value, AllTexts p (hideTexts change value) ↔
      AllTexts (fun text => p (change text)) value
  | .object fields => by
      rw [hideTexts, AllTexts, AllTexts]
      exact allTextsFields_hideTexts p change fields
  | .array items => by
      rw [hideTexts, AllTexts, AllTexts]
      exact allTextsItems_hideTexts p change items
  | .string _ => Iff.rfl
  | .null => Iff.rfl
  | .bool _ => Iff.rfl
  | .number _ => Iff.rfl

theorem allTextsItems_hideTexts (p : String → Prop) (change : String → String) :
    ∀ items : List Value, AllTextsItems p (hideTextsItems change items) ↔
      AllTextsItems (fun text => p (change text)) items
  | [] => Iff.rfl
  | item :: rest =>
      and_congr (allTexts_hideTexts p change item) (allTextsItems_hideTexts p change rest)

theorem allTextsFields_hideTexts (p : String → Prop) (change : String → String) :
    ∀ fields : Fields, AllTextsFields p (hideTextsFields change fields) ↔
      AllTextsFields (fun text => p (change text)) fields
  | [] => Iff.rfl
  | (key, value) :: rest => by
      rw [hideTextsFields, AllTextsFields, AllTextsFields]
      refine and_congr (imp_congr_right fun hkey => ?_) (allTextsFields_hideTexts p change rest)
      rw [if_neg (by simp [hkey])]
      exact allTexts_hideTexts p change value

end

mutual

theorem AllTexts.imp (h : ∀ text, p text → q text) : ∀ value : Value, AllTexts p value →
    AllTexts q value
  | .object fields, hall => AllTextsFields.imp h fields hall
  | .array items, hall => AllTextsItems.imp h items hall
  | .string text, hall => h text hall
  | .null, _ => trivial
  | .bool _, _ => trivial
  | .number _, _ => trivial

theorem AllTextsItems.imp (h : ∀ text, p text → q text) : ∀ items : List Value,
    AllTextsItems p items → AllTextsItems q items
  | [], _ => trivial
  | item :: rest, hall => ⟨AllTexts.imp h item hall.1, AllTextsItems.imp h rest hall.2⟩

theorem AllTextsFields.imp (h : ∀ text, p text → q text) : ∀ fields : Fields,
    AllTextsFields p fields → AllTextsFields q fields
  | [], _ => trivial
  | (_, value) :: rest, hall =>
      ⟨fun hkey => AllTexts.imp h value (hall.1 hkey), AllTextsFields.imp h rest hall.2⟩

end

mutual

theorem hideTexts_eq_self : ∀ value : Value, SecretsHidden value →
    AllTexts (fun text => change text = text) value → hideTexts change value = value
  | .object fields, hhidden, hall => by
      rw [hideTexts, hideTextsFields_eq_self fields hhidden hall]
  | .array items, hhidden, hall => by
      rw [hideTexts, hideTextsItems_eq_self items hhidden hall]
  | .string text, _, hall => by
      have htext : change text = text := hall
      rw [hideTexts, htext]
  | .null, _, _ => rfl
  | .bool _, _, _ => rfl
  | .number _, _, _ => rfl

theorem hideTextsItems_eq_self : ∀ items : List Value, SecretsHiddenItems items →
    AllTextsItems (fun text => change text = text) items → hideTextsItems change items = items
  | [], _, _ => rfl
  | item :: rest, hhidden, hall => by
      rw [hideTextsItems, hideTexts_eq_self item hhidden.1 hall.1,
        hideTextsItems_eq_self rest hhidden.2 hall.2]

theorem hideTextsFields_eq_self : ∀ fields : Fields, SecretsHiddenFields fields →
    AllTextsFields (fun text => change text = text) fields →
      hideTextsFields change fields = fields
  | [], _, _ => rfl
  | (key, value) :: rest, hhidden, hall => by
      rw [hideTextsFields, hideTextsFields_eq_self rest hhidden.2.2 hall.2]
      by_cases hkey : isSecretLikeKey key = true
      · rw [if_pos hkey, hhidden.1 hkey]
      · rw [if_neg hkey, hideTexts_eq_self value hhidden.2.1 (hall.1 (Bool.eq_false_iff.mpr hkey))]

end

end Values

/-- A value after which redaction has nothing left to do and nothing left to hide. -/
def CompletelyRedacted (value : Value) : Prop :=
  ∃ redacted, redactDeviceEvidenceValue value = .ok redacted ∧ SecretsHidden redacted ∧
    AllTexts (fun text => UrlsRedacted text.toList ∧ KeysRedacted text.toList) redacted ∧
      redactDeviceEvidenceValue redacted = .ok redacted

/-- Each text outside of secret-like keys is ASCII. -/
def AsciiTexts (value : Value) : Prop :=
  AllTexts (fun text => Ascii text.toList) value

theorem toList_hideText (text : String) : (hideText text).toList = hideSecrets text.toList :=
  String.toList_ofList

theorem valueClear_of_asciiTexts {value : Value} (h : AsciiTexts value) : ValueClear value :=
  AllTexts.imp (fun _ => schemesClear_of_ascii) value h

theorem asciiTexts_hideTexts {value : Value} (h : AsciiTexts value) :
    AsciiTexts (hideTexts hideText value) := by
  rw [AsciiTexts, allTexts_hideTexts]
  refine AllTexts.imp (fun text htext => ?_) value h
  rw [toList_hideText]
  exact ascii_hideSecrets htext

/-- The redaction is complete and final exactly if no text exposes a userinfo. -/
theorem completelyRedacted_iff (value : Value) (h : AsciiTexts value) :
    CompletelyRedacted value ↔ AllTexts (fun text => NothingExposed text.toList) value := by
  have hredacted := value_ok value (valueClear_of_asciiTexts h)
  have hagain := value_ok _ (valueClear_of_asciiTexts (asciiTexts_hideTexts h))
  have hurls : AllTexts (fun text => UrlsRedacted text.toList ∧ KeysRedacted text.toList)
      (hideTexts hideText value) ↔ AllTexts (fun text => NothingExposed text.toList) value := by
    rw [allTexts_hideTexts]
    constructor
    · refine fun hall => AllTexts.imp (fun text htext => ?_) value hall
      rw [toList_hideText, urlsRedacted_iff] at htext
      exact htext.1
    · refine fun hall => AllTexts.imp (fun text htext => ?_) value hall
      rw [toList_hideText, urlsRedacted_iff]
      exact ⟨htext, keysRedacted _⟩
  constructor
  · rintro ⟨redacted, hresult, -, hall, -⟩
    rw [hredacted] at hresult
    rw [← Except.ok.inj hresult] at hall
    exact hurls.mp hall
  · intro hnothing
    have hhidden := secretsHidden_hideTexts hideText value
    refine ⟨_, hredacted, hhidden, hurls.mpr hnothing, ?_⟩
    have hsettled : AllTexts (fun text => hideText text = text) (hideTexts hideText value) := by
      rw [allTexts_hideTexts]
      refine AllTexts.imp (fun text htext => ?_) value hnothing
      rw [hideText, toList_hideText, hideSecrets_idem ((urlsRedacted_iff _).mpr htext)]
      rfl
    rw [hagain, hideTexts_eq_self _ hhidden hsettled]

theorem completelyRedacted_snapshot :
    CompletelyRedacted (.object [("url", .string "rtsp://admin:pw@camera/stream"), ("token", .string "abc")]) ↔
      AllTexts (fun text => NothingExposed text.toList)
        (.object [("url", .string "rtsp://admin:pw@camera/stream"), ("token", .string "abc")]) := by
  refine completelyRedacted_iff _ ⟨fun _ => ?_, fun hkey => ?_, trivial⟩
  · have hall : ∀ c ∈ "rtsp://admin:pw@camera/stream".toList, c.toNat < 128 :=
      forall_mem_of_all (by decide)
    exact hall
  · exact absurd hkey (by decide)

theorem upper_case_scheme_exposed :
    ¬ CompletelyRedacted (.string "RTSP://admin:pw@camera/stream") := by
  rintro ⟨redacted, hresult, -, hall, -⟩
  have hsame : redactDeviceEvidenceText "RTSP://admin:pw@camera/stream" =
      .ok "RTSP://admin:pw@camera/stream" := by decide
  rw [redactDeviceEvidenceValue, hsame] at hresult
  rw [← Except.ok.inj hresult] at hall
  refine hall.1 "RTSP".toList "admin:pw@camera/stream".toList (by decide) ?_ ?_
  · exact ⟨"rtsp".toList, by decide, by decide⟩
  · have hat : '@' ∈ authorityOf "admin:pw@camera/stream".toList := by decide
    have hforeign : (authorityOf "admin:pw@camera/stream".toList).rdropWhile
        (fun ch => !(ch = '@' : Bool)) ≠ userinfoMarker ++ ['@'] := by decide
    exact ⟨hat, hforeign⟩

end HarborBeacon.DeviceEvidence
