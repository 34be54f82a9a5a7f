import HarborBeacon.Results
import HarborBeacon.TextPieces
import HarborBeacon.VisionEvents

/-!
The texts that a vision event may carry. The check looks through all keys and strings of a value for
blocked words and for credentials in URLs, but of the URLs of each scheme it looks at the first one
alone.
-/

namespace HarborBeacon.VisionEvents

open Json Json.Value KeyedValues Results Text TextPieces Words

section Trees

mutual

def textsOf : Value → List String
  | .string text => [text]
  | .array items => textsOfItems items
  | .object fields => textsOfFields fields
  | .null => []
  | .bool _ => []
  | .number _ => []

def textsOfItems : List Value → List String
  | [] => []
  | item :: rest => textsOf item ++ textsOfItems rest

def textsOfFields : List (String × Value) → List String
  | [] => []
  | (name, value) :: rest => name :: (textsOf value ++ textsOfFields rest)

end

variable {check : String → Except String Unit}

theorem then_eq_ok_iff {x y : Except String Unit} :
    (do x; y) = .ok () ↔ x = .ok () ∧ y = .ok () := by
  cases x with
  | error message => exact iff_of_false nofun fun h => nomatch h.1
  | ok _ => exact ⟨fun h => ⟨rfl, h⟩, fun h => h.2⟩

mutual

theorem rejectValue_eq_ok_iff : ∀ value : Value,
    rejectValue check value = .ok () ↔ ∀ text ∈ textsOf value, check text = .ok ()
  | .string text => by
      rw [rejectValue, textsOf, List.forall_mem_singleton]
  | .array items => by
      rw [rejectValue, textsOf, rejectItems_eq_ok_iff items]
  | .object fields => by
      rw [rejectValue, textsOf, rejectFields_eq_ok_iff fields]
  | .null => iff_of_true rfl (List.forall_mem_nil _)
  | .bool _ => iff_of_true rfl (List.forall_mem_nil _)
  | .number _ => iff_of_true rfl (List.forall_mem_nil _)

theorem rejectItems_eq_ok_iff : ∀ items : List Value,
    rejectItems check items = .ok () ↔ ∀ text ∈ textsOfItems items, check text = .ok ()
  | [] => iff_of_true rfl (List.forall_mem_nil _)
  | item :: rest => by
      rw [rejectItems, textsOfItems, then_eq_ok_iff, rejectValue_eq_ok_iff item,
        rejectItems_eq_ok_iff rest, List.forall_mem_append]

theorem rejectFields_eq_ok_iff : ∀ fields : List (String × Value),
    rejectFields check fields = .ok () ↔ ∀ text ∈ textsOfFields fields, check text = .ok ()
  | [] => iff_of_true rfl (List.forall_mem_nil _)
  | (name, value) :: rest => by
      rw [rejectFields, textsOfFields, then_eq_ok_iff, then_eq_ok_iff, rejectValue_eq_ok_iff value,
        rejectFields_eq_ok_iff rest, List.forall_mem_cons, List.forall_mem_append]

end

end Trees

section Urls

def urlSchemes : List String :=
  ["http://", "https://", "rtsp://"]

/-- Credentials stand before the host: an `@` comes before the first slash, or there is no
slash. -/
def HasUserinfo (tail : List Char) : Prop :=
  '@' ∈ tail.takeWhile (· ≠ '/')

instance (tail : List Char) : Decidable (HasUserinfo tail) :=
  inferInstanceAs (Decidable ('@' ∈ tail.takeWhile (· ≠ '/')))

variable {text : String} {tail : List Char}

theorem places_iff : (match tail.findIdx? (· = '@'), tail.findIdx? (· = '/') with
    | some place, some slash => decide (place < slash)
    | some _, none => true
    | none, _ => false) = true ↔ HasUserinfo tail := by
  induction tail with
  | nil => simp [HasUserinfo]
  | cons c rest ih =>
      rw [List.findIdx?_cons, List.findIdx?_cons]
      by_cases hat : c = '@'
      · subst hat
        simp only [HasUserinfo]
        cases rest.findIdx? (· = '/') <;> simp
      · by_cases hslash : c = '/'
        · subst hslash
          cases rest.findIdx? (· = '@') <;> simp [HasUserinfo]
        · have hcons : HasUserinfo (c :: rest) ↔ HasUserinfo rest := by
            simp [HasUserinfo, hslash, Ne.symm hat]
          rw [hcons, ← ih]
          simp only [hat, hslash, decide_false, Bool.false_eq_true, if_false]
          cases rest.findIdx? (· = '@') <;> cases rest.findIdx? (· = '/') <;> simp

theorem looksLikeUrlWithCredentials_iff : looksLikeUrlWithCredentials text = true ↔
    ∃ scheme ∈ urlSchemes, ∃ tail,
      afterText scheme.toList text.toList = some tail ∧ HasUserinfo tail := by
  rw [looksLikeUrlWithCredentials, List.any_eq_true]
  refine exists_congr fun scheme => and_congr_right fun _ => ?_
  cases afterText scheme.toList text.toList with
  | none => simp
  | some tail =>
      refine (@places_iff tail).trans ?_
      simp

def HasBlockedMaterial (text : String) : Prop :=
  ∃ blocked ∈ blockedMaterial, containsText (toAsciiLowercase text) blocked.2 = true

theorem rejectSensitiveText_eq_ok_iff : rejectSensitiveText text = .ok () ↔
    ¬ HasBlockedMaterial text ∧ ¬ looksLikeUrlWithCredentials (toAsciiLowercase text) = true := by
  rw [rejectSensitiveText, HasBlockedMaterial, ← List.find?_isSome]
  cases blockedMaterial.find? fun blocked => containsText (toAsciiLowercase text) blocked.2 with
  | some blocked => simp
  | none =>
      dsimp only
      rw [failIf]
      split <;> simp_all

end Urls

section Credentials

variable {text : String} {value : Value}

/-- A text without blocked words and without credentials in any of its URLs, in any letter
case. -/
structure CarriesNoCredentials (text : String) : Prop where
  words : ¬ HasBlockedMaterial text
  urls : ∀ scheme ∈ urlSchemes, ∀ before tail,
    (toAsciiLowercase text).toList = before ++ scheme.toList ++ tail → ¬ HasUserinfo tail

/-- Credentials stand in a URL that is not the first one of its scheme. -/
def LaterUserinfo (text : String) : Prop :=
  ∃ scheme ∈ ["http://", "https://"], ∃ before tail,
    (toAsciiLowercase text).toList = before ++ scheme.toList ++ tail ∧
      scheme.toList <:+: before ∧ HasUserinfo tail

/-- A blocked word stands in a text, or credentials in the first URL of a scheme. -/
def RefusedAtFirst (text : String) : Prop :=
  HasBlockedMaterial text ∨ looksLikeUrlWithCredentials (toAsciiLowercase text) = true

theorem afterText_scheme {scheme : String} (hscheme : scheme ∈ urlSchemes)
    {before tail : List Char} (h : ¬ scheme.toList <:+: before) :
    afterText scheme.toList (before ++ scheme.toList ++ tail) = some tail := by
  obtain ⟨c, pattern, hpattern, hc⟩ : ∃ c pattern, scheme.toList = c :: pattern ∧ c ∉ pattern := by
    simp only [urlSchemes, List.mem_cons, List.not_mem_nil, or_false] at hscheme
    rcases hscheme with rfl | rfl | rfl
    · exact ⟨_, _, rfl, by decide⟩
    · exact ⟨_, _, rfl, by decide⟩
    · exact ⟨_, _, rfl, by decide⟩
  rw [hpattern] at h ⊢
  rw [List.append_assoc]
  exact afterText_append hc h

theorem carriesNoCredentials_iff (h : ¬ RefusedAtFirst text) :
    CarriesNoCredentials text ↔ ¬ LaterUserinfo text := by
  rw [RefusedAtFirst, not_or, looksLikeUrlWithCredentials_iff] at h
  obtain ⟨hwords, hfirst⟩ := h
  constructor
  · rintro hclean ⟨scheme, hscheme, before, tail, hsplit, -, huserinfo⟩
    have hmem : scheme ∈ urlSchemes := List.mem_of_mem_take (i := 2) hscheme
    exact hclean.urls scheme hmem before tail hsplit huserinfo
  · intro hlater
    refine ⟨hwords, ?_⟩
    intro scheme hscheme before tail hsplit huserinfo
    by_cases hbefore : scheme.toList <:+: before
    · rcases List.mem_append.mp (show scheme ∈ ["http://", "https://"] ++ ["rtsp://"] from hscheme)
        with hweb | hcamera
      · exact hlater ⟨scheme, hweb, before, tail, hsplit, hbefore, huserinfo⟩
      · -- the scheme of the cameras is a blocked word
        refine hwords ⟨("rtsp_url", "rtsp://"), List.mem_cons_self, decide_eq_true ?_⟩
        rw [hsplit, ← List.mem_singleton.mp hcamera]
        exact ⟨before, tail, rfl⟩
    · refine hfirst ⟨scheme, hscheme, tail, ?_, huserinfo⟩
      rw [hsplit]
      exact afterText_scheme hscheme hbefore

/-- An accepted value carries no credentials exactly if none of its texts has them in a later URL,
unless another of its texts is refused. -/
theorem accepted_carriesNoCredentials_iff (value : Value) :
    (rejectSensitiveValue value = .ok () → ∀ text ∈ textsOf value, CarriesNoCredentials text) ↔
      (∃ text ∈ textsOf value, RefusedAtFirst text) ∨
        ∀ text ∈ textsOf value, ¬ LaterUserinfo text := by
  have haccepted : rejectSensitiveValue value = .ok () ↔
      ∀ text ∈ textsOf value, ¬ RefusedAtFirst text := by
    rw [rejectSensitiveValue, rejectValue_eq_ok_iff]
    refine forall₂_congr fun text _ => ?_
    rw [rejectSensitiveText_eq_ok_iff, RefusedAtFirst, not_or]
  rw [haccepted]
  by_cases hrefused : ∃ text ∈ textsOf value, RefusedAtFirst text
  · refine iff_of_true ?_ (Or.inl hrefused)
    obtain ⟨text, hmem, htext⟩ := hrefused
    exact fun h => absurd htext (h text hmem)
  · have hall : ∀ text ∈ textsOf value, ¬ RefusedAtFirst text :=
      fun text hmem htext => hrefused ⟨text, hmem, htext⟩
    rw [or_iff_right hrefused, imp_iff_right hall]
    exact forall₂_congr fun text hmem => carriesNoCredentials_iff (hall text hmem)

theorem second_url_accepted :
    rejectSensitiveValue (.string "http://a/ http://u:p@b/") = .ok () ∧
      ¬ ∀ text ∈ textsOf (.string "http://a/ http://u:p@b/"), CarriesNoCredentials text := by
  refine ⟨by decide +kernel, ?_⟩
  intro h
  rw [textsOf, List.forall_mem_singleton] at h
  exact h.urls "http://" (by decide) "http://a/ ".toList "u:p@b/".toList (by decide) (by decide)

end Credentials

section Sanitizer

variable {text : String}

def redactedMarker : List Char :=
  "[redacted]".toList

def removedWords : List (List Char) :=
  sanitizedNeedles.flatMap fun needle => [needle.toList, (toAsciiUppercase needle).toList]

def keptPieces (text : String) : List (List Char) :=
  shownPieces redactedMarker.length 500 (piecesWithout removedWords [text.toList])

def unknownWords : List String :=
  ["password=", "data:image", ";base64,"]

/-- A blocked word that the sanitiser does not know, or one that it knows in another mix of small
and capital letters. -/
def KeptWord (word : List Char) : Prop :=
  (∃ needle ∈ unknownWords, word.map Char.toLower = needle.toList) ∨
    ∃ needle ∈ sanitizedNeedles, word.map Char.toLower = needle.toList ∧
      word ≠ needle.toList ∧ word ≠ (toAsciiUppercase needle).toList

/-- Nothing of what is left of a text is refused: no blocked word stands in a piece, and no
credentials follow the first URL of a scheme. -/
structure KeepsNothingSensitive (text : String) : Prop where
  words : ∀ piece ∈ keptPieces text, ∀ word, word <:+: piece → ¬ KeptWord word
  urls : ∀ scheme ∈ urlSchemes, ∀ tail,
    tailAfter scheme.toList ((keptPieces text).map (List.map Char.toLower)) = some tail →
      ¬ HasUserinfo tail

theorem apart_of_all {pattern : List Char}
    (h : (pattern ≠ [] && !pattern.contains '[' && !pattern.contains ']' &&
      !decide (pattern <:+: "redacted".toList)) = true) : Apart redactedMarker pattern := by
  simp only [Bool.and_eq_true, decide_eq_true_eq, Bool.not_eq_true', decide_eq_false_iff_not,
    List.contains_eq_mem] at h
  exact ⟨h.1.1.1, '[', "redacted".toList, ']', by decide, h.1.1.2, h.1.2, h.2⟩

theorem apart_removedWords : ∀ word ∈ removedWords, Apart redactedMarker word := by
  have hall : ∀ word ∈ removedWords, (word ≠ [] && !word.contains '[' && !word.contains ']' &&
      !decide (word <:+: "redacted".toList)) = true := forall_mem_of_all (by decide +kernel)
  exact fun word hword => apart_of_all (hall word hword)

theorem toList_replaceText (pattern replacement text : String) :
    (replaceText pattern replacement text).toList =
      replaceFrom pattern.toList replacement.toList 0 text.toList :=
  String.toList_ofList

theorem toList_foldl_replace (needles : List String) (text : String) :
    (needles.foldl (fun sanitized needle => replaceText (toAsciiUppercase needle) "[redacted]"
      (replaceText needle "[redacted]" sanitized)) text).toList =
    (needles.flatMap fun needle => [needle.toList, (toAsciiUppercase needle).toList]).foldl
      (fun sanitized word => replaceFrom word redactedMarker 0 sanitized) text.toList := by
  induction needles generalizing text with
  | nil => rfl
  | cons needle rest ih =>
      have htext : (replaceText (toAsciiUppercase needle) "[redacted]"
          (replaceText needle "[redacted]" text)).toList =
          replaceFrom (toAsciiUppercase needle).toList redactedMarker 0
            (replaceFrom needle.toList redactedMarker 0 text.toList) := by
        rw [toList_replaceText, toList_replaceText]
        rfl
      rw [List.foldl_cons, ih, htext, List.flatMap_cons, List.foldl_append]
      rfl

theorem toList_sanitizeModelText : (sanitizeModelText text).toList =
    (redactedMarker.intercalate (piecesWithout removedWords [text.toList])).take 500 := by
  have hpieces := foldl_replaceFrom apart_removedWords [text.toList]
  rw [List.intercalate_singleton] at hpieces
  rw [← hpieces, removedWords, ← toList_foldl_replace, sanitizeModelText, takeChars,
    String.toList_ofList]

theorem lowered_sanitizeModelText : (toAsciiLowercase (sanitizeModelText text)).toList =
    (redactedMarker.intercalate ((piecesWithout removedWords [text.toList]).map
      (List.map Char.toLower))).take 500 := by
  have hmarker : redactedMarker.map Char.toLower = redactedMarker := by decide
  rw [toAsciiLowercase, String.toList_ofList, toList_sanitizeModelText, List.map_take,
    map_intercalate, hmarker]

theorem lowered_keptPieces : (keptPieces text).map (List.map Char.toLower) =
    shownPieces redactedMarker.length 500 ((piecesWithout removedWords [text.toList]).map
      (List.map Char.toLower)) :=
  (shownPieces_map _ _ _ _).symm

theorem not_within_keptPieces {word piece : List Char} (hword : word ∈ removedWords)
    (hpiece : piece ∈ keptPieces text) : ¬ word <:+: piece := by
  obtain ⟨whole, hwhole, hshown⟩ := prefix_of_mem_shownPieces hpiece
  exact fun h => not_within_piecesWithout hword (apart_removedWords word hword).ne_nil hwhole
    (h.trans hshown.isInfix)

theorem blockedMaterial_perm :
    (blockedMaterial.map Prod.snd).Perm (unknownWords ++ sanitizedNeedles) := by
  decide

/-- The blocked words of a sanitised text are those that the sanitiser left in its pieces. -/
theorem hasBlockedMaterial_sanitized_iff : HasBlockedMaterial (sanitizeModelText text) ↔
    ∃ piece ∈ keptPieces text, ∃ word, word <:+: piece ∧ KeptWord word := by
  have happart : ∀ blocked ∈ blockedMaterial, Apart redactedMarker blocked.2.toList := by
    have hall : ∀ blocked ∈ blockedMaterial, (blocked.2.toList ≠ [] &&
        !blocked.2.toList.contains '[' && !blocked.2.toList.contains ']' &&
        !decide (blocked.2.toList <:+: "redacted".toList)) = true :=
      forall_mem_of_all (by decide +kernel)
    exact fun blocked hblocked => apart_of_all (hall blocked hblocked)
  have hpieces : HasBlockedMaterial (sanitizeModelText text) ↔
      ∃ blocked ∈ blockedMaterial, ∃ piece ∈ keptPieces text, ∃ word,
        word <:+: piece ∧ word.map Char.toLower = blocked.2.toList := by
    rw [HasBlockedMaterial]
    refine exists_congr fun blocked => and_congr_right fun hblocked => ?_
    rw [containsText, decide_eq_true_eq, lowered_sanitizeModelText,
      infix_shown_iff (happart blocked hblocked), ← lowered_keptPieces]
    simp only [List.mem_map, exists_exists_and_eq_and, List.infix_map_iff]
    refine exists_congr fun piece => and_congr_right fun _ => exists_congr fun word => ?_
    exact and_congr_right fun _ => eq_comm
  rw [hpieces]
  constructor
  · rintro ⟨blocked, hblocked, piece, hpiece, word, hword, hlower⟩
    refine ⟨piece, hpiece, word, hword, ?_⟩
    have hmem : blocked.2 ∈ unknownWords ++ sanitizedNeedles :=
      blockedMaterial_perm.mem_iff.mp (List.mem_map_of_mem hblocked)
    rcases List.mem_append.mp hmem with hunknown | hknown
    · exact Or.inl ⟨_, hunknown, hlower⟩
    · have hremoved : ∀ removed ∈ [blocked.2.toList, (toAsciiUppercase blocked.2).toList],
          word ≠ removed := by
        rintro removed hmem rfl
        exact not_within_keptPieces (List.mem_flatMap.mpr ⟨_, hknown, hmem⟩) hpiece hword
      rw [List.forall_mem_cons, List.forall_mem_singleton] at hremoved
      exact Or.inr ⟨_, hknown, hlower, hremoved⟩
  · rintro ⟨piece, hpiece, word, hword, hkept⟩
    have hmem : ∃ needle ∈ unknownWords ++ sanitizedNeedles,
        word.map Char.toLower = needle.toList := by
      rcases hkept with ⟨needle, hneedle, hlower⟩ | ⟨needle, hneedle, hlower, -⟩
      · exact ⟨needle, List.mem_append_left _ hneedle, hlower⟩
      · exact ⟨needle, List.mem_append_right _ hneedle, hlower⟩
    obtain ⟨needle, hneedle, hlower⟩ := hmem
    obtain ⟨blocked, hblocked, rfl⟩ :=
      List.mem_map.mp (blockedMaterial_perm.mem_iff.mpr hneedle)
    exact ⟨blocked, hblocked, piece, hpiece, word, hword, hlower⟩

theorem hasUserinfo_filter (tail : List Char) :
    HasUserinfo (tail.filter fun c => c = '@' || c = '/') ↔ HasUserinfo tail := by
  induction tail with
  | nil => exact Iff.rfl
  | cons c rest ih =>
      by_cases hslash : c = '/'
      · subst hslash
        simp [HasUserinfo]
      · by_cases hat : c = '@'
        · subst hat
          simp [HasUserinfo]
        · have hcons : HasUserinfo (c :: rest) ↔ HasUserinfo rest := by
            simp [HasUserinfo, hslash, Ne.symm hat]
          rw [List.filter_cons_of_neg (by simp [hat, hslash]), ih, hcons]

theorem looksLikeUrl_sanitized_iff :
    looksLikeUrlWithCredentials (toAsciiLowercase (sanitizeModelText text)) = true ↔
      ∃ scheme ∈ urlSchemes, ∃ tail,
        tailAfter scheme.toList ((keptPieces text).map (List.map Char.toLower)) = some tail ∧
          HasUserinfo tail := by
  have happart : ∀ scheme ∈ urlSchemes, Apart redactedMarker scheme.toList := by
    have hall : ∀ scheme ∈ urlSchemes, (scheme.toList ≠ [] && !scheme.toList.contains '[' &&
        !scheme.toList.contains ']' && !decide (scheme.toList <:+: "redacted".toList)) = true :=
      forall_mem_of_all (by decide +kernel)
    exact fun scheme hscheme => apart_of_all (hall scheme hscheme)
  have hfiltered : ∀ found : Option (List Char), (∃ tail, found = some tail ∧ HasUserinfo tail) ↔
      ∃ tail, found.map (List.filter fun c => c = '@' || c = '/') = some tail ∧
        HasUserinfo tail := by
    intro found
    cases found with
    | none => simp
    | some tail => simp [hasUserinfo_filter]
  have hmarker : redactedMarker.filter (fun c => c = '@' || c = '/') = [] := by decide
  rw [looksLikeUrlWithCredentials_iff]
  refine exists_congr fun scheme => and_congr_right fun hscheme => ?_
  rw [hfiltered, lowered_sanitizeModelText, afterText_shown (happart scheme hscheme) hmarker,
    ← hfiltered, lowered_keptPieces]

/-- The check accepts a sanitised text exactly if the sanitiser left nothing sensitive. -/
theorem sanitized_accepted_iff (text : String) :
    rejectSensitiveText (sanitizeModelText text) = .ok () ↔ KeepsNothingSensitive text := by
  rw [rejectSensitiveText_eq_ok_iff, hasBlockedMaterial_sanitized_iff, looksLikeUrl_sanitized_iff]
  constructor
  · rintro ⟨hwords, hurls⟩
    refine ⟨?_, ?_⟩
    · intro piece hpiece word hword hkept
      exact hwords ⟨piece, hpiece, word, hword, hkept⟩
    · intro scheme hscheme tail htail huserinfo
      exact hurls ⟨scheme, hscheme, tail, htail, huserinfo⟩
  · rintro ⟨hwords, hurls⟩
    refine ⟨?_, ?_⟩
    · rintro ⟨piece, hpiece, word, hword, hkept⟩
      exact hwords piece hpiece word hword hkept
    · rintro ⟨scheme, hscheme, tail, htail, huserinfo⟩
      exact hurls scheme hscheme tail htail huserinfo

theorem sanitized_password_refused :
    ¬ ∀ text, rejectSensitiveText (sanitizeModelText text) = .ok () := by
  intro h
  have hrefused : rejectSensitiveText (sanitizeModelText "A note says password=1234") ≠ .ok () := by
    decide +kernel
  exact hrefused (h _)

end Sanitizer

end HarborBeacon.VisionEvents
