import HarborBeacon.EvidenceUrls

/-!
What the redaction of evidence leaves of secrets, for ASCII texts. It is complete and final
exactly if no userinfo stays exposed: in front of a URL that the scan does not take, or behind a
secret value that hides the end of an authority.
-/

namespace HarborBeacon.DeviceEvidence

open ByteSlices Json KeyedValues Text

/-- A userinfo other than the marker; it reaches up to the last at sign. -/
def ForeignUserinfo (authority : List Char) : Prop :=
  '@' ∈ authority ∧
    authority.rdropWhile (fun ch => !(ch = '@' : Bool)) ≠ userinfoMarker ++ ['@']

/-- No URL of a known scheme, in any letter case and at any position, has a userinfo other than
the marker. -/
def UrlsRedacted (text : List Char) : Prop :=
  ∀ front after, text = front ++ schemeMark ++ after → Named front →
    ¬ ForeignUserinfo (authorityOf after)

/-- Each key, in any letter case, stands in front of the marker. -/
def KeysRedacted (text : List Char) : Prop :=
  ∀ needle ∈ secretNeedles, ∀ before after, text = before ++ after →
    needle <:+ before.map Char.toLower → valueMarker <+: after

def afterUserinfo (after : List Char) : List Char :=
  (if '@' ∈ authorityOf after then (authorityOf after).rtakeWhile fun ch => !(ch = '@' : Bool)
    else authorityOf after) ++ hideUserinfo (pastAuthority after)

/-- A place in a text is shown: with the userinfos in front of it hidden, it is not in the value
of a key. -/
def Shown (front : List Char) : Prop :=
  ∃ since, stateAfter secretReading secretNeedles (some []) (hideUserinfo front) = some since

/-- Read from the start of an authority, an at sign is shown before the authority ends. What would
end it does not if it is in the value of a key. -/
def ReachesAt (text : List Char) : Prop :=
  ∃ before after since, text = before ++ '@' :: after ∧
    stateAfter secretReading secretNeedles (some []) before = some since ∧
    ∀ front ch rest, before = front ++ ch :: rest → endsAuthority ch = true →
      endsValue ch = false ∧ stateAfter secretReading secretNeedles (some []) front = none

/-- Whether a userinfo is exposed behind a `://`. Behind one that the scan takes, an at sign
follows the userinfo before the authority ends; behind another one there is a userinfo. -/
def Exposed (front after : List Char) : Prop :=
  if isTaken front then ReachesAt (afterUserinfo after)
  else
    ReachesAt (hideUserinfo after) ∧
      ∀ rest, hideUserinfo after = userinfoMarker ++ '@' :: rest → ReachesAt rest

/-- No URL of a known scheme that is shown exposes a userinfo. -/
def NothingExposed (text : List Char) : Prop :=
  ∀ front after, text = front ++ schemeMark ++ after → Named front → Shown front →
    ¬ Exposed front after

section Userinfos

variable {text front after : List Char} {authority : List Char}

theorem neutral_of_mem {c : Char} (h : c ∈ [':', '/', '@']) :
    Neutral secretReading secretNeedles c := by
  have hends : ∀ c ∈ [':', '/', '@'], endsValue c = false :=
    forall_mem_of_all (by decide)
  have hmarker : ∀ c ∈ [':', '/', '@'], c ∉ valueMarker :=
    forall_mem_of_all (by decide)
  have hwords : ∀ c ∈ [':', '/', '@'], ∀ needle ∈ secretNeedles, c.toLower ∉ needle :=
    forall_mem_of_all (by decide)
  exact ⟨hends c h, hmarker c h, hwords c h⟩

theorem neutral_schemeMark : ∀ c ∈ schemeMark, Neutral secretReading secretNeedles c := by
  have hall : ∀ c ∈ schemeMark, c ∈ [':', '/', '@'] := forall_mem_of_all (by decide)
  exact fun c hc => neutral_of_mem (hall c hc)

theorem hideValues_userinfoMarker (text : List Char) :
    hideValues secretReading secretNeedles (userinfoMarker ++ '@' :: text) =
      userinfoMarker ++ '@' :: hideValues secretReading secretNeedles text := by
  have hneutral : Neutral secretReading secretNeedles '@' := neutral_of_mem (by decide)
  have hnone : ∀ needle ∈ secretNeedles,
      ¬ needle <:+: [].reverse ++ userinfoMarker.map secretReading.norm := by decide
  obtain ⟨hshown, since, hstate⟩ := hideFrom_of_not_within hnone
  rw [hideValues, hideFrom_append, hshown, hstate, ← List.singleton_append,
    hideFrom_mark separate_secretNeedles (by simpa using hneutral) (by simp)]
  rfl

theorem authorityOf_userinfoMarker (text : List Char) :
    authorityOf (userinfoMarker ++ '@' :: text) = userinfoMarker ++ '@' :: authorityOf text := by
  have hall : ∀ ch ∈ userinfoMarker ++ ['@'], (!endsAuthority ch) = true :=
    forall_mem_of_all (by decide)
  have hsplit : userinfoMarker ++ '@' :: text = (userinfoMarker ++ ['@']) ++ text := by simp
  rw [hsplit, authorityOf, List.takeWhile_append_of_pos hall]
  simp [authorityOf]

theorem rdropWhile_eq_nil_iff_not_mem :
    authority.rdropWhile (fun ch => !(ch = '@' : Bool)) = [] ↔ '@' ∉ authority := by
  rw [List.rdropWhile_eq_nil_iff]
  constructor
  · intro hall hmem
    have hnot := hall '@' hmem
    simp at hnot
  · intro hnone ch hch
    have hne : ch ≠ '@' := fun heq => hnone (heq ▸ hch)
    simp [hne]

theorem foreignUserinfo_marker (authority : List Char) :
    ForeignUserinfo (userinfoMarker ++ '@' :: authority) ↔ '@' ∈ authority := by
  have hsplit : userinfoMarker ++ '@' :: authority = (userinfoMarker ++ ['@']) ++ authority := by
    simp
  have hmarker : (userinfoMarker ++ ['@']).rdropWhile (fun ch => !(ch = '@' : Bool)) =
      userinfoMarker ++ ['@'] := List.rdropWhile_concat_neg _ _ _ (by decide)
  rw [ForeignUserinfo, hsplit, rdropWhile_append]
  by_cases hmem : '@' ∈ authority
  · have hne := mt rdropWhile_eq_nil_iff_not_mem.mp (not_not_intro hmem)
    rw [if_neg hne]
    refine iff_of_true ⟨List.mem_append_right _ hmem, ?_⟩ hmem
    intro hsame
    exact hne (List.append_right_eq_self.mp hsame)
  · rw [if_pos (rdropWhile_eq_nil_iff_not_mem.mpr hmem), hmarker]
    exact iff_of_false (fun hforeign => hforeign.2 rfl) hmem

theorem withoutUserinfo_of_not_foreign (h : ¬ ForeignUserinfo authority) :
    withoutUserinfo authority = authority := by
  rw [withoutUserinfo]
  split_ifs with hmem
  · have huserinfo : authority.rdropWhile (fun ch => !(ch = '@' : Bool)) =
        userinfoMarker ++ ['@'] := by
      by_contra hne
      exact h ⟨hmem, hne⟩
    have hparts := List.rdropWhile_append_rtakeWhile (p := fun ch => !(ch = '@' : Bool))
      (l := authority)
    rw [huserinfo] at hparts
    simpa using hparts
  · rfl

theorem exists_marker_of_hideValues {rest : List Char}
    (h : hideValues secretReading secretNeedles text = userinfoMarker ++ '@' :: rest) :
    ∃ tail, text = userinfoMarker ++ '@' :: tail := by
  have hkeys : ∀ c ∈ userinfoMarker ++ ['@'], ∀ needle ∈ secretNeedles,
      needle.getLast? ≠ some (secretReading.norm c) :=
    forall_mem_of_all (by decide)
  have hsplit : hideFrom secretReading secretNeedles (some []) text =
      (userinfoMarker ++ ['@']) ++ rest := by
    rw [← hideValues, h]
    simp
  obtain ⟨tail, htail⟩ := exists_prefix_of_hideFrom separate_secretNeedles hkeys hsplit
  exact ⟨tail, by rw [htail]; simp⟩

theorem foreignUserinfo_of_no_marker (h : ∀ rest, authority ≠ userinfoMarker ++ '@' :: rest) :
    ForeignUserinfo authority ↔ '@' ∈ authority := by
  refine and_iff_left ?_
  intro hmarker
  have hparts := List.rdropWhile_append_rtakeWhile (p := fun ch => !(ch = '@' : Bool))
    (l := authority)
  rw [hmarker] at hparts
  apply h (authority.rtakeWhile fun ch => !(ch = '@' : Bool))
  rw [← List.singleton_append, ← List.append_assoc]
  exact hparts.symm

end Userinfos

section Authorities

variable {text front after : List Char}

theorem mem_authorityOf_iff : '@' ∈ authorityOf text ↔ ∃ before after,
    text = before ++ '@' :: after ∧ ∀ ch ∈ before, endsAuthority ch = false := by
  constructor
  · intro hmem
    obtain ⟨before, after, hauthority⟩ := List.append_of_mem hmem
    refine ⟨before, after ++ pastAuthority text, ?_, ?_⟩
    · rw [← List.cons_append, ← List.append_assoc, ← hauthority,
        authorityOf_append_pastAuthority]
    · intro ch hch
      have hshown : ch ∈ authorityOf text := by
        rw [hauthority]
        exact List.mem_append_left _ hch
      simpa using List.mem_takeWhile_imp hshown
  · rintro ⟨before, after, rfl, hbefore⟩
    have hall : ∀ ch ∈ before, (!endsAuthority ch) = true := by
      intro ch hch
      rw [hbefore ch hch]
      rfl
    rw [authorityOf, List.takeWhile_append_of_pos hall, List.takeWhile_cons_of_pos (by decide)]
    exact List.mem_append_right _ List.mem_cons_self

theorem not_mem_valueMarker {ch : Char} (h : endsAuthority ch = true) :
    ch ∉ secretReading.marker := by
  have hall : ∀ ch ∈ valueMarker, endsAuthority ch = false :=
    forall_mem_of_all (by decide)
  intro hmem
  rw [hall ch hmem] at h
  cases h

theorem reachesAt_iff (text : List Char) :
    '@' ∈ authorityOf (hideValues secretReading secretNeedles text) ↔ ReachesAt text := by
  have hat : Neutral secretReading secretNeedles '@' := neutral_of_mem (by decide)
  rw [mem_authorityOf_iff]
  constructor
  · rintro ⟨shown, tail, htext, hshown⟩
    obtain ⟨before, after, since, rfl, hbefore, hstate, -⟩ :=
      exists_split_char separate_secretNeedles hat htext
    refine ⟨before, after, since, rfl, hstate, ?_⟩
    intro front ch rest hfront hends
    have hhidden : ch ∉ shown := by
      intro hmem
      rw [hshown ch hmem] at hends
      cases hends
    rw [← hbefore, mem_hideFrom (not_mem_valueMarker hends)] at hhidden
    refine ⟨?_, ?_⟩
    · by_contra hvalue
      exact hhidden ⟨front, rest, hfront, Or.inl (Bool.eq_true_of_not_eq_false hvalue)⟩
    · by_contra hstateFront
      exact hhidden ⟨front, rest, hfront, Or.inr hstateFront⟩
  · rintro ⟨before, after, since, rfl, hstate, hbefore⟩
    refine ⟨hideValues secretReading secretNeedles before,
      hideValues secretReading secretNeedles after, ?_, ?_⟩
    · have hmark : ∀ c ∈ ['@'], Neutral secretReading secretNeedles c := by
        intro c hc
        rwa [List.mem_singleton.mp hc]
      have hsplit := hideValues_mark separate_secretNeedles hmark (by simp) hstate after
      simpa using hsplit
    · intro ch hch
      by_contra hends
      have hauthority := Bool.eq_true_of_not_eq_false hends
      obtain ⟨front, rest, hfront, hread⟩ :=
        (mem_hideFrom (not_mem_valueMarker hauthority)).mp hch
      obtain ⟨hvalue, hnone⟩ := hbefore front ch rest hfront hauthority
      rcases hread with hvalueEnds | hshown
      · exact absurd hvalueEnds (Bool.eq_false_iff.mp hvalue)
      · exact hshown hnone

theorem foreign_hideValues_iff (text : List Char) :
    ForeignUserinfo (authorityOf (hideValues secretReading secretNeedles text)) ↔
      ReachesAt text ∧ ∀ rest, text = userinfoMarker ++ '@' :: rest → ReachesAt rest := by
  by_cases hmarker : ∃ rest, text = userinfoMarker ++ '@' :: rest
  · obtain ⟨rest, rfl⟩ := hmarker
    have hreaches : ReachesAt (userinfoMarker ++ '@' :: rest) := by
      rw [← reachesAt_iff, hideValues_userinfoMarker, authorityOf_userinfoMarker]
      exact List.mem_append_right _ List.mem_cons_self
    rw [hideValues_userinfoMarker, authorityOf_userinfoMarker, foreignUserinfo_marker,
      reachesAt_iff]
    constructor
    · intro hrest
      refine ⟨hreaches, ?_⟩
      intro other hother
      rwa [← (List.cons.inj (List.append_cancel_left hother)).2]
    · exact fun h => h.2 rest rfl
  · have hauthority : ∀ rest, authorityOf (hideValues secretReading secretNeedles text) ≠
        userinfoMarker ++ '@' :: rest := by
      intro rest hrest
      have hshown := authorityOf_append_pastAuthority
        (hideValues secretReading secretNeedles text)
      rw [hrest, List.append_assoc, List.cons_append] at hshown
      exact hmarker (exists_marker_of_hideValues hshown.symm)
    rw [foreignUserinfo_of_no_marker hauthority, reachesAt_iff]
    exact (and_iff_left fun rest hrest => absurd ⟨rest, hrest⟩ hmarker).symm

theorem head?_hideUserinfo (text : List Char) : (hideUserinfo text).head? = text.head? := by
  cases h : splitAtText schemeMark text with
  | none => rw [hideUserinfo_none h]
  | some cut =>
      obtain ⟨gap, after⟩ := cut
      have hhead : ∀ rest, (gap ++ schemeMark ++ rest).head? = (gap ++ schemeMark).head? := by
        intro rest
        cases gap with
        | nil => rfl
        | cons c gap => rfl
      rw [splitAtText_eq h, hhead]
      by_cases hscheme : schemeOf gap ∈ urlSchemes
      · rw [← splitAtText_eq h, hideUserinfo_url h hscheme, List.append_assoc _ _ (hideUserinfo _),
          hhead]
      · rw [← splitAtText_eq h, hideUserinfo_other h hscheme, hhead]

theorem ne_marker_of_not_mem (hmem : '@' ∉ authorityOf after) (rest : List Char) :
    authorityOf after ++ hideUserinfo (pastAuthority after) ≠ userinfoMarker ++ '@' :: rest := by
  intro heq
  have hmarker : ∀ ch ∈ userinfoMarker ++ ['@'], endsAuthority ch = false :=
    forall_mem_of_all (by decide)
  have hsplit : authorityOf after ++ hideUserinfo (pastAuthority after) =
      (userinfoMarker ++ ['@']) ++ rest := by
    rw [heq]
    simp
  rcases List.append_eq_append_iff.mp hsplit with ⟨gap, hgap, hpast⟩ | ⟨gap, hgap, -⟩
  · cases gap with
    | nil =>
        rw [List.append_nil] at hgap
        apply hmem
        rw [← hgap]
        exact List.mem_append_right _ (List.mem_singleton_self _)
    | cons ch gap =>
        have hhead := head?_hideUserinfo (pastAuthority after)
        rw [hpast, List.cons_append, List.head?_cons] at hhead
        have hends := List.head?_dropWhile_not (fun ch => !endsAuthority ch) after
        rw [← pastAuthority, ← hhead] at hends
        have hnot : endsAuthority ch = false := by
          apply hmarker
          rw [hgap]
          exact List.mem_append_right _ List.mem_cons_self
        simp [hnot] at hends
  · apply hmem
    rw [hgap]
    simp

theorem foreign_hideAfter_iff (front after : List Char) :
    ForeignUserinfo (authorityOf (hideValues secretReading secretNeedles
      (hideAfter (isTaken front) after))) ↔ Exposed front after := by
  rw [Exposed]
  cases isTaken front with
  | false => exact foreign_hideValues_iff (hideUserinfo after)
  | true =>
      rw [if_pos rfl, hideAfter, if_pos rfl, withoutUserinfo, afterUserinfo]
      by_cases hmem : '@' ∈ authorityOf after
      · rw [if_pos hmem, if_pos hmem, List.append_assoc, List.cons_append,
          hideValues_userinfoMarker, authorityOf_userinfoMarker, foreignUserinfo_marker,
          reachesAt_iff]
      · rw [if_neg hmem, if_neg hmem, foreign_hideValues_iff]
        exact and_iff_left fun rest hrest => absurd hrest (ne_marker_of_not_mem hmem rest)

end Authorities

section Results

variable {text : List Char}

theorem urlsRedacted_iff (text : List Char) :
    UrlsRedacted (hideSecrets text) ↔ NothingExposed text := by
  have hends : ∀ scheme ∈ urlSchemes, ∀ d, endsValue d = true → d.toLower ∉ scheme := by
    intro scheme hscheme d hd
    have hall : ∀ d ∈ ['&', ' ', '\n', '\r', '\t', '"', '\'', '<', '>'],
        ∀ scheme ∈ urlSchemes, d.toLower ∉ scheme :=
      forall_mem_of_all (by decide)
    exact hall d (of_decide_eq_true hd) scheme hscheme
  have hnamed : ∀ {front since}, stateAfter secretReading secretNeedles (some []) front =
      some since → (Named (hideValues secretReading secretNeedles front) ↔ Named front) := by
    intro front since hstate
    refine exists_congr fun scheme => and_congr_right fun hscheme => ?_
    exact word_suffix_iff hstate (hends scheme hscheme)
  constructor
  · rintro hredacted front after rfl hfront ⟨since, hstate⟩ hexposed
    have hwhole : hideSecrets (front ++ schemeMark ++ after) =
        hideValues secretReading secretNeedles (hideUserinfo front) ++ schemeMark ++
          hideValues secretReading secretNeedles (hideAfter (isTaken front) after) := by
      rw [hideSecrets, hideUserinfo_split]
      exact hideValues_mark separate_secretNeedles neutral_schemeMark (by decide) hstate _
    apply hredacted _ _ hwhole
    · rwa [hnamed hstate, named_hideUserinfo]
    · rwa [foreign_hideAfter_iff]
  · intro hnothing shown rest hwhole hshown hforeign
    obtain ⟨first, second, since, hparts, rfl, hstate, rfl⟩ :=
      exists_split_mark separate_secretNeedles neutral_schemeMark (by decide) hwhole
    obtain ⟨front, after, rfl, rfl, rfl⟩ := exists_hideUserinfo_split hparts
    rw [hnamed hstate, named_hideUserinfo] at hshown
    rw [foreign_hideAfter_iff] at hforeign
    exact hnothing front after rfl hshown ⟨since, hstate⟩ hforeign

theorem keysRedacted (text : List Char) : KeysRedacted (hideSecrets text) :=
  fun _ hneedle _ _ hwhole hkey => marker_of_key separate_secretNeedles hneedle hwhole hkey

theorem named_of_schemeOf {gap : List Char} (h : schemeOf gap ∈ urlSchemes) : Named gap := by
  have hlower : ∀ scheme ∈ urlSchemes, scheme.map Char.toLower = scheme := by decide
  refine ⟨schemeOf gap, h, ?_⟩
  rw [← hlower _ h]
  exact (List.rtakeWhile_suffix _ _).map _

theorem hideUserinfo_of_urlsRedacted (h : UrlsRedacted text) : hideUserinfo text = text := by
  induction hn : text.length using Nat.strong_induction_on generalizing text with
  | _ n ih =>
      cases hsplit : splitAtText schemeMark text with
      | none => exact hideUserinfo_none hsplit
      | some cut =>
          obtain ⟨gap, after⟩ := cut
          have htext := splitAtText_eq hsplit
          -- whatever is redacted in the whole is redacted behind a place in it
          have hbehind : ∀ before rest, text = before ++ rest → UrlsRedacted rest := by
            intro before rest hrest front tail htail hfront
            have hwhole : text = (before ++ front) ++ schemeMark ++ tail := by
              rw [hrest, htail]
              simp only [List.append_assoc]
            apply h _ _ hwhole
            obtain ⟨scheme, hscheme, hsuffix⟩ := hfront
            refine ⟨scheme, hscheme, ?_⟩
            rw [List.map_append]
            exact hsuffix.trans (List.suffix_append _ _)
          by_cases hscheme : schemeOf gap ∈ urlSchemes
          · have hauthority := h gap after htext (named_of_schemeOf hscheme)
            have hpast : text = gap ++ schemeMark ++ authorityOf after ++ pastAuthority after := by
              rw [List.append_assoc, authorityOf_append_pastAuthority, htext]
            have hshorter := length_tail_lt (p := fun ch => !endsAuthority ch) hsplit
            have hrest := ih (pastAuthority after).length (by rw [pastAuthority]; omega)
              (hbehind _ _ hpast) rfl
            rw [hideUserinfo_url hsplit hscheme]
            change gap ++ schemeMark ++ withoutUserinfo (authorityOf after) ++
              hideUserinfo (pastAuthority after) = text
            rw [withoutUserinfo_of_not_foreign hauthority, hrest, ← hpast]
          · have hshorter := length_after_lt hsplit
            have hrest := ih after.length (by omega) (hbehind _ _ htext) rfl
            rw [hideUserinfo_other hsplit hscheme, hrest, ← htext]

theorem hideSecrets_idem (h : UrlsRedacted (hideSecrets text)) :
    hideSecrets (hideSecrets text) = hideSecrets text := by
  have hvalues := hideValues_idem separate_secretNeedles (hideUserinfo text)
  rw [← hideSecrets] at hvalues
  rw [hideSecrets, hideUserinfo_of_urlsRedacted h, hvalues]

end Results

end HarborBeacon.DeviceEvidence
