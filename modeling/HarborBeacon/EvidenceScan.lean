import HarborBeacon.DeviceEvidence
import HarborBeacon.Results

/-!
What the redaction of evidence computes, character by character, and when its slices exist. The
scan for URLs looks back for the scheme of each `://` that it comes to and steps over one byte of
the character in front of it, so it fails where that character is longer.
-/

namespace HarborBeacon.DeviceEvidence

open ByteSlices Json Results Text

def schemeOf (front : List Char) : List Char :=
  front.rtakeWhile isSchemeChar

theorem splitAtText_length {pattern text gap after : List Char}
    (h : splitAtText pattern text = some (gap, after)) :
    text.length = gap.length + pattern.length + after.length := by
  rw [splitAtText_eq h, List.length_append, List.length_append]

theorem length_after_lt {text gap after : List Char}
    (h : splitAtText schemeMark text = some (gap, after)) : after.length < text.length := by
  have hlength := splitAtText_length h
  have hmark : schemeMark.length = 3 := rfl
  omega

theorem length_tail_lt {text gap after : List Char} {p : Char → Bool}
    (h : splitAtText schemeMark text = some (gap, after)) :
    (after.dropWhile p).length < text.length :=
  lt_of_le_of_lt (List.dropWhile_suffix p).length_le (length_after_lt h)

/-- What stands in front of each `://` that the scan comes to, from the place where it looked
last. The authority of a URL is passed over with its scheme. -/
def schemeFronts (text : List Char) : List (List Char) :=
  match _ : splitAtText schemeMark text with
  | none => []
  | some (gap, after) =>
      if schemeOf gap ∈ urlSchemes then
        gap :: schemeFronts (after.dropWhile fun ch => !endsAuthority ch)
      else gap :: schemeFronts after
termination_by text.length
decreasing_by
  · exact length_tail_lt (by assumption)
  · exact length_after_lt (by assumption)

def clearFront (front : List Char) : Bool :=
  (front.rdropWhile isSchemeChar).getLast?.all fun ch => ch.utf8Size = 1

def withoutUserinfo (authority : List Char) : List Char :=
  if '@' ∈ authority then
    userinfoMarker ++ '@' :: authority.rtakeWhile fun ch => !(ch = '@' : Bool)
  else authority

def hideUserinfo (text : List Char) : List Char :=
  match _ : splitAtText schemeMark text with
  | none => text
  | some (gap, after) =>
      if schemeOf gap ∈ urlSchemes then
        gap ++ schemeMark ++ withoutUserinfo (after.takeWhile fun ch => !endsAuthority ch) ++
          hideUserinfo (after.dropWhile fun ch => !endsAuthority ch)
      else gap ++ schemeMark ++ hideUserinfo after
termination_by text.length
decreasing_by
  · exact length_tail_lt (by assumption)
  · exact length_after_lt (by assumption)

/-- No scheme that the scan looks at stands behind a longer character. -/
def SchemesClear (text : List Char) : Prop :=
  ∀ front ∈ schemeFronts text, clearFront front = true

def StartsScan (done rest : List Char) : Prop :=
  (∀ c ∈ done.getLast?, isSchemeChar c = false ∧ c.utf8Size = 1) ∨
    ∀ c ∈ rest.head?, endsAuthority c = true

section Steps

variable {text gap after : List Char}

theorem schemeFronts_eq (text : List Char) : schemeFronts text =
    match splitAtText schemeMark text with
    | none => []
    | some (gap, after) =>
        if schemeOf gap ∈ urlSchemes then
          gap :: schemeFronts (after.dropWhile fun ch => !endsAuthority ch)
        else gap :: schemeFronts after := by
  rw [schemeFronts]
  split
  · rename_i h
    rw [h]
  · rename_i h
    rw [h]

theorem hideUserinfo_eq (text : List Char) : hideUserinfo text =
    match splitAtText schemeMark text with
    | none => text
    | some (gap, after) =>
        if schemeOf gap ∈ urlSchemes then
          gap ++ schemeMark ++ withoutUserinfo (after.takeWhile fun ch => !endsAuthority ch) ++
            hideUserinfo (after.dropWhile fun ch => !endsAuthority ch)
        else gap ++ schemeMark ++ hideUserinfo after := by
  rw [hideUserinfo]
  split
  · rename_i h
    rw [h]
  · rename_i h
    rw [h]

theorem schemeFronts_none (h : splitAtText schemeMark text = none) : schemeFronts text = [] := by
  rw [schemeFronts_eq, h]

theorem schemeFronts_url (h : splitAtText schemeMark text = some (gap, after))
    (hscheme : schemeOf gap ∈ urlSchemes) :
    schemeFronts text = gap :: schemeFronts (after.dropWhile fun ch => !endsAuthority ch) := by
  rw [schemeFronts_eq, h]
  exact if_pos hscheme

theorem schemeFronts_other (h : splitAtText schemeMark text = some (gap, after))
    (hscheme : schemeOf gap ∉ urlSchemes) : schemeFronts text = gap :: schemeFronts after := by
  rw [schemeFronts_eq, h]
  exact if_neg hscheme

theorem hideUserinfo_none (h : splitAtText schemeMark text = none) : hideUserinfo text = text := by
  rw [hideUserinfo_eq, h]

theorem hideUserinfo_url (h : splitAtText schemeMark text = some (gap, after))
    (hscheme : schemeOf gap ∈ urlSchemes) :
    hideUserinfo text = gap ++ schemeMark ++
      withoutUserinfo (after.takeWhile fun ch => !endsAuthority ch) ++
        hideUserinfo (after.dropWhile fun ch => !endsAuthority ch) := by
  rw [hideUserinfo_eq, h]
  exact if_pos hscheme

theorem hideUserinfo_other (h : splitAtText schemeMark text = some (gap, after))
    (hscheme : schemeOf gap ∉ urlSchemes) :
    hideUserinfo text = gap ++ schemeMark ++ hideUserinfo after := by
  rw [hideUserinfo_eq, h]
  exact if_neg hscheme

end Steps

section Userinfos

variable {value done rest gap after : List Char}

theorem isSchemeChar_of_endsAuthority {ch : Char} (h : endsAuthority ch = true) :
    isSchemeChar ch = false := by
  have hall : ∀ ch ∈ ['/', '?', '#', '"', '\'', '<', '>', ' ', '\n', '\r', '\t'],
      isSchemeChar ch = false := forall_mem_of_all (by decide +kernel)
  exact hall ch (of_decide_eq_true h)

theorem StartsScan.front (h : StartsScan done rest) (hrest : rest = gap ++ schemeMark ++ after) :
    (done ++ gap).rdropWhile isSchemeChar = done ++ gap.rdropWhile isSchemeChar ∧
      ((done ++ gap.rdropWhile isSchemeChar).getLast?.all fun ch => ch.utf8Size = 1) =
        clearFront gap := by
  rw [rdropWhile_append, clearFront]
  by_cases hgap : gap.rdropWhile isSchemeChar = []
  · rw [if_pos hgap, hgap, List.append_nil]
    rcases h with hdone | hrestStart
    · refine ⟨?_, ?_⟩
      · rw [List.rdropWhile_eq_self_iff]
        intro hne
        rw [(hdone _ (List.getLast?_eq_some_getLast hne)).1]
        decide
      · cases hlast : done.getLast? with
        | none => rfl
        | some c => simp [(hdone c hlast).2]
    · exfalso
      cases gap with
      | nil =>
          rw [hrest] at hrestStart
          exact absurd (hrestStart ':' rfl) (by decide)
      | cons c gap =>
          have hc : endsAuthority c = true := hrestStart c (by rw [hrest]; rfl)
          have hscheme := List.rdropWhile_eq_nil_iff.mp hgap c List.mem_cons_self
          rw [isSchemeChar_of_endsAuthority hc] at hscheme
          cases hscheme
  · rw [if_neg hgap]
    refine ⟨rfl, ?_⟩
    rw [List.getLast?_append_of_ne_nil _ hgap]

theorem slice_scheme (hvalue : value = done ++ rest) (hstart : StartsScan done rest)
    (hrest : rest = gap ++ schemeMark ++ after) :
    slice value (((rfindChar (fun ch => !isSchemeChar ch) (done ++ gap)).map (· + 1)).getD 0)
        (byteLen (done ++ gap)) =
      if clearFront gap = true then .ok (schemeOf gap) else .error .panicked := by
  obtain ⟨hdrop, hclear⟩ := hstart.front hrest
  have hnot : (fun ch => !(!isSchemeChar ch)) = isSchemeChar := by
    funext ch
    exact Bool.not_not _
  have hparts : done ++ gap = done ++ gap.rdropWhile isSchemeChar ++ schemeOf gap := by
    rw [List.append_assoc, schemeOf, List.rdropWhile_append_rtakeWhile]
  have hwhole : value = done ++ gap.rdropWhile isSchemeChar ++ schemeOf gap ++
      (schemeMark ++ after) := by
    rw [← hparts, hvalue, hrest]
    simp only [List.append_assoc]
  rcases List.eq_nil_or_concat (done ++ gap.rdropWhile isSchemeChar) with hnil | ⟨front, c, hlast⟩
  · rw [hnil, List.nil_append] at hparts hwhole
    rw [rfindChar_eq_none (by rw [hnot, hdrop, hnil]), if_pos (by rw [← hclear, hnil]; rfl),
      hparts, Option.map_none, Option.getD_none]
    have hcut : slice value (byteLen []) (byteLen [] + byteLen (schemeOf gap)) =
        .ok (schemeOf gap) := slice_eq hwhole
    rwa [byteLen_nil, Nat.zero_add] at hcut
  · rw [hlast, List.concat_eq_append] at hparts hwhole hdrop hclear
    rw [List.getLast?_concat, Option.all_some] at hclear
    rw [rfindChar_eq_some (by rw [hnot, hdrop]), Option.map_some, Option.getD_some]
    by_cases hsize : c.utf8Size = 1
    · rw [if_pos (by rw [← hclear]; exact decide_eq_true hsize), hparts, byteLen_append]
      have hone : byteLen front + 1 = byteLen (front ++ [c]) := by
        rw [byteLen_append, byteLen_cons, byteLen_nil, hsize]
      rw [hone]
      exact slice_eq hwhole
    · rw [if_neg (by rw [← hclear]; simpa using hsize)]
      have hpos := c.utf8Size_pos
      rw [List.append_assoc, List.append_assoc, List.singleton_append] at hwhole
      exact slice_inside hwhole (by decide) (by omega)

end Userinfos

section Loop

variable {value done rest gap after output : List Char} {rounds : Nat}

theorem userinfo_none (hvalue : value = done ++ rest) (h : splitAtText schemeMark rest = none) :
    redactUserinfoFrom value (rounds + 1) (byteLen done) output = .ok (output ++ rest) := by
  have hfind : findText schemeMark rest = none := by rw [findText, h, Option.map_none]
  rw [redactUserinfoFrom, sliceFrom_eq hvalue]
  simp only [ok_bind, hfind]
  rfl

theorem slice_front (hvalue : value = done ++ rest) (hrest : rest = gap ++ schemeMark ++ after) :
    slice value 0 (byteLen done + byteLen gap) = .ok (done ++ gap) := by
  have hwhole : value = [] ++ (done ++ gap) ++ (schemeMark ++ after) := by
    rw [hvalue, hrest]
    simp only [List.append_assoc, List.nil_append]
  have hcut := slice_eq hwhole
  rwa [byteLen_nil, Nat.zero_add, byteLen_append] at hcut

theorem slice_mark (hvalue : value = done ++ rest) (hrest : rest = gap ++ schemeMark ++ after) :
    slice value (byteLen done) (byteLen (done ++ gap ++ schemeMark)) = .ok (gap ++ schemeMark) := by
  have hwhole : value = done ++ (gap ++ schemeMark) ++ after := by
    rw [hvalue, hrest]
    simp only [List.append_assoc]
  rw [List.append_assoc, byteLen_append]
  exact slice_eq hwhole

theorem byteLen_mark (done gap : List Char) :
    byteLen done + byteLen gap + 3 = byteLen (done ++ gap ++ schemeMark) := by
  rw [byteLen_append, byteLen_append]
  rfl

/-- What a round reads before it knows what the scheme is. -/
theorem scan_front (hvalue : value = done ++ rest) (hstart : StartsScan done rest)
    (h : splitAtText schemeMark rest = some (gap, after)) :
    findText schemeMark rest = some (byteLen gap) ∧
      slice value 0 (byteLen done + byteLen gap) = .ok (done ++ gap) ∧
      slice value (((rfindChar (fun ch => !isSchemeChar ch) (done ++ gap)).map (· + 1)).getD 0)
          (byteLen done + byteLen gap) =
        if clearFront gap = true then .ok (schemeOf gap) else .error .panicked := by
  have hrest := splitAtText_eq h
  refine ⟨by rw [findText, h, Option.map_some], slice_front hvalue hrest, ?_⟩
  rw [← byteLen_append]
  exact slice_scheme hvalue hstart hrest

theorem userinfo_blocked (hvalue : value = done ++ rest) (hstart : StartsScan done rest)
    (h : splitAtText schemeMark rest = some (gap, after)) (hclear : clearFront gap = false) :
    redactUserinfoFrom value (rounds + 1) (byteLen done) output = .error .panicked := by
  obtain ⟨hfind, hfront, hscheme⟩ := scan_front hvalue hstart h
  rw [if_neg (by rw [hclear]; exact Bool.false_ne_true)] at hscheme
  rw [redactUserinfoFrom, sliceFrom_eq hvalue, ok_bind]
  simp only [hfind, hfront, ok_bind, hscheme, error_bind]

theorem userinfo_other (hvalue : value = done ++ rest) (hstart : StartsScan done rest)
    (h : splitAtText schemeMark rest = some (gap, after)) (hclear : clearFront gap = true)
    (hother : schemeOf gap ∉ urlSchemes) :
    redactUserinfoFrom value (rounds + 1) (byteLen done) output =
      redactUserinfoFrom value rounds (byteLen (done ++ gap ++ schemeMark))
        (output ++ (gap ++ schemeMark)) := by
  obtain ⟨hfind, hfront, hscheme⟩ := scan_front hvalue hstart h
  rw [if_pos hclear] at hscheme
  have hkept := slice_mark hvalue (splitAtText_eq h)
  rw [redactUserinfoFrom, sliceFrom_eq hvalue, ok_bind]
  simp only [hfind, hfront, ok_bind, hscheme, if_neg hother, byteLen_mark, hkept]

/-- A URL is passed over with its authority. -/
theorem userinfo_url (hvalue : value = done ++ rest) (hstart : StartsScan done rest)
    (h : splitAtText schemeMark rest = some (gap, after)) (hclear : clearFront gap = true)
    (hurl : schemeOf gap ∈ urlSchemes) {authority tail : List Char}
    (hauthority : authority = after.takeWhile fun ch => !endsAuthority ch)
    (htail : after = authority ++ tail) :
    redactUserinfoFrom value (rounds + 1) (byteLen done) output =
      redactUserinfoFrom value rounds (byteLen (done ++ gap ++ schemeMark ++ authority))
        (output ++ (gap ++ schemeMark ++ withoutUserinfo authority)) := by
  have hrest := splitAtText_eq h
  obtain ⟨hfind, hfront, hscheme⟩ := scan_front hvalue hstart h
  rw [if_pos hclear] at hscheme
  have hwhole : value = done ++ gap ++ schemeMark ++ after := by
    rw [hvalue, hrest]
    simp only [List.append_assoc]
  have hparts : value = done ++ gap ++ schemeMark ++ authority ++ tail := by
    rw [hwhole, htail]
    simp only [List.append_assoc]
  have hlength : byteLen value = byteLen (done ++ gap ++ schemeMark) + byteLen after := by
    rw [hwhole, byteLen_append]
  have hafter := sliceFrom_eq hwhole
  have hend : ((findChar endsAuthority after).map (byteLen (done ++ gap ++ schemeMark) + ·)).getD
      (byteLen value) = byteLen (done ++ gap ++ schemeMark ++ authority) := by
    rw [findChar_getD hlength, ← hauthority, byteLen_append _ authority]
  have hslice : slice value (byteLen (done ++ gap ++ schemeMark))
      (byteLen (done ++ gap ++ schemeMark ++ authority)) = .ok authority := by
    rw [byteLen_append _ authority]
    exact slice_eq hparts
  have hbefore := slice_mark hvalue hrest
  have hkept : slice value (byteLen done) (byteLen (done ++ gap ++ schemeMark ++ authority)) =
      .ok (gap ++ schemeMark ++ authority) := by
    have hcut : value = done ++ (gap ++ schemeMark ++ authority) ++ tail := by
      simpa only [List.append_assoc] using hparts
    have hsame : done ++ gap ++ schemeMark ++ authority =
        done ++ (gap ++ schemeMark ++ authority) := by
      simp only [List.append_assoc]
    rw [hsame, byteLen_append]
    exact slice_eq hcut
  rw [redactUserinfoFrom, sliceFrom_eq hvalue, ok_bind]
  simp only [hfind, hfront, ok_bind, hscheme, if_pos hurl, byteLen_mark, hafter, hend, hslice]
  obtain hnil | ⟨front, c, hconcat⟩ := List.eq_nil_or_concat (authority.rdropWhile fun ch => !(ch = '@' : Bool))
  · have hnone : '@' ∉ authority := by
      intro hmem
      have hall := List.rdropWhile_eq_nil_iff.mp hnil '@' hmem
      simp at hall
    rw [rfindChar_eq_none hnil]
    simp only [hkept, ok_bind, withoutUserinfo, if_neg hnone]
  · rw [List.concat_eq_append] at hconcat
    have hc : c = '@' := by
      have hlast := List.rdropWhile_last_not (fun ch => !(ch = '@' : Bool)) authority
        (by simp [hconcat])
      simpa [hconcat] using hlast
    subst hc
    have hsplit : authority = (front ++ ['@']) ++
        authority.rtakeWhile fun ch => !(ch = '@' : Bool) := by
      rw [← hconcat, List.rdropWhile_append_rtakeWhile]
    have hmem : '@' ∈ authority := by
      rw [hsplit]
      simp
    have hhost : sliceFrom authority (byteLen front + 1) =
        .ok (authority.rtakeWhile fun ch => !(ch = '@' : Bool)) := by
      have hcut := sliceFrom_eq hsplit
      rwa [byteLen_append] at hcut
    rw [rfindChar_eq_some hconcat]
    simp only [hbefore, ok_bind, hhost, withoutUserinfo, if_pos hmem]
    simp only [List.append_assoc, List.singleton_append]

theorem startsScan_tail (done after : List Char) :
    StartsScan done (after.dropWhile fun ch => !endsAuthority ch) := by
  right
  intro c hc
  have hhead := List.head?_dropWhile_not (fun ch => !endsAuthority ch) after
  rw [hc] at hhead
  simpa using hhead

theorem startsScan_after (done after : List Char) : StartsScan (done ++ schemeMark) after := by
  left
  intro c hc
  have hlast : (done ++ schemeMark).getLast? = some '/' := by
    rw [List.getLast?_append]
    rfl
  rw [hlast] at hc
  obtain rfl := Option.some.inj hc
  decide

/-- What the scan comes to from any place where it starts. -/
theorem redactUserinfoFrom_eq (hvalue : value = done ++ rest) (hstart : StartsScan done rest)
    (hrounds : rest.length < rounds) :
    redactUserinfoFrom value rounds (byteLen done) output =
      if (schemeFronts rest).all clearFront = true then .ok (output ++ hideUserinfo rest)
      else .error .panicked := by
  induction rounds generalizing done rest output with
  | zero => exact absurd hrounds (Nat.not_lt_zero _)
  | succ rounds ih =>
      cases h : splitAtText schemeMark rest with
      | none =>
          rw [userinfo_none hvalue h, schemeFronts_none h, hideUserinfo_none h]
          rfl
      | some cut =>
          obtain ⟨gap, after⟩ := cut
          have hrest := splitAtText_eq h
          by_cases hurl : schemeOf gap ∈ urlSchemes
          · rw [schemeFronts_url h hurl, hideUserinfo_url h hurl, List.all_cons]
            cases hclear : clearFront gap with
            | false => exact userinfo_blocked hvalue hstart h hclear
            | true =>
                have htail := (List.takeWhile_append_dropWhile
                  (p := fun ch => !endsAuthority ch) (l := after)).symm
                have hvalue' : value = done ++ gap ++ schemeMark ++
                    after.takeWhile (fun ch => !endsAuthority ch) ++
                      after.dropWhile fun ch => !endsAuthority ch := by
                  rw [List.append_assoc, ← htail, hvalue, hrest]
                  simp only [List.append_assoc]
                have hshorter := length_tail_lt (p := fun ch => !endsAuthority ch) h
                rw [userinfo_url hvalue hstart h hclear hurl rfl htail, Bool.true_and,
                  ih hvalue' (startsScan_tail _ _) (by omega)]
                simp only [List.append_assoc]
          · rw [schemeFronts_other h hurl, hideUserinfo_other h hurl, List.all_cons]
            cases hclear : clearFront gap with
            | false => exact userinfo_blocked hvalue hstart h hclear
            | true =>
                have hvalue' : value = done ++ gap ++ schemeMark ++ after := by
                  rw [hvalue, hrest]
                  simp only [List.append_assoc]
                have hshorter := length_after_lt h
                rw [userinfo_other hvalue hstart h hclear hurl, Bool.true_and,
                  ih hvalue' (startsScan_after _ _) (by omega)]
                simp only [List.append_assoc]

theorem redactDeviceEvidenceUrlUserinfo_eq (value : List Char) :
    redactDeviceEvidenceUrlUserinfo value =
      if (schemeFronts value).all clearFront = true then .ok (hideUserinfo value)
      else .error .panicked := by
  have hstart : StartsScan [] value := by
    left
    intro c hc
    cases hc
  exact redactUserinfoFrom_eq rfl hstart (Nat.lt_succ_self _)

end Loop

end HarborBeacon.DeviceEvidence
