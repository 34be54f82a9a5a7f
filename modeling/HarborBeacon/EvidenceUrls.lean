import HarborBeacon.EvidenceTexts

/-!
The places of `://` in a text. The scan for URLs takes some of them as those of URLs; which ones
depends on the text in front of them alone, and what it makes of the text can be told place by
place.
-/

namespace HarborBeacon.DeviceEvidence

open ByteSlices KeyedValues

section Segments

/-- The stretches of a text between the places of `://`. -/
def segments (text : List Char) : List (List Char) :=
  match _ : splitAtText schemeMark text with
  | none => [text]
  | some (gap, after) => gap :: segments after
termination_by text.length
decreasing_by exact length_after_lt (by assumption)

def joinSegments : List (List Char) → List Char
  | [] => []
  | [segment] => segment
  | segment :: next :: rest => segment ++ schemeMark ++ joinSegments (next :: rest)

variable {text gap front after : List Char} {segment : List Char}

theorem segments_none (h : splitAtText schemeMark text = none) : segments text = [text] := by
  rw [segments]
  split
  · rfl
  · rename_i hsome
    rw [h] at hsome
    cases hsome

theorem segments_some (h : splitAtText schemeMark text = some (gap, after)) :
    segments text = gap :: segments after := by
  rw [segments]
  split
  · rename_i hnone
    rw [h] at hnone
    cases hnone
  · rename_i hsome
    rw [h] at hsome
    obtain ⟨rfl, rfl⟩ := Prod.mk.inj (Option.some.inj hsome)
    rfl

theorem segments_ne_nil (text : List Char) : segments text ≠ [] := by
  cases h : splitAtText schemeMark text with
  | none => simp [segments_none h]
  | some cut => simp [segments_some h]

theorem joinSegments_cons {rest : List (List Char)} (hne : rest ≠ []) :
    joinSegments (segment :: rest) = segment ++ schemeMark ++ joinSegments rest := by
  obtain ⟨next, rest, rfl⟩ := List.exists_cons_of_ne_nil hne
  rfl

theorem joinSegments_append {fronts rest : List (List Char)} (hfronts : fronts ≠ [])
    (hrest : rest ≠ []) : joinSegments (fronts ++ rest) =
      joinSegments fronts ++ schemeMark ++ joinSegments rest := by
  induction fronts with
  | nil => exact absurd rfl hfronts
  | cons segment fronts ih =>
      cases fronts with
      | nil => exact joinSegments_cons hrest
      | cons next fronts =>
          have hstep : joinSegments (segment :: next :: fronts) =
              segment ++ schemeMark ++ joinSegments (next :: fronts) := rfl
          rw [List.cons_append, joinSegments_cons (by simp), ih (by simp), hstep]
          simp only [List.append_assoc]

theorem joinSegments_segments (text : List Char) : joinSegments (segments text) = text := by
  induction hn : text.length using Nat.strong_induction_on generalizing text with
  | _ n ih =>
      cases h : splitAtText schemeMark text with
      | none => rw [segments_none h, joinSegments]
      | some cut =>
          obtain ⟨gap, after⟩ := cut
          have hshorter := length_after_lt h
          rw [segments_some h, joinSegments_cons (segments_ne_nil after),
            ih after.length (by omega) after rfl]
          exact (splitAtText_eq h).symm

theorem schemeMark_prefix_iff {c : Char} :
    schemeMark <+: c :: (front ++ (schemeMark ++ after)) ↔ schemeMark <+: c :: front := by
  constructor
  · intro h
    have hmark : schemeMark = [':', '/', '/'] := rfl
    rw [hmark, List.cons_prefix_cons] at h ⊢
    refine ⟨h.1, ?_⟩
    have hrest := h.2
    cases front with
    | nil =>
        rw [List.nil_append, List.cons_append, List.cons_prefix_cons] at hrest
        exact absurd hrest.1 (by decide)
    | cons d front =>
        rw [List.cons_append, List.cons_prefix_cons] at hrest
        rw [List.cons_prefix_cons]
        refine ⟨hrest.1, ?_⟩
        cases front with
        | nil =>
            have hlast := hrest.2
            rw [List.nil_append, List.cons_append, List.cons_prefix_cons] at hlast
            exact absurd hlast.1 (by decide)
        | cons e front =>
            have hlast := hrest.2
            rw [List.cons_append, List.cons_prefix_cons] at hlast
            rw [List.cons_prefix_cons]
            exact ⟨hlast.1, List.nil_prefix⟩
  · intro h
    exact h.trans ⟨schemeMark ++ after, rfl⟩

theorem splitAtText_append (front after : List Char) :
    splitAtText schemeMark (front ++ (schemeMark ++ after)) =
      match splitAtText schemeMark front with
      | none => some (front, after)
      | some (gap, rest) => some (gap, rest ++ (schemeMark ++ after)) := by
  induction front with
  | nil => rfl
  | cons c front ih =>
      rw [List.cons_append, splitAtText, splitAtText]
      by_cases hprefix : schemeMark <+: c :: front
      · rw [if_pos (schemeMark_prefix_iff.mpr hprefix), if_pos hprefix]
        obtain ⟨rest, hrest⟩ := hprefix
        dsimp only
        rw [← List.cons_append, ← hrest, List.append_assoc, List.drop_left, List.drop_left]
      · rw [if_neg fun h => hprefix (schemeMark_prefix_iff.mp h), if_neg hprefix, ih]
        cases splitAtText schemeMark front with
        | none => rfl
        | some cut => rfl

theorem segments_append (front after : List Char) :
    segments (front ++ schemeMark ++ after) = segments front ++ segments after := by
  induction hn : front.length using Nat.strong_induction_on generalizing front with
  | _ n ih =>
      have hsplit := splitAtText_append front after
      rw [List.append_assoc]
      cases h : splitAtText schemeMark front with
      | none =>
          rw [h] at hsplit
          rw [segments_some hsplit, segments_none h, List.singleton_append]
      | some cut =>
          obtain ⟨gap, rest⟩ := cut
          rw [h] at hsplit
          have hshorter := length_after_lt h
          have hrest := ih rest.length (by omega) rest rfl
          rw [List.append_assoc] at hrest
          rw [segments_some hsplit, segments_some h, hrest, List.cons_append]

theorem not_infix_of_mem_segments (h : segment ∈ segments text) :
    ¬ schemeMark <:+: segment := by
  induction hn : text.length using Nat.strong_induction_on generalizing text with
  | _ n ih =>
      cases hsplit : splitAtText schemeMark text with
      | none =>
          rw [segments_none hsplit, List.mem_singleton] at h
          rw [h]
          exact splitAtText_eq_none hsplit
      | some cut =>
          obtain ⟨gap, after⟩ := cut
          have hshorter := length_after_lt hsplit
          rw [segments_some hsplit] at h
          rcases List.mem_cons.mp h with rfl | hafter
          · rintro ⟨before, rest, hwithin⟩
            have hwhole : before ++ (schemeMark ++ (rest ++ schemeMark ++ after)) =
                segment ++ schemeMark ++ after := by
              rw [← hwithin]
              simp only [List.append_assoc]
            have hmark : schemeMark.length = 3 := rfl
            refine not_prefix_of_splitAtText hsplit hwhole ?_ (List.prefix_append _ _)
            rw [← hwithin, List.length_append, List.length_append]
            omega
          · exact ih after.length (by omega) hafter rfl

theorem splitAtText_of_not_within (h : ¬ schemeMark <:+: text) :
    splitAtText schemeMark text = none := by
  cases hsplit : splitAtText schemeMark text with
  | none => rfl
  | some cut =>
      exfalso
      apply h
      rw [splitAtText_eq hsplit]
      exact List.infix_append _ _ _

theorem segments_joinSegments {parts : List (List Char)} (hne : parts ≠ [])
    (hparts : ∀ part ∈ parts, ¬ schemeMark <:+: part) : segments (joinSegments parts) = parts := by
  induction parts with
  | nil => exact absurd rfl hne
  | cons part rest ih =>
      rw [List.forall_mem_cons] at hparts
      have hpart := segments_none (splitAtText_of_not_within hparts.1)
      cases rest with
      | nil => exact hpart
      | cons next rest =>
          rw [joinSegments_cons (by simp), segments_append, hpart, ih (by simp) hparts.2,
            List.singleton_append]

end Segments

section Urls

def authorityOf (text : List Char) : List Char :=
  text.takeWhile fun ch => !endsAuthority ch

def pastAuthority (text : List Char) : List Char :=
  text.dropWhile fun ch => !endsAuthority ch

def hideAuthority (segment : List Char) : List Char :=
  withoutUserinfo (authorityOf segment) ++ pastAuthority segment

/-- Whether the scan takes the `://` behind a segment as that of a URL, where `url` says the same
of the one in front of it. -/
def startsUrl (url : Bool) (segment : List Char) : Bool :=
  !(url && !segment.any endsAuthority) && schemeOf segment ∈ urlSchemes

def hideSegments : Bool → List (List Char) → List (List Char)
  | _, [] => []
  | url, segment :: rest =>
      (if url then hideAuthority segment else segment) ::
        hideSegments (startsUrl url segment) rest

def urlAfter : Bool → List (List Char) → Bool
  | url, [] => url
  | url, segment :: rest => urlAfter (startsUrl url segment) rest

variable {text gap after : List Char}

theorem hideSegments_ne_nil {url : Bool} {parts : List (List Char)} (h : parts ≠ []) :
    hideSegments url parts ≠ [] := by
  obtain ⟨part, rest, rfl⟩ := List.exists_cons_of_ne_nil h
  simp [hideSegments]

theorem hideSegments_append (url : Bool) (fronts rest : List (List Char)) :
    hideSegments url (fronts ++ rest) =
      hideSegments url fronts ++ hideSegments (urlAfter url fronts) rest := by
  induction fronts generalizing url with
  | nil => rfl
  | cons front fronts ih => rw [List.cons_append, hideSegments, hideSegments, urlAfter, ih]; rfl

theorem authorityOf_append_pastAuthority (text : List Char) :
    authorityOf text ++ pastAuthority text = text :=
  List.takeWhile_append_dropWhile

theorem schemeOf_append {first : Char} (h : isSchemeChar first = false) (front rest : List Char) :
    schemeOf (front ++ first :: rest) = schemeOf rest := by
  induction rest using List.reverseRecOn with
  | nil => exact List.rtakeWhile_concat_neg _ _ _ (by simp [h])
  | append_singleton rest c ih =>
      rw [← List.cons_append, ← List.append_assoc, schemeOf, schemeOf, List.rtakeWhile_concat,
        List.rtakeWhile_concat, ← schemeOf, ← schemeOf, ih]

theorem schemeOf_slash (gap : List Char) : schemeOf ('/' :: gap) = schemeOf gap :=
  schemeOf_append (by decide) [] gap

theorem hideUserinfo_slash (text : List Char) :
    hideUserinfo ('/' :: text) = '/' :: hideUserinfo text := by
  have hsplit : splitAtText schemeMark ('/' :: text) =
      (splitAtText schemeMark text).map fun cut => ('/' :: cut.1, cut.2) := by
    rw [splitAtText, if_neg]
    intro hprefix
    exact absurd (List.cons_prefix_cons.mp hprefix).1 (by decide)
  cases h : splitAtText schemeMark text with
  | none =>
      rw [h, Option.map_none] at hsplit
      rw [hideUserinfo_none hsplit, hideUserinfo_none h]
  | some cut =>
      obtain ⟨gap, after⟩ := cut
      rw [h, Option.map_some] at hsplit
      by_cases hscheme : schemeOf gap ∈ urlSchemes
      · rw [hideUserinfo_url hsplit (by rwa [schemeOf_slash]), hideUserinfo_url h hscheme]
        rfl
      · rw [hideUserinfo_other hsplit (by rwa [schemeOf_slash]), hideUserinfo_other h hscheme]
        rfl

theorem withoutUserinfo_concat {authority : List Char} {c : Char} (hc : c ≠ '@') :
    withoutUserinfo (authority ++ [c]) = withoutUserinfo authority ++ [c] := by
  have hpos : (!(c = '@' : Bool)) = true := by simp [hc]
  rw [withoutUserinfo, withoutUserinfo]
  by_cases hmem : '@' ∈ authority
  · rw [if_pos (List.mem_append_left _ hmem), if_pos hmem, List.rtakeWhile_concat, if_pos hpos]
    simp
  · rw [if_neg, if_neg hmem]
    rw [List.mem_append, List.mem_singleton, not_or]
    exact ⟨hmem, hc.symm⟩

theorem authorityOf_of_none (h : text.any endsAuthority = false) :
    authorityOf text = text ∧ pastAuthority text = [] := by
  have hall : ∀ ch ∈ text, (!endsAuthority ch) = true := by
    intro ch hch
    rw [Bool.not_eq_true']
    exact List.any_eq_false.mp h ch hch |> Bool.eq_false_iff.mpr
  refine ⟨List.takeWhile_eq_self_iff.mpr hall, ?_⟩
  rw [pastAuthority, List.dropWhile_eq_nil_iff]
  exact hall

theorem authorityOf_before_mark (h : gap.any endsAuthority = false) (after : List Char) :
    authorityOf (gap ++ (schemeMark ++ after)) = gap ++ [':'] ∧
      pastAuthority (gap ++ (schemeMark ++ after)) = '/' :: '/' :: after := by
  obtain ⟨hwhole, hnothing⟩ := authorityOf_of_none h
  have htake : authorityOf (schemeMark ++ after) = [':'] := by
    have hmark : schemeMark ++ after = ':' :: '/' :: ('/' :: after) := rfl
    rw [hmark, authorityOf, List.takeWhile_cons_of_pos (by decide),
      List.takeWhile_cons_of_neg (by decide)]
  have hdrop : pastAuthority (schemeMark ++ after) = '/' :: '/' :: after := by
    have hmark : schemeMark ++ after = ':' :: '/' :: ('/' :: after) := rfl
    rw [hmark, pastAuthority, List.dropWhile_cons_of_pos (by decide),
      List.dropWhile_cons_of_neg (by decide)]
  refine ⟨?_, ?_⟩
  · change (gap ++ (schemeMark ++ after)).takeWhile _ = _
    rw [List.takeWhile_append]
    refine (if_pos (congrArg List.length hwhole)).trans ?_
    rw [← htake]
    rfl
  · change (gap ++ (schemeMark ++ after)).dropWhile _ = _
    rw [List.dropWhile_append]
    exact (if_pos (List.isEmpty_iff.mpr hnothing)).trans hdrop

theorem authorityOf_of_any (h : gap.any endsAuthority = true) (after : List Char) :
    authorityOf (gap ++ after) = authorityOf gap ∧
      pastAuthority (gap ++ after) = pastAuthority gap ++ after ∧
      schemeOf (pastAuthority gap) = schemeOf gap := by
  obtain ⟨ch, hch, hends⟩ := List.any_eq_true.mp h
  have hne : pastAuthority gap ≠ [] := by
    rw [pastAuthority, ne_eq, List.dropWhile_eq_nil_iff]
    intro hall
    have hnot := hall ch hch
    rw [hends] at hnot
    cases hnot
  have hlength : (authorityOf gap).length ≠ gap.length := by
    intro hsame
    have hparts := congrArg List.length (authorityOf_append_pastAuthority gap)
    rw [List.length_append] at hparts
    exact hne (List.eq_nil_of_length_eq_zero (by omega))
  refine ⟨?_, ?_, ?_⟩
  · change (gap ++ after).takeWhile _ = gap.takeWhile _
    rw [List.takeWhile_append]
    exact if_neg hlength
  · change (gap ++ after).dropWhile _ = gap.dropWhile _ ++ after
    rw [List.dropWhile_append]
    exact if_neg fun hempty => hne (List.isEmpty_iff.mp hempty)
  · obtain ⟨first, rest, hfirst⟩ := List.exists_cons_of_ne_nil hne
    have hterm : isSchemeChar first = false := by
      have hhead := List.head?_dropWhile_not (fun ch => !endsAuthority ch) gap
      rw [← pastAuthority, hfirst] at hhead
      apply isSchemeChar_of_endsAuthority
      simpa using hhead
    have hgap := schemeOf_append hterm (authorityOf gap) rest
    have hpast := schemeOf_append hterm [] rest
    rw [← hfirst, authorityOf_append_pastAuthority] at hgap
    rw [List.nil_append, ← hfirst] at hpast
    rw [hgap, hpast]

theorem hideUserinfo_first {first : List Char}
    (h : splitAtText schemeMark text = some (first, after))
    (hother : hideUserinfo after = joinSegments (hideSegments false (segments after)))
    (hurl : withoutUserinfo (authorityOf after) ++ hideUserinfo (pastAuthority after) =
      joinSegments (hideSegments true (segments after))) :
    hideUserinfo text = first ++ schemeMark ++
      joinSegments (hideSegments (schemeOf first ∈ urlSchemes : Bool) (segments after)) := by
  by_cases hscheme : schemeOf first ∈ urlSchemes
  · rw [hideUserinfo_url h hscheme, decide_eq_true hscheme, ← hurl, List.append_assoc]
    rfl
  · rw [hideUserinfo_other h hscheme, decide_eq_false hscheme, ← hother]

/-- What the scan makes of a text, place by place: from a start of the text, and from the start
of an authority. -/
theorem hideUserinfo_segments (text : List Char) :
    hideUserinfo text = joinSegments (hideSegments false (segments text)) ∧
      withoutUserinfo (authorityOf text) ++ hideUserinfo (pastAuthority text) =
        joinSegments (hideSegments true (segments text)) := by
  induction hn : text.length using Nat.strong_induction_on generalizing text with
  | _ n ih =>
      cases h : splitAtText schemeMark text with
      | none =>
          have hpast : splitAtText schemeMark (pastAuthority text) = none := by
            apply splitAtText_of_not_within
            intro hwithin
            exact splitAtText_eq_none h (hwithin.trans (List.dropWhile_suffix _).isInfix)
          rw [segments_none h, hideUserinfo_none h, hideUserinfo_none hpast]
          exact ⟨rfl, rfl⟩
      | some cut =>
          obtain ⟨gap, after⟩ := cut
          have hshorter := length_after_lt h
          obtain ⟨hother, hurl⟩ := ih after.length (by omega) after rfl
          have htext : text = gap ++ (schemeMark ++ after) := by
            rw [splitAtText_eq h, List.append_assoc]
          have hparts : ∀ url : Bool, joinSegments (hideSegments url (gap :: segments after)) =
              (if url then hideAuthority gap else gap) ++ schemeMark ++
                joinSegments (hideSegments (startsUrl url gap) (segments after)) :=
            fun url => joinSegments_cons (hideSegments_ne_nil (segments_ne_nil after))
          rw [segments_some h, hparts, hparts]
          refine ⟨hideUserinfo_first h hother hurl, ?_⟩
          cases hany : gap.any endsAuthority with
          | true =>
              obtain ⟨hauthority, hpast, hscheme⟩ := authorityOf_of_any hany (schemeMark ++ after)
              have hfree : splitAtText schemeMark (pastAuthority gap) = none := by
                apply splitAtText_of_not_within
                intro hwithin
                have hmem : gap ∈ segments text := by
                  rw [segments_some h]
                  exact List.mem_cons_self
                exact not_infix_of_mem_segments hmem
                  (hwithin.trans (List.dropWhile_suffix _).isInfix)
              have hsplit := splitAtText_append (pastAuthority gap) after
              rw [hfree] at hsplit
              rw [htext, hauthority, hpast, hideUserinfo_first hsplit hother hurl, hscheme]
              simp [hideAuthority, startsUrl, hany]
          | false =>
              -- the colon still belongs to the authority, and the slashes start no other URL
              obtain ⟨hwhole, hnothing⟩ := authorityOf_of_none hany
              obtain ⟨hauthority, hpast⟩ := authorityOf_before_mark hany after
              have hurlAfter : startsUrl true gap = false := by simp [startsUrl, hany]
              rw [htext, hauthority, hpast, withoutUserinfo_concat (by decide), hideUserinfo_slash,
                hideUserinfo_slash, hother, hurlAfter, if_pos rfl, hideAuthority, hwhole, hnothing]
              simp [schemeMark]

end Urls

section Places

variable {text front after : List Char}

/-- Whether the scan takes a `://` behind this text as that of a URL. -/
def isTaken (front : List Char) : Bool :=
  urlAfter false (segments front)

/-- What the scan makes of the text behind a `://`. -/
def hideAfter (url : Bool) (after : List Char) : List Char :=
  if url then withoutUserinfo (authorityOf after) ++ hideUserinfo (pastAuthority after)
  else hideUserinfo after

theorem hideAfter_eq (url : Bool) (after : List Char) :
    hideAfter url after = joinSegments (hideSegments url (segments after)) := by
  obtain ⟨hother, hurl⟩ := hideUserinfo_segments after
  cases url with
  | false => exact hother
  | true => exact hurl

theorem hideUserinfo_split (front after : List Char) :
    hideUserinfo (front ++ schemeMark ++ after) =
      hideUserinfo front ++ schemeMark ++ hideAfter (isTaken front) after := by
  rw [(hideUserinfo_segments _).1, segments_append, hideSegments_append,
    joinSegments_append (hideSegments_ne_nil (segments_ne_nil front))
      (hideSegments_ne_nil (segments_ne_nil after)), ← (hideUserinfo_segments front).1,
    hideAfter_eq]
  rfl

theorem hideAuthority_cases (segment : List Char) :
    hideAuthority segment = segment ∨ ∃ info rest, segment = info ++ '@' :: rest ∧
      hideAuthority segment = userinfoMarker ++ '@' :: rest := by
  have hparts := authorityOf_append_pastAuthority segment
  rw [hideAuthority, withoutUserinfo]
  by_cases hmem : '@' ∈ authorityOf segment
  · right
    have hne : (authorityOf segment).rdropWhile (fun ch => !(ch = '@' : Bool)) ≠ [] := by
      intro hnil
      have hall := List.rdropWhile_eq_nil_iff.mp hnil '@' hmem
      simp at hall
    obtain ⟨info, last, hinfo⟩ := (List.eq_nil_or_concat _).resolve_left hne
    rw [List.concat_eq_append] at hinfo
    have hlast : last = '@' := by
      have hnot := List.rdropWhile_last_not (fun ch => !(ch = '@' : Bool)) (authorityOf segment) hne
      simpa [hinfo] using hnot
    refine ⟨info, (authorityOf segment).rtakeWhile (fun ch => !(ch = '@' : Bool)) ++
      pastAuthority segment, ?_, ?_⟩
    · have hauthority := List.rdropWhile_append_rtakeWhile
        (p := fun ch => !(ch = '@' : Bool)) (l := authorityOf segment)
      rw [hinfo, hlast] at hauthority
      calc
        segment = authorityOf segment ++ pastAuthority segment := hparts.symm
        _ = info ++ ['@'] ++ (authorityOf segment).rtakeWhile (fun ch => !(ch = '@' : Bool)) ++
            pastAuthority segment := by rw [hauthority]
        _ = _ := by simp
    · rw [if_pos hmem]
      simp
  · left
    rw [if_neg hmem, hparts]

theorem not_infix_hideAuthority {segment : List Char} (h : ¬ schemeMark <:+: segment) :
    ¬ schemeMark <:+: hideAuthority segment := by
  rcases hideAuthority_cases segment with hsame | ⟨info, rest, hsegment, hhidden⟩
  · rwa [hsame]
  · rw [hhidden]
    intro hwithin
    rcases infix_of_not_mem hwithin (by decide) with hmarker | hrest
    · exact absurd hmarker (by decide)
    · apply h
      rw [hsegment]
      exact hrest.trans ((List.suffix_cons _ _).trans (List.suffix_append _ _)).isInfix

theorem not_infix_hideSegments {parts : List (List Char)}
    (h : ∀ part ∈ parts, ¬ schemeMark <:+: part) (url : Bool) :
    ∀ part ∈ hideSegments url parts, ¬ schemeMark <:+: part := by
  induction parts generalizing url with
  | nil => exact List.forall_mem_nil _
  | cons part rest ih =>
      rw [List.forall_mem_cons] at h
      rw [hideSegments, List.forall_mem_cons]
      refine ⟨?_, ih h.2 _⟩
      cases url with
      | false => exact h.1
      | true => exact not_infix_hideAuthority h.1

theorem hideSegments_eq_append {parts shown rest : List (List Char)} {url : Bool}
    (h : hideSegments url parts = shown ++ rest) :
    ∃ fronts behind, parts = fronts ++ behind ∧ hideSegments url fronts = shown ∧
      hideSegments (urlAfter url fronts) behind = rest := by
  induction shown generalizing parts url with
  | nil => exact ⟨[], parts, rfl, rfl, h⟩
  | cons first shown ih =>
      cases parts with
      | nil => cases h
      | cons part parts =>
          obtain ⟨hfirst, hrest⟩ := List.cons.inj h
          obtain ⟨fronts, behind, rfl, hfronts, hbehind⟩ := ih hrest
          refine ⟨part :: fronts, behind, rfl, ?_, hbehind⟩
          rw [hideSegments, hfronts, hfirst]

theorem exists_hideUserinfo_split {shown rest : List Char}
    (h : hideUserinfo text = shown ++ schemeMark ++ rest) :
    ∃ front after, text = front ++ schemeMark ++ after ∧ hideUserinfo front = shown ∧
      hideAfter (isTaken front) after = rest := by
  have hfree : ∀ part ∈ segments text, ¬ schemeMark <:+: part :=
    fun part hpart => not_infix_of_mem_segments hpart
  have hparts : hideSegments false (segments text) = segments shown ++ segments rest := by
    rw [← segments_append, ← h, (hideUserinfo_segments text).1, segments_joinSegments
      (hideSegments_ne_nil (segments_ne_nil text)) (not_infix_hideSegments hfree false)]
  obtain ⟨fronts, behind, hsplit, hfronts, hbehind⟩ := hideSegments_eq_append hparts
  rw [hsplit, List.forall_mem_append] at hfree
  have hfrontsne : fronts ≠ [] := by
    rintro rfl
    exact segments_ne_nil shown hfronts.symm
  have hbehindne : behind ≠ [] := by
    rintro rfl
    exact segments_ne_nil rest hbehind.symm
  have hfront := segments_joinSegments hfrontsne hfree.1
  have hafter := segments_joinSegments hbehindne hfree.2
  refine ⟨joinSegments fronts, joinSegments behind, ?_, ?_, ?_⟩
  · rw [← joinSegments_append hfrontsne hbehindne, ← hsplit, joinSegments_segments]
  · rw [(hideUserinfo_segments _).1, hfront, hfronts, joinSegments_segments]
  · rw [hideAfter_eq, isTaken, hfront, hafter, hbehind, joinSegments_segments]

def Named (front : List Char) : Prop :=
  ∃ scheme ∈ urlSchemes, scheme <:+ front.map Char.toLower

theorem named_past {d : Char} (hd : ∀ scheme ∈ urlSchemes, d.toLower ∉ scheme)
    (front rest : List Char) : Named (front ++ d :: rest) ↔ Named rest := by
  refine exists_congr fun scheme => and_congr_right fun hscheme => ?_
  rw [List.map_append, List.map_cons]
  exact suffix_past (hd scheme hscheme)

theorem named_hideAuthority (segment : List Char) :
    Named (hideAuthority segment) ↔ Named segment := by
  rcases hideAuthority_cases segment with hsame | ⟨info, rest, hsegment, hhidden⟩
  · rw [hsame]
  · rw [hhidden, hsegment, named_past (by decide), named_past (by decide)]

theorem named_hideUserinfo (front : List Char) : Named (hideUserinfo front) ↔ Named front := by
  obtain ⟨fronts, last, hparts⟩ :=
    (List.eq_nil_or_concat (segments front)).resolve_left (segments_ne_nil front)
  rw [List.concat_eq_append] at hparts
  have hfront := joinSegments_segments front
  rw [(hideUserinfo_segments front).1]
  rw [hparts] at hfront ⊢
  rw [hideSegments_append]
  by_cases hne : fronts = []
  · subst hne
    rw [← hfront]
    rfl
  · have hmark : ∀ parts rest : List Char,
        Named (parts ++ schemeMark ++ rest) ↔ Named rest := by
      intro parts rest
      have hsplit : parts ++ schemeMark ++ rest = (parts ++ [':', '/']) ++ '/' :: rest := by
        simp [schemeMark]
      rw [hsplit]
      exact named_past (by decide) _ _
    rw [← hfront, joinSegments_append (hideSegments_ne_nil hne) (by simp [hideSegments]),
      joinSegments_append hne (by simp), hmark, hmark]
    cases urlAfter false fronts with
    | false => rfl
    | true => exact named_hideAuthority last

end Places

end HarborBeacon.DeviceEvidence
