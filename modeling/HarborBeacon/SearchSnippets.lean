import HarborBeacon.ByteSlices
import HarborBeacon.Text

/-!
The part of a text that a search shows around its first match. The match is found in the lower-case
text, and its offset is used in the text itself.
-/

namespace HarborBeacon.SearchSnippets

open ByteSlices Text

section Boundaries

def isCharBoundary (text : List Char) (index : Nat) : Bool :=
  (splitBytes index text).isSome

def walkDown (text : List Char) : Nat → Nat
  | 0 => 0
  | candidate + 1 =>
      if isCharBoundary text (candidate + 1) then candidate + 1 else walkDown text candidate

def clampToCharBoundary (text : List Char) (index : Nat) : Nat :=
  walkDown text (min index (byteLen text))

structure FloorAt (text : List Char) (index : Nat) (front : List Char) : Prop where
  isPrefix : front <+: text
  le : byteLen front ≤ index
  longest : ∀ other, other <+: text → byteLen other ≤ index → other.length ≤ front.length

variable {text front other : List Char} {index : Nat}

theorem byteLen_le_of_begins (h : front <+: other) : byteLen front ≤ byteLen other := by
  obtain ⟨rest, rfl⟩ := h
  rw [byteLen_append]
  exact Nat.le_add_right _ _

theorem byteLen_le_of_length_le (hfront : front <+: text) (hother : other <+: text)
    (h : front.length ≤ other.length) : byteLen front ≤ byteLen other :=
  byteLen_le_of_begins (List.prefix_of_prefix_length_le hfront hother h)

theorem exists_floorAt (text : List Char) (index : Nat) : ∃ front, FloorAt text index front := by
  induction text generalizing index with
  | nil => exact ⟨[], List.nil_prefix, Nat.zero_le _, fun other hother _ => hother.length_le⟩
  | cons c rest ih =>
      by_cases hsize : c.utf8Size ≤ index
      · obtain ⟨front, hfront⟩ := ih (index - c.utf8Size)
        refine ⟨c :: front, List.cons_prefix_cons.mpr ⟨rfl, hfront.isPrefix⟩, ?_, ?_⟩
        · have hle := hfront.le
          rw [byteLen_cons]
          omega
        · intro other hother hle
          cases other with
          | nil => exact Nat.zero_le _
          | cons d other =>
              obtain ⟨rfl, hrest⟩ := List.cons_prefix_cons.mp hother
              rw [byteLen_cons] at hle
              exact Nat.succ_le_succ (hfront.longest other hrest (by omega))
      · refine ⟨[], List.nil_prefix, Nat.zero_le _, fun other hother hle => ?_⟩
        cases other with
        | nil => exact Nat.le_refl _
        | cons d other =>
            obtain ⟨rfl, -⟩ := List.cons_prefix_cons.mp hother
            rw [byteLen_cons] at hle
            omega

theorem walkDown_eq (h : FloorAt text index front) {candidate : Nat}
    (hfront : byteLen front ≤ candidate) (hindex : candidate ≤ index) :
    walkDown text candidate = byteLen front := by
  induction candidate with
  | zero => exact (Nat.le_zero.mp hfront).symm
  | succ candidate ih =>
      rw [walkDown]
      split_ifs with hboundary
      · obtain ⟨⟨other, rest⟩, hcut⟩ := Option.isSome_iff_exists.mp hboundary
        obtain ⟨rfl, hlength⟩ := splitBytes_eq_some_iff.mp hcut
        have hother : other <+: other ++ rest := List.prefix_append _ _
        have hle := byteLen_le_of_length_le hother h.isPrefix
          (h.longest other hother (by omega))
        omega
      · have hne : byteLen front ≠ candidate + 1 := by
          intro heq
          obtain ⟨rest, rfl⟩ := h.isPrefix
          apply hboundary
          rw [isCharBoundary, ← heq, splitBytes_append]
          rfl
        exact ih (by omega) (by omega)

theorem clampToCharBoundary_eq (h : FloorAt text index front) :
    clampToCharBoundary text index = byteLen front :=
  walkDown_eq h (le_min h.le (byteLen_le_of_begins h.isPrefix)) (Nat.min_le_left _ _)

end Boundaries

section Snippets

def plainBreak (c : Char) : Char :=
  if c = '\r' ∨ c = '\n' then ' ' else c

variable (toLowercase : List Char → List Char)

def firstMatch (text : List Char) (matchedTerms : List (List Char)) : Option Nat :=
  (matchedTerms.filterMap fun term => findText (toLowercase term) (toLowercase text)).min?

def snippetBounds (text : List Char) (first : Nat) : Nat × Nat :=
  (clampToCharBoundary text (first - 24),
    clampToCharBoundary text (min (first + 72) (byteLen text)))

def buildSnippet (text : List Char) (matchedTerms : List (List Char)) :
    Except Stop (Option (List Char)) :=
  match firstMatch toLowercase text matchedTerms with
  | none => .ok none
  | some first => do
      let bounds := snippetBounds text first
      let window ← slice text bounds.1 bounds.2
      let snippet := trimChars (window.map plainBreak)
      return if snippet = [] then none else some snippet

/-- The part of a text that is shown around a match. -/
structure WindowAt (text : List Char) (first : Nat) (front window back : List Char) : Prop where
  text_eq : text = front ++ window ++ back
  start : FloorAt text (first - 24) front
  stop : FloorAt text (min (first + 72) (byteLen text)) (front ++ window)

variable {toLowercase} {text front window back : List Char} {matchedTerms : List (List Char)}
  {first : Nat}

theorem exists_windowAt (text : List Char) (first : Nat) :
    ∃ front window back, WindowAt text first front window back := by
  obtain ⟨front, hstart⟩ := exists_floorAt text (first - 24)
  obtain ⟨longer, hstop⟩ := exists_floorAt text (min (first + 72) (byteLen text))
  have hle : front.length ≤ longer.length := by
    refine hstop.longest front hstart.isPrefix (le_min ?_ (byteLen_le_of_begins hstart.isPrefix))
    have hfront := hstart.le
    omega
  obtain ⟨window, rfl⟩ := List.prefix_of_prefix_length_le hstart.isPrefix hstop.isPrefix hle
  obtain ⟨back, rfl⟩ := hstop.isPrefix
  exact ⟨front, window, back, rfl, hstart, hstop⟩

theorem WindowAt.slice_eq (h : WindowAt text first front window back) :
    slice text (snippetBounds text first).1 (snippetBounds text first).2 = .ok window := by
  rw [snippetBounds, clampToCharBoundary_eq h.start, clampToCharBoundary_eq h.stop, byteLen_append]
  exact ByteSlices.slice_eq h.text_eq

theorem WindowAt.buildSnippet_eq (h : WindowAt text first front window back)
    (hfirst : firstMatch toLowercase text matchedTerms = some first) :
    buildSnippet toLowercase text matchedTerms =
      .ok (if trimChars (window.map plainBreak) = [] then none
        else some (trimChars (window.map plainBreak))) := by
  rw [buildSnippet, hfirst]
  simp only [h.slice_eq]
  rfl

theorem exists_buildSnippet_eq (toLowercase : List Char → List Char) (text : List Char)
    (matchedTerms : List (List Char)) :
    ∃ snippet, buildSnippet toLowercase text matchedTerms = .ok snippet := by
  cases hfirst : firstMatch toLowercase text matchedTerms with
  | none => exact ⟨none, by rw [buildSnippet, hfirst]⟩
  | some first =>
      obtain ⟨front, window, back, h⟩ := exists_windowAt text first
      exact ⟨_, h.buildSnippet_eq hfirst⟩

end Snippets

section Relevance

variable {text front window back : List Char} {matchedTerms : List (List Char)} {term : List Char}
  {first : Nat} {c : Char}

structure ShownPart (text : List Char) (first : Nat) (front window back : List Char) : Prop where
  text_eq : text = front ++ window ++ back
  start : byteLen front = (snippetBounds text first).1
  stop : byteLen (front ++ window) = (snippetBounds text first).2

def OccursAt (toLowercase : List Char → List Char) (text term before occurrence : List Char) :
    Prop :=
  before ++ occurrence <+: text ∧ toLowercase occurrence = toLowercase term

/-- What is left of the shown part without the white space at its ends overlaps an occurrence. -/
def Overlaps (toLowercase : List Char → List Char) (text term : List Char) (first : Nat) : Prop :=
  ∃ front window back before occurrence, ShownPart text first front window back ∧
    OccursAt toLowercase text term before occurrence ∧
    before.length < front.length + (window.rdropWhile isWhitespace).length ∧
    front.length + (window.takeWhile isWhitespace).length < before.length + occurrence.length

def VisibleAfter (text before : List Char) (c : Char) : Prop :=
  before ++ [c] <+: text ∧ isWhitespace c = false

/-- An occurrence is near an offset: a visible character that ends at most 72 bytes after it begins
in the occurrence or later, and one that ends less than 24 bytes before it, or after it, begins in
the occurrence or earlier. -/
def InView (toLowercase : List Char → List Char) (text term : List Char) (first : Nat) : Prop :=
  ∃ before occurrence, OccursAt toLowercase text term before occurrence ∧
    (∃ front c, VisibleAfter text front c ∧ before.length ≤ front.length ∧
      byteLen (front ++ [c]) ≤ first + 72) ∧
    ∃ front c, VisibleAfter text front c ∧ front.length < before.length + occurrence.length ∧
      first - 24 < byteLen (front ++ [c])

theorem WindowAt.shownPart (h : WindowAt text first front window back) :
    ShownPart text first front window back where
  text_eq := h.text_eq
  start := by rw [snippetBounds, clampToCharBoundary_eq h.start]
  stop := by rw [snippetBounds, clampToCharBoundary_eq h.stop]

theorem eq_of_byteLen_eq {front other rest rest' : List Char} (h : front ++ rest = other ++ rest')
    (hlength : byteLen front = byteLen other) : front = other := by
  have hcut := splitBytes_append front rest
  rw [h, hlength, splitBytes_append] at hcut
  exact (Prod.mk.inj (Option.some.inj hcut)).1.symm

theorem ShownPart.unique {front' window' back' : List Char}
    (h : ShownPart text first front window back)
    (h' : ShownPart text first front' window' back') :
    front = front' ∧ window = window' := by
  have htext := h.text_eq.symm.trans h'.text_eq
  have hlonger : front ++ window = front' ++ window' :=
    eq_of_byteLen_eq htext (h.stop.trans h'.stop.symm)
  rw [List.append_assoc, List.append_assoc] at htext
  obtain rfl := eq_of_byteLen_eq htext (h.start.trans h'.start.symm)
  exact ⟨rfl, List.append_cancel_left hlonger⟩

theorem visible_between (before after : List Char) (hc : isWhitespace c = false) :
    ((before ++ c :: after).takeWhile isWhitespace).length ≤ before.length ∧
      before.length < ((before ++ c :: after).rdropWhile isWhitespace).length := by
  constructor
  · have hwhole : (before ++ c :: after).takeWhile isWhitespace ++
        (before ++ c :: after).dropWhile isWhitespace = before ++ c :: after :=
      List.takeWhile_append_dropWhile
    have hlength := congrArg List.length hwhole
    rw [dropWhile_append_cons hc, List.length_append, List.length_append,
      List.length_append] at hlength
    omega
  · rw [List.append_cons, rdropWhile_append_concat hc]
    simp only [List.length_append, List.length_singleton]
    omega

theorem exists_first_visible (h : ∃ c ∈ window, isWhitespace c = false) :
    ∃ c rest, window = window.takeWhile isWhitespace ++ c :: rest ∧ isWhitespace c = false := by
  have hne : window.dropWhile isWhitespace ≠ [] := by
    intro hnil
    obtain ⟨c, hmem, hc⟩ := h
    rw [List.dropWhile_eq_nil_iff.mp hnil c hmem] at hc
    cases hc
  obtain ⟨c, rest, hdrop⟩ := List.exists_cons_of_ne_nil hne
  refine ⟨c, rest, ?_, ?_⟩
  · rw [← hdrop, List.takeWhile_append_dropWhile]
  · have hhead : isWhitespace ((window.dropWhile isWhitespace).head hne) = false := by
      simpa using List.head_dropWhile_not isWhitespace hne
    simpa [hdrop] using hhead

theorem exists_last_visible (h : ∃ c ∈ window, isWhitespace c = false) :
    ∃ init c, window.rdropWhile isWhitespace = init ++ [c] ∧ isWhitespace c = false := by
  have hne : window.rdropWhile isWhitespace ≠ [] := by
    intro hnil
    obtain ⟨c, hmem, hc⟩ := h
    rw [List.rdropWhile_eq_nil_iff.mp hnil c hmem] at hc
    cases hc
  refine ⟨_, _, (List.dropLast_append_getLast hne).symm, ?_⟩
  simpa using List.rdropWhile_last_not isWhitespace window hne

theorem trimChars_ne_nil_iff :
    trimChars (window.map plainBreak) ≠ [] ↔ ∃ c ∈ window, isWhitespace c = false := by
  have hbreak : ∀ c, isWhitespace (plainBreak c) = isWhitespace c := by
    intro c
    rw [plainBreak]
    split_ifs with hc
    · obtain rfl | rfl := hc <;> rfl
    · rfl
  constructor
  · intro hne
    by_contra hnone
    have hall : ∀ c ∈ window.map plainBreak, isWhitespace c = true := by
      rw [List.forall_mem_map]
      intro c hc
      rw [hbreak]
      exact Bool.eq_true_of_not_eq_false fun hvisible => hnone ⟨c, hc, hvisible⟩
    apply hne
    rw [trimChars, List.dropWhile_eq_nil_iff.mpr hall]
    rfl
  · rintro ⟨c, hmem, hc⟩ hnil
    have hkept : plainBreak c ∈ (window.map plainBreak).dropWhile isWhitespace := by
      obtain ⟨before, after, rfl⟩ := List.append_of_mem hmem
      rw [List.map_append, List.map_cons, dropWhile_append_cons ((hbreak c).trans hc)]
      simp
    rw [trimChars, List.rdropWhile_eq_nil_iff] at hnil
    rw [← hbreak, hnil _ hkept] at hc
    cases hc

theorem WindowAt.longest (h : WindowAt text first front window back) {other : List Char}
    (hother : other <+: text) (hle : byteLen other ≤ first + 72) :
    other.length ≤ (front ++ window).length :=
  h.stop.longest other hother (le_min hle (byteLen_le_of_begins hother))

theorem WindowAt.exists_eq_append (h : WindowAt text first front window back) {other : List Char}
    (hother : other ++ [c] <+: text) (hstart : front.length ≤ other.length)
    (hstop : (other ++ [c]).length ≤ (front ++ window).length) :
    ∃ middle rest, other = front ++ middle ∧ window = middle ++ c :: rest := by
  have hwithin : other ++ [c] <+: front ++ window :=
    List.prefix_of_prefix_length_le hother h.stop.isPrefix hstop
  have hfront : front <+: other := List.prefix_of_prefix_length_le h.start.isPrefix
    ((List.prefix_append other [c]).trans hother) hstart
  obtain ⟨middle, rfl⟩ := hfront
  obtain ⟨rest, hrest⟩ := hwithin
  rw [List.append_assoc, List.append_assoc, List.append_cancel_left_eq] at hrest
  exact ⟨middle, rest, rfl, hrest.symm⟩

theorem WindowAt.lt_end_iff (h : WindowAt text first front window back)
    (hvisible : ∃ c ∈ window, isWhitespace c = false) (n : Nat) :
    n < front.length + (window.rdropWhile isWhitespace).length ↔
      ∃ other c, VisibleAfter text other c ∧ n ≤ other.length ∧
        byteLen (other ++ [c]) ≤ first + 72 := by
  constructor
  · intro hlt
    obtain ⟨init, c, hinit, hc⟩ := exists_last_visible hvisible
    have hshort : init ++ [c] <+: window := hinit ▸ List.rdropWhile_prefix _ _
    have hlonger : front ++ init ++ [c] <+: front ++ window := by
      rw [List.append_assoc]
      exact List.prefix_append_right_inj front |>.mpr hshort
    refine ⟨front ++ init, c, ⟨hlonger.trans h.stop.isPrefix, hc⟩, ?_, ?_⟩
    · rw [hinit, List.length_append, List.length_singleton] at hlt
      rw [List.length_append]
      omega
    · exact (byteLen_le_of_begins hlonger).trans (h.stop.le.trans (Nat.min_le_left _ _))
  · rintro ⟨other, c, ⟨hother, hc⟩, hn, hle⟩
    have hstop := h.longest hother hle
    by_cases hstart : front.length ≤ other.length
    · obtain ⟨middle, rest, rfl, rfl⟩ := h.exists_eq_append hother hstart hstop
      have hbetween := visible_between middle rest hc
      rw [List.length_append] at hn
      omega
    · omega

theorem WindowAt.lt_byteLen (h : WindowAt text first front window back) {other : List Char}
    (hother : other <+: text) (hlt : front.length < other.length) : first - 24 < byteLen other := by
  by_contra hle
  have hlength := h.start.longest other hother (Nat.le_of_not_lt hle)
  omega

theorem WindowAt.start_le (h : WindowAt text first front window back) {other : List Char}
    (hother : other ++ [c] <+: text) (hlt : first - 24 < byteLen (other ++ [c])) :
    front.length ≤ other.length := by
  by_contra hlt_front
  have hle := byteLen_le_of_length_le hother h.start.isPrefix
    (by rw [List.length_append, List.length_singleton]; omega)
  have hfront := h.start.le
  omega

theorem WindowAt.start_lt_iff (h : WindowAt text first front window back)
    (hvisible : ∃ c ∈ window, isWhitespace c = false) (n : Nat) :
    front.length + (window.takeWhile isWhitespace).length < n ↔
      ∃ other c, VisibleAfter text other c ∧ other.length < n ∧
        first - 24 < byteLen (other ++ [c]) := by
  constructor
  · intro hlt
    obtain ⟨c, rest, hwindow, hc⟩ := exists_first_visible hvisible
    have hother : front ++ window.takeWhile isWhitespace ++ [c] <+: text := by
      refine List.IsPrefix.trans ⟨rest, ?_⟩ h.stop.isPrefix
      conv_rhs => rw [hwindow]
      simp only [List.append_assoc, List.cons_append, List.nil_append]
    refine ⟨_, c, ⟨hother, hc⟩, by rwa [List.length_append], h.lt_byteLen hother ?_⟩
    rw [List.length_append, List.length_append, List.length_singleton]
    omega
  · rintro ⟨other, c, ⟨hother, hc⟩, hn, hlt⟩
    have hstart := h.start_le hother hlt
    by_cases hstop : (other ++ [c]).length ≤ (front ++ window).length
    · obtain ⟨middle, rest, rfl, rfl⟩ := h.exists_eq_append hother hstart hstop
      have hbetween := visible_between middle rest hc
      rw [List.length_append] at hn
      omega
    · have hblank : (window.takeWhile isWhitespace).length ≤ window.length :=
        (List.takeWhile_prefix isWhitespace).length_le
      rw [List.length_append, List.length_append, List.length_singleton] at hstop
      omega

def VisibleNear (text : List Char) (first : Nat) : Prop :=
  ∃ before c, VisibleAfter text before c ∧ first - 24 < byteLen (before ++ [c]) ∧
    byteLen (before ++ [c]) ≤ first + 72

theorem WindowAt.visible_iff (h : WindowAt text first front window back) :
    (∃ c ∈ window, isWhitespace c = false) ↔ VisibleNear text first := by
  constructor
  · rintro ⟨c, hmem, hc⟩
    obtain ⟨middle, rest, hwindow⟩ := List.append_of_mem hmem
    have hwithin : front ++ middle ++ [c] <+: front ++ window :=
      ⟨rest, by rw [hwindow]; simp only [List.append_assoc, List.cons_append, List.nil_append]⟩
    have hother := hwithin.trans h.stop.isPrefix
    refine ⟨front ++ middle, c, ⟨hother, hc⟩, h.lt_byteLen hother ?_, ?_⟩
    · rw [List.length_append, List.length_append, List.length_singleton]
      omega
    · exact (byteLen_le_of_begins hwithin).trans (h.stop.le.trans (Nat.min_le_left _ _))
  · rintro ⟨other, c, ⟨hother, hc⟩, hlt, hle⟩
    obtain ⟨middle, rest, -, rfl⟩ :=
      h.exists_eq_append hother (h.start_le hother hlt) (h.longest hother hle)
    exact ⟨c, by simp, hc⟩

theorem overlaps_iff_inView (h : WindowAt text first front window back)
    (hvisible : ∃ c ∈ window, isWhitespace c = false) (toLowercase : List Char → List Char) :
    Overlaps toLowercase text term first ↔ InView toLowercase text term first := by
  constructor
  · rintro ⟨front', window', back', before, occurrence, hshown, hoccurs, hend, hstart⟩
    obtain ⟨rfl, rfl⟩ := h.shownPart.unique hshown
    exact ⟨before, occurrence, hoccurs, (h.lt_end_iff hvisible _).mp hend,
      (h.start_lt_iff hvisible _).mp hstart⟩
  · rintro ⟨before, occurrence, hoccurs, hend, hstart⟩
    exact ⟨front, window, back, before, occurrence, h.shownPart, hoccurs,
      (h.lt_end_iff hvisible _).mpr hend, (h.start_lt_iff hvisible _).mpr hstart⟩

/-- A snippet that is shown for a term of the first match overlaps an occurrence of the term, if
the term occurs. -/
def Relevant (toLowercase : List Char → List Char) (text : List Char)
    (matchedTerms : List (List Char)) : Prop :=
  ∀ snippet first term, buildSnippet toLowercase text matchedTerms = .ok (some snippet) →
    firstMatch toLowercase text matchedTerms = some first → term ∈ matchedTerms →
      findText (toLowercase term) (toLowercase text) = some first →
        (∃ before occurrence, OccursAt toLowercase text term before occurrence) →
          Overlaps toLowercase text term first

/-- An occurrence of each such term is near the offset of the first match, if anything visible
is. -/
def MatchesInView (toLowercase : List Char → List Char) (text : List Char)
    (matchedTerms : List (List Char)) : Prop :=
  ∀ first term, VisibleNear text first → firstMatch toLowercase text matchedTerms = some first →
    term ∈ matchedTerms → findText (toLowercase term) (toLowercase text) = some first →
      (∃ before occurrence, OccursAt toLowercase text term before occurrence) →
        InView toLowercase text term first

theorem buildSnippet_eq_some_iff {toLowercase : List Char → List Char}
    (hfirst : firstMatch toLowercase text matchedTerms = some first) :
    (∃ snippet, buildSnippet toLowercase text matchedTerms = .ok (some snippet)) ↔
      VisibleNear text first := by
  obtain ⟨front, window, back, h⟩ := exists_windowAt text first
  rw [h.buildSnippet_eq hfirst, ← h.visible_iff, ← trimChars_ne_nil_iff]
  split_ifs with hnil
  · simp [hnil]
  · simp [hnil]

theorem snippet_total_relevant_iff (toLowercase : List Char → List Char) (text : List Char)
    (matchedTerms : List (List Char)) :
    (∃ snippet, buildSnippet toLowercase text matchedTerms = .ok snippet) ∧
      (Relevant toLowercase text matchedTerms ↔ MatchesInView toLowercase text matchedTerms) := by
  refine ⟨exists_buildSnippet_eq toLowercase text matchedTerms, ?_⟩
  have hiff : ∀ first term, VisibleNear text first →
      (Overlaps toLowercase text term first ↔ InView toLowercase text term first) := by
    intro first term hnear
    obtain ⟨front, window, back, h⟩ := exists_windowAt text first
    exact overlaps_iff_inView h (h.visible_iff.mpr hnear) toLowercase
  constructor
  · intro h first term hnear hfirst hterm hfound hoccurs
    obtain ⟨snippet, hsnippet⟩ := (buildSnippet_eq_some_iff hfirst).mpr hnear
    exact (hiff first term hnear).mp (h snippet first term hsnippet hfirst hterm hfound hoccurs)
  · intro h snippet first term hsnippet hfirst hterm hfound hoccurs
    have hnear := (buildSnippet_eq_some_iff hfirst).mp ⟨snippet, hsnippet⟩
    exact (hiff first term hnear).mpr (h first term hnear hfirst hterm hfound hoccurs)

def kelvinSign : Char :=
  Char.ofNat 0x212A

def kelvinText : List Char :=
  List.replicate 36 kelvinSign ++ ['z']

def lowercaseEach (text : List Char) : List Char :=
  text.flatMap lowercaseChar

theorem not_inView_kelvinText : ¬ InView lowercaseEach kelvinText ['z'] 36 := by
  rintro ⟨before, occurrence, ⟨hbegins, hlower⟩, ⟨other, c, ⟨hother, -⟩, hle, hbytes⟩, -⟩
  have hbefore : 36 ≤ before.length := by
    by_contra hlt
    cases occurrence with
    | nil => cases hlower
    | cons d occurrence =>
        have hd : kelvinText[before.length]? = some d := by
          obtain ⟨rest, hrest⟩ := hbegins
          rw [← hrest, List.append_assoc]
          simp
        rw [kelvinText, List.getElem?_append_left (by simpa using hlt),
          List.getElem?_replicate_of_lt (by omega)] at hd
        rw [← Option.some.inj hd, lowercaseEach, List.flatMap_cons] at hlower
        have hhead := congrArg List.head? hlower
        rw [show lowercaseChar kelvinSign = ['k'] by decide] at hhead
        cases hhead
  have hwhole : other ++ [c] = kelvinText := by
    refine List.IsPrefix.eq_of_length_le hother ?_
    rw [List.length_append, List.length_singleton, kelvinText, List.length_append,
      List.length_replicate, List.length_singleton]
    omega
  rw [hwhole] at hbytes
  revert hbytes
  decide

/-- The window around the offset of the match ends before the match. -/
theorem not_relevant_kelvinText : ¬ Relevant lowercaseEach kelvinText [['z']] := by
  intro h
  have hfirst : firstMatch lowercaseEach kelvinText [['z']] = some 36 := by decide
  have hnear : VisibleNear kelvinText 36 :=
    ⟨List.replicate 5 kelvinSign, kelvinSign, ⟨⟨List.replicate 30 kelvinSign ++ ['z'], by decide⟩,
      by decide⟩, by decide, by decide⟩
  obtain ⟨snippet, hsnippet⟩ := (buildSnippet_eq_some_iff hfirst).mpr hnear
  have hoverlaps := h snippet 36 ['z'] hsnippet hfirst (by simp) (by decide)
    ⟨List.replicate 36 kelvinSign, ['z'], List.prefix_refl _, rfl⟩
  obtain ⟨front, window, back, hwindow⟩ := exists_windowAt kelvinText 36
  exact not_inView_kelvinText
    ((overlaps_iff_inView hwindow (hwindow.visible_iff.mpr hnear) lowercaseEach).mp hoverlaps)

end Relevance

end HarborBeacon.SearchSnippets
