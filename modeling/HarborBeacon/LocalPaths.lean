import HarborBeacon.Text

/-!
The redaction of local paths in a text. A path is looked for at the start of the text and behind
white space, quotes and opening brackets, and it ends before white space, quotes, closing brackets,
`,` and `;`. What follows a `,` or a `;` is not looked at, so a path there stays.
-/

namespace HarborBeacon.LocalPaths

open Text

def isLocalPathBoundary : Option Char → Bool
  | none => true
  | some ch => isWhitespace ch || ['"', '\'', '(', '[', '{'].contains ch

def looksLikeWindowsAbsolutePath : List Char → Bool
  | drive :: ':' :: separator :: _ => drive.isAlpha && (separator == '\\' || separator == '/')
  | _ => false

def endsLocalPath (ch : Char) : Bool :=
  isWhitespace ch || ['"', '\'', ')', ']', '}', ',', ';'].contains ch

def consumeLocalPath (chars : List Char) : List Char :=
  let path := chars.takeWhile fun ch => !endsLocalPath ch
  if path.any fun ch => ch == '/' || ch == '\\' then path else []

def redactedLocalPath : List Char :=
  "[redacted local path]".toList

theorem length_drop_cons_lt {ch : Char} {rest : List Char} {n : Nat} (hn : 0 < n) :
    ((ch :: rest).drop n).length < (ch :: rest).length := by
  rw [List.length_drop]
  exact Nat.sub_lt (Nat.succ_pos _) hn

def redactFrom (before : Option Char) (remaining : List Char) : List Char :=
  match remaining with
  | [] => []
  | ch :: rest =>
      let path := consumeLocalPath (ch :: rest)
      if ch = '/' ∧ isLocalPathBoundary before ∧ 1 < path.length then
        redactedLocalPath ++ redactFrom path.getLast? ((ch :: rest).drop path.length)
      else if looksLikeWindowsAbsolutePath (ch :: rest) ∧ isLocalPathBoundary before ∧
          2 < path.length then
        redactedLocalPath ++ redactFrom path.getLast? ((ch :: rest).drop path.length)
      else ch :: redactFrom (some ch) rest
termination_by remaining.length
decreasing_by
  · rename_i h
    exact length_drop_cons_lt (Nat.zero_lt_of_lt h.2.2)
  · rename_i h
    exact length_drop_cons_lt (Nat.zero_lt_of_lt h.2.2)
  · exact Nat.lt_succ_self _

def redactLocalPathOccurrences (value : String) : String :=
  String.ofList (redactFrom none value.toList)

def startsLocalPath : List Char → Bool
  | '/' :: ch :: _ => !endsLocalPath ch
  | drive :: ':' :: separator :: ch :: _ =>
      drive.isAlpha && (separator == '\\' || separator == '/') && !endsLocalPath ch
  | _ => false

def isListSeparator (ch : Char) : Bool :=
  ch == ',' || ch == ';'

/-- A path may begin at the start of a text and after white space, a quote, an opening bracket, a
`,` or a `;`. -/
def opensLocalPath : Option Char → Bool
  | none => true
  | some ch => isLocalPathBoundary (some ch) || isListSeparator ch

/-- No local path begins where one may begin. -/
def NoLocalPath (value : String) : Prop :=
  ∀ before after, value.toList = before ++ after → opensLocalPath before.getLast? = true →
    startsLocalPath after = false

/-- No local path follows a `,` or a `;`. -/
def NoPathAfterSeparator (value : String) : Prop :=
  ∀ before ch after, value.toList = before ++ ch :: after → isListSeparator ch = true →
    startsLocalPath after = false

section Steps

variable {before : Option Char} {ch : Char} {rest remaining path tail : List Char}

/-- A path begins here if this is a boundary. -/
def startsRedaction : List Char → Bool
  | '/' :: ch :: _ => !endsLocalPath ch
  | chars => looksLikeWindowsAbsolutePath chars

theorem isAlpha_eq_false_of_isWhitespace (h : isWhitespace ch = true) : ch.isAlpha = false := by
  simp only [isWhitespace, Bool.or_eq_true, Bool.and_eq_true, decide_eq_true_eq, beq_iff_eq] at h
  simp only [isAlpha_eq, isUpper_eq, isLower_eq, Bool.or_eq_false_iff, Bool.and_eq_false_iff,
    decide_eq_false_iff_not, ge_iff_le, UInt32.le_iff_toNat_le]
  have hval : ch.val.toNat = ch.toNat := rfl
  have hcodes : 'A'.val.toNat = 65 ∧ 'Z'.val.toNat = 90 ∧ 'a'.val.toNat = 97 ∧
      'z'.val.toNat = 122 := by decide
  rw [hval, hcodes.1, hcodes.2.1, hcodes.2.2.1, hcodes.2.2.2]
  omega

theorem endsLocalPath_of_isAlpha (h : ch.isAlpha = true) : endsLocalPath ch = false := by
  have hlisted : ∀ c ∈ ['"', '\'', ')', ']', '}', ',', ';'], c.isAlpha = false :=
    forall_mem_of_all (by decide)
  rw [endsLocalPath, Bool.or_eq_false_iff]
  refine ⟨?_, ?_⟩
  · by_contra hspace
    rw [Bool.not_eq_false] at hspace
    exact Bool.false_ne_true ((isAlpha_eq_false_of_isWhitespace hspace).symm.trans h)
  · by_contra hmem
    rw [Bool.not_eq_false, List.contains_iff_mem] at hmem
    exact Bool.false_ne_true ((hlisted ch hmem).symm.trans h)

theorem not_boundary_of_isAlpha (h : ch.isAlpha = true) :
    isLocalPathBoundary (some ch) = false := by
  have hlisted : ∀ c ∈ ['"', '\'', '(', '[', '{'], c.isAlpha = false :=
    forall_mem_of_all (by decide)
  rw [isLocalPathBoundary, Bool.or_eq_false_iff]
  refine ⟨?_, ?_⟩
  · by_contra hspace
    rw [Bool.not_eq_false] at hspace
    exact Bool.false_ne_true ((isAlpha_eq_false_of_isWhitespace hspace).symm.trans h)
  · by_contra hmem
    rw [Bool.not_eq_false, List.contains_iff_mem] at hmem
    exact Bool.false_ne_true ((hlisted ch hmem).symm.trans h)

theorem consumeLocalPath_of_mem (h : '/' ∈ path ∨ '\\' ∈ path)
    (hpath : ∀ c ∈ path, endsLocalPath c = false) :
    path.length ≤ (consumeLocalPath (path ++ rest)).length := by
  have hkept : ∀ c ∈ path, (!endsLocalPath c) = true := by
    intro c hc
    rw [hpath c hc, Bool.not_false]
  rw [consumeLocalPath, List.takeWhile_append_of_pos hkept, if_pos, List.length_append]
  · exact Nat.le_add_right _ _
  · rw [List.any_append, Bool.or_eq_true]
    left
    rw [List.any_eq_true]
    rcases h with h | h
    · exact ⟨'/', h, rfl⟩
    · exact ⟨'\\', h, rfl⟩

theorem one_lt_consumeLocalPath (h : endsLocalPath ch = false) :
    1 < (consumeLocalPath ('/' :: ch :: rest)).length := by
  have hpath : ∀ c ∈ ['/', ch], endsLocalPath c = false := by
    intro c hc
    rcases List.mem_cons.mp hc with rfl | hc
    · decide
    · rwa [List.mem_singleton.mp hc]
  exact consumeLocalPath_of_mem (Or.inl List.mem_cons_self) hpath

theorem two_lt_consumeLocalPath (h : looksLikeWindowsAbsolutePath remaining = true) :
    2 < (consumeLocalPath remaining).length := by
  unfold looksLikeWindowsAbsolutePath at h
  split at h
  · rename_i drive separator rest
    rw [Bool.and_eq_true, Bool.or_eq_true, beq_iff_eq, beq_iff_eq] at h
    have hlast : separator ∈ [drive, ':', separator] :=
      List.mem_cons_of_mem _ (List.mem_cons_of_mem _ List.mem_cons_self)
    have hseparator : '/' ∈ [drive, ':', separator] ∨ '\\' ∈ [drive, ':', separator] := by
      rcases h.2 with rfl | rfl
      · exact Or.inr hlast
      · exact Or.inl hlast
    have hpath : ∀ c ∈ [drive, ':', separator], endsLocalPath c = false := by
      intro c hc
      rcases List.mem_cons.mp hc with rfl | hc
      · exact endsLocalPath_of_isAlpha h.1
      · rcases List.mem_cons.mp hc with rfl | hc
        · decide
        · rw [List.mem_singleton.mp hc]
          rcases h.2 with rfl | rfl <;> decide
    exact consumeLocalPath_of_mem hseparator hpath
  · cases h

theorem consumeLocalPath_parts (h : 0 < (consumeLocalPath remaining).length) :
    ∃ path tail, consumeLocalPath remaining = path ∧ remaining = path ++ tail ∧ path ≠ [] ∧
      (∀ c ∈ path, endsLocalPath c = false) ∧ (∀ c ∈ tail.head?, endsLocalPath c = true) := by
  rw [consumeLocalPath] at h ⊢
  split at h
  · rename_i hseparator
    rw [if_pos hseparator]
    refine ⟨_, remaining.dropWhile fun c => !endsLocalPath c, rfl,
      List.takeWhile_append_dropWhile.symm, List.ne_nil_of_length_pos h, ?_, ?_⟩
    · intro c hc
      simpa using List.mem_takeWhile_imp hc
    · intro c hc
      have hnot := List.head?_dropWhile_not (fun c => !endsLocalPath c) remaining
      rw [Option.mem_def.mp hc] at hnot
      simpa using hnot
  · cases h

theorem startsRedaction_of_one_lt (h : 1 < (consumeLocalPath ('/' :: rest)).length) :
    startsRedaction ('/' :: rest) = true := by
  obtain ⟨path, tail, hconsumed, hparts, -, hpath, -⟩ :=
    consumeLocalPath_parts (Nat.zero_lt_of_lt h)
  rw [hconsumed] at h
  match path, h with
  | first :: second :: others, _ =>
      rw [List.cons_append, List.cons.injEq] at hparts
      rw [hparts.2, List.cons_append, startsRedaction,
        hpath second (List.mem_cons_of_mem _ List.mem_cons_self), Bool.not_false]

theorem startsRedaction_of_windows (h : looksLikeWindowsAbsolutePath remaining = true) :
    startsRedaction remaining = true := by
  unfold startsRedaction
  split
  · unfold looksLikeWindowsAbsolutePath at h
    split at h
    · rename_i hparts
      cases hparts
      cases h
    · cases h
  · exact h

def TakesPath (before : Option Char) (remaining : List Char) : Prop :=
  ∃ path tail, remaining = path ++ tail ∧ path ≠ [] ∧ (∀ c ∈ path, endsLocalPath c = false) ∧
    (∀ c ∈ tail.head?, endsLocalPath c = true) ∧
    redactFrom before remaining = redactedLocalPath ++ redactFrom path.getLast? tail

theorem takesPath_of_eq (h : 0 < (consumeLocalPath remaining).length)
    (hredact : redactFrom before remaining = redactedLocalPath ++
      redactFrom (consumeLocalPath remaining).getLast?
        (remaining.drop (consumeLocalPath remaining).length)) : TakesPath before remaining := by
  obtain ⟨path, tail, hconsumed, hparts, hne, hpath, htail⟩ := consumeLocalPath_parts h
  refine ⟨path, tail, hparts, hne, hpath, htail, ?_⟩
  have hdrop : remaining.drop path.length = tail := by rw [hparts, List.drop_left]
  rw [hredact, hconsumed, hdrop]

theorem redactFrom_cons (before : Option Char) (ch : Char) (rest : List Char) :
    if isLocalPathBoundary before && startsRedaction (ch :: rest) then TakesPath before (ch :: rest)
    else redactFrom before (ch :: rest) = ch :: redactFrom (some ch) rest := by
  have hstep := redactFrom.eq_2 before ch rest
  split_ifs at hstep with hunix hwindows
  · obtain ⟨rfl, hboundary, hlength⟩ := hunix
    rw [hboundary, startsRedaction_of_one_lt hlength, Bool.and_self, if_pos rfl]
    exact takesPath_of_eq (Nat.zero_lt_of_lt hlength) hstep
  · obtain ⟨hstarts, hboundary, hlength⟩ := hwindows
    rw [hboundary, startsRedaction_of_windows hstarts, Bool.and_self, if_pos rfl]
    exact takesPath_of_eq (Nat.zero_lt_of_lt hlength) hstep
  · rw [if_neg]
    · exact hstep
    · intro hstarts
      rw [Bool.and_eq_true] at hstarts
      obtain ⟨hboundary, hstarts⟩ := hstarts
      unfold startsRedaction at hstarts
      split at hstarts
      · rename_i c tail hparts
        rw [Bool.not_eq_true'] at hstarts
        cases hparts
        exact hunix ⟨rfl, hboundary, one_lt_consumeLocalPath hstarts⟩
      · exact hwindows ⟨hstarts, hboundary, two_lt_consumeLocalPath hstarts⟩

theorem redactFrom_of_not_boundary (h : isLocalPathBoundary before = false) :
    redactFrom before (ch :: rest) = ch :: redactFrom (some ch) rest := by
  have hstep := redactFrom_cons before ch rest
  rwa [h, Bool.false_and, if_neg Bool.false_ne_true] at hstep

theorem redactFrom_of_not_starts (h : startsRedaction (ch :: rest) = false) :
    redactFrom before (ch :: rest) = ch :: redactFrom (some ch) rest := by
  have hstep := redactFrom_cons before ch rest
  rwa [h, Bool.and_false, if_neg Bool.false_ne_true] at hstep

theorem redactFrom_induction {motive : Option Char → List Char → List Char → Prop}
    (nil : ∀ before, motive before [] [])
    (copy : ∀ before ch rest,
      (isLocalPathBoundary before = true → startsRedaction (ch :: rest) = false) →
      motive (some ch) rest (redactFrom (some ch) rest) →
      motive before (ch :: rest) (ch :: redactFrom (some ch) rest))
    (take : ∀ before path tail, (∀ c ∈ path, endsLocalPath c = false) →
      (∀ c ∈ tail.head?, endsLocalPath c = true) →
      motive path.getLast? tail (redactFrom path.getLast? tail) →
      motive before (path ++ tail) (redactedLocalPath ++ redactFrom path.getLast? tail))
    (before : Option Char) (remaining : List Char) :
    motive before remaining (redactFrom before remaining) := by
  induction hlength : remaining.length using Nat.strong_induction_on
    generalizing before remaining with
  | _ n ih =>
      cases remaining with
      | nil =>
          rw [redactFrom]
          exact nil before
      | cons ch rest =>
          have hstep := redactFrom_cons before ch rest
          split_ifs at hstep with hstarts
          · obtain ⟨path, tail, hparts, hne, hpath, htail, hredact⟩ := hstep
            have hshort : tail.length < n := by
              rw [← hlength, hparts, List.length_append]
              exact Nat.lt_add_of_pos_left (List.length_pos_of_ne_nil hne)
            rw [hredact, hparts]
            exact take before path tail hpath htail (ih _ hshort _ tail rfl)
          · rw [hstep]
            have hshort : rest.length < n := by
              rw [← hlength]
              exact Nat.lt_succ_self _
            refine copy before ch rest ?_ (ih _ hshort _ rest rfl)
            intro hboundary
            rwa [hboundary, Bool.true_and, Bool.not_eq_true] at hstarts

end Steps

section Results

variable {before : Option Char} {ch : Char} {rest remaining out : List Char} {start : List Char}

/-- No path begins at a boundary. -/
def Quiet : Option Char → List Char → Prop
  | _, [] => True
  | before, ch :: rest =>
      (isLocalPathBoundary before = true → startsRedaction (ch :: rest) = false) ∧
        Quiet (some ch) rest

/-- No path begins behind a `,` or a `;`. -/
def SeparatorsQuiet : List Char → Prop
  | [] => True
  | ch :: rest =>
      (isListSeparator ch = true → startsLocalPath rest = false) ∧ SeparatorsQuiet rest

theorem redactFrom_of_quiet (h : Quiet before remaining) :
    redactFrom before remaining = remaining := by
  induction remaining generalizing before with
  | nil => rw [redactFrom]
  | cons ch rest ih =>
      have hcopied : redactFrom before (ch :: rest) = ch :: redactFrom (some ch) rest := by
        cases hboundary : isLocalPathBoundary before with
        | true => exact redactFrom_of_not_starts (h.1 hboundary)
        | false => exact redactFrom_of_not_boundary hboundary
      rw [hcopied, ih h.2]

theorem startsRedaction_of_ne_of_not_isAlpha (hslash : ch ≠ '/') (halpha : ch.isAlpha = false) :
    startsRedaction (ch :: rest) = false := by
  unfold startsRedaction
  split
  · rename_i hparts
    cases hparts
    exact absurd rfl hslash
  · unfold looksLikeWindowsAbsolutePath
    split
    · rename_i hparts
      cases hparts
      rw [halpha, Bool.false_and]
    · rfl

theorem startsRedaction_of_endsLocalPath (h : endsLocalPath ch = true) :
    startsRedaction (ch :: rest) = false := by
  refine startsRedaction_of_ne_of_not_isAlpha ?_ ?_
  · rintro rfl
    exact absurd h (by decide)
  · by_contra halpha
    rw [Bool.not_eq_false] at halpha
    exact Bool.false_ne_true ((endsLocalPath_of_isAlpha halpha).symm.trans h)

/-- The beginnings at which the scanner takes a path out. -/
def IsRedactionStart (start : List Char) : Prop :=
  (∃ ch, start = ['/', ch] ∧ endsLocalPath ch = false) ∨
    ∃ drive separator, start = [drive, ':', separator] ∧ drive.isAlpha = true ∧
      (separator = '\\' ∨ separator = '/')

def IsPathStart (start : List Char) : Prop :=
  (∃ ch, start = ['/', ch] ∧ endsLocalPath ch = false) ∨
    ∃ drive separator ch, start = [drive, ':', separator, ch] ∧ drive.isAlpha = true ∧
      (separator = '\\' ∨ separator = '/') ∧ endsLocalPath ch = false

theorem looksLikeWindowsAbsolutePath_iff : looksLikeWindowsAbsolutePath remaining = true ↔
    ∃ drive separator, [drive, ':', separator] <+: remaining ∧ drive.isAlpha = true ∧
      (separator = '\\' ∨ separator = '/') := by
  constructor
  · intro h
    unfold looksLikeWindowsAbsolutePath at h
    split at h
    · rename_i drive separator rest
      rw [Bool.and_eq_true, Bool.or_eq_true, beq_iff_eq, beq_iff_eq] at h
      exact ⟨drive, separator, ⟨rest, rfl⟩, h.1, h.2⟩
    · cases h
  · rintro ⟨drive, separator, ⟨rest, rfl⟩, hdrive, hseparator⟩
    have hlooks : looksLikeWindowsAbsolutePath (drive :: ':' :: separator :: rest) =
        (drive.isAlpha && (separator == '\\' || separator == '/')) := rfl
    refine hlooks.trans ?_
    rw [hdrive, Bool.true_and, Bool.or_eq_true, beq_iff_eq, beq_iff_eq]
    exact hseparator

theorem startsRedaction_iff : startsRedaction remaining = true ↔
    ∃ start, IsRedactionStart start ∧ start <+: remaining := by
  unfold startsRedaction
  split
  · rename_i c rest
    rw [Bool.not_eq_true']
    constructor
    · intro hc
      exact ⟨['/', c], Or.inl ⟨c, rfl, hc⟩, rest, rfl⟩
    · rintro ⟨start, ⟨ch, rfl, hch⟩ | ⟨drive, separator, rfl, hdrive, -⟩, tail, hparts⟩
      · cases hparts
        exact hch
      · cases hparts
        exact absurd hdrive (by decide)
  · rename_i hother
    rw [looksLikeWindowsAbsolutePath_iff]
    constructor
    · rintro ⟨drive, separator, hprefix, hdrive, hseparator⟩
      exact ⟨_, Or.inr ⟨drive, separator, rfl, hdrive, hseparator⟩, hprefix⟩
    · rintro ⟨start, ⟨ch, rfl, -⟩ | ⟨drive, separator, rfl, hdrive, hseparator⟩, hprefix⟩
      · obtain ⟨tail, hparts⟩ := hprefix
        exact absurd hparts.symm (hother ch tail)
      · exact ⟨drive, separator, hprefix, hdrive, hseparator⟩

theorem startsLocalPath_iff : startsLocalPath remaining = true ↔
    ∃ start, IsPathStart start ∧ start <+: remaining := by
  constructor
  · intro h
    unfold startsLocalPath at h
    split at h
    · rename_i c rest
      rw [Bool.not_eq_true'] at h
      exact ⟨['/', c], Or.inl ⟨c, rfl, h⟩, rest, rfl⟩
    · rename_i drive separator c rest hslash
      rw [Bool.and_eq_true, Bool.and_eq_true, Bool.or_eq_true, beq_iff_eq, beq_iff_eq,
        Bool.not_eq_true'] at h
      obtain ⟨⟨hdrive, hseparator⟩, hc⟩ := h
      exact ⟨[drive, ':', separator, c],
        Or.inr ⟨drive, separator, c, rfl, hdrive, hseparator, hc⟩, rest, rfl⟩
    · cases h
  · rintro ⟨start, ⟨ch, rfl, hch⟩ | ⟨drive, separator, ch, rfl, hdrive, hseparator, hch⟩, tail, rfl⟩
    · rw [List.cons_append, List.cons_append, startsLocalPath, hch, Bool.not_false]
    · rw [List.cons_append, List.cons_append, List.cons_append, List.cons_append, startsLocalPath]
      · rcases hseparator with rfl | rfl <;> rw [hdrive, hch] <;> rfl
      · rintro rfl
        exact absurd hdrive (by decide)

theorem isRedactionStart_of_isPathStart (h : IsPathStart start) :
    ∃ shorter, IsRedactionStart shorter ∧ shorter <+: start := by
  obtain ⟨ch, rfl, hch⟩ | ⟨drive, separator, ch, rfl, hdrive, hseparator, -⟩ := h
  · exact ⟨_, Or.inl ⟨ch, rfl, hch⟩, List.prefix_rfl⟩
  · exact ⟨_, Or.inr ⟨drive, separator, rfl, hdrive, hseparator⟩, [ch], rfl⟩

theorem startsRedaction_of_startsLocalPath (h : startsLocalPath remaining = true) :
    startsRedaction remaining = true := by
  obtain ⟨start, hstart, hprefix⟩ := startsLocalPath_iff.mp h
  obtain ⟨shorter, hshorter, hinside⟩ := isRedactionStart_of_isPathStart hstart
  exact startsRedaction_iff.mpr ⟨shorter, hshorter, hinside.trans hprefix⟩

theorem not_boundary_of_separator (h : ch = '\\' ∨ ch = '/') :
    isLocalPathBoundary (some ch) = false := by
  rcases h with rfl | rfl <;> decide

theorem not_boundary_of_mem_redactionStart (h : IsRedactionStart start) :
    ∀ c ∈ start.dropLast, isLocalPathBoundary (some c) = false := by
  obtain ⟨ch, rfl, -⟩ | ⟨drive, separator, rfl, hdrive, -⟩ := h
  · exact List.forall_mem_singleton.mpr (by decide)
  · refine List.forall_mem_cons.mpr ⟨not_boundary_of_isAlpha hdrive, ?_⟩
    exact List.forall_mem_singleton.mpr (by decide)

theorem not_boundary_of_mem_pathStart (h : IsPathStart start) :
    ∀ c ∈ start.dropLast, isLocalPathBoundary (some c) = false := by
  obtain ⟨ch, rfl, -⟩ | ⟨drive, separator, ch, rfl, hdrive, hseparator, -⟩ := h
  · exact List.forall_mem_singleton.mpr (by decide)
  · refine List.forall_mem_cons.mpr ⟨not_boundary_of_isAlpha hdrive, ?_⟩
    refine List.forall_mem_cons.mpr ⟨by decide, ?_⟩
    exact List.forall_mem_singleton.mpr (not_boundary_of_separator hseparator)

theorem prefix_redactFrom_iff (h : isLocalPathBoundary before = false)
    (hstart : ∀ c ∈ start.dropLast, isLocalPathBoundary (some c) = false) :
    start <+: redactFrom before remaining ↔ start <+: remaining := by
  induction start generalizing before remaining with
  | nil => exact iff_of_true List.nil_prefix List.nil_prefix
  | cons c rest ih =>
      cases remaining with
      | nil => rw [redactFrom]
      | cons ch others =>
          rw [redactFrom_of_not_boundary h, List.cons_prefix_cons, List.cons_prefix_cons]
          refine and_congr_right ?_
          rintro rfl
          cases rest with
          | nil => exact iff_of_true List.nil_prefix List.nil_prefix
          | cons next rest =>
              rw [List.dropLast_cons_cons] at hstart
              obtain ⟨hc, hrest⟩ := List.forall_mem_cons.mp hstart
              exact ih hc hrest

theorem startsLocalPath_redactFrom (h : isLocalPathBoundary before = false) :
    startsLocalPath (redactFrom before remaining) = startsLocalPath remaining := by
  rw [Bool.eq_iff_iff, startsLocalPath_iff, startsLocalPath_iff]
  exact exists_congr fun start => and_congr_right fun hstart =>
    prefix_redactFrom_iff h (not_boundary_of_mem_pathStart hstart)

theorem startsRedaction_redactFrom :
    startsRedaction (ch :: redactFrom (some ch) rest) = startsRedaction (ch :: rest) := by
  rw [Bool.eq_iff_iff, startsRedaction_iff, startsRedaction_iff]
  refine exists_congr fun start => and_congr_right fun hstart => ?_
  have hinner := not_boundary_of_mem_redactionStart hstart
  obtain ⟨first, next, others, rfl⟩ : ∃ first next others, start = first :: next :: others := by
    obtain ⟨c, rfl, -⟩ | ⟨drive, separator, rfl, -⟩ := hstart
    · exact ⟨_, _, _, rfl⟩
    · exact ⟨_, _, _, rfl⟩
  rw [List.dropLast_cons_cons] at hinner
  obtain ⟨hfirst, hnext⟩ := List.forall_mem_cons.mp hinner
  rw [List.cons_prefix_cons, List.cons_prefix_cons]
  refine and_congr_right ?_
  rintro rfl
  exact prefix_redactFrom_iff hfirst hnext

theorem Quiet.of_head (h : Quiet before out) (hhead : ∀ c ∈ out.head?, endsLocalPath c = true)
    (other : Option Char) : Quiet other out := by
  cases out with
  | nil => trivial
  | cons ch rest => exact ⟨fun _ => startsRedaction_of_endsLocalPath (hhead ch rfl), h.2⟩

theorem quiet_redactedLocalPath (h : Quiet (some ']') out) :
    Quiet before (redactedLocalPath ++ out) := by
  have hmarker : redactedLocalPath = ['[', 'r', 'e', 'd', 'a', 'c', 't', 'e', 'd', ' ', 'l', 'o',
    'c', 'a', 'l', ' ', 'p', 'a', 't', 'h', ']'] := rfl
  rw [hmarker]
  simp only [List.cons_append, List.nil_append, Quiet]
  repeat
    refine ⟨fun _ => rfl, ?_⟩
  exact ⟨fun _ => startsRedaction_of_endsLocalPath rfl, h⟩

theorem head?_redactFrom (h : ∀ c ∈ remaining.head?, endsLocalPath c = true) :
    ∀ c ∈ (redactFrom before remaining).head?, endsLocalPath c = true := by
  cases remaining with
  | nil =>
      rw [redactFrom]
      nofun
  | cons ch rest =>
      rw [redactFrom_of_not_starts (startsRedaction_of_endsLocalPath (h ch rfl))]
      exact h

theorem quiet_redactFrom (before : Option Char) (remaining : List Char) :
    Quiet before (redactFrom before remaining) := by
  refine @redactFrom_induction (fun before _ out => Quiet before out) ?_ ?_ ?_ before remaining
  · intro before
    trivial
  · intro before ch rest hstarts ih
    refine ⟨?_, ih⟩
    intro hboundary
    rw [startsRedaction_redactFrom]
    exact hstarts hboundary
  · intro before path tail hpath htail ih
    exact quiet_redactedLocalPath (ih.of_head (head?_redactFrom htail) _)

theorem separatorsQuiet_append (h : ∀ c ∈ remaining, isListSeparator c = false) :
    SeparatorsQuiet (remaining ++ out) ↔ SeparatorsQuiet out := by
  induction remaining with
  | nil => rfl
  | cons ch rest ih =>
      obtain ⟨hch, hrest⟩ := List.forall_mem_cons.mp h
      rw [List.cons_append, SeparatorsQuiet, ih hrest, hch]
      exact and_iff_right fun hnot => absurd hnot Bool.false_ne_true

theorem isListSeparator_iff : isListSeparator ch = true ↔ ch = ',' ∨ ch = ';' := by
  rw [isListSeparator, Bool.or_eq_true, beq_iff_eq, beq_iff_eq]

theorem not_boundary_of_isListSeparator (h : isListSeparator ch = true) :
    isLocalPathBoundary (some ch) = false := by
  rcases isListSeparator_iff.mp h with rfl | rfl <;> decide

theorem isListSeparator_of_not_ends (h : endsLocalPath ch = false) :
    isListSeparator ch = false := by
  by_contra hseparator
  rw [Bool.not_eq_false, isListSeparator_iff] at hseparator
  rcases hseparator with rfl | rfl <;> exact absurd h (by decide)

theorem separatorsQuiet_redactFrom (before : Option Char) (remaining : List Char) :
    SeparatorsQuiet (redactFrom before remaining) ↔ SeparatorsQuiet remaining := by
  refine @redactFrom_induction
    (fun _ remaining out => SeparatorsQuiet out ↔ SeparatorsQuiet remaining) ?_ ?_ ?_ before
    remaining
  · intro before
    rfl
  · intro before ch rest _ ih
    rw [SeparatorsQuiet, SeparatorsQuiet, ih]
    refine and_congr_left fun _ => forall_congr' fun hseparator => ?_
    rw [startsLocalPath_redactFrom (not_boundary_of_isListSeparator hseparator)]
  · intro before path tail hpath _ ih
    have hmarker : ∀ c ∈ redactedLocalPath, isListSeparator c = false :=
      forall_mem_of_all (by decide)
    rw [separatorsQuiet_append hmarker, ih,
      separatorsQuiet_append fun c hc => isListSeparator_of_not_ends (hpath c hc)]

end Results

section Main

variable {before : Option Char} {value : String} {remaining : List Char}

theorem Quiet.of_append {passed after : List Char} (h : Quiet before (passed ++ after))
    (hboundary : isLocalPathBoundary (passed.getLast?.or before) = true) :
    startsRedaction after = false := by
  induction passed generalizing before with
  | nil =>
      cases after with
      | nil => rfl
      | cons ch rest => exact h.1 hboundary
  | cons ch rest ih =>
      refine ih h.2 ?_
      cases hrest : rest.getLast? with
      | none =>
          rw [List.getLast?_eq_none_iff.mp hrest] at hboundary
          exact hboundary
      | some last =>
          rw [List.getLast?_cons, hrest] at hboundary
          exact hboundary

theorem separatorsQuiet_iff : SeparatorsQuiet remaining ↔ ∀ passed ch after,
    remaining = passed ++ ch :: after → isListSeparator ch = true →
      startsLocalPath after = false := by
  induction remaining with
  | nil =>
      refine iff_of_true trivial ?_
      intro passed ch after hparts
      exact absurd hparts.symm (List.append_ne_nil_of_right_ne_nil _ (List.cons_ne_nil _ _))
  | cons c rest ih =>
      rw [SeparatorsQuiet, ih]
      constructor
      · rintro ⟨hc, hrest⟩ passed ch after hparts
        cases passed with
        | nil =>
            cases hparts
            exact hc
        | cons first passed =>
            cases hparts
            exact hrest passed ch after rfl
      · intro h
        refine ⟨h [] c rest rfl, ?_⟩
        intro passed ch after hparts
        exact h (c :: passed) ch after (by rw [hparts, List.cons_append])

theorem noLocalPath_iff (h : Quiet none value.toList) :
    NoLocalPath value ↔ NoPathAfterSeparator value := by
  constructor
  · intro hnone passed ch after hparts hseparator
    refine hnone (passed ++ [ch]) after (by rw [hparts, List.append_assoc]; rfl) ?_
    rw [List.getLast?_concat, opensLocalPath, hseparator, Bool.or_true]
  · intro hseparators passed after hparts hopens
    by_contra hstarts
    rw [Bool.not_eq_false] at hstarts
    have hredaction := startsRedaction_of_startsLocalPath hstarts
    rw [hparts] at h
    rcases List.eq_nil_or_concat passed with rfl | ⟨others, last, rfl⟩
    · rw [h.of_append rfl] at hredaction
      cases hredaction
    · rw [List.concat_eq_append] at h hparts hopens
      rw [List.getLast?_concat, opensLocalPath, Bool.or_eq_true] at hopens
      rcases hopens with hboundary | hseparator
      · have hquiet := h.of_append (by rw [List.getLast?_concat]; exact hboundary)
        rw [hquiet] at hredaction
        cases hredaction
      · rw [List.append_assoc] at hparts
        rw [hseparators others last after hparts hseparator] at hstarts
        cases hstarts

/-- No local path survives the redaction, and a second one changes nothing, exactly if no path
follows a `,` or a `;` in the text. -/
theorem redacted_iff (value : String) :
    (NoLocalPath (redactLocalPathOccurrences value) ∧
        redactLocalPathOccurrences (redactLocalPathOccurrences value) =
          redactLocalPathOccurrences value) ↔ NoPathAfterSeparator value := by
  have hquiet := quiet_redactFrom none value.toList
  have hchars : (redactLocalPathOccurrences value).toList = redactFrom none value.toList := by
    rw [redactLocalPathOccurrences, String.toList_ofList]
  have hfixed : redactLocalPathOccurrences (redactLocalPathOccurrences value) =
      redactLocalPathOccurrences value := by
    rw [redactLocalPathOccurrences, hchars, redactFrom_of_quiet hquiet, redactLocalPathOccurrences]
  rw [noLocalPath_iff (by rw [hchars]; exact hquiet)]
  have hseparators : NoPathAfterSeparator (redactLocalPathOccurrences value) ↔
      NoPathAfterSeparator value := by
    rw [NoPathAfterSeparator, NoPathAfterSeparator, ← separatorsQuiet_iff, ← separatorsQuiet_iff,
      hchars]
    exact separatorsQuiet_redactFrom none value.toList
  rw [hseparators]
  exact and_iff_left hfixed

/-- The second path of a list stays. -/
theorem listed_path_survives : ¬ ∀ value : String,
    NoLocalPath (redactLocalPathOccurrences value) ∧
      redactLocalPathOccurrences (redactLocalPathOccurrences value) =
        redactLocalPathOccurrences value := by
  intro hall
  have htail : redactFrom (some 'a') [',', '/', 'b'] = [',', '/', 'b'] :=
    redactFrom_of_quiet ⟨nofun, nofun, nofun, trivial⟩
  have hfirst : redactFrom none ['/', 'a', ',', '/', 'b'] =
      redactedLocalPath ++ redactFrom (some 'a') [',', '/', 'b'] := by
    rw [redactFrom.eq_2, if_pos (by decide)]
    rfl
  have hresult : (redactLocalPathOccurrences "/a,/b").toList =
      (redactedLocalPath ++ [',']) ++ ['/', 'b'] := by
    rw [redactLocalPathOccurrences, String.toList_ofList, List.append_assoc]
    exact hfirst.trans (congrArg _ htail)
  have hkept := (hall "/a,/b").1 _ _ hresult (by decide)
  cases hkept

end Main

end HarborBeacon.LocalPaths
