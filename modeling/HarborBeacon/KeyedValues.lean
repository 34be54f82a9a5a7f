import Mathlib.Data.List.Infix

/-!
Hiding the values of keys in a text. A key is one of several words, read without regard to the
case; its value begins after the word, runs up to the next end mark, and is replaced by a marker.
-/

namespace HarborBeacon.KeyedValues

variable {α : Type} [DecidableEq α]

/-- How keys and values are told apart. -/
structure Reading (α : Type) where
  norm : α → α
  ends : α → Bool
  marker : List α

variable (reading : Reading α) (needles : List (List α))

def readsKey (seen : List α) : Bool :=
  needles.any fun needle => needle.reverse.isPrefixOf seen

/-- The text with hidden values, read on in a state: the text since the last end mark, or none
inside of a value. -/
def hideFrom : Option (List α) → List α → List α
  | _, [] => []
  | none, c :: rest =>
      if reading.ends c then c :: hideFrom (some []) rest else hideFrom none rest
  | some seen, c :: rest =>
      if reading.ends c then c :: hideFrom (some []) rest
      else if readsKey needles (reading.norm c :: seen) then
        c :: (reading.marker ++ hideFrom none rest)
      else c :: hideFrom (some (reading.norm c :: seen)) rest

def stateAfter : Option (List α) → List α → Option (List α)
  | state, [] => state
  | none, c :: rest =>
      if reading.ends c then stateAfter (some []) rest else stateAfter none rest
  | some seen, c :: rest =>
      if reading.ends c then stateAfter (some []) rest
      else if readsKey needles (reading.norm c :: seen) then stateAfter none rest
      else stateAfter (some (reading.norm c :: seen)) rest

def hideValues (text : List α) : List α :=
  hideFrom reading needles (some []) text

section States

variable {reading needles} {seen text : List α}

theorem readsKey_iff : readsKey needles seen = true ↔ ∃ needle ∈ needles, needle.reverse <+: seen := by
  simp only [readsKey, List.any_eq_true, List.isPrefixOf_iff_prefix]

theorem hideFrom_append (state : Option (List α)) (front back : List α) :
    hideFrom reading needles state (front ++ back) =
      hideFrom reading needles state front ++
        hideFrom reading needles (stateAfter reading needles state front) back := by
  induction front generalizing state with
  | nil =>
      cases state with
      | none => simp [hideFrom, stateAfter]
      | some seen => simp [hideFrom, stateAfter]
  | cons c front ih =>
      cases state with
      | none =>
          rw [List.cons_append, hideFrom, hideFrom, stateAfter]
          split_ifs
          · rw [ih, List.cons_append]
          · rw [ih]
      | some seen =>
          rw [List.cons_append, hideFrom, hideFrom, stateAfter]
          split_ifs
          · rw [ih, List.cons_append]
          · rw [ih, List.cons_append, List.append_assoc]
          · rw [ih, List.cons_append]

theorem stateAfter_append (state : Option (List α)) (front back : List α) :
    stateAfter reading needles state (front ++ back) =
      stateAfter reading needles (stateAfter reading needles state front) back := by
  induction front generalizing state with
  | nil =>
      cases state with
      | none => simp [stateAfter]
      | some seen => simp [stateAfter]
  | cons c front ih =>
      cases state with
      | none =>
          rw [List.cons_append, stateAfter, stateAfter]
          split_ifs
          · exact ih _
          · exact ih _
      | some seen =>
          rw [List.cons_append, stateAfter, stateAfter]
          split_ifs
          · exact ih _
          · exact ih _
          · exact ih _

theorem readsKey_of_not_within {c : α}
    (h : ∀ needle ∈ needles, ¬ needle <:+: seen.reverse ++ (c :: text).map reading.norm) :
    readsKey needles (reading.norm c :: seen) = false := by
  rw [Bool.eq_false_iff, ne_eq, readsKey_iff]
  rintro ⟨needle, hneedle, hstart⟩
  apply h needle hneedle
  rw [← List.reverse_suffix, List.reverse_reverse, List.reverse_cons] at hstart
  have hsplit : seen.reverse ++ (c :: text).map reading.norm =
      (seen.reverse ++ [reading.norm c]) ++ text.map reading.norm := by simp
  rw [hsplit]
  exact hstart.isInfix.trans (List.prefix_append _ _).isInfix

theorem hideFrom_of_not_within
    (h : ∀ needle ∈ needles, ¬ needle <:+: seen.reverse ++ text.map reading.norm) :
    hideFrom reading needles (some seen) text = text ∧
      ∃ since, stateAfter reading needles (some seen) text = some since := by
  induction text generalizing seen with
  | nil => exact ⟨by rw [hideFrom], seen, by rw [stateAfter]⟩
  | cons c rest ih =>
      have hread := readsKey_of_not_within h
      rw [hideFrom, stateAfter]
      by_cases hends : reading.ends c = true
      · have hrest : ∀ needle ∈ needles,
            ¬ needle <:+: [].reverse ++ rest.map reading.norm := by
          intro needle hneedle hwithin
          refine h needle hneedle (hwithin.trans (List.IsSuffix.isInfix ?_))
          exact ⟨seen.reverse ++ [reading.norm c], by simp⟩
        obtain ⟨hhide, hstate⟩ := ih hrest
        rw [if_pos hends, if_pos hends, hhide]
        exact ⟨rfl, hstate⟩
      · have hrest : ∀ needle ∈ needles,
            ¬ needle <:+: (reading.norm c :: seen).reverse ++ rest.map reading.norm := by
          simpa using h
        obtain ⟨hhide, hstate⟩ := ih hrest
        rw [if_neg hends, if_neg hends, hread]
        exact ⟨by simp [hhide], by simpa using hstate⟩

theorem stateAfter_none (hends : ∀ c ∈ text, reading.ends c = false) :
    stateAfter reading needles none text = none := by
  induction text with
  | nil => rw [stateAfter]
  | cons c rest ih =>
      rw [List.forall_mem_cons] at hends
      rw [stateAfter, if_neg (by simp [hends.1]), ih hends.2]

theorem seen_of_no_ends {since : List α} (hends : ∀ c ∈ text, reading.ends c = false)
    (h : stateAfter reading needles (some seen) text = some since) :
    since = (text.map reading.norm).reverse ++ seen := by
  induction text generalizing seen with
  | nil =>
      rw [stateAfter] at h
      exact (Option.some.inj h).symm
  | cons c rest ih =>
      rw [List.forall_mem_cons] at hends
      rw [stateAfter, if_neg (by simp [hends.1])] at h
      split_ifs at h
      · rw [stateAfter_none hends.2] at h
        cases h
      · rw [ih hends.2 h]
        simp

theorem hideFrom_none (text : List α) : hideFrom reading needles none text =
    hideValues reading needles (text.dropWhile fun c => !reading.ends c) := by
  induction text with
  | nil => simp [hideValues, hideFrom]
  | cons c rest ih =>
      rw [hideFrom]
      by_cases hends : reading.ends c = true
      · rw [if_pos hends, List.dropWhile_cons_of_neg (by simp [hends]), hideValues, hideFrom,
          if_pos hends]
      · rw [if_neg hends, List.dropWhile_cons_of_pos (by simp [hends]), ih]

end States

/-- Words and marker do not get in each other's way: no end mark stands in a word or in the
marker, and the marker completes no word. -/
structure Separate : Prop where
  words : ∀ needle ∈ needles, needle ≠ [] ∧ ∀ c, reading.norm c ∈ needle → reading.ends c = false
  marker : ∀ c ∈ reading.marker, reading.ends c = false
  completes : ∀ c ∈ reading.marker, ∀ needle ∈ needles, needle.getLast? ≠ some (reading.norm c)

section Hiding

variable {reading needles} {seen text : List α}

omit [DecidableEq α] in
theorem Separate.of_subset (h : Separate reading needles) {others : List (List α)}
    (hsub : others ⊆ needles) : Separate reading others :=
  ⟨fun needle hneedle => h.words needle (hsub hneedle), h.marker,
    fun c hc needle hneedle => h.completes c hc needle (hsub hneedle)⟩

theorem hideValues_first (h : Separate reading needles) {before rest needle : List α} {last : α}
    (hnone : ∀ needle ∈ needles, ¬ needle <:+: before.map reading.norm)
    (hneedle : needle ∈ needles) (hlast : needle <:+ (before ++ [last]).map reading.norm) :
    hideValues reading needles (before ++ last :: rest) =
      before ++ last :: (reading.marker ++ hideFrom reading needles none rest) := by
  obtain ⟨hne, hwords⟩ := h.words needle hneedle
  obtain ⟨body, final, rfl⟩ := (List.eq_nil_or_concat needle).resolve_left hne
  rw [List.concat_eq_append] at hneedle hlast hwords
  obtain ⟨gap, hgap⟩ := hlast
  rw [List.map_append, ← List.append_assoc, List.map_singleton] at hgap
  obtain ⟨hbody, hfinal⟩ := List.append_inj' hgap rfl
  obtain rfl := (List.cons.inj hfinal).1
  obtain ⟨front, back, rfl, rfl, rfl⟩ := List.append_eq_map_iff.mp hbody
  have hnoneBefore : ∀ needle ∈ needles,
      ¬ needle <:+: [].reverse ++ (front ++ back).map reading.norm := hnone
  have hnoneFront : ∀ needle ∈ needles,
      ¬ needle <:+: [].reverse ++ front.map reading.norm := by
    intro other hother hwithin
    apply hnone other hother
    rw [List.map_append]
    exact hwithin.trans (List.prefix_append _ _).isInfix
  have hends : ∀ c ∈ back, reading.ends c = false := by
    intro c hc
    exact hwords c (List.mem_append_left _ (List.mem_map_of_mem hc))
  obtain ⟨hhide, since, hstate⟩ := hideFrom_of_not_within hnoneBefore
  obtain ⟨-, sinceFront, hstateFront⟩ := hideFrom_of_not_within hnoneFront
  have hsince : since = (back.map reading.norm).reverse ++ sinceFront := by
    apply seen_of_no_ends hends
    rw [← hstateFront, ← stateAfter_append, hstate]
  have hread : readsKey needles (reading.norm last :: since) = true := by
    rw [readsKey_iff]
    refine ⟨_, hneedle, ?_⟩
    rw [List.reverse_append, List.reverse_singleton, List.singleton_append, hsince,
      ← List.cons_append]
    exact List.prefix_append _ _
  have hlastEnds : reading.ends last = false :=
    hwords last (List.mem_append_right _ (List.mem_singleton_self _))
  rw [hideValues, hideFrom_append, hhide, hstate, hideFrom, if_neg (by simp [hlastEnds]),
    if_pos hread]

theorem hideValues_of_not_within (h : ∀ needle ∈ needles, ¬ needle <:+: text.map reading.norm) :
    hideValues reading needles text = text := by
  have hnone : ∀ needle ∈ needles, ¬ needle <:+: [].reverse ++ text.map reading.norm := h
  exact (hideFrom_of_not_within hnone).1

end Hiding

section Composition

variable {reading needles} {text : List α}

theorem not_readsKey_of_last (h : Separate reading needles) {c : α}
    (hc : ∀ needle ∈ needles, needle.getLast? ≠ some (reading.norm c)) (seen : List α) :
    readsKey needles (reading.norm c :: seen) = false := by
  rw [Bool.eq_false_iff, ne_eq, readsKey_iff]
  rintro ⟨needle, hneedle, hstart⟩
  obtain ⟨hne, -⟩ := h.words needle hneedle
  obtain ⟨body, final, rfl⟩ := (List.eq_nil_or_concat needle).resolve_left hne
  rw [List.concat_eq_append] at hneedle hstart
  rw [List.reverse_append, List.reverse_singleton, List.singleton_append,
    List.cons_prefix_cons] at hstart
  apply hc _ hneedle
  rw [List.getLast?_concat, hstart.1]

theorem readsKey_marker (h : Separate reading needles) {c : α} (hc : c ∈ reading.marker)
    (seen : List α) : readsKey needles (reading.norm c :: seen) = false :=
  not_readsKey_of_last h (h.completes c hc) seen

theorem exists_prefix_of_hideFrom (h : Separate reading needles) {front after text seen : List α}
    (hfront : ∀ c ∈ front, ∀ needle ∈ needles, needle.getLast? ≠ some (reading.norm c))
    (heq : hideFrom reading needles (some seen) text = front ++ after) :
    ∃ rest, text = front ++ rest := by
  induction front generalizing text seen with
  | nil => exact ⟨text, rfl⟩
  | cons c front ih =>
      rw [List.forall_mem_cons] at hfront
      cases text with
      | nil =>
          rw [hideFrom] at heq
          cases heq
      | cons d rest =>
          rw [hideFrom] at heq
          split_ifs at heq with hends hread
          · obtain ⟨rfl, hrest⟩ := List.cons.inj heq
            obtain ⟨tail, rfl⟩ := ih hfront.2 hrest
            exact ⟨tail, rfl⟩
          · obtain ⟨rfl, -⟩ := List.cons.inj heq
            rw [not_readsKey_of_last h hfront.1] at hread
            cases hread
          · obtain ⟨rfl, hrest⟩ := List.cons.inj heq
            obtain ⟨tail, rfl⟩ := ih hfront.2 hrest
            exact ⟨tail, rfl⟩

theorem hideFrom_marker (h : Separate reading needles) (text : List α) :
    hideFrom reading needles none (reading.marker ++ text) = hideFrom reading needles none text ∧
      ∀ seen, ∃ since, hideFrom reading needles (some seen) (reading.marker ++ text) =
        reading.marker ++ hideFrom reading needles (some since) text := by
  have hgeneral : ∀ front : List α, front ⊆ reading.marker →
      hideFrom reading needles none (front ++ text) = hideFrom reading needles none text ∧
        ∀ seen, ∃ since, hideFrom reading needles (some seen) (front ++ text) =
          front ++ hideFrom reading needles (some since) text := by
    intro front hfront
    induction front with
    | nil => exact ⟨rfl, fun seen => ⟨seen, rfl⟩⟩
    | cons c front ih =>
        rw [List.cons_subset] at hfront
        obtain ⟨hhidden, hshown⟩ := ih hfront.2
        have hends := h.marker c hfront.1
        refine ⟨?_, ?_⟩
        · rw [List.cons_append, hideFrom, if_neg (by simp [hends]), hhidden]
        · intro seen
          obtain ⟨since, hsince⟩ := hshown (reading.norm c :: seen)
          refine ⟨since, ?_⟩
          rw [List.cons_append, hideFrom, if_neg (by simp [hends]),
            if_neg (by simp [readsKey_marker h hfront.1]), hsince, List.cons_append]
  exact hgeneral reading.marker (List.Subset.refl _)

variable {first second : List (List α)}

theorem readsKey_append (first second : List (List α)) (seen : List α) :
    readsKey (first ++ second) seen = (readsKey first seen || readsKey second seen) := by
  rw [readsKey, List.any_append]
  rfl

theorem hideFrom_hideFrom (h : Separate reading second) (text : List α) :
    (∀ seen, hideFrom reading second (some seen) (hideFrom reading first (some seen) text) =
      hideFrom reading (first ++ second) (some seen) text) ∧
    (∀ seen, hideFrom reading second none (hideFrom reading first (some seen) text) =
      hideFrom reading (first ++ second) none text) ∧
    hideFrom reading second none (hideFrom reading first none text) =
      hideFrom reading (first ++ second) none text ∧
    ∀ seen, hideFrom reading second (some seen) (hideFrom reading first none text) =
      hideFrom reading (first ++ second) none text := by
  induction text with
  | nil => simp [hideFrom]
  | cons c rest ih =>
      obtain ⟨hboth, hsecond, hnone, hfirst⟩ := ih
      by_cases hends : reading.ends c = true
      · simp only [hideFrom, if_pos hends, hboth, implies_true, and_self]
      · refine ⟨?_, ?_, ?_, ?_⟩
        · intro seen
          rw [hideFrom, if_neg hends, hideFrom, if_neg hends, readsKey_append]
          by_cases hread : readsKey first (reading.norm c :: seen) = true
          · rw [if_pos hread, hread, Bool.true_or, if_pos rfl, hideFrom, if_neg hends]
            obtain ⟨hhidden, hshown⟩ := hideFrom_marker h (hideFrom reading first none rest)
            split_ifs
            · rw [hhidden, hnone]
            · obtain ⟨since, hsince⟩ := hshown (reading.norm c :: seen)
              rw [hsince, hfirst]
          · rw [if_neg hread, Bool.eq_false_iff.mpr hread, Bool.false_or, hideFrom, if_neg hends]
            split_ifs
            · rw [hsecond]
            · rw [hboth]
        · intro seen
          rw [hideFrom, if_neg hends, hideFrom, if_neg hends]
          split_ifs
          · rw [hideFrom, if_neg hends, (hideFrom_marker h _).1, hnone]
          · rw [hideFrom, if_neg hends, hsecond]
        · rw [hideFrom, if_neg hends, hnone, hideFrom, if_neg hends]
        · intro seen
          rw [hideFrom, if_neg hends, hfirst, hideFrom, if_neg hends]

theorem hideValues_hideValues (h : Separate reading second) (text : List α) :
    hideValues reading second (hideValues reading first text) =
      hideValues reading (first ++ second) text :=
  (hideFrom_hideFrom h text).1 []

theorem foldl_hideValues (h : Separate reading needles) (text : List α) :
    needles.foldl (fun shown needle => hideValues reading [needle] shown) text =
      hideValues reading needles text := by
  induction needles using List.reverseRecOn with
  | nil => exact (hideValues_of_not_within (by simp)).symm
  | append_singleton needles needle ih =>
      rw [List.foldl_append, ih (h.of_subset (List.subset_append_left _ _))]
      exact hideValues_hideValues (h.of_subset (List.subset_append_right _ _)) text

theorem hideFrom_congr {others : List (List α)}
    (h : ∀ seen, readsKey needles seen = readsKey others seen) (state : Option (List α))
    (text : List α) :
    hideFrom reading needles state text = hideFrom reading others state text := by
  induction text generalizing state with
  | nil => simp [hideFrom]
  | cons c rest ih =>
      cases state with
      | none => rw [hideFrom, hideFrom, ih, ih]
      | some seen => rw [hideFrom, hideFrom, h, ih, ih, ih]

theorem hideValues_idem (h : Separate reading needles) (text : List α) :
    hideValues reading needles (hideValues reading needles text) =
      hideValues reading needles text := by
  rw [hideValues_hideValues h]
  apply hideFrom_congr
  intro seen
  rw [readsKey_append, Bool.or_self]

end Composition

section Markers

variable {reading needles} {needle : List α} {before after seen : List α} {c d : α}
  {l front back : List α} {rest : List α}

omit [DecidableEq α] in
theorem prefix_of_not_mem (h : l <+: front ++ d :: back) (hd : d ∉ l) :
    l <+: front := by
  obtain ⟨rest, hrest⟩ := h
  rcases List.append_eq_append_iff.mp hrest with ⟨gap, rfl, -⟩ | ⟨gap, rfl, hgap⟩
  · exact List.prefix_append _ _
  · cases gap with
    | nil => rw [List.append_nil]
    | cons first gap =>
        obtain ⟨rfl, -⟩ := List.cons.inj hgap
        exact absurd (List.mem_append_right _ List.mem_cons_self) hd

omit [DecidableEq α] in
theorem suffix_past (hd : d ∉ l) :
    l <:+ front ++ d :: back ↔ l <:+ back := by
  have hsplit : (front ++ d :: back).reverse = back.reverse ++ d :: front.reverse := by simp
  rw [← List.reverse_prefix, ← List.reverse_prefix, hsplit]
  constructor
  · exact fun hstart => prefix_of_not_mem hstart fun hmem => hd (List.mem_reverse.mp hmem)
  · exact fun hstart => hstart.trans (List.prefix_append _ _)

omit [DecidableEq α] in
theorem infix_of_not_mem (h : l <:+: front ++ d :: back) (hd : d ∉ l) :
    l <:+: front ∨ l <:+: back := by
  obtain ⟨before, after, heq⟩ := h
  rcases List.append_eq_append_iff.mp heq with ⟨gap, rfl, -⟩ | ⟨gap, hgap, hback⟩
  · exact Or.inl ⟨before, gap, rfl⟩
  · cases gap with
    | nil =>
        rw [List.append_nil] at hgap
        rw [← hgap]
        exact Or.inl (List.suffix_append _ _).isInfix
    | cons first gap =>
        obtain ⟨rfl, rfl⟩ := List.cons.inj hback
        have hsuffix : l <:+ front ++ d :: gap := by
          rw [← hgap]
          exact List.suffix_append _ _
        exact Or.inr (((suffix_past hd).mp hsuffix).isInfix.trans (List.prefix_append _ _).isInfix)

omit [DecidableEq α] in
theorem Separate.last (h : Separate reading needles) (hneedle : needle ∈ needles)
    (hstart : needle.reverse <+: reading.norm c :: seen) :
    reading.ends c = false ∧ c ∉ reading.marker := by
  obtain ⟨hne, hwords⟩ := h.words needle hneedle
  obtain ⟨body, final, hfinal⟩ := (List.eq_nil_or_concat needle).resolve_left hne
  rw [List.concat_eq_append] at hfinal
  rw [hfinal, List.reverse_append, List.reverse_singleton, List.singleton_append,
    List.cons_prefix_cons] at hstart
  refine ⟨hwords c ?_, ?_⟩
  · rw [hfinal, hstart.1]
    exact List.mem_append_right _ (List.mem_singleton_self _)
  · intro hmem
    apply h.completes c hmem needle hneedle
    rw [hfinal, List.getLast?_concat, hstart.1]

omit [DecidableEq α] in
theorem Separate.cut (h : Separate reading needles) (hneedle : needle ∈ needles)
    (hends : reading.ends d = true)
    (hstart : needle.reverse <+:
      reading.norm c :: (((d :: before).map reading.norm).reverse ++ seen)) :
    needle.reverse <+: reading.norm c :: ((before.map reading.norm).reverse ++ []) := by
  have hd : reading.norm d ∉ needle.reverse := by
    intro hmem
    rw [(h.words needle hneedle).2 d (List.mem_reverse.mp hmem)] at hends
    cases hends
  have hsplit : reading.norm c :: (((d :: before).map reading.norm).reverse ++ seen) =
      (reading.norm c :: (before.map reading.norm).reverse) ++ reading.norm d :: seen := by
    simp
  rw [hsplit] at hstart
  rw [List.append_nil]
  exact prefix_of_not_mem hstart hd

def MarkerFollows (reading : Reading α) (needles : List (List α)) (needle : List α)
    (state : Option (List α)) (text : List α) : Prop :=
  ∀ seen before c after, (∀ since, state = some since → seen = since) →
    hideFrom reading needles state text = before ++ c :: after →
      needle.reverse <+: reading.norm c :: ((before.map reading.norm).reverse ++ seen) →
        reading.marker <+: after

theorem MarkerFollows.past_end (h : Separate reading needles) (hneedle : needle ∈ needles)
    (hrest : MarkerFollows reading needles needle (some []) rest) (hends : reading.ends d = true)
    (heq : d :: hideFrom reading needles (some []) rest = before ++ c :: after)
    (hstart : needle.reverse <+: reading.norm c :: ((before.map reading.norm).reverse ++ seen)) :
    reading.marker <+: after := by
  cases before with
  | nil =>
      obtain ⟨rfl, -⟩ := List.cons.inj heq
      rw [(h.last hneedle hstart).1] at hends
      cases hends
  | cons first before =>
      obtain ⟨rfl, hsame⟩ := List.cons.inj heq
      refine hrest [] before c after ?_ hsame (h.cut hneedle hends hstart)
      intro since hsince
      exact Option.some.inj hsince

theorem MarkerFollows.past_value (h : Separate reading needles) (hneedle : needle ∈ needles)
    (hrest : MarkerFollows reading needles needle none rest)
    (heq : d :: (reading.marker ++ hideFrom reading needles none rest) = before ++ c :: after)
    (hstart : needle.reverse <+: reading.norm c :: ((before.map reading.norm).reverse ++ seen)) :
    reading.marker <+: after := by
  have hany : ∀ earlier : List α, ∀ since, none = some since → earlier = since := by
    intro earlier since hsince
    cases hsince
  cases before with
  | nil =>
      obtain ⟨rfl, rfl⟩ := List.cons.inj heq
      exact List.prefix_append _ _
  | cons first before =>
      obtain ⟨rfl, hsame⟩ := List.cons.inj heq
      rcases List.append_eq_append_iff.mp hsame with ⟨gap, rfl, hgap⟩ | ⟨gap, hmarker, hgap⟩
      · rw [List.map_cons, List.map_append, List.reverse_cons, List.reverse_append,
          List.append_assoc, List.append_assoc] at hstart
        exact hrest _ gap c after (hany _) hgap hstart
      · cases gap with
        | nil =>
            rw [List.map_cons, List.reverse_cons, List.append_assoc] at hstart
            exact hrest _ [] c after (hany _) hgap.symm hstart
        | cons other gap =>
            obtain ⟨rfl, -⟩ := List.cons.inj hgap
            refine absurd ?_ (h.last hneedle hstart).2
            rw [hmarker]
            exact List.mem_append_right _ List.mem_cons_self

theorem markerFollows (h : Separate reading needles) (hneedle : needle ∈ needles)
    (text : List α) (state : Option (List α)) :
    MarkerFollows reading needles needle state text := by
  induction text generalizing state with
  | nil =>
      intro seen before c after _ heq
      have hlength := congrArg List.length heq
      simp [hideFrom] at hlength
  | cons d rest ih =>
      intro seen before c after hseen heq hstart
      by_cases hends : reading.ends d = true
      · have hstep : hideFrom reading needles state (d :: rest) =
            d :: hideFrom reading needles (some []) rest := by
          cases state with
          | none => rw [hideFrom, if_pos hends]
          | some since => rw [hideFrom, if_pos hends]
        rw [hstep] at heq
        exact (ih (some [])).past_end h hneedle hends heq hstart
      · cases state with
        | none =>
            rw [hideFrom, if_neg hends] at heq
            exact ih none seen before c after hseen heq hstart
        | some since =>
            obtain rfl := hseen since rfl
            rw [hideFrom, if_neg hends] at heq
            by_cases hread : readsKey needles (reading.norm d :: seen) = true
            · rw [if_pos hread] at heq
              exact (ih none).past_value h hneedle heq hstart
            · rw [if_neg hread] at heq
              cases before with
              | nil =>
                  obtain ⟨rfl, -⟩ := List.cons.inj heq
                  exact absurd (readsKey_iff.mpr ⟨needle, hneedle, hstart⟩) hread
              | cons first before =>
                  obtain ⟨rfl, hsame⟩ := List.cons.inj heq
                  rw [List.map_cons, List.reverse_cons, List.append_assoc] at hstart
                  refine ih (some _) _ before c after ?_ hsame hstart
                  intro since hsince
                  exact Option.some.inj hsince

theorem marker_of_key (h : Separate reading needles) (hneedle : needle ∈ needles) {text : List α}
    (heq : hideValues reading needles text = before ++ after)
    (hkey : needle <:+ before.map reading.norm) : reading.marker <+: after := by
  obtain ⟨hne, -⟩ := h.words needle hneedle
  rcases List.eq_nil_or_concat before with rfl | ⟨front, c, rfl⟩
  · rw [List.map_nil, List.suffix_nil] at hkey
    exact absurd hkey hne
  · rw [List.concat_eq_append] at heq hkey
    rw [List.append_assoc, List.singleton_append] at heq
    refine markerFollows h hneedle text (some []) [] front c after ?_ heq ?_
    · intro since hsince
      exact Option.some.inj hsince
    · rw [← List.reverse_suffix, List.reverse_reverse]
      simpa using hkey

end Markers

structure Neutral (c : α) : Prop where
  ends : reading.ends c = false
  marker : c ∉ reading.marker
  words : ∀ needle ∈ needles, reading.norm c ∉ needle

section Marks

variable {reading needles} {mark before after : List α} {c : α} {state : Option (List α)}

theorem readsKey_past (h : Neutral reading needles c) (seen earlier : List α) :
    readsKey needles (seen ++ reading.norm c :: earlier) = readsKey needles seen := by
  rw [Bool.eq_iff_iff, readsKey_iff, readsKey_iff]
  constructor
  · rintro ⟨needle, hneedle, hstart⟩
    refine ⟨needle, hneedle, prefix_of_not_mem hstart ?_⟩
    rw [List.mem_reverse]
    exact h.words needle hneedle
  · rintro ⟨needle, hneedle, hstart⟩
    exact ⟨needle, hneedle, hstart.trans (List.prefix_append _ _)⟩

theorem Neutral.not_reads (hseparate : Separate reading needles) (h : Neutral reading needles c)
    (seen : List α) : readsKey needles (reading.norm c :: seen) = false := by
  have hpast := readsKey_past h [] seen
  rw [List.nil_append] at hpast
  rw [hpast, Bool.eq_false_iff, ne_eq, readsKey_iff]
  rintro ⟨needle, hneedle, hstart⟩
  apply (hseparate.words needle hneedle).1
  exact List.reverse_eq_nil_iff.mp (List.prefix_nil.mp hstart)

theorem hideFrom_past (h : Neutral reading needles c) (seen earlier text : List α) :
    hideFrom reading needles (some (seen ++ reading.norm c :: earlier)) text =
      hideFrom reading needles (some seen) text := by
  induction text generalizing seen with
  | nil => simp [hideFrom]
  | cons d rest ih =>
      rw [hideFrom, hideFrom, ← List.cons_append, readsKey_past h, ih]

theorem hideFrom_mark (hseparate : Separate reading needles)
    (hmark : ∀ c ∈ mark, Neutral reading needles c) (hne : mark ≠ []) (seen text : List α) :
    hideFrom reading needles (some seen) (mark ++ text) =
      mark ++ hideValues reading needles text := by
  induction mark generalizing seen with
  | nil => exact absurd rfl hne
  | cons c rest ih =>
      rw [List.forall_mem_cons] at hmark
      rw [List.cons_append, hideFrom, if_neg (by simp [hmark.1.ends]),
        if_neg (by simp [hmark.1.not_reads hseparate])]
      cases rest with
      | nil => rw [List.nil_append, List.singleton_append, hideValues, ← hideFrom_past hmark.1 [] seen,
          List.nil_append]
      | cons d rest =>
          rw [ih hmark.2 (by simp)]
          rfl

theorem hideValues_mark (hseparate : Separate reading needles)
    (hmark : ∀ c ∈ mark, Neutral reading needles c) (hne : mark ≠ []) {since : List α}
    (hstate : stateAfter reading needles (some []) before = some since) (text : List α) :
    hideValues reading needles (before ++ mark ++ text) =
      hideValues reading needles before ++ mark ++ hideValues reading needles text := by
  rw [hideValues, List.append_assoc, hideFrom_append, hstate, hideFrom_mark hseparate hmark hne,
    ← List.append_assoc]
  rfl

theorem step_cases (reading : Reading α) (needles : List (List α)) (state : Option (List α))
    (d : α) : ∃ shown next,
      (∀ rest, hideFrom reading needles state (d :: rest) =
          shown ++ hideFrom reading needles next rest ∧
        stateAfter reading needles state (d :: rest) = stateAfter reading needles next rest) ∧
      (reading.ends d = true ∧ shown = [d] ∨
        reading.ends d = false ∧ state = none ∧ shown = [] ∨
        (∃ seen, readsKey needles (reading.norm d :: seen) = true ∧ state = some seen ∧
          shown = d :: reading.marker) ∨
        ∃ seen, state = some seen ∧ shown = [d] ∧ next = some (reading.norm d :: seen)) := by
  by_cases hends : reading.ends d = true
  · refine ⟨[d], some [], fun rest => ?_, Or.inl ⟨hends, rfl⟩⟩
    cases state with
    | none => exact ⟨by rw [hideFrom, if_pos hends]; rfl, by rw [stateAfter, if_pos hends]⟩
    | some seen => exact ⟨by rw [hideFrom, if_pos hends]; rfl, by rw [stateAfter, if_pos hends]⟩
  · cases state with
    | none =>
        refine ⟨[], none, fun rest => ?_,
          Or.inr (Or.inl ⟨Bool.eq_false_iff.mpr hends, rfl, rfl⟩)⟩
        exact ⟨by rw [hideFrom, if_neg hends]; rfl, by rw [stateAfter, if_neg hends]⟩
    | some seen =>
        by_cases hread : readsKey needles (reading.norm d :: seen) = true
        · refine ⟨d :: reading.marker, none, fun rest => ?_, Or.inr (Or.inr (Or.inl ?_))⟩
          · exact ⟨by rw [hideFrom, if_neg hends, if_pos hread]; rfl,
              by rw [stateAfter, if_neg hends, if_pos hread]⟩
          · exact ⟨seen, hread, rfl, rfl⟩
        · refine ⟨[d], some (reading.norm d :: seen), fun rest => ?_,
            Or.inr (Or.inr (Or.inr ⟨seen, rfl, rfl, rfl⟩))⟩
          exact ⟨by rw [hideFrom, if_neg hends, if_neg hread]; rfl,
            by rw [stateAfter, if_neg hends, if_neg hread]⟩

theorem mem_hideFrom (hc : c ∉ reading.marker) {text : List α} :
    c ∈ hideFrom reading needles state text ↔ ∃ front rest, text = front ++ c :: rest ∧
      (reading.ends c = true ∨ stateAfter reading needles state front ≠ none) := by
  induction text generalizing state with
  | nil => simp [hideFrom]
  | cons d rest ih =>
      obtain ⟨shown, next, hstep, hcases⟩ := step_cases reading needles state d
      have hshown : c ∈ shown ↔ d = c ∧ (reading.ends c = true ∨ state ≠ none) := by
        rcases hcases with ⟨hends, rfl⟩ | ⟨hends, rfl, rfl⟩ | ⟨seen, -, rfl, rfl⟩ |
          ⟨seen, rfl, rfl, -⟩
        · grind
        · grind
        · simpa [hc] using eq_comm
        · simpa using eq_comm
      rw [(hstep rest).1, List.mem_append, hshown, ih]
      constructor
      · rintro (⟨rfl, hread⟩ | ⟨front, tail, rfl, hread⟩)
        · exact ⟨[], rest, rfl, by rwa [stateAfter]⟩
        · exact ⟨d :: front, tail, rfl, by rwa [(hstep front).2]⟩
      · rintro ⟨front, tail, heq, hread⟩
        cases front with
        | nil =>
            rw [stateAfter] at hread
            exact Or.inl ⟨(List.cons.inj heq).1, hread⟩
        | cons first front =>
            obtain ⟨rfl, rfl⟩ := List.cons.inj heq
            rw [(hstep front).2] at hread
            exact Or.inr ⟨front, tail, rfl, hread⟩

/-- A neutral character of the result is one of the text, outside of values. -/
theorem exists_split_char (hseparate : Separate reading needles) (h : Neutral reading needles c)
    {text : List α} (heq : hideFrom reading needles state text = before ++ c :: after) :
    ∃ front rest since, text = front ++ c :: rest ∧
      hideFrom reading needles state front = before ∧
      stateAfter reading needles state front = some since ∧
      hideFrom reading needles (some (reading.norm c :: since)) rest = after := by
  induction text generalizing state before with
  | nil =>
      have hlength := congrArg List.length heq
      simp [hideFrom] at hlength
  | cons d rest ih =>
      obtain ⟨shown, next, hstep, hcases⟩ := step_cases reading needles state d
      rw [(hstep rest).1] at heq
      rcases List.append_eq_append_iff.mp heq with ⟨gap, rfl, hgap⟩ | ⟨gap, hshown, hgap⟩
      · obtain ⟨front, tail, since, rfl, hfront, hsince, htail⟩ := ih hgap
        refine ⟨d :: front, tail, since, rfl, ?_, ?_, htail⟩
        · rw [(hstep front).1, hfront]
        · rw [(hstep front).2, hsince]
      · cases gap with
        | nil =>
            rw [List.append_nil] at hshown
            have hnext : hideFrom reading needles next rest = [] ++ c :: after := hgap.symm
            obtain ⟨front, tail, since, rfl, hfront, hsince, htail⟩ := ih hnext
            refine ⟨d :: front, tail, since, rfl, ?_, ?_, htail⟩
            · rw [(hstep front).1, hfront, List.append_nil, hshown]
            · rw [(hstep front).2, hsince]
        | cons first gap =>
            obtain ⟨rfl, rfl⟩ := List.cons.inj hgap
            have hmem : c ∈ shown := by
              rw [hshown]
              exact List.mem_append_right _ List.mem_cons_self
            rcases hcases with ⟨hends, rfl⟩ | ⟨-, -, rfl⟩ | ⟨seen, hread, -, rfl⟩ |
              ⟨seen, rfl, rfl, rfl⟩
            · rw [← List.mem_singleton.mp hmem, h.ends] at hends
              cases hends
            · cases hmem
            · rcases List.mem_cons.mp hmem with rfl | hmarker
              · rw [h.not_reads hseparate] at hread
                cases hread
              · exact absurd hmarker h.marker
            · obtain ⟨rfl, rfl⟩ : before = [] ∧ gap = [] := by
                have hlength := congrArg List.length hshown
                simp only [List.length_append, List.length_cons, List.length_nil] at hlength
                exact ⟨List.eq_nil_of_length_eq_zero (by omega),
                  List.eq_nil_of_length_eq_zero (by omega)⟩
              obtain rfl := List.mem_singleton.mp hmem
              exact ⟨[], rest, seen, rfl, by rw [hideFrom], by rw [stateAfter], rfl⟩

theorem eq_nil_of_hideFrom {seen text : List α}
    (h : hideFrom reading needles (some seen) text = []) : text = [] := by
  cases text with
  | nil => rfl
  | cons c rest =>
      rw [hideFrom] at h
      split_ifs at h

theorem exists_split_mark (hseparate : Separate reading needles)
    (hmark : ∀ c ∈ mark, Neutral reading needles c) (hne : mark ≠ []) {text : List α}
    (heq : hideValues reading needles text = before ++ mark ++ after) :
    ∃ front rest since, text = front ++ mark ++ rest ∧
      hideValues reading needles front = before ∧
      stateAfter reading needles (some []) front = some since ∧
      hideValues reading needles rest = after := by
  have hrest : ∀ {mark after text : List α} {seen : List α},
      (∀ c ∈ mark, Neutral reading needles c) →
        hideFrom reading needles (some seen) text = mark ++ after →
          ∃ rest, text = mark ++ rest := by
    intro mark
    induction mark with
    | nil => exact fun _ _ => ⟨_, rfl⟩
    | cons c mark ih =>
        intro after text seen hmark heq
        rw [List.forall_mem_cons] at hmark
        have hsplit : hideFrom reading needles (some seen) text = [] ++ c :: (mark ++ after) := heq
        obtain ⟨front, rest, since, rfl, hfront, -, htail⟩ :=
          exists_split_char hseparate hmark.1 hsplit
        obtain rfl := eq_nil_of_hideFrom hfront
        obtain ⟨tail, rfl⟩ := ih hmark.2 htail
        exact ⟨tail, rfl⟩
  obtain ⟨c, mark, rfl⟩ := List.exists_cons_of_ne_nil hne
  rw [List.append_assoc, List.cons_append] at heq
  have hc := (List.forall_mem_cons.mp hmark).1
  obtain ⟨front, tail, since, rfl, hfront, hsince, htail⟩ := exists_split_char hseparate hc heq
  obtain ⟨rest, rfl⟩ := hrest (List.forall_mem_cons.mp hmark).2 htail
  have hsplit : front ++ c :: (mark ++ rest) = front ++ c :: mark ++ rest := by simp
  refine ⟨front, rest, since, hsplit, hfront, hsince, ?_⟩
  have hboth := hideValues_mark hseparate hmark hne hsince rest
  have hshown : hideValues reading needles front = before := hfront
  rw [← hsplit, heq, hshown, List.append_assoc, List.cons_append] at hboth
  have htails := List.append_cancel_left hboth
  exact (List.append_cancel_left (List.cons.inj htails).2).symm

end Marks

section Words

variable {reading needles} {text since word : List α}

theorem exists_tail (h : stateAfter reading needles (some []) text = some since) :
    ∃ front shown tail, text = front ++ tail ∧ hideValues reading needles text = shown ++ tail ∧
      (front = [] ∧ shown = [] ∨
        ∃ d before others, reading.ends d = true ∧ front = before ++ [d] ∧
          shown = others ++ [d]) := by
  induction text using List.reverseRecOn generalizing since with
  | nil => exact ⟨[], [], [], rfl, by rw [hideValues, hideFrom]; rfl, Or.inl ⟨rfl, rfl⟩⟩
  | append_singleton text c ih =>
      by_cases hends : reading.ends c = true
      · refine ⟨text ++ [c], hideValues reading needles text ++ [c], [], by simp, ?_, ?_⟩
        · rw [hideValues, hideFrom_append, hideValues, List.append_nil]
          congr 1
          cases stateAfter reading needles (some []) text with
          | none => rw [hideFrom, if_pos hends, hideFrom]
          | some seen => rw [hideFrom, if_pos hends, hideFrom]
        · exact Or.inr ⟨c, text, hideValues reading needles text, hends, rfl, rfl⟩
      · rw [stateAfter_append] at h
        cases hstate : stateAfter reading needles (some []) text with
        | none =>
            rw [hstate, stateAfter, if_neg hends, stateAfter] at h
            cases h
        | some seen =>
            rw [hstate, stateAfter, if_neg hends] at h
            split_ifs at h with hread
            · rw [stateAfter] at h
              cases h
            · obtain ⟨front, shown, tail, rfl, hshown, hfront⟩ := ih hstate
              refine ⟨front, shown, tail ++ [c], by simp, ?_, hfront⟩
              rw [hideValues, hideFrom_append, hstate, hideFrom, if_neg hends, if_neg hread,
                hideFrom, ← hideValues, hshown, List.append_assoc]

theorem word_suffix_iff (h : stateAfter reading needles (some []) text = some since)
    (hword : ∀ d, reading.ends d = true → reading.norm d ∉ word) :
    word <:+ (hideValues reading needles text).map reading.norm ↔
      word <:+ text.map reading.norm := by
  have htail : ∀ {before : List α} {d : α} {tail : List α}, reading.ends d = true →
      (word <:+ (before ++ [d] ++ tail).map reading.norm ↔ word <:+ tail.map reading.norm) := by
    intro before d tail hends
    have hsplit : (before ++ [d] ++ tail).map reading.norm =
        before.map reading.norm ++ reading.norm d :: tail.map reading.norm := by simp
    rw [hsplit]
    exact suffix_past (hword d hends)
  obtain ⟨front, shown, tail, rfl, hshown, hends⟩ := exists_tail h
  rw [hshown]
  rcases hends with ⟨rfl, rfl⟩ | ⟨d, before, others, hd, rfl, rfl⟩
  · rfl
  · rw [htail hd, htail hd]

end Words

end HarborBeacon.KeyedValues
