import HarborBeacon.KeyedValues
import HarborBeacon.Text

/-!
What is left of a text when words are taken out of it one after another. The marker that takes
their place begins and ends with characters that no word has, so no word arises where two pieces
meet, and what is found in the marked text is found in one of its pieces.
-/

namespace HarborBeacon.TextPieces

open KeyedValues Text Words

section Occurrences

variable {pattern replacement before after tail text : List Char} {c sep : Char} {skip : Nat}

theorem afterText_append (hc : c ∉ pattern) (h : ¬ c :: pattern <:+: before) :
    afterText (c :: pattern) (before ++ c :: (pattern ++ tail)) = some tail := by
  induction before with
  | nil =>
      rw [List.nil_append, afterText, if_pos (by simp), ← List.cons_append, List.drop_left]
  | cons first rest ih =>
      rw [List.infix_cons_iff, not_or] at h
      have hnot : ¬ c :: pattern <+: first :: (rest ++ c :: (pattern ++ tail)) := by
        rw [List.cons_prefix_cons]
        rintro ⟨rfl, hstart⟩
        exact h.1 (List.cons_prefix_cons.mpr ⟨rfl, prefix_of_not_mem hstart hc⟩)
      rw [List.cons_append, afterText, if_neg hnot, ih h.2]

theorem exists_of_afterText (h : afterText pattern text = some tail) :
    ∃ before, text = before ++ pattern ++ tail := by
  induction text with
  | nil =>
      rw [afterText] at h
      split at h
      · rename_i hnil
        rw [← Option.some.inj h, hnil]
        exact ⟨[], rfl⟩
      · cases h
  | cons c rest ih =>
      rw [afterText] at h
      split at h
      · rename_i hstart
        obtain ⟨tail', htail⟩ := hstart
        refine ⟨[], ?_⟩
        rw [← Option.some.inj h, ← htail, List.drop_left, List.nil_append]
      · obtain ⟨before, rfl⟩ := ih h
        exact ⟨c :: before, by simp⟩

theorem afterText_eq_none (h : ¬ pattern <:+: text) : afterText pattern text = none := by
  cases hfound : afterText pattern text with
  | none => rfl
  | some tail =>
      obtain ⟨before, rfl⟩ := exists_of_afterText hfound
      exact absurd ⟨before, tail, rfl⟩ h

theorem prefix_append_sep (hsep : sep ∉ pattern) :
    pattern <+: before ++ sep :: after ↔ pattern <+: before :=
  ⟨fun h => prefix_of_not_mem h hsep, fun h => h.trans (List.prefix_append _ _)⟩

theorem not_prefix_sep (hne : pattern ≠ []) (hsep : sep ∉ pattern) :
    ¬ pattern <+: sep :: after := by
  intro h
  have hnil : pattern <+: [] := prefix_of_not_mem h hsep
  exact hne (List.prefix_nil.mp hnil)

theorem afterText_append_sep (hne : pattern ≠ []) (hsep : sep ∉ pattern) :
    afterText pattern (before ++ sep :: after) =
      ((afterText pattern before).map (· ++ sep :: after)).or (afterText pattern after) := by
  induction before with
  | nil =>
      have hnone : afterText pattern [] = none := if_neg hne
      have hpast : afterText pattern (sep :: after) = afterText pattern after :=
        if_neg (not_prefix_sep hne hsep)
      rw [List.nil_append, hpast, hnone, Option.map_none, Option.none_or]
  | cons c rest ih =>
      have hstart : pattern <+: c :: (rest ++ sep :: after) ↔ pattern <+: c :: rest := by
        rw [← List.cons_append, prefix_append_sep hsep]
      rw [List.cons_append, afterText, afterText]
      by_cases h : pattern <+: c :: rest
      · rw [if_pos (hstart.mpr h), if_pos h, ← List.cons_append,
          List.drop_append_of_le_length h.length_le]
        rfl
      · rw [if_neg fun hlong => h (hstart.mp hlong), if_neg h, ih]

theorem replaceFrom_append_sep (hne : pattern ≠ []) (hsep : sep ∉ pattern)
    (hskip : skip ≤ before.length) :
    replaceFrom pattern replacement skip (before ++ sep :: after) =
      replaceFrom pattern replacement skip before ++
        sep :: replaceFrom pattern replacement 0 after := by
  induction before generalizing skip with
  | nil =>
      obtain rfl := Nat.le_zero.mp hskip
      exact if_neg (not_prefix_sep hne hsep)
  | cons c rest ih =>
      cases skip with
      | succ skip => exact ih (Nat.le_of_succ_le_succ hskip)
      | zero =>
          have hstart : pattern <+: c :: (rest ++ sep :: after) ↔ pattern <+: c :: rest := by
            rw [← List.cons_append, prefix_append_sep hsep]
          rw [List.cons_append, replaceFrom, replaceFrom]
          by_cases h : pattern <+: c :: rest
          · have hlength : pattern.length - 1 ≤ rest.length := by
              have := h.length_le
              rw [List.length_cons] at this
              omega
            rw [if_pos (hstart.mpr h), if_pos h, ih hlength, List.append_assoc]
          · rw [if_neg fun hlong => h (hstart.mp hlong), if_neg h, ih (Nat.zero_le _),
              List.cons_append]

theorem replaceFrom_of_not_within (h : ¬ pattern <:+: text) :
    replaceFrom pattern replacement 0 text = text := by
  induction text with
  | nil => rfl
  | cons c rest ih =>
      rw [List.infix_cons_iff, not_or] at h
      rw [replaceFrom, if_neg h.1, ih h.2]

end Occurrences

section Pieces

variable {pattern text piece : List Char} {skip : Nat}

def piecesFrom (pattern : List Char) : Nat → List Char → List (List Char)
  | _, [] => [[]]
  | skip + 1, _ :: rest => piecesFrom pattern skip rest
  | 0, c :: rest =>
      if pattern <+: c :: rest then [] :: piecesFrom pattern (pattern.length - 1) rest
      else (piecesFrom pattern 0 rest).modifyHead (c :: ·)

theorem piecesFrom_ne_nil : piecesFrom pattern skip text ≠ [] := by
  induction text generalizing skip with
  | nil =>
      rw [piecesFrom]
      exact List.cons_ne_nil _ _
  | cons c rest ih =>
      cases skip with
      | succ skip => exact ih
      | zero =>
          rw [piecesFrom]
          split
          · exact List.cons_ne_nil _ _
          · exact fun h => ih (List.modifyHead_eq_nil_iff.mp h)

theorem replaceFrom_eq_intercalate (marker : List Char) :
    replaceFrom pattern marker skip text = marker.intercalate (piecesFrom pattern skip text) := by
  induction text generalizing skip with
  | nil => rfl
  | cons c rest ih =>
      cases skip with
      | succ skip => exact ih
      | zero =>
          rw [replaceFrom, piecesFrom]
          split
          · rw [ih, List.intercalate_cons_of_ne_nil piecesFrom_ne_nil, List.nil_append]
          · have hpieces : piecesFrom pattern 0 rest ≠ [] := piecesFrom_ne_nil
            obtain ⟨first, others, hpieces⟩ := List.exists_cons_of_ne_nil hpieces
            rw [ih, hpieces, List.modifyHead_cons]
            rcases eq_or_ne others [] with rfl | hothers
            · rw [List.intercalate_singleton, List.intercalate_singleton]
            · rw [List.intercalate_cons_of_ne_nil hothers,
                List.intercalate_cons_of_ne_nil hothers, List.cons_append, List.cons_append]

theorem exists_first_piece (pattern text : List Char) : ∃ first others, piecesFrom pattern 0 text = first :: others ∧
    first <+: text := by
  induction text with
  | nil => exact ⟨[], [], rfl, List.nil_prefix⟩
  | cons c rest ih =>
      rw [piecesFrom]
      split
      · exact ⟨[], _, rfl, List.nil_prefix⟩
      · obtain ⟨first, others, hpieces, hfirst⟩ := ih
        rw [hpieces]
        exact ⟨c :: first, others, rfl, List.cons_prefix_cons.mpr ⟨rfl, hfirst⟩⟩

theorem infix_of_mem_piecesFrom (h : piece ∈ piecesFrom pattern skip text) : piece <:+: text := by
  induction text generalizing skip piece with
  | nil =>
      rw [piecesFrom, List.mem_singleton] at h
      rw [h]
  | cons c rest ih =>
      cases skip with
      | succ skip => exact (ih h).trans (List.suffix_cons _ _).isInfix
      | zero =>
          rw [piecesFrom] at h
          split at h
          · rcases List.mem_cons.mp h with rfl | hmem
            · exact List.nil_infix
            · exact (ih hmem).trans (List.suffix_cons _ _).isInfix
          · obtain ⟨first, others, hpieces, hfirst⟩ := exists_first_piece pattern rest
            rw [hpieces, List.modifyHead_cons] at h
            rcases List.mem_cons.mp h with rfl | hmem
            · exact (List.cons_prefix_cons.mpr ⟨rfl, hfirst⟩).isInfix
            · exact (ih (hpieces ▸ List.mem_cons_of_mem _ hmem)).trans
                (List.suffix_cons _ _).isInfix

theorem not_within_piece (hne : pattern ≠ []) (h : piece ∈ piecesFrom pattern skip text) :
    ¬ pattern <:+: piece := by
  induction text generalizing skip piece with
  | nil =>
      rw [piecesFrom, List.mem_singleton] at h
      rw [h, List.infix_nil]
      exact hne
  | cons c rest ih =>
      cases skip with
      | succ skip => exact ih h
      | zero =>
          rw [piecesFrom] at h
          split at h
          · rcases List.mem_cons.mp h with rfl | hmem
            · rw [List.infix_nil]
              exact hne
            · exact ih hmem
          · rename_i hstart
            obtain ⟨first, others, hpieces, hfirst⟩ := exists_first_piece pattern rest
            rw [hpieces, List.modifyHead_cons] at h
            rcases List.mem_cons.mp h with rfl | hmem
            · rw [List.infix_cons_iff, not_or]
              exact ⟨fun hp => hstart (hp.trans (List.cons_prefix_cons.mpr ⟨rfl, hfirst⟩)),
                ih (hpieces ▸ List.mem_cons_self)⟩
            · exact ih (hpieces ▸ List.mem_cons_of_mem _ hmem)

def piecesWithout (patterns : List (List Char)) (pieces : List (List Char)) : List (List Char) :=
  patterns.foldl (fun pieces pattern => pieces.flatMap (piecesFrom pattern 0)) pieces

theorem infix_of_mem_piecesWithout {patterns pieces : List (List Char)}
    (h : piece ∈ piecesWithout patterns pieces) : ∃ whole ∈ pieces, piece <:+: whole := by
  induction patterns generalizing pieces with
  | nil => exact ⟨piece, h, List.infix_refl _⟩
  | cons pattern rest ih =>
      obtain ⟨between, hbetween, hinner⟩ := ih h
      obtain ⟨whole, hwhole, houter⟩ := List.mem_flatMap.mp hbetween
      exact ⟨whole, hwhole, hinner.trans (infix_of_mem_piecesFrom houter)⟩

theorem not_within_piecesWithout {patterns pieces : List (List Char)} (hmem : pattern ∈ patterns)
    (hne : pattern ≠ []) (h : piece ∈ piecesWithout patterns pieces) : ¬ pattern <:+: piece := by
  induction patterns generalizing pieces with
  | nil => cases hmem
  | cons first rest ih =>
      rcases List.mem_cons.mp hmem with rfl | hrest
      · have hpieces : piece ∈ piecesWithout rest (pieces.flatMap (piecesFrom pattern 0)) := h
        obtain ⟨between, hbetween, hinner⟩ := infix_of_mem_piecesWithout hpieces
        obtain ⟨whole, -, houter⟩ := List.mem_flatMap.mp hbetween
        exact fun hpattern => not_within_piece hne houter (hpattern.trans hinner)
      · exact ih hrest h

end Pieces

section Markers

variable {marker pattern before after piece : List Char} {pieces rest : List (List Char)}

theorem intercalate_marker_append {first second : List (List Char)} (hfirst : first ≠ [])
    (hsecond : second ≠ []) : marker.intercalate (first ++ second) =
      marker.intercalate first ++ marker ++ marker.intercalate second := by
  induction first with
  | nil => exact absurd rfl hfirst
  | cons part rest ih =>
      rcases eq_or_ne rest [] with rfl | hrest
      · rw [List.singleton_append, List.intercalate_cons_of_ne_nil hsecond,
          List.intercalate_singleton]
      · rw [List.cons_append, List.intercalate_cons_of_ne_nil (by simp [hrest]), ih hrest,
          List.intercalate_cons_of_ne_nil hrest]
        simp only [List.append_assoc]

structure Apart (marker pattern : List Char) : Prop where
  ne_nil : pattern ≠ []
  bounds : ∃ left inner right, marker = left :: (inner ++ [right]) ∧ left ∉ pattern ∧
    right ∉ pattern ∧ ¬ pattern <:+: inner

theorem Apart.not_within (h : Apart marker pattern) : ¬ pattern <:+: marker := by
  obtain ⟨left, inner, right, rfl, hleft, hright, hinner⟩ := h.bounds
  intro hwithin
  rw [← List.nil_append (left :: _)] at hwithin
  rcases infix_of_not_mem hwithin hleft with hnil | hwithin
  · exact h.ne_nil (List.infix_nil.mp hnil)
  · rcases infix_of_not_mem hwithin hright with hwithin | hnil
    · exact hinner hwithin
    · exact h.ne_nil (List.infix_nil.mp hnil)

theorem Apart.replaceFrom (h : Apart marker pattern) (replacement : List Char) :
    replaceFrom pattern replacement 0 (before ++ marker ++ after) =
      Text.replaceFrom pattern replacement 0 before ++ marker ++
        Text.replaceFrom pattern replacement 0 after := by
  obtain ⟨left, inner, right, rfl, hleft, hright, hinner⟩ := h.bounds
  rw [List.append_assoc, List.cons_append, List.append_assoc, List.singleton_append,
    replaceFrom_append_sep h.ne_nil hleft (Nat.zero_le _),
    replaceFrom_append_sep h.ne_nil hright (Nat.zero_le _), replaceFrom_of_not_within hinner,
    List.append_assoc, List.cons_append, List.append_assoc, List.singleton_append]

theorem Apart.infix_iff (h : Apart marker pattern) :
    pattern <:+: before ++ marker ++ after ↔ pattern <:+: before ∨ pattern <:+: after := by
  obtain ⟨left, inner, right, rfl, hleft, hright, hinner⟩ := h.bounds
  rw [List.append_assoc, List.cons_append, List.append_assoc, List.singleton_append,
    infix_append_sep_iff h.ne_nil hleft, infix_append_sep_iff h.ne_nil hright,
    or_iff_right hinner]

theorem Apart.infix_cut_iff (h : Apart marker pattern) (n : Nat) :
    pattern <:+: before ++ marker.take n ↔ pattern <:+: before := by
  constructor
  · intro hwithin
    have hwhole : pattern <:+: before ++ marker ++ [] := by
      rw [List.append_nil]
      exact hwithin.trans ((List.prefix_append_right_inj _).mpr (List.take_prefix _ _)).isInfix
    rcases h.infix_iff.mp hwhole with hbefore | hnil
    · exact hbefore
    · exact absurd (List.infix_nil.mp hnil) h.ne_nil
  · exact fun hbefore => hbefore.trans (List.prefix_append _ _).isInfix

theorem Apart.afterText (h : Apart marker pattern) :
    afterText pattern (before ++ marker ++ after) =
      ((Text.afterText pattern before).map (· ++ marker ++ after)).or
        (Text.afterText pattern after) := by
  obtain ⟨left, inner, right, rfl, hleft, hright, hinner⟩ := h.bounds
  rw [List.append_assoc, List.cons_append, List.append_assoc, List.singleton_append,
    afterText_append_sep h.ne_nil hleft, afterText_append_sep h.ne_nil hright,
    afterText_eq_none hinner, Option.map_none, Option.none_or]
  simp only [List.append_assoc, List.cons_append, List.nil_append]

theorem Apart.afterText_cut (h : Apart marker pattern) (n : Nat) :
    Text.afterText pattern (before ++ marker.take n) =
      (Text.afterText pattern before).map (· ++ marker.take n) := by
  have hnone : Text.afterText pattern (marker.take n).tail = none := by
    refine afterText_eq_none fun hwithin => h.not_within ?_
    exact hwithin.trans ((List.tail_suffix _).isInfix.trans (List.take_prefix _ _).isInfix)
  obtain ⟨left, inner, right, hmarker, hleft, -, -⟩ := h.bounds
  cases n with
  | zero => simp
  | succ n =>
      rw [hmarker, List.take_succ_cons] at hnone ⊢
      rw [afterText_append_sep h.ne_nil hleft]
      rw [List.tail_cons] at hnone
      rw [hnone, Option.or_none]

theorem replaceFrom_intercalate (h : Apart marker pattern) (pieces : List (List Char)) :
    replaceFrom pattern marker 0 (marker.intercalate pieces) =
      marker.intercalate (pieces.flatMap (piecesFrom pattern 0)) := by
  induction pieces with
  | nil => rfl
  | cons piece rest ih =>
      rcases eq_or_ne rest [] with rfl | hrest
      · rw [List.intercalate_singleton, List.flatMap_singleton, replaceFrom_eq_intercalate]
      · obtain ⟨next, others, hnext⟩ := List.exists_cons_of_ne_nil hrest
        have hparts : rest.flatMap (piecesFrom pattern 0) ≠ [] := by
          rw [hnext, List.flatMap_cons]
          exact fun hnil => piecesFrom_ne_nil (List.append_eq_nil_iff.mp hnil).1
        rw [List.intercalate_cons_of_ne_nil hrest, h.replaceFrom, ih, List.flatMap_cons,
          replaceFrom_eq_intercalate]
        exact (intercalate_marker_append piecesFrom_ne_nil hparts).symm

theorem foldl_replaceFrom {patterns : List (List Char)} (h : ∀ p ∈ patterns, Apart marker p)
    (pieces : List (List Char)) :
    patterns.foldl (fun text p => replaceFrom p marker 0 text) (marker.intercalate pieces) =
      marker.intercalate (piecesWithout patterns pieces) := by
  induction patterns generalizing pieces with
  | nil => rfl
  | cons pattern rest ih =>
      rw [List.forall_mem_cons] at h
      rw [List.foldl_cons, replaceFrom_intercalate h.1, ih h.2]
      rfl

end Markers

section Cuts

variable {marker pattern : List Char} {pieces : List (List Char)} {n : Nat} {p : Char → Bool}

/-- The pieces of which something stands in the first `n` characters, when a gap lies between one
and the next. -/
def shownPieces (gap : Nat) : Nat → List (List Char) → List (List Char)
  | _, [] => []
  | n, piece :: rest =>
      if n < piece.length + gap then [piece.take n]
      else piece :: shownPieces gap (n - (piece.length + gap)) rest

theorem shownPieces_map (f : Char → Char) (gap n : Nat) (pieces : List (List Char)) :
    shownPieces gap n (pieces.map (List.map f)) = (shownPieces gap n pieces).map (List.map f) := by
  induction pieces generalizing n with
  | nil => rfl
  | cons piece rest ih =>
      rw [List.map_cons, shownPieces, shownPieces, List.length_map, ih]
      split
      · rw [List.map_singleton, List.map_take]
      · rw [List.map_cons]

theorem prefix_of_mem_shownPieces {gap : Nat} {shown : List Char}
    (h : shown ∈ shownPieces gap n pieces) : ∃ piece ∈ pieces, shown <+: piece := by
  induction pieces generalizing n with
  | nil => cases h
  | cons piece rest ih =>
      rw [shownPieces] at h
      split at h
      · rw [List.mem_singleton] at h
        exact ⟨piece, List.mem_cons_self, h ▸ List.take_prefix _ _⟩
      · rcases List.mem_cons.mp h with rfl | hmem
        · exact ⟨shown, List.mem_cons_self, List.prefix_refl _⟩
        · obtain ⟨whole, hwhole, hshown⟩ := ih hmem
          exact ⟨whole, List.mem_cons_of_mem _ hwhole, hshown⟩

theorem take_intercalate_cons (marker piece : List Char) (rest : List (List Char)) (n : Nat) :
    (n < piece.length + marker.length ∧
        ∃ k, (marker.intercalate (piece :: rest)).take n = piece.take n ++ marker.take k) ∨
      (piece.length + marker.length ≤ n ∧ ((rest = [] ∧
          (marker.intercalate (piece :: rest)).take n = piece) ∨
        (marker.intercalate (piece :: rest)).take n = piece ++ marker ++
          (marker.intercalate rest).take (n - (piece.length + marker.length)))) := by
  rcases eq_or_ne rest [] with rfl | hrest
  · rw [List.intercalate_singleton]
    rcases Nat.lt_or_ge n (piece.length + marker.length) with hn | hn
    · exact Or.inl ⟨hn, 0, by rw [List.take_zero, List.append_nil]⟩
    · exact Or.inr ⟨hn, Or.inl ⟨rfl, List.take_of_length_le (by omega)⟩⟩
  · rw [List.intercalate_cons_of_ne_nil hrest]
    rcases Nat.lt_or_ge n (piece.length + marker.length) with hn | hn
    · refine Or.inl ⟨hn, n - piece.length, ?_⟩
      rw [List.append_assoc, List.take_append, List.take_append,
        Nat.sub_eq_zero_of_le (by omega : n - piece.length ≤ marker.length), List.take_zero,
        List.append_nil]
    · refine Or.inr ⟨hn, Or.inr ?_⟩
      rw [List.take_append, List.take_of_length_le (by rw [List.length_append]; omega),
        List.length_append]

theorem infix_shown_iff (h : Apart marker pattern) :
    pattern <:+: (marker.intercalate pieces).take n ↔
      ∃ piece ∈ shownPieces marker.length n pieces, pattern <:+: piece := by
  induction pieces generalizing n with
  | nil =>
      have hnil : ¬ pattern <:+: ([] : List Char) := fun hp => h.ne_nil (List.infix_nil.mp hp)
      simpa [shownPieces] using hnil
  | cons piece rest ih =>
      rw [shownPieces]
      rcases take_intercalate_cons marker piece rest n with
        ⟨hn, k, htake⟩ | ⟨hn, ⟨rfl, htake⟩ | htake⟩
      · rw [if_pos hn, htake, h.infix_cut_iff]
        simp only [List.mem_singleton, exists_eq_left]
      · rw [if_neg (Nat.not_lt.mpr hn), htake, shownPieces]
        simp only [List.mem_singleton, exists_eq_left]
      · rw [if_neg (Nat.not_lt.mpr hn), htake, h.infix_iff, ih]
        simp only [List.mem_cons, exists_eq_or_imp]

theorem filter_take_marker (hmarker : marker.filter p = []) (k : Nat) :
    (marker.take k).filter p = [] := by
  rw [List.filter_eq_nil_iff] at hmarker ⊢
  exact fun c hc => hmarker c (List.mem_of_mem_take hc)

theorem filter_shown (hmarker : marker.filter p = []) :
    ((marker.intercalate pieces).take n).filter p =
      (shownPieces marker.length n pieces).flatten.filter p := by
  induction pieces generalizing n with
  | nil => rw [List.intercalate_nil, List.take_nil, shownPieces, List.flatten_nil]
  | cons piece rest ih =>
      rw [shownPieces]
      rcases take_intercalate_cons marker piece rest n with
        ⟨hn, k, htake⟩ | ⟨hn, ⟨rfl, htake⟩ | htake⟩
      · rw [if_pos hn, htake, List.filter_append, filter_take_marker hmarker, List.append_nil,
          List.flatten_singleton]
      · rw [if_neg (Nat.not_lt.mpr hn), htake, shownPieces, List.flatten_singleton]
      · rw [if_neg (Nat.not_lt.mpr hn), htake, List.filter_append, List.filter_append, hmarker,
          List.append_nil, ih, List.flatten_cons, List.filter_append]

def tailAfter (pattern : List Char) : List (List Char) → Option (List Char)
  | [] => none
  | piece :: rest =>
      ((afterText pattern piece).map (· ++ rest.flatten)).or (tailAfter pattern rest)

theorem afterText_shown (h : Apart marker pattern) (hmarker : marker.filter p = []) :
    (afterText pattern ((marker.intercalate pieces).take n)).map (List.filter p) =
      (tailAfter pattern (shownPieces marker.length n pieces)).map (List.filter p) := by
  induction pieces generalizing n with
  | nil =>
      rw [List.intercalate_nil, List.take_nil, shownPieces, tailAfter]
      exact congrArg (Option.map (List.filter p)) (if_neg h.ne_nil)
  | cons piece rest ih =>
      rw [shownPieces]
      rcases take_intercalate_cons marker piece rest n with
        ⟨hn, k, htake⟩ | ⟨hn, ⟨rfl, htake⟩ | htake⟩
      · rw [if_pos hn, htake, h.afterText_cut, tailAfter, tailAfter]
        cases afterText pattern (piece.take n) with
        | none => rfl
        | some tail => simp [filter_take_marker hmarker]
      · rw [if_neg (Nat.not_lt.mpr hn), htake, shownPieces, tailAfter, tailAfter]
        cases afterText pattern piece with
        | none => rfl
        | some tail => simp
      · rw [if_neg (Nat.not_lt.mpr hn), htake, h.afterText, tailAfter]
        cases afterText pattern piece with
        | none => exact ih
        | some tail =>
            rw [Option.map_some, Option.map_some, Option.some_or, Option.some_or,
              Option.map_some, Option.map_some, List.filter_append, List.filter_append, hmarker,
              List.append_nil, filter_shown hmarker, List.filter_append]

end Cuts

end HarborBeacon.TextPieces
