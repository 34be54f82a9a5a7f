import HarborBeacon.LineLog

/-!
The newest entries of a log, read from its end. Lines are taken from the last one backwards;
of entries with the same key only the newest counts, and the reader stops once it has enough
of them. A reader that sees only the end of the log finds the same entries, provided that it
finds enough.
-/

namespace HarborBeacon.TailScan

open LineLog

variable {α ρ κ : Type}

section Entries

variable [DecidableEq κ] (key : ρ → κ)

/-- The entries whose key does not come again. -/
def lastOccurrences : List ρ → List ρ
  | [] => []
  | entry :: rest =>
      if key entry ∈ rest.map key then lastOccurrences rest else entry :: lastOccurrences rest

def newest (limit : Nat) (entries : List ρ) : List ρ :=
  (lastOccurrences key entries).reverse.take limit

def firstUnseen : List κ → List ρ → List ρ
  | _, [] => []
  | seen, entry :: rest =>
      if key entry ∈ seen then firstUnseen seen rest
      else entry :: firstUnseen (key entry :: seen) rest

theorem firstUnseen_concat (seen : List κ) (entries : List ρ) (entry : ρ) :
    firstUnseen key seen (entries ++ [entry]) =
      firstUnseen key seen entries ++
        if key entry ∈ seen ∨ key entry ∈ entries.map key then [] else [entry] := by
  induction entries generalizing seen with
  | nil => simp [firstUnseen]
  | cons first rest ih =>
      rw [List.cons_append, firstUnseen, firstUnseen]
      by_cases hseen : key first ∈ seen
      · rw [if_pos hseen, if_pos hseen, ih]
        congr 2
        rw [List.map_cons, List.mem_cons, eq_iff_iff]
        constructor
        · rintro (h | h)
          · exact Or.inl h
          · exact Or.inr (Or.inr h)
        · rintro (h | h | h)
          · exact Or.inl h
          · exact Or.inl (h ▸ hseen)
          · exact Or.inr h
      · rw [if_neg hseen, if_neg hseen, ih, List.cons_append]
        congr 3
        rw [List.map_cons, List.mem_cons, List.mem_cons, eq_iff_iff]
        grind

theorem firstUnseen_reverse (entries : List ρ) :
    firstUnseen key [] entries.reverse = (lastOccurrences key entries).reverse := by
  induction entries with
  | nil => rfl
  | cons entry rest ih =>
      rw [List.reverse_cons, firstUnseen_concat, ih, lastOccurrences]
      by_cases hagain : key entry ∈ rest.map key
      · simp [hagain]
      · have hmap : key entry ∉ rest.reverse.map key := by simpa using hagain
        simp only [hagain, hmap, List.not_mem_nil, or_self, if_false, List.reverse_cons]

theorem exists_lastOccurrences_append (older newer : List ρ) :
    ∃ kept, lastOccurrences key (older ++ newer) = kept ++ lastOccurrences key newer := by
  induction older with
  | nil => exact ⟨[], rfl⟩
  | cons entry rest ih =>
      obtain ⟨kept, hkept⟩ := ih
      rw [List.cons_append, lastOccurrences, hkept]
      split
      · exact ⟨kept, rfl⟩
      · exact ⟨entry :: kept, rfl⟩

theorem newest_append_of_full {limit : Nat} {older newer : List ρ}
    (h : limit ≤ (newest key limit newer).length) :
    newest key limit (older ++ newer) = newest key limit newer := by
  obtain ⟨kept, hkept⟩ := exists_lastOccurrences_append key older newer
  unfold newest at h ⊢
  rw [hkept, List.reverse_append, List.take_append_of_le_length]
  rw [List.length_take] at h
  omega

end Entries

section Lines

variable [DecidableEq κ] (read : List α → Option ρ) (key : ρ → κ) {limit : Nat}

/-- The loop over lines: unreadable lines and keys seen before are passed over, and the loop
ends with the limit. -/
def collect (limit : Nat) : List (List α) → List κ → List ρ → List ρ
  | [], _, entries => entries
  | line :: rest, seen, entries =>
      match read line with
      | none => collect limit rest seen entries
      | some entry =>
          if key entry ∈ seen then collect limit rest seen entries
          else if (entries ++ [entry]).length = limit then entries ++ [entry]
          else collect limit rest (key entry :: seen) (entries ++ [entry])

theorem collect_eq_take (lines : List (List α)) (seen : List κ) {entries : List ρ}
    (hroom : entries.length < limit) :
    collect read key limit lines seen entries =
      (entries ++ firstUnseen key seen (lines.filterMap read)).take limit := by
  induction lines generalizing seen entries with
  | nil =>
      rw [collect, List.filterMap_nil, firstUnseen, List.append_nil,
        List.take_of_length_le (by omega)]
  | cons line rest ih =>
      rw [collect]
      cases hread : read line with
      | none => rw [List.filterMap_cons_none hread, ih _ hroom]
      | some entry =>
          simp only []
          rw [List.filterMap_cons_some hread, firstUnseen]
          by_cases hseen : key entry ∈ seen
          · rw [if_pos hseen, if_pos hseen, ih _ hroom]
          · rw [if_neg hseen, if_neg hseen, List.append_cons entries entry (firstUnseen _ _ _)]
            by_cases hfull : (entries ++ [entry]).length = limit
            · rw [if_pos hfull, ← hfull, List.take_left]
            · rw [if_neg hfull, ih]
              rw [List.length_append, List.length_singleton] at hfull ⊢
              omega

theorem collect_reverse (hlimit : 0 < limit) (lines : List (List α)) :
    collect read key limit lines.reverse [] [] = newest key limit (lines.filterMap read) := by
  rw [collect_eq_take read key _ _ (by simpa using hlimit), List.filterMap_reverse,
    firstUnseen_reverse]
  rfl

end Lines

section Windows

variable [DecidableEq α] {sep : α}

def afterFirst (sep : α) (data : List α) : List α :=
  (data.dropWhile (· ≠ sep)).drop 1

theorem filterMap_splitOn_afterFirst {read : List α → Option ρ} (hempty : read [] = none)
    (data : List α) :
    ((afterFirst sep data).splitOn sep).filterMap read =
      (data.splitOn sep).tail.filterMap read := by
  by_cases hmem : sep ∈ data
  · obtain ⟨first, rest, rfl, hfirst⟩ := List.eq_append_cons_of_mem hmem
    have hafter : afterFirst sep (first ++ sep :: rest) = rest := by
      rw [afterFirst, List.dropWhile_append_of_pos]
      · simp
      · intro a ha
        simp only [ne_eq, decide_not, Bool.not_eq_true', decide_eq_false_iff_not]
        rintro rfl
        exact hfirst ha
    rw [hafter, List.splitOn_append_cons_self_of_not_mem hfirst, List.tail_cons]
  · have hafter : afterFirst sep data = [] := by
      have hdrop : data.dropWhile (· ≠ sep) = [] := by
        rw [List.dropWhile_eq_nil_iff]
        intro a ha
        simp only [ne_eq, decide_not, Bool.not_eq_true', decide_eq_false_iff_not]
        rintro rfl
        exact hmem ha
      rw [afterFirst, hdrop, List.drop_nil]
    rw [hafter, List.splitOn_nil, List.filterMap_cons_none hempty,
      List.splitOn_eq_singleton hmem]
    rfl

theorem tail_splitOn_suffix (front data : List α) :
    (data.splitOn sep).tail <:+ ((front ++ data).splitOn sep).tail := by
  induction front with
  | nil => exact List.suffix_rfl
  | cons a front ih =>
      rw [List.cons_append, List.splitOn_cons_eq_if_modifyHead]
      split
      · exact ih.trans (List.tail_suffix _)
      · rwa [List.tail_modifyHead]

end Windows

end HarborBeacon.TailScan
