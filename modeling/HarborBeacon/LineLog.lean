import Mathlib.Data.List.DropRight

/-!
Lists cut into lines by a separator. A log is a list of lines each of which ends in the
separator; whoever was interrupted while writing leaves part of a line at its end.
-/

namespace HarborBeacon.LineLog

variable {α : Type} {sep : α} {lines : List (List α)}

def logOf (sep : α) (lines : List (List α)) : List α :=
  lines.flatMap fun line => line ++ [sep]

@[simp] theorem logOf_nil : logOf sep [] = [] := rfl

theorem logOf_cons (line : List α) (lines : List (List α)) :
    logOf sep (line :: lines) = line ++ sep :: logOf sep lines := by
  simp [logOf]

theorem logOf_concat (lines : List (List α)) (line : List α) :
    logOf sep (lines ++ [line]) = logOf sep lines ++ (line ++ [sep]) := by
  simp [logOf]

theorem logOf_eq_nil_iff : logOf sep lines = [] ↔ lines = [] := by
  constructor
  · intro h
    rcases lines with _ | ⟨line, lines⟩
    · rfl
    · simp [logOf_cons] at h
  · rintro rfl
    rfl

theorem getLast?_logOf (h : lines ≠ []) :
    (logOf sep lines).getLast? = some sep := by
  rw [← List.dropLast_append_getLast h, logOf_concat, ← List.append_assoc]
  exact List.getLast?_concat

theorem splitOn_logOf [DecidableEq α] (h : ∀ line ∈ lines, sep ∉ line) :
    (logOf sep lines).splitOn sep = lines ++ [[]] := by
  induction lines with
  | nil => simp
  | cons line lines ih =>
      rw [logOf_cons, List.splitOn_append_cons_self_of_not_mem (h line (by simp)),
        ih fun other hother => h other (by simp [hother])]
      rfl

section Readers

variable [DecidableEq α] {data : List α}

def complete (sep : α) (data : List α) : List α :=
  data.rdropWhile (· ≠ sep)

theorem complete_append_of_not_mem {data tail : List α} (h : sep ∉ tail) :
    complete sep (data ++ tail) = complete sep data := by
  induction tail using List.reverseRecOn with
  | nil => rw [List.append_nil]
  | append_singleton tail last ih =>
      have hlast : last ≠ sep := by
        rintro rfl
        exact h (by simp)
      have htail : sep ∉ tail := fun hmem => h (by simp [hmem])
      unfold complete at ih ⊢
      rw [← List.append_assoc, List.rdropWhile_concat_pos _ _ _ (by simpa using hlast), ih htail]

theorem complete_eq_self (h : data = [] ∨ data.getLast? = some sep) :
    complete sep data = data := by
  unfold complete
  rw [List.rdropWhile_eq_self_iff]
  intro hne
  rcases h with rfl | hlast
  · exact absurd rfl hne
  · rw [List.getLast?_eq_some_getLast hne] at hlast
    simp [Option.some.inj hlast]

theorem length_complete_le (data : List α) : (complete sep data).length ≤ data.length :=
  (List.rdropWhile_prefix _ data).length_le

theorem complete_logOf (lines : List (List α)) :
    complete sep (logOf sep lines) = logOf sep lines := by
  apply complete_eq_self
  rcases lines with _ | ⟨line, lines⟩
  · exact .inl rfl
  · exact .inr (getLast?_logOf (by simp))

theorem take_eq_complete {k : Nat} (hend : k = 0 ∨ data[k - 1]? = some sep)
    (hrest : sep ∉ data.drop k) : data.take k = complete sep data := by
  have hstart : data.take k = [] ∨ (data.take k).getLast? = some sep := by
    rcases hend with rfl | hlast
    · exact .inl List.take_zero
    · rcases Nat.eq_zero_or_pos k with rfl | hpos
      · exact .inl List.take_zero
      · right
        have hlength : k - 1 < data.length := (List.getElem?_eq_some_iff.mp hlast).1
        rw [List.getLast?_eq_getElem?, List.length_take,
          show min k data.length - 1 = k - 1 by omega, List.getElem?_take_of_lt (by omega), hlast]
  calc
    data.take k = complete sep (data.take k) := (complete_eq_self hstart).symm
    _ = complete sep (data.take k ++ data.drop k) := (complete_append_of_not_mem hrest).symm
    _ = complete sep data := by rw [List.take_append_drop]

theorem complete_ends (data : List α) :
    complete sep data = [] ∨ (complete sep data).getLast? = some sep := by
  rcases List.eq_nil_or_concat (complete sep data) with hnil | ⟨start, last, hlast⟩
  · exact .inl hnil
  · have hne : complete sep data ≠ [] := by simp [hlast]
    have hnot : ¬decide ((complete sep data).getLast hne ≠ sep) = true :=
      List.rdropWhile_last_not (fun a => decide (a ≠ sep)) data hne
    right
    rw [List.getLast?_eq_some_getLast hne]
    simpa using hnot

/-- The lines of the data in the order of a reader that takes them one by one. An unfinished
line at the end counts unless it is empty. -/
def readLines (sep : α) (data : List α) : List (List α) :=
  let pieces := data.splitOn sep
  if pieces.getLast? = some [] then pieces.dropLast else pieces

theorem readLines_eq_splitOn_dropLast (h : data.getLast? = some sep) :
    readLines sep data = data.dropLast.splitOn sep := by
  have hsplit : data.splitOn sep = data.dropLast.splitOn sep ++ [[]] := by
    have hdata : data = data.dropLast ++ [sep] := by
      obtain ⟨start, rfl⟩ := List.getLast?_eq_some_iff.mp h
      simp
    calc
      data.splitOn sep = (data.dropLast ++ [sep]).splitOn sep := by rw [← hdata]
      _ = data.dropLast.splitOn sep ++ [].splitOn sep := List.splitOn_append_cons_self _ _
      _ = data.dropLast.splitOn sep ++ [[]] := by rw [List.splitOn_nil]
  simp [readLines, hsplit]

theorem readLines_logOf {lines : List (List α)} (h : ∀ line ∈ lines, sep ∉ line) :
    readLines sep (logOf sep lines) = lines := by
  simp [readLines, splitOn_logOf h]

theorem not_mem_of_mem_splitOn {data line : List α} (h : line ∈ data.splitOn sep) :
    sep ∉ line := by
  induction data generalizing line with
  | nil =>
      rw [List.splitOn_nil, List.mem_singleton] at h
      simp [h]
  | cons a data ih =>
      rw [List.splitOn_cons_eq_if_modifyHead] at h
      split_ifs at h with ha
      · rcases List.mem_cons.mp h with rfl | hrest
        · simp
        · exact ih hrest
      · obtain ⟨first, rest, hsplit⟩ :=
          List.exists_cons_of_ne_nil (List.splitOn_ne_nil sep data)
        rw [hsplit, List.modifyHead_cons] at h
        have hne : sep ≠ a := fun heq => ha (by simp [heq])
        rcases List.mem_cons.mp h with rfl | hrest
        · simpa [hne] using ih (hsplit ▸ List.mem_cons_self)
        · exact ih (hsplit ▸ List.mem_cons_of_mem _ hrest)

theorem splitOn_replicate (n : Nat) :
    (List.replicate n sep).splitOn sep = List.replicate (n + 1) [] := by
  induction n with
  | zero => rw [List.replicate_zero, List.splitOn_nil, List.replicate_one]
  | succ n ih =>
      change ([] ++ sep :: List.replicate n sep).splitOn sep = _
      rw [List.splitOn_append_cons_self_of_not_mem (by simp), ih]
      rfl

theorem nil_mem_splitOn_replicate (n : Nat) : [] ∈ (List.replicate n sep).splitOn sep := by
  rw [splitOn_replicate]
  exact List.mem_replicate.mpr ⟨n.succ_ne_zero, rfl⟩

end Readers

end HarborBeacon.LineLog
