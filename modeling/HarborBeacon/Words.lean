import HarborBeacon.LineLog

/-!
Texts as words between separators. A pattern without a separator that occurs in the words
joined again occurs inside one of them, and it ends where the words before it, their
separators and the beginning of that word leave room for it.
-/

namespace HarborBeacon.Words

open LineLog

variable {α : Type}

section Splitting

variable {isSep : α → Bool}

theorem split_induction (isSep : α → Bool) {motive : List α → Prop}
    (piece : ∀ text, (∀ a ∈ text, isSep a = false) → motive text)
    (cut : ∀ first sep rest, (∀ a ∈ first, isSep a = false) → isSep sep = true → motive rest →
      motive (first ++ sep :: rest))
    (text : List α) : motive text := by
  induction hlength : text.length using Nat.strongRecOn generalizing text with
  | ind n ih =>
      subst hlength
      have hfirst : ∀ a ∈ text.takeWhile (!isSep ·), isSep a = false := by
        intro a ha
        simpa using List.mem_takeWhile_imp ha
      rcases hrest : text.dropWhile (!isSep ·) with _ | ⟨sep, rest⟩
      · apply piece
        rwa [← List.takeWhile_append_dropWhile (p := (!isSep ·)) (l := text), hrest,
          List.append_nil]
      · have htext : text = text.takeWhile (!isSep ·) ++ sep :: rest := by
          rw [← hrest, List.takeWhile_append_dropWhile]
        have hsep : isSep sep = true := by
          have hhead := List.head_dropWhile_not (p := (!isSep ·)) (l := text) (by simp [hrest])
          simpa [hrest] using hhead
        rw [htext]
        apply cut _ _ _ hfirst hsep
        apply ih rest.length _ rest rfl
        have := congrArg List.length htext
        simp only [List.length_append, List.length_cons] at this
        omega

def words (isSep : α → Bool) (text : List α) : List (List α) :=
  (text.splitOnP isSep).filter fun word => !word.isEmpty

theorem mem_splitOnP {text piece : List α} (h : piece ∈ text.splitOnP isSep) :
    piece <:+: text ∧ ∀ a ∈ piece, isSep a = false := by
  induction text using split_induction isSep with
  | piece text htext =>
      rw [List.splitOnP_eq_singleton htext, List.mem_singleton] at h
      subst h
      exact ⟨List.infix_rfl, htext⟩
  | cut first sep rest hfirst hsep ih =>
      rw [List.splitOnP_append_cons_of_forall_mem hfirst sep hsep] at h
      rcases List.mem_cons.mp h with rfl | hmem
      · exact ⟨List.infix_append_left, hfirst⟩
      · obtain ⟨hwithin, hpiece⟩ := ih hmem
        exact ⟨List.infix_append_of_infix_right (List.infix_cons hwithin), hpiece⟩

theorem mem_words {text word : List α} (h : word ∈ words isSep text) :
    word ≠ [] ∧ word <:+: text ∧ ∀ a ∈ word, isSep a = false := by
  obtain ⟨hmem, hne⟩ := List.mem_filter.mp h
  exact ⟨by simpa using hne, mem_splitOnP hmem⟩

theorem exists_word_of_mem {text : List α} {a : α} (hmem : a ∈ text) (ha : isSep a = false) :
    ∃ word ∈ words isSep text, a ∈ word := by
  suffices hpiece : ∃ piece ∈ text.splitOnP isSep, a ∈ piece by
    obtain ⟨piece, hpiece, ha⟩ := hpiece
    refine ⟨piece, List.mem_filter.mpr ⟨hpiece, ?_⟩, ha⟩
    simpa using List.ne_nil_of_mem ha
  induction text using split_induction isSep with
  | piece text htext =>
      rw [List.splitOnP_eq_singleton htext]
      exact ⟨text, List.mem_singleton.mpr rfl, hmem⟩
  | cut first sep rest hfirst hsep ih =>
      rw [List.splitOnP_append_cons_of_forall_mem hfirst sep hsep]
      have hne : a ≠ sep := by
        rintro rfl
        rw [ha] at hsep
        cases hsep
      rcases List.mem_append.mp hmem with hleft | hright
      · exact ⟨first, List.mem_cons_self, hleft⟩
      · obtain ⟨piece, hpiece, hin⟩ := ih (List.mem_of_ne_of_mem hne hright)
        exact ⟨piece, List.mem_cons_of_mem _ hpiece, hin⟩

end Splitting

section Joining

variable {sep : α} {pattern : List α} {parts : List (List α)}

theorem infix_iff_exists_lead {text : List α} :
    pattern <:+: text ↔ ∃ lead, lead ++ pattern <+: text := by
  constructor
  · rintro ⟨lead, rest, h⟩
    exact ⟨lead, rest, h⟩
  · rintro ⟨lead, rest, h⟩
    exact ⟨lead, rest, h⟩

theorem prefix_append_sep_iff (hne : pattern ≠ []) (hsep : sep ∉ pattern)
    {lead first rest : List α} :
    lead ++ pattern <+: first ++ sep :: rest ↔
      lead ++ pattern <+: first ∨
        ∃ lead', lead = first ++ sep :: lead' ∧ lead' ++ pattern <+: rest := by
  constructor
  · rintro ⟨tail, h⟩
    rw [List.append_assoc] at h
    rcases List.append_eq_append_iff.mp h with ⟨between, hfirst, hrest⟩ | ⟨between, hlead, hrest⟩
    · -- the beginning ends inside the first part, so the pattern does as well
      left
      rcases List.append_eq_append_iff.mp hrest with ⟨beyond, hbetween, -⟩ | ⟨beyond, hpattern, hbeyond⟩
      · exact ⟨beyond, by rw [hfirst, hbetween, List.append_assoc]⟩
      · rcases beyond with _ | ⟨a, beyond⟩
        · exact ⟨[], by rw [hfirst, hpattern]; simp⟩
        · rw [List.cons_append, List.cons.injEq] at hbeyond
          exact absurd (by simp [hpattern, hbeyond.1]) hsep
    · rcases between with _ | ⟨a, lead'⟩
      · -- the beginning is the whole first part, and the pattern would start with the separator
        obtain ⟨b, pattern, rfl⟩ := List.exists_cons_of_ne_nil hne
        rw [List.nil_append, List.cons_append, List.cons.injEq] at hrest
        exact absurd (by simp [hrest.1]) hsep
      · rw [List.cons_append, List.cons.injEq] at hrest
        right
        refine ⟨lead', by rw [hlead, hrest.1], tail, ?_⟩
        rw [List.append_assoc, hrest.2]
  · rintro (h | ⟨lead', rfl, h⟩)
    · exact h.trans (List.prefix_append _ _)
    · rw [List.append_assoc, List.cons_append, List.prefix_append_right_inj,
        List.cons_prefix_cons]
      exact ⟨rfl, h⟩

theorem infix_append_sep_iff (hne : pattern ≠ []) (hsep : sep ∉ pattern)
    {first rest : List α} :
    pattern <:+: first ++ sep :: rest ↔ pattern <:+: first ∨ pattern <:+: rest := by
  simp only [infix_iff_exists_lead, prefix_append_sep_iff hne hsep]
  constructor
  · rintro ⟨lead, h | ⟨lead', -, h⟩⟩
    · exact Or.inl ⟨lead, h⟩
    · exact Or.inr ⟨lead', h⟩
  · rintro (⟨lead, h⟩ | ⟨lead, h⟩)
    · exact ⟨lead, Or.inl h⟩
    · exact ⟨first ++ sep :: lead, Or.inr ⟨lead, rfl, h⟩⟩

theorem map_intercalate {β : Type} (f : α → β) (separator : List α) (parts : List (List α)) :
    (separator.intercalate parts).map f =
      (separator.map f).intercalate (parts.map fun part => part.map f) := by
  induction parts with
  | nil => rfl
  | cons first rest ih =>
      rcases eq_or_ne rest [] with rfl | hrest
      · simp [List.intercalate_singleton]
      · rw [List.map_cons, List.intercalate_cons_of_ne_nil hrest,
          List.intercalate_cons_of_ne_nil (by simpa using hrest), List.map_append,
          List.map_append, ih]

theorem infix_intercalate_of_mem {separator part : List α} (h : part ∈ parts) :
    part <:+: separator.intercalate parts := by
  induction parts with
  | nil => cases h
  | cons first rest ih =>
      rcases eq_or_ne rest [] with rfl | hrest
      · rw [List.intercalate_singleton]
        exact List.mem_singleton.mp h ▸ List.infix_rfl
      · rw [List.intercalate_cons_of_ne_nil hrest]
        rcases List.mem_cons.mp h with rfl | hmem
        · rw [List.append_assoc]
          exact List.infix_append_left
        · exact List.infix_append_of_infix_right (ih hmem)

theorem prefix_intercalate_iff (hne : pattern ≠ []) (hsep : sep ∉ pattern) {lead : List α} :
    lead ++ pattern <+: [sep].intercalate parts ↔
      ∃ before word after lead', parts = before ++ word :: after ∧
        lead = logOf sep before ++ lead' ∧ lead' ++ pattern <+: word := by
  induction parts generalizing lead with
  | nil =>
      simp [List.intercalate_nil, hne]
  | cons first rest ih =>
      rcases eq_or_ne rest [] with rfl | hrest
      · rw [List.intercalate_singleton]
        constructor
        · intro h
          exact ⟨[], first, [], lead, rfl, rfl, h⟩
        · rintro ⟨before, word, after, lead', hparts, rfl, h⟩
          rcases before with _ | ⟨a, before⟩
          · rw [List.nil_append, List.cons.injEq] at hparts
            simpa [hparts.1] using h
          · simp at hparts
      · rw [List.intercalate_cons_of_ne_nil hrest, List.append_assoc, List.singleton_append,
          prefix_append_sep_iff hne hsep]
        constructor
        · rintro (h | ⟨lead', rfl, h⟩)
          · exact ⟨[], first, rest, lead, rfl, rfl, h⟩
          · obtain ⟨before, word, after, lead'', rfl, rfl, hword⟩ := ih.mp h
            refine ⟨first :: before, word, after, lead'', rfl, ?_, hword⟩
            rw [logOf_cons, List.append_assoc, List.cons_append]
        · rintro ⟨before, word, after, lead', hparts, rfl, h⟩
          rcases before with _ | ⟨a, before⟩
          · rw [List.nil_append, List.cons.injEq] at hparts
            exact Or.inl (by simpa [hparts.1] using h)
          · rw [List.cons_append, List.cons.injEq] at hparts
            right
            refine ⟨logOf sep before ++ lead', ?_, ?_⟩
            · rw [logOf_cons, hparts.1, List.append_assoc, List.cons_append]
            · exact ih.mpr ⟨before, word, after, lead', hparts.2, rfl, h⟩

theorem infix_intercalate_iff (hne : pattern ≠ []) (hsep : sep ∉ pattern) :
    pattern <:+: [sep].intercalate parts ↔ ∃ part ∈ parts, pattern <:+: part := by
  constructor
  · intro h
    obtain ⟨lead, hlead⟩ := infix_iff_exists_lead.mp h
    obtain ⟨before, word, after, lead', rfl, -, hword⟩ :=
      (prefix_intercalate_iff hne hsep).mp hlead
    exact ⟨word, by simp, infix_iff_exists_lead.mpr ⟨lead', hword⟩⟩
  · rintro ⟨part, hpart, h⟩
    exact h.trans (infix_intercalate_of_mem hpart)

theorem words_intercalate {isSep : α → Bool} (hsep : isSep sep = true)
    (h : ∀ part ∈ parts, part ≠ [] ∧ ∀ a ∈ part, isSep a = false) :
    words isSep ([sep].intercalate parts) = parts := by
  induction parts with
  | nil => simp [words, List.intercalate_nil]
  | cons first rest ih =>
      obtain ⟨⟨hne, hfirst⟩, hrest⟩ := List.forall_mem_cons.mp h
      have hkept : (!first.isEmpty) = true := by simpa using hne
      rcases eq_or_ne rest [] with rfl | hmore
      · rw [List.intercalate_singleton, words, List.splitOnP_eq_singleton hfirst]
        simp [hne]
      · rw [List.intercalate_cons_of_ne_nil hmore, List.append_assoc, List.singleton_append, words,
          List.splitOnP_append_cons_of_forall_mem hfirst sep hsep]
        simp only [List.filter_cons, hkept, if_true]
        exact congrArg (first :: ·) (ih hrest)

section Pieces

variable [BEq α] [LawfulBEq α]

theorem splitOn_intercalate_of_ne_nil {parts : List (List α)} (h : parts ≠ []) :
    ([sep].intercalate parts).splitOn sep = parts.flatMap fun part => part.splitOn sep := by
  induction parts with
  | nil => exact absurd rfl h
  | cons part rest ih =>
      rcases eq_or_ne rest [] with rfl | hrest
      · rw [List.intercalate_singleton, List.flatMap_singleton]
      · rw [List.intercalate_cons_of_ne_nil hrest, List.append_assoc, List.singleton_append,
          List.splitOn_append_cons_self, ih hrest, List.flatMap_cons]

theorem intercalate_eq_iff {parts others : List (List α)} (h : parts ≠ []) (h' : others ≠ []) :
    [sep].intercalate parts = [sep].intercalate others ↔
      (parts.flatMap fun part => part.splitOn sep) =
        others.flatMap fun part => part.splitOn sep := by
  rw [← splitOn_intercalate_of_ne_nil h, ← splitOn_intercalate_of_ne_nil h']
  constructor
  · intro hjoined
    rw [hjoined]
  · intro hpieces
    have hjoined := congrArg ([sep].intercalate ·) hpieces
    simpa only [List.intercalate_splitOn] using hjoined

end Pieces

end Joining

end HarborBeacon.Words
