import HarborBeacon.AdminConsole
import Mathlib.Data.List.Chain

/-!
Slugs: what is left of a text as a part of an id. They consist of small ASCII letters, digits
and single dashes inside, and a slug is its own slug.
-/

namespace HarborBeacon.AdminConsole

open Text

def isSlugChar (c : Char) : Bool :=
  ('a' ≤ c ∧ c ≤ 'z') || ('0' ≤ c ∧ c ≤ '9') || c = '-'

variable {c : Char} {compact : String} {value : String}

theorem forall_ascii {P : Char → Prop} (h : ∀ n : Fin 128, P (Char.ofNat n)) (hc : c.toNat < 128) :
    P c := by
  have hsame := h ⟨c.toNat, hc⟩
  rwa [Char.ofNat_toNat] at hsame

theorem toNat_of_isAlphanum (h : c.isAlphanum = true) : c.toNat < 128 := by
  simp only [Char.isAlphanum, isAlpha_eq, isUpper_eq, isLower_eq, Char.isDigit,
    Bool.or_eq_true, Bool.and_eq_true, decide_eq_true_eq, UInt32.le_iff_toNat_le, ge_iff_le] at h
  change c.val.toNat < 128
  have hZ : 'Z'.val.toNat = 90 := rfl
  have hz : 'z'.val.toNat = 122 := rfl
  have h9 : '9'.val.toNat = 57 := rfl
  omega

theorem toNat_of_isSlugChar (h : isSlugChar c = true) : c.toNat < 128 := by
  simp only [isSlugChar, Bool.or_eq_true, decide_eq_true_eq, Char.le_def,
    UInt32.le_iff_toNat_le] at h
  change c.val.toNat < 128
  have hz : 'z'.val.toNat = 122 := rfl
  have h9 : '9'.val.toNat = 57 := rfl
  rcases h with (h | h) | rfl
  · omega
  · omega
  · decide

theorem isSlugChar_toLower (h : c.isAlphanum = true) : isSlugChar c.toLower = true := by
  refine forall_ascii (P := fun c => c.isAlphanum = true → isSlugChar c.toLower = true) ?_
    (toNat_of_isAlphanum h) h
  decide

theorem isWhitespace_of_isSlugChar (h : isSlugChar c = true) :
    isWhitespace c = false := by
  refine forall_ascii (P := fun c => isSlugChar c = true → isWhitespace c = false) ?_
    (toNat_of_isSlugChar h) h
  decide

theorem slugChar_of_isSlugChar (h : isSlugChar c = true) :
    (if c.isAlphanum then some c.toLower
      else if c = '-' ∨ c = '_' ∨ c = '.' then some '-' else none) = some c := by
  refine forall_ascii (P := fun c => isSlugChar c = true → (if c.isAlphanum then some c.toLower
      else if c = '-' ∨ c = '_' ∨ c = '.' then some '-' else none) = some c) ?_
    (toNat_of_isSlugChar h) h
  decide

theorem mem_replaceFrom {pattern replacement : List Char} {skip : Nat} {chars : List Char}
    (h : c ∈ replaceFrom pattern replacement skip chars) :
    c ∈ replacement ∨ c ∈ chars := by
  induction chars generalizing skip with
  | nil =>
      rw [replaceFrom] at h
      exact absurd h List.not_mem_nil
  | cons d rest ih =>
      have hrest : ∀ {skip : Nat}, c ∈ replaceFrom pattern replacement skip rest →
          c ∈ replacement ∨ c ∈ d :: rest :=
        fun hmem => (ih hmem).imp_right (List.mem_cons_of_mem d)
      cases skip with
      | succ skip =>
          rw [replaceFrom] at h
          exact hrest h
      | zero =>
          rw [replaceFrom] at h
          split at h
          · rcases List.mem_append.mp h with hmem | hmem
            · exact Or.inl hmem
            · exact hrest hmem
          · rcases List.mem_cons.mp h with rfl | hmem
            · exact Or.inr List.mem_cons_self
            · exact hrest hmem

theorem mem_collapseDashes {rounds : Nat} (h : c ∈ (collapseDashes rounds compact).toList) :
    c = '-' ∨ c ∈ compact.toList := by
  induction rounds generalizing compact with
  | zero => exact Or.inr h
  | succ rounds ih =>
      rw [collapseDashes] at h
      split at h
      · rcases ih h with hdash | hmem
        · exact Or.inl hdash
        · rw [replaceText, String.toList_ofList] at hmem
          rcases mem_replaceFrom hmem with hnew | hold
          · exact Or.inl (List.mem_singleton.mp hnew)
          · exact Or.inr hold
      · exact Or.inr h

theorem length_replaceFrom (skip : Nat) (chars : List Char) :
    (replaceFrom ['-', '-'] ['-'] skip chars).length ≤ chars.length := by
  induction chars generalizing skip with
  | nil => exact Nat.zero_le _
  | cons c rest ih =>
      cases skip with
      | succ skip =>
          rw [replaceFrom, List.length_cons]
          exact (ih skip).trans (Nat.le_succ _)
      | zero =>
          rw [replaceFrom, List.length_cons]
          split
          · rw [List.singleton_append, List.length_cons]
            exact Nat.succ_le_succ (ih _)
          · rw [List.length_cons]
            exact Nat.succ_le_succ (ih 0)

theorem length_replaceFrom_lt {chars : List Char} (h : ['-', '-'] <:+: chars) :
    (replaceFrom ['-', '-'] ['-'] 0 chars).length < chars.length := by
  induction chars with
  | nil => simp at h
  | cons c rest ih =>
      rw [replaceFrom, List.length_cons]
      split
      · rename_i hprefix
        obtain ⟨tail, htail⟩ := hprefix
        obtain ⟨rfl, rfl⟩ : '-' = c ∧ '-' :: tail = rest := by simpa using htail
        rw [List.singleton_append, List.length_cons]
        change (replaceFrom ['-', '-'] ['-'] 1 ('-' :: tail)).length + 1 < _
        rw [replaceFrom, List.length_cons]
        exact Nat.succ_lt_succ (Nat.lt_succ_of_le (length_replaceFrom 0 tail))
      · rename_i hprefix
        rw [List.length_cons]
        rcases List.infix_cons_iff.mp h with hstart | hinside
        · exact absurd hstart hprefix
        · exact Nat.succ_lt_succ (ih hinside)

theorem containsText_collapseDashes {rounds : Nat} (h : compact.length ≤ rounds) :
    containsText (collapseDashes rounds compact) "--" = false := by
  induction rounds generalizing compact with
  | zero =>
      have hempty : compact = "" := by
        rw [← String.length_eq_zero_iff]
        omega
      subst hempty
      decide
  | succ rounds ih =>
      rw [collapseDashes]
      split
      · rename_i hdashes
        apply ih
        rw [← String.length_toList] at h
        rw [replaceText, ← String.length_toList, String.toList_ofList]
        exact Nat.le_of_lt_succ
          ((length_replaceFrom_lt (of_decide_eq_true hdashes)).trans_le h)
      · rename_i hdashes
        exact Bool.eq_false_iff.mpr hdashes

def slugChars (value : String) : List Char :=
  (trim value).toList.filterMap fun c =>
    if c.isAlphanum then some c.toLower
    else if c = '-' ∨ c = '_' ∨ c = '.' then some '-'
    else none

theorem toList_slugify (value : String) : (slugifyIdentityComponent value).toList =
    ((collapseDashes (String.ofList (slugChars value)).length
      (String.ofList (slugChars value))).toList.dropWhile (· = '-')).rdropWhile (· = '-') := by
  rw [slugifyIdentityComponent, String.toList_ofList]
  rfl

theorem isSlugChar_of_mem_slugChars (h : c ∈ slugChars value) :
    isSlugChar c = true := by
  obtain ⟨d, -, hd⟩ := List.mem_filterMap.mp h
  split at hd
  · rename_i halnum
    cases hd
    exact isSlugChar_toLower halnum
  · split at hd
    · cases hd
      rfl
    · cases hd

theorem isSlugChar_of_mem (h : c ∈ (slugifyIdentityComponent value).toList) :
    isSlugChar c = true := by
  rw [toList_slugify] at h
  have hmem := (List.dropWhile_sublist _).subset ((List.rdropWhile_prefix _ _).subset h)
  rcases mem_collapseDashes hmem with rfl | hchar
  · rfl
  · rw [String.toList_ofList] at hchar
    exact isSlugChar_of_mem_slugChars hchar

theorem no_dashes_slugify (value : String) :
    ¬ ['-', '-'] <:+: (slugifyIdentityComponent value).toList := by
  intro hdashes
  rw [toList_slugify] at hdashes
  have hinfix := hdashes.trans ((List.rdropWhile_prefix _ _).isInfix.trans
    (List.dropWhile_suffix _).isInfix)
  have hcollapsed : containsText (collapseDashes (String.ofList (slugChars value)).length
      (String.ofList (slugChars value))) "--" = false := containsText_collapseDashes le_rfl
  rw [containsText, decide_eq_false_iff_not] at hcollapsed
  exact hcollapsed hinfix

theorem collapseDashes_of_no_dashes (h : ¬ ['-', '-'] <:+: compact.toList) (rounds : Nat) :
    collapseDashes rounds compact = compact := by
  cases rounds with
  | zero => rfl
  | succ rounds =>
      rw [collapseDashes, if_neg]
      intro hdashes
      exact h (of_decide_eq_true hdashes)

structure IsSlug (slug : List Char) : Prop where
  chars : ∀ c ∈ slug, isSlugChar c = true
  dashes : slug.IsChain fun c d => ¬ (c = '-' ∧ d = '-')
  front : ∀ c ∈ slug.head?, c ≠ '-'
  back : ∀ c ∈ slug.getLast?, c ≠ '-'

theorem isChain_dashes_iff {chars : List Char} :
    (chars.IsChain fun c d => ¬ (c = '-' ∧ d = '-')) ↔ ¬ ['-', '-'] <:+: chars := by
  rw [List.isChain_iff_forall_rel_of_append_cons_cons]
  constructor
  · rintro h ⟨before, after, heq⟩
    rw [List.append_assoc] at heq
    exact h heq.symm ⟨rfl, rfl⟩
  · rintro h c d before after rfl ⟨rfl, rfl⟩
    exact h ⟨before, after, by simp⟩

theorem trimMatches_eq_self_iff {p : Char → Bool} {chars : List Char} :
    (chars.dropWhile p).rdropWhile p = chars ↔
      (∀ c ∈ chars.head?, p c = false) ∧ ∀ c ∈ chars.getLast?, p c = false := by
  have hfront : chars.dropWhile p = chars ↔ ∀ c ∈ chars.head?, p c = false := by
    cases chars with
    | nil => simp
    | cons first rest => simp [List.dropWhile_eq_self_iff]
  have hback : chars.rdropWhile p = chars ↔ ∀ c ∈ chars.getLast?, p c = false := by
    rw [List.rdropWhile_eq_self_iff]
    rcases List.eq_nil_or_concat chars with rfl | ⟨front, last, rfl⟩
    · simp
    · simp
  rw [← hfront, ← hback]
  constructor
  · intro h
    have hdrop : chars.dropWhile p = chars := by
      apply (List.dropWhile_suffix p).eq_of_length
      have hfirst := (List.dropWhile_suffix p (l := chars)).length_le
      have hsecond := (List.rdropWhile_prefix p (l := chars.dropWhile p)).length_le
      rw [h] at hsecond
      omega
    rw [hdrop] at h
    exact ⟨hdrop, h⟩
  · rintro ⟨hdrop, hrdrop⟩
    rw [hdrop, hrdrop]

theorem isSlug_slugify (value : String) : IsSlug (slugifyIdentityComponent value).toList := by
  have hends := trimMatches_idem (· = '-') (collapseDashes
    (String.ofList (slugChars value)).length (String.ofList (slugChars value))).toList
  rw [← toList_slugify, trimMatches_eq_self_iff] at hends
  refine ⟨fun c hc => isSlugChar_of_mem hc, isChain_dashes_iff.mpr (no_dashes_slugify value),
    ?_, ?_⟩
  · exact fun c hc => of_decide_eq_false (hends.1 c hc)
  · exact fun c hc => of_decide_eq_false (hends.2 c hc)

theorem slugify_of_isSlug (h : IsSlug value.toList) :
    slugifyIdentityComponent value = value := by
  have hchars : slugChars value = value.toList := by
    rw [slugChars, trim_eq_self fun c hc => isWhitespace_of_isSlugChar (h.chars c hc)]
    refine (List.filterMap_congr fun c hc => ?_).trans List.filterMap_some
    exact slugChar_of_isSlugChar (h.chars c hc)
  apply String.toList_injective
  rw [toList_slugify, hchars, String.ofList_toList,
    collapseDashes_of_no_dashes (isChain_dashes_iff.mp h.dashes), trimMatches_eq_self_iff]
  exact ⟨fun c hc => decide_eq_false (h.front c hc), fun c hc => decide_eq_false (h.back c hc)⟩

theorem IsSlug.join {left right : List Char} (hleft : IsSlug left) (hright : IsSlug right)
    (hleftne : left ≠ []) (hrightne : right ≠ []) : IsSlug (left ++ '-' :: right) := by
  obtain ⟨first, rest, rfl⟩ := List.exists_cons_of_ne_nil hleftne
  obtain ⟨next, after, rfl⟩ := List.exists_cons_of_ne_nil hrightne
  refine ⟨?_, ?_, ?_, ?_⟩
  · intro c hc
    rcases List.mem_append.mp hc with hmem | hmem
    · exact hleft.chars c hmem
    · rcases List.mem_cons.mp hmem with rfl | hmem
      · rfl
      · exact hright.chars c hmem
  · apply List.IsChain.append hleft.dashes
    · rw [List.isChain_cons_cons]
      exact ⟨fun hsame => hright.front next rfl hsame.2, hright.dashes⟩
    · rintro c hc d - ⟨rfl, -⟩
      exact hleft.back _ hc rfl
  · exact hleft.front
  · intro c hc
    rw [List.getLast?_append_cons, List.getLast?_cons_cons] at hc
    exact hright.back c hc

theorem isDigit_of_mem_toString {n : Nat} (h : c ∈ (toString n).toList) :
    c.isDigit = true := by
  rw [Nat.toString_eq_repr, Nat.toList_repr] at h
  exact Nat.isDigit_of_mem_toDigits (by decide) (by decide) h

theorem isSlug_of_word {word : List Char} (h : ∀ c ∈ word, isSlugChar c = true ∧ c ≠ '-') :
    IsSlug word := by
  refine ⟨fun c hc => (h c hc).1, ?_, ?_, ?_⟩
  · rw [isChain_dashes_iff]
    intro hmem
    exact (h '-' (hmem.subset (by simp))).2 rfl
  · exact fun c hc => (h c (List.mem_of_mem_head? hc)).2
  · exact fun c hc => (h c (List.mem_of_getLast? hc)).2

theorem isSlug_toString (n : Nat) : IsSlug (toString n).toList := by
  apply isSlug_of_word
  intro c hc
  have hdigit : c.isDigit = true := isDigit_of_mem_toString hc
  have halnum : c.isAlphanum = true := by rw [Char.isAlphanum, hdigit, Bool.or_true]
  exact forall_ascii (P := fun c => c.isDigit = true → isSlugChar c = true ∧ c ≠ '-')
    (by decide) (toNat_of_isAlphanum halnum) hdigit

section Words

variable {front rest chars : List Char}

theorem intercalate_append {sep : Char} {first second : List (List Char)} (hfirst : first ≠ [])
    (hsecond : second ≠ []) : [sep].intercalate (first ++ second) =
      [sep].intercalate first ++ sep :: [sep].intercalate second := by
  induction first with
  | nil => exact absurd rfl hfirst
  | cons part rest ih =>
      cases rest with
      | nil => simp [List.intercalate_cons_of_ne_nil hsecond]
      | cons next rest =>
          rw [List.cons_append, List.cons_append, List.intercalate_cons_cons, ← List.cons_append,
            ih (by simp), List.intercalate_cons_cons]
          simp only [List.append_assoc]

def dashWords (chars : List Char) : List (List Char) :=
  (chars.splitOn '-').filter fun word => word ≠ []

theorem dashWords_append (front rest : List Char) :
    dashWords (front ++ '-' :: rest) = dashWords front ++ dashWords rest := by
  rw [dashWords, List.splitOn_append_cons_self, List.filter_append]
  rfl

theorem dashWords_cons (rest : List Char) : dashWords ('-' :: rest) = dashWords rest :=
  dashWords_append [] rest

theorem dashWords_replaceFrom (front chars : List Char) :
    dashWords (front ++ replaceFrom ['-', '-'] ['-'] 0 chars) = dashWords (front ++ chars) := by
  induction hn : chars.length using Nat.strong_induction_on generalizing front chars with
  | _ n ih =>
      cases chars with
      | nil => rfl
      | cons c rest =>
          rw [replaceFrom]
          rw [List.length_cons] at hn
          split
          · rename_i hprefix
            obtain ⟨tail, htail⟩ := hprefix
            obtain ⟨rfl, rfl⟩ : '-' = c ∧ '-' :: tail = rest := by simpa using htail
            rw [List.length_cons] at hn
            have hskip : replaceFrom ['-', '-'] ['-'] (['-', '-'].length - 1) ('-' :: tail) =
                replaceFrom ['-', '-'] ['-'] 0 tail := by
              change replaceFrom ['-', '-'] ['-'] 1 ('-' :: tail) = _
              rw [replaceFrom]
            have hrest := ih tail.length (by omega) [] tail rfl
            rw [List.nil_append, List.nil_append] at hrest
            rw [hskip, List.singleton_append, dashWords_append, dashWords_append, dashWords_cons,
              hrest]
          · have hrest := ih rest.length (by omega) (front ++ [c]) rest rfl
            simpa using hrest

theorem dashWords_collapseDashes (rounds : Nat) (compact : String) :
    dashWords (collapseDashes rounds compact).toList = dashWords compact.toList := by
  induction rounds generalizing compact with
  | zero => rfl
  | succ rounds ih =>
      rw [collapseDashes]
      split
      · rw [ih, replaceText, String.toList_ofList]
        exact dashWords_replaceFrom [] compact.toList
      · rfl

theorem dashWords_dropWhile (chars : List Char) :
    dashWords (chars.dropWhile (· = '-')) = dashWords chars := by
  induction chars with
  | nil => rfl
  | cons c rest ih =>
      by_cases hc : c = '-'
      · subst hc
        rw [List.dropWhile_cons_of_pos (by decide), ih, dashWords_cons]
      · rw [List.dropWhile_cons_of_neg (by simpa using hc)]

theorem dashWords_rdropWhile (chars : List Char) :
    dashWords (chars.rdropWhile (· = '-')) = dashWords chars := by
  induction chars using List.reverseRecOn with
  | nil => rfl
  | append_singleton chars c ih =>
      by_cases hc : c = '-'
      · subst hc
        rw [List.rdropWhile_concat_pos _ _ _ (by decide), ih, dashWords_append]
        exact (List.append_nil _).symm
      · rw [List.rdropWhile_concat_neg _ _ _ (by simpa using hc)]

def slugWords (value : String) : List (List Char) :=
  dashWords (slugChars value)

theorem dashWords_slugify (value : String) :
    dashWords (slugifyIdentityComponent value).toList = slugWords value := by
  rw [toList_slugify, dashWords_rdropWhile, dashWords_dropWhile, dashWords_collapseDashes,
    String.toList_ofList, slugWords]

theorem nil_not_mem_splitOn (h : IsSlug chars) (hne : chars ≠ []) : [] ∉ chars.splitOn '-' := by
  intro hmem
  obtain ⟨before, after, hparts⟩ := List.append_of_mem hmem
  have hchars : ['-'].intercalate (chars.splitOn '-') = chars := List.intercalate_splitOn '-'
  rw [hparts] at hchars
  by_cases hbefore : before = []
  · by_cases hafter : after = []
    · rw [hbefore, hafter] at hchars
      exact hne hchars.symm
    · rw [hbefore, List.nil_append, List.intercalate_cons_of_ne_nil hafter] at hchars
      exact h.front '-' (by rw [← hchars]; rfl) rfl
  · rw [intercalate_append hbefore (by simp)] at hchars
    by_cases hafter : after = []
    · rw [hafter, List.intercalate_singleton] at hchars
      exact h.back '-' (by rw [← hchars, List.getLast?_concat]; rfl) rfl
    · rw [List.intercalate_cons_of_ne_nil hafter] at hchars
      apply isChain_dashes_iff.mp h.dashes
      exact ⟨['-'].intercalate before, ['-'].intercalate after, by rw [← hchars]; simp⟩

theorem intercalate_dashWords (h : IsSlug chars) : ['-'].intercalate (dashWords chars) = chars := by
  by_cases hne : chars = []
  · subst hne
    rfl
  · have hkept : dashWords chars = chars.splitOn '-' := by
      rw [dashWords, List.filter_eq_self]
      intro word hword
      have hnil : word ≠ [] := fun hnil => nil_not_mem_splitOn h hne (hnil ▸ hword)
      exact decide_eq_true hnil
    rw [hkept, List.intercalate_splitOn]

theorem slugify_eq_iff {first second : String} :
    slugifyIdentityComponent first = slugifyIdentityComponent second ↔
      slugWords first = slugWords second := by
  constructor
  · intro h
    rw [← dashWords_slugify, ← dashWords_slugify, h]
  · intro h
    rw [← dashWords_slugify, ← dashWords_slugify] at h
    have hlists := congrArg ['-'].intercalate h
    rw [intercalate_dashWords (isSlug_slugify first),
      intercalate_dashWords (isSlug_slugify second)] at hlists
    exact String.toList_injective hlists

theorem slugWords_trim (value : String) : slugWords (trim value) = slugWords value := by
  rw [slugWords, slugChars, trim_trim, slugWords, slugChars]

end Words

end HarborBeacon.AdminConsole
