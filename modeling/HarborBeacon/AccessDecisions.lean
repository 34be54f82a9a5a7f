import HarborBeacon.Text

/-!
Permission bindings and the decisions made from them: what a list of bindings decides whatever its
order is, and which spellings of a token count as the same.
-/

namespace HarborBeacon.AccessDecisions

open Text

inductive PermissionEffect where
  | allow
  | deny
deriving DecidableEq

structure PermissionBinding where
  workspaceId : String
  roleKind : String
  resourcePattern : String
  actionPattern : String
  effect : PermissionEffect

def normalizeToken (value : String) : String :=
  replaceChar ' ' '_' (replaceChar '-' '_' (toLowercase (trim value)))

def patternMatches (pattern value : String) : Bool :=
  let pattern := normalizeToken pattern
  if pattern = "" ∨ pattern = "*" then true
  else if pattern.toList.getLast? = some '*' then
    startsWithText value (String.ofList pattern.toList.dropLast)
  else pattern = value

def bindingMatches (workspaceId roleKind resource action : String) (binding : PermissionBinding) :
    Bool :=
  normalizeToken binding.workspaceId = workspaceId && normalizeToken binding.roleKind = roleKind &&
    patternMatches binding.resourcePattern resource && patternMatches binding.actionPattern action

def decideEffects (allowed : Bool) : List PermissionBinding → Bool
  | [] => allowed
  | binding :: rest =>
      match binding.effect with
      | .allow => decideEffects true rest
      | .deny => false

def actionAllowed (bindings : List PermissionBinding)
    (workspaceId roleKind resource action : String) : Bool :=
  decideEffects false (bindings.filter (bindingMatches (normalizeToken workspaceId)
    (normalizeToken roleKind) (normalizeToken resource) (normalizeToken action)))

theorem decideEffects_iff {allowed : Bool} {bindings : List PermissionBinding} :
    decideEffects allowed bindings = true ↔
      (allowed = true ∨ ∃ binding ∈ bindings, binding.effect = .allow) ∧
        ∀ binding ∈ bindings, binding.effect ≠ .deny := by
  induction bindings generalizing allowed with
  | nil => simp [decideEffects]
  | cons binding rest ih =>
      rw [decideEffects]
      split
      · rename_i heffect
        simp [ih, heffect]
      · rename_i heffect
        simp [heffect]

section Spellings

def separators : List Char := ['-', '_', ' ']

/-- One change of a spelling: a letter in another case, white space around the text, or another
separator, if there is something to see before and after it. -/
inductive Respelled : List Char → List Char → Prop
  | letter (front back : List Char) {c d : Char} (h : lowercaseChar c = lowercaseChar d) :
      Respelled (front ++ c :: back) (front ++ d :: back)
  | space (text : List Char) {front back : List Char}
      (hfront : ∀ c ∈ front, isWhitespace c = true) (hback : ∀ c ∈ back, isWhitespace c = true) :
      Respelled (front ++ text ++ back) text
  | separator {front back : List Char} {c d : Char} (hc : c ∈ separators) (hd : d ∈ separators)
      (hfront : ∃ x ∈ front, isWhitespace x = false)
      (hback : ∃ x ∈ back, isWhitespace x = false) :
      Respelled (front ++ c :: back) (front ++ d :: back)

def SameToken (a b : String) : Prop :=
  Relation.EqvGen Respelled a.toList b.toList

structure SameBinding (a b : PermissionBinding) : Prop where
  workspaceId : SameToken a.workspaceId b.workspaceId
  roleKind : SameToken a.roleKind b.roleKind
  resourcePattern : SameToken a.resourcePattern b.resourcePattern
  actionPattern : SameToken a.actionPattern b.actionPattern
  effect : a.effect = b.effect

variable {c x : Char} {front back text : List Char}

/-- The intervals of the code points that are white space. -/
def gaps : List (Nat × Nat) :=
  [(9, 13), (0x20, 0x20), (0x85, 0x85), (0xA0, 0xA0), (0x1680, 0x1680), (0x2000, 0x200A),
   (0x2028, 0x2029), (0x202F, 0x202F), (0x205F, 0x205F), (0x3000, 0x3000)]

theorem isWhitespace_eq_false_iff :
    isWhitespace c = false ↔ ∀ gap ∈ gaps, c.toNat < gap.1 ∨ gap.2 < c.toNat := by
  simp only [isWhitespace, gaps, List.forall_mem_cons, List.not_mem_nil, false_imp_iff,
    implies_true, and_true, Bool.or_eq_false_iff, Bool.and_eq_false_iff,
    decide_eq_false_iff_not, beq_eq_false_iff_ne]
  omega

theorem lowercaseRanges_clear : ∀ range ∈ lowercaseRanges, ∀ gap ∈ gaps, 0 < gap.1 ∧
    (range.2.1 < gap.1 ∨ gap.2 < range.1) ∧
      (range.2.1 + range.2.2.2 < (gap.1 : Int) ∨ (gap.2 : Int) < range.1 + range.2.2.2) := by
  have hall : (lowercaseRanges.all fun range => gaps.all fun gap => decide (0 < gap.1 ∧
      (range.2.1 < gap.1 ∨ gap.2 < range.1) ∧
        (range.2.1 + range.2.2.2 < (gap.1 : Int) ∨ (gap.2 : Int) < range.1 + range.2.2.2))) = true := by
    decide +kernel
  simpa only [List.all_eq_true, decide_eq_true_eq] using hall

theorem toNat_ofNat_cases (n : Nat) : (Char.ofNat n).toNat = n ∨ (Char.ofNat n).toNat = 0 := by
  rcases Decidable.em n.isValidChar with h | h
  · rw [Char.ofNat, dif_pos h]
    exact Or.inl rfl
  · rw [Char.ofNat, dif_neg h]
    exact Or.inr rfl

theorem isWhitespace_lowercaseChar (h : x ∈ lowercaseChar c) : isWhitespace x = isWhitespace c := by
  have hclear : (∀ gap ∈ gaps, c.toNat < gap.1 ∨ gap.2 < c.toNat) →
      (∀ gap ∈ gaps, x.toNat < gap.1 ∨ gap.2 < x.toNat) → isWhitespace x = isWhitespace c := by
    intro hc hx
    rw [isWhitespace_eq_false_iff.mpr hc, isWhitespace_eq_false_iff.mpr hx]
  rw [lowercaseChar] at h
  split_ifs at h with hascii hupper hdotted
  · obtain rfl := List.mem_singleton.mp h
    rw [Bool.and_eq_true, decide_eq_true_eq, decide_eq_true_eq] at hupper
    have hcode := toNat_ofNat_cases (c.toNat + 32)
    refine hclear ?_ ?_
    · rw [← isWhitespace_eq_false_iff]
      simp [isWhitespace]
      omega
    · rw [← isWhitespace_eq_false_iff]
      simp [isWhitespace]
      omega
  · rw [List.mem_singleton.mp h]
  · rw [beq_iff_eq] at hdotted
    have hcode : x.toNat = 105 ∨ x.toNat = 0x307 := by
      rcases List.mem_cons.mp h with rfl | hsecond
      · exact Or.inl (by decide)
      · rw [List.mem_singleton.mp hsecond]
        exact Or.inr (by decide)
    refine hclear ?_ ?_
    · rw [← isWhitespace_eq_false_iff]
      simp [isWhitespace]
      omega
    · rw [← isWhitespace_eq_false_iff]
      simp [isWhitespace]
      omega
  · split at h
    · rename_i range hfound
      obtain rfl := List.mem_singleton.mp h
      have hrange := lowercaseRanges_clear range (List.mem_of_find?_eq_some hfound)
      have hin := List.find?_some hfound
      simp only [Bool.and_eq_true, decide_eq_true_eq] at hin
      have hcode := toNat_ofNat_cases ((c.toNat : Int) + range.2.2.2).toNat
      refine hclear (fun gap hgap => ?_) fun gap hgap => ?_
      · have hgapClear := hrange gap hgap
        omega
      · have hgapClear := hrange gap hgap
        omega
    · rw [List.mem_singleton.mp h]

theorem lowercaseChar_ne_nil (c : Char) : lowercaseChar c ≠ [] := by
  rw [lowercaseChar]
  split_ifs
  · simp
  · simp
  · simp
  · split <;> simp

theorem trimChars_flatMap_lowercaseChar (chars : List Char) :
    trimChars (chars.flatMap lowercaseChar) = (trimChars chars).flatMap lowercaseChar := by
  have hspace : ∀ c, ∀ x ∈ lowercaseChar c, isWhitespace x = isWhitespace c :=
    fun c x hx => isWhitespace_lowercaseChar hx
  rw [trimChars, trimChars, dropWhile_flatMap lowercaseChar_ne_nil hspace,
    rdropWhile_flatMap lowercaseChar_ne_nil hspace]

def tokenChars (chars : List Char) : List Char :=
  ((trimChars chars).flatMap lowercaseChar).map fun c => if c ∈ separators then '_' else c

theorem normalizeToken_eq (value : String) :
    normalizeToken value = String.ofList (tokenChars value.toList) := by
  have hchar : ∀ c : Char, (if (if c = '-' then '_' else c) = ' ' then '_'
      else if c = '-' then '_' else c) = if c ∈ separators then '_' else c := by
    intro c
    simp only [separators, List.mem_cons, List.not_mem_nil, or_false]
    split_ifs <;> simp_all
  rw [normalizeToken, replaceChar, replaceChar, toLowercase, trim]
  simp only [String.toList_ofList, List.map_map, Function.comp_def, hchar, tokenChars]

theorem trimChars_append (hfront : ∀ c ∈ front, isWhitespace c = true)
    (hback : ∀ c ∈ back, isWhitespace c = true) :
    trimChars (front ++ text ++ back) = trimChars text := by
  have hnone : back.rdropWhile isWhitespace = [] := List.rdropWhile_eq_nil_iff.mpr hback
  rw [trimChars, trimChars, List.append_assoc, List.dropWhile_append_of_pos hfront,
    List.dropWhile_append]
  split
  · rename_i hblank
    rw [List.isEmpty_iff] at hblank
    rw [hblank, List.dropWhile_eq_nil_iff.mpr hback]
  · rw [rdropWhile_append, if_pos hnone]

theorem trimChars_append_cons (hfront : ∃ x ∈ front, isWhitespace x = false)
    (hback : ∃ x ∈ back, isWhitespace x = false) (c : Char) :
    trimChars (front ++ c :: back) =
      front.dropWhile isWhitespace ++ c :: back.rdropWhile isWhitespace := by
  obtain ⟨x, hx, hxvisible⟩ := hfront
  obtain ⟨y, hy, hyvisible⟩ := hback
  have hdrop : ¬ (front.dropWhile isWhitespace).isEmpty = true := by
    rw [List.isEmpty_iff, List.dropWhile_eq_nil_iff]
    exact fun h => absurd (h x hx) (by simp [hxvisible])
  have hlast : ¬ back.rdropWhile isWhitespace = [] := by
    rw [List.rdropWhile_eq_nil_iff]
    exact fun h => absurd (h y hy) (by simp [hyvisible])
  have hcons : ([c] ++ back).rdropWhile isWhitespace = [c] ++ back.rdropWhile isWhitespace := by
    rw [rdropWhile_append, if_neg hlast]
  rw [trimChars, List.dropWhile_append, if_neg hdrop, rdropWhile_append, ← List.singleton_append,
    hcons, if_neg (by simp)]
  rfl

theorem Respelled.tokenChars_eq {a b : List Char} (h : Respelled a b) :
    tokenChars a = tokenChars b := by
  cases h with
  | letter front back h =>
      rw [tokenChars, tokenChars, ← trimChars_flatMap_lowercaseChar,
        ← trimChars_flatMap_lowercaseChar, List.flatMap_append, List.flatMap_append,
        List.flatMap_cons, List.flatMap_cons, h]
  | space text hfront hback => rw [tokenChars, tokenChars, trimChars_append hfront hback]
  | separator hc hd hfront hback =>
      have hsign : ∀ c ∈ separators, (lowercaseChar c).map (fun c =>
          if c ∈ separators then '_' else c) = ['_'] := forall_mem_of_all (by decide)
      rw [tokenChars, tokenChars, trimChars_append_cons hfront hback,
        trimChars_append_cons hfront hback]
      simp only [List.flatMap_append, List.flatMap_cons, List.map_append, hsign _ hc, hsign _ hd]

theorem SameToken.normalizeToken_eq {a b : String} (h : SameToken a b) :
    normalizeToken a = normalizeToken b := by
  rw [AccessDecisions.normalizeToken_eq, AccessDecisions.normalizeToken_eq]
  refine congrArg String.ofList ?_
  rw [SameToken] at h
  generalize a.toList = chars at h ⊢
  generalize b.toList = others at h ⊢
  induction h with
  | rel a b h => exact h.tokenChars_eq
  | refl a => rfl
  | symm a b _ ih => exact ih.symm
  | trans a b c _ _ hab hbc => exact hab.trans hbc

end Spellings

section Results

/-- What is asked: whether a role may do something to a resource of a workspace. -/
structure AccessRequest where
  workspaceId : String
  roleKind : String
  resource : String
  action : String
  ascii : ∀ text ∈ [workspaceId, roleKind, resource, action], ∀ c ∈ text.toList, c.toNat < 128

variable {bindings others : List PermissionBinding} {request other : AccessRequest}

def AccessRequest.matching (request : AccessRequest) : PermissionBinding → Bool :=
  bindingMatches (normalizeToken request.workspaceId) (normalizeToken request.roleKind)
    (normalizeToken request.resource) (normalizeToken request.action)

def AccessRequest.allowed (request : AccessRequest) (bindings : List PermissionBinding) : Bool :=
  actionAllowed bindings request.workspaceId request.roleKind request.resource request.action

structure SameRequest (a b : AccessRequest) : Prop where
  workspaceId : SameToken a.workspaceId b.workspaceId
  roleKind : SameToken a.roleKind b.roleKind
  resource : SameToken a.resource b.resource
  action : SameToken a.action b.action

theorem allowed_iff : request.allowed bindings = true ↔
    (∃ binding ∈ bindings, request.matching binding = true ∧ binding.effect = .allow) ∧
      ∀ binding ∈ bindings, request.matching binding = true → binding.effect ≠ .deny := by
  rw [AccessRequest.allowed, actionAllowed, decideEffects_iff]
  simp only [List.mem_filter, Bool.false_eq_true, false_or, and_imp, and_assoc]
  rfl

theorem SameRequest.matching_eq (h : SameRequest request other) {a b : PermissionBinding}
    (hbinding : SameBinding a b) : request.matching a = other.matching b := by
  simp only [AccessRequest.matching, bindingMatches, patternMatches,
    h.workspaceId.normalizeToken_eq, h.roleKind.normalizeToken_eq, h.resource.normalizeToken_eq,
    h.action.normalizeToken_eq, hbinding.workspaceId.normalizeToken_eq,
    hbinding.roleKind.normalizeToken_eq, hbinding.resourcePattern.normalizeToken_eq,
    hbinding.actionPattern.normalizeToken_eq]

/-- A matching denial decides, then a matching permission, whatever the order of the bindings and
the spelling of the tokens. -/
theorem decision_of_bindings (request : AccessRequest) (bindings : List PermissionBinding) :
    (request.allowed bindings = true ↔
      (∃ binding ∈ bindings, request.matching binding = true ∧ binding.effect = .allow) ∧
        ∀ binding ∈ bindings, request.matching binding = true → binding.effect ≠ .deny) ∧
      (∀ others, (∀ binding, binding ∈ others ↔ binding ∈ bindings) →
        request.allowed others = request.allowed bindings) ∧
      (∀ front back deny, bindings = front ++ back → deny.effect = .deny →
        request.allowed (front ++ deny :: back) = true → request.allowed bindings = true) ∧
      (∀ front back allow, bindings = front ++ allow :: back → allow.effect = .allow →
        request.allowed (front ++ back) = true → request.allowed bindings = true) ∧
      ∀ other others, SameRequest request other → List.Forall₂ SameBinding bindings others →
        request.allowed bindings = other.allowed others := by
  refine ⟨allowed_iff, fun others h => ?_, ?_, ?_, fun other others hrequest hbindings => ?_⟩
  · rw [Bool.eq_iff_iff, allowed_iff, allowed_iff]
    simp only [h]
  · rintro front back deny rfl hdeny h
    rw [allowed_iff] at h ⊢
    obtain ⟨⟨binding, hmem, hmatch, hallow⟩, hnone⟩ := h
    have hne : binding ≠ deny := by
      rintro rfl
      rw [hdeny] at hallow
      cases hallow
    refine ⟨⟨binding, ?_, hmatch, hallow⟩, fun binding hbinding => hnone binding ?_⟩
    · simpa [hne] using hmem
    · rw [List.mem_append] at hbinding
      exact List.mem_append.mpr (hbinding.imp_right (List.mem_cons_of_mem _))
  · rintro front back allow rfl hallow h
    rw [allowed_iff] at h ⊢
    obtain ⟨⟨binding, hmem, hmatch⟩, hnone⟩ := h
    refine ⟨⟨binding, ?_, hmatch⟩, fun other hother hmatches => ?_⟩
    · rw [List.mem_append] at hmem
      exact List.mem_append.mpr (hmem.imp_right (List.mem_cons_of_mem _))
    · simp only [List.mem_append, List.mem_cons] at hother
      rcases hother with hfront | rfl | hback
      · exact hnone other (List.mem_append_left _ hfront) hmatches
      · rw [hallow]
        exact nofun
      · exact hnone other (List.mem_append_right _ hback) hmatches
  · have hsame : ∀ allowed, decideEffects allowed (bindings.filter request.matching) =
        decideEffects allowed (others.filter other.matching) := by
      induction hbindings with
      | nil =>
          intro allowed
          rw [List.filter_nil, List.filter_nil]
      | cons hbinding _ ih =>
          intro allowed
          rw [List.filter_cons, List.filter_cons, hrequest.matching_eq hbinding]
          split
          · rw [decideEffects, decideEffects, hbinding.effect, ih]
          · exact ih allowed
    exact hsame false

def heldBinding : PermissionBinding where
  workspaceId := "home"
  roleKind := "viewer"
  resourcePattern := "_b"
  actionPattern := "*"
  effect := .allow

/-- The blank before a letter is trimmed with the tab in front of it, a dash there is not. -/
theorem separator_after_tab_matters :
    ¬ ∀ (bindings : List PermissionBinding) (workspaceId roleKind action : String)
        (front back : List Char) (c d : Char), front ≠ [] → back ≠ [] → c ∈ separators →
      d ∈ separators →
      actionAllowed bindings workspaceId roleKind (String.ofList (front ++ c :: back)) action =
        actionAllowed bindings workspaceId roleKind (String.ofList (front ++ d :: back)) action := by
  intro h
  have hsame := h [heldBinding] "home" "viewer" "view" ['\t'] ['b'] '-' ' ' (by decide) (by decide)
    (by decide) (by decide)
  revert hsame
  decide +kernel

end Results

end HarborBeacon.AccessDecisions
