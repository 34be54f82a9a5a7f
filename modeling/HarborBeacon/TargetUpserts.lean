import HarborBeacon.AdminUpdates
import HarborBeacon.NotificationTargets
import HarborBeacon.Slugs

/-!
What an upsert of a notification target leaves. The change goes through the loop that keeps the
first target with each route, so a named target that takes the route of an earlier one is gone
after it.
-/

namespace HarborBeacon.AdminConsole

open FileProgram Text

variable {ρ π : Type} {env : Environment ρ π} {seenIds seenRoutes : List String}
  {file : StateFile ρ π} {state : AdminConsoleState ρ π} {uuid : String}

theorem toLower_eq_self {c : Char} (hc : ¬ c.toNat < 128) : c.toLower = c := by
  apply dif_neg
  intro hupper
  have hhigh : c.toNat ≤ 90 := hupper.2
  omega

theorem isWhitespace_toLower (c : Char) : isWhitespace c.toLower = isWhitespace c := by
  by_cases hc : c.toNat < 128
  · refine forall_ascii (P := fun c => isWhitespace c.toLower = isWhitespace c) ?_ hc
    decide
  · rw [toLower_eq_self hc]

theorem toLower_toLower (c : Char) : c.toLower.toLower = c.toLower := by
  by_cases hc : c.toNat < 128
  · refine forall_ascii (P := fun c => c.toLower.toLower = c.toLower) ?_ hc
    decide
  · rw [toLower_eq_self hc, toLower_eq_self hc]

theorem trim_toAsciiLowercase (s : String) :
    trim (toAsciiLowercase s) = toAsciiLowercase (trim s) := by
  have hsame : isWhitespace ∘ Char.toLower = isWhitespace := funext isWhitespace_toLower
  rw [toAsciiLowercase, toAsciiLowercase, trim, trim, String.toList_ofList, String.toList_ofList,
    trimChars, trimChars, List.dropWhile_map, hsame, List.rdropWhile, List.rdropWhile,
    ← List.map_reverse, List.dropWhile_map, hsame, List.map_reverse]

theorem toAsciiLowercase_idem (s : String) :
    toAsciiLowercase (toAsciiLowercase s) = toAsciiLowercase s := by
  rw [toAsciiLowercase, toAsciiLowercase, String.toList_ofList, List.map_map]
  congr 1
  apply List.map_congr_left
  intro c _
  exact toLower_toLower c

theorem normalizePlatformHint_idem (hint : String) :
    normalizePlatformHint (normalizePlatformHint hint) = normalizePlatformHint hint := by
  rw [normalizePlatformHint, normalizePlatformHint, trim_toAsciiLowercase, trim_trim,
    toAsciiLowercase_idem]

structure NormalTarget (target : NotificationTargetRecord) : Prop where
  targetId : trim target.targetId = target.targetId ∧ target.targetId ≠ ""
  label : trim target.label = target.label ∧ target.label ≠ ""
  routeKey : trim target.routeKey = target.routeKey ∧ target.routeKey ≠ ""
  platformHint : normalizePlatformHint target.platformHint = target.platformHint

theorem NormalTarget.sanitize {target : NotificationTargetRecord} (h : NormalTarget target)
    (uuid : String) : sanitizeNotificationTarget uuid target = .ok target := by
  have hid : trim target.targetId ≠ "" := h.targetId.1.symm ▸ h.targetId.2
  have hlabel : trim target.label ≠ "" := h.label.1.symm ▸ h.label.2
  have hroute : trim target.routeKey ≠ "" := h.routeKey.1.symm ▸ h.routeKey.2
  rw [sanitizeNotificationTarget, sanitizeNotificationTargetLabel, if_neg hlabel,
    sanitizeNotificationTargetRouteKey, if_neg hroute, if_neg hid, h.targetId.1, h.label.1,
    h.routeKey.1, h.platformHint]
  rfl

/-- The identifiers of the `uuid` crate have no white space. -/
structure PlainUuids (env : Environment ρ π) : Prop where
  newUuid : ∀ c ∈ env.newUuid.toList, isWhitespace c = false
  uuidAt : ∀ position, ∀ c ∈ (env.uuidAt position).toList, isWhitespace c = false

theorem trim_newNotificationTargetId (h : ∀ c ∈ uuid.toList, isWhitespace c = false) :
    trim (newNotificationTargetId uuid) = newNotificationTargetId uuid ∧
      newNotificationTargetId uuid ≠ "" := by
  refine ⟨trim_eq_self ?_, ?_⟩
  · intro c hc
    rw [newNotificationTargetId, String.toList_append] at hc
    rcases List.mem_append.mp hc with hstart | hrest
    · have hall : ∀ c ∈ "target-".toList, isWhitespace c = false :=
        forall_mem_of_all (by decide)
      exact hall c hstart
    · exact h c hrest
  · intro hempty
    have hlength := congrArg String.length hempty
    rw [newNotificationTargetId, String.length_append] at hlength
    have hstart : "target-".length = 7 := by decide
    have hnone : "".length = 0 := rfl
    omega

theorem sanitizeNotificationTarget_eq_ok {target sanitized : NotificationTargetRecord}
    (h : sanitizeNotificationTarget uuid target = .ok sanitized) :
    trim target.label ≠ "" ∧ trim target.routeKey ≠ "" ∧ sanitized =
      { targetId :=
          if trim target.targetId = "" then newNotificationTargetId uuid else trim target.targetId
        label := trim target.label
        routeKey := trim target.routeKey
        platformHint := normalizePlatformHint target.platformHint
        isDefault := target.isDefault } := by
  rw [sanitizeNotificationTarget, sanitizeNotificationTargetLabel,
    sanitizeNotificationTargetRouteKey] at h
  by_cases hlabel : trim target.label = ""
  · rw [if_pos hlabel] at h
    cases h
  · by_cases hroute : trim target.routeKey = ""
    · rw [if_neg hlabel, if_pos hroute] at h
      cases h
    · rw [if_neg hlabel, if_neg hroute] at h
      exact ⟨hlabel, hroute, (Except.ok.inj h).symm⟩

theorem normal_of_sanitize {target sanitized : NotificationTargetRecord}
    (huuid : ∀ c ∈ uuid.toList, isWhitespace c = false)
    (h : sanitizeNotificationTarget uuid target = .ok sanitized) : NormalTarget sanitized := by
  obtain ⟨hlabel, hroute, rfl⟩ := sanitizeNotificationTarget_eq_ok h
  refine ⟨?_, ⟨trim_trim _, hlabel⟩, ⟨trim_trim _, hroute⟩, normalizePlatformHint_idem _⟩
  dsimp only
  split
  · exact trim_newNotificationTargetId huuid
  · rename_i hid
    exact ⟨trim_trim _, hid⟩

theorem NormalTarget.withDefault {target : NotificationTargetRecord} (h : NormalTarget target)
    (isDefault : Bool) : NormalTarget { target with isDefault } :=
  ⟨h.targetId, h.label, h.routeKey, h.platformHint⟩

theorem normal_of_mem_collect (huuids : PlainUuids env) {position : Nat}
    {targets : List NotificationTargetRecord} :
    ∀ target ∈ collectNotificationTargets env position seenIds seenRoutes targets,
      NormalTarget target := by
  induction targets generalizing position seenIds seenRoutes with
  | nil => exact fun _ h => absurd h List.not_mem_nil
  | cons target rest ih =>
      rw [collectNotificationTargets]
      split
      · exact ih
      · rename_i sanitized hsanitized
        split
        · exact ih
        · split
          · exact ih
          · intro found hfound
            rcases List.mem_cons.mp hfound with rfl | hrest
            · exact normal_of_sanitize (huuids.uuidAt position) hsanitized
            · exact ih found hrest

theorem normal_of_mem_keepFirstDefault {defaultSeen : Bool}
    {targets : List NotificationTargetRecord} (h : ∀ target ∈ targets, NormalTarget target) :
    ∀ target ∈ keepFirstDefault defaultSeen targets, NormalTarget target := by
  induction targets generalizing defaultSeen with
  | nil => exact h
  | cons target rest ih =>
      rw [List.forall_mem_cons] at h
      rw [keepFirstDefault]
      split
      · exact List.forall_mem_cons.mpr ⟨h.1, ih h.2⟩
      · exact List.forall_mem_cons.mpr ⟨h.1.withDefault false, ih h.2⟩

theorem normal_of_mem_ensure {targets : List NotificationTargetRecord}
    (h : ∀ target ∈ targets, NormalTarget target) :
    ∀ target ∈ ensureSingleDefaultNotificationTarget targets, NormalTarget target := by
  rw [ensureSingleDefaultNotificationTarget]
  split
  · exact normal_of_mem_keepFirstDefault h
  · cases targets with
    | nil => exact h
    | cons first rest =>
        rw [List.forall_mem_cons] at h
        rw [List.modifyHead_cons]
        exact List.forall_mem_cons.mpr ⟨h.1.withDefault true, h.2⟩

def firstTargets (seenIds seenRoutes : List String) :
    List NotificationTargetRecord → List NotificationTargetRecord
  | [] => []
  | target :: rest =>
      if target.targetId ∈ seenIds then firstTargets seenIds seenRoutes rest
      else if target.routeKey ∈ seenRoutes then
        firstTargets (target.targetId :: seenIds) seenRoutes rest
      else
        target :: firstTargets (target.targetId :: seenIds) (target.routeKey :: seenRoutes) rest

theorem collect_of_normal {targets : List NotificationTargetRecord} (position : Nat)
    (seenIds seenRoutes : List String) (h : ∀ target ∈ targets, NormalTarget target) :
    collectNotificationTargets env position seenIds seenRoutes targets =
      firstTargets seenIds seenRoutes targets := by
  induction targets generalizing position seenIds seenRoutes with
  | nil => rfl
  | cons target rest ih =>
      rw [List.forall_mem_cons] at h
      rw [collectNotificationTargets, h.1.sanitize, firstTargets]
      dsimp only
      rw [ih _ _ _ h.2, ih _ _ _ h.2, ih _ _ _ h.2]

theorem firstTargets_eq_filter {targets : List NotificationTargetRecord}
    (hids : (targets.map NotificationTargetRecord.targetId).Nodup)
    (hroutes : (targets.map NotificationTargetRecord.routeKey).Nodup)
    (hnew : ∀ target ∈ targets, target.targetId ∉ seenIds) :
    firstTargets seenIds seenRoutes targets =
      targets.filter fun target => target.routeKey ∉ seenRoutes := by
  induction targets generalizing seenIds seenRoutes with
  | nil => rfl
  | cons target rest ih =>
      rw [List.map_cons, List.nodup_cons] at hids hroutes
      rw [List.forall_mem_cons] at hnew
      have hrest : ∀ found ∈ rest, found.targetId ∉ target.targetId :: seenIds := by
        intro found hfound hmem
        rcases List.mem_cons.mp hmem with hsame | hseen
        · exact hids.1 (hsame ▸ List.mem_map_of_mem hfound)
        · exact hnew.2 found hfound hseen
      rw [firstTargets, if_neg hnew.1]
      by_cases hroute : target.routeKey ∈ seenRoutes
      · rw [if_pos hroute, ih hids.2 hroutes.2 hrest, List.filter_cons_of_neg (by simpa using hroute)]
      · rw [if_neg hroute, ih hids.2 hroutes.2 hrest, List.filter_cons_of_pos (by simpa using hroute)]
        congr 1
        apply List.filter_congr
        intro found hfound
        have hother : found.routeKey ≠ target.routeKey :=
          fun hsame => hroutes.1 (hsame ▸ List.mem_map_of_mem hfound)
        simp [hother]

theorem firstTargets_append {targets rest : List NotificationTargetRecord}
    (hids : (targets.map NotificationTargetRecord.targetId).Nodup)
    (hroutes : (targets.map NotificationTargetRecord.routeKey).Nodup)
    (hnewIds : ∀ target ∈ targets, target.targetId ∉ seenIds)
    (hnewRoutes : ∀ target ∈ targets, target.routeKey ∉ seenRoutes) :
    firstTargets seenIds seenRoutes (targets ++ rest) =
      targets ++ firstTargets
        ((targets.map NotificationTargetRecord.targetId).reverse ++ seenIds)
        ((targets.map NotificationTargetRecord.routeKey).reverse ++ seenRoutes) rest := by
  induction targets generalizing seenIds seenRoutes with
  | nil => rfl
  | cons target targets ih =>
      rw [List.map_cons, List.nodup_cons] at hids hroutes
      rw [List.forall_mem_cons] at hnewIds hnewRoutes
      have hrestIds : ∀ found ∈ targets, found.targetId ∉ target.targetId :: seenIds := by
        intro found hfound hmem
        rcases List.mem_cons.mp hmem with hsame | hseen
        · exact hids.1 (hsame ▸ List.mem_map_of_mem hfound)
        · exact hnewIds.2 found hfound hseen
      have hrestRoutes : ∀ found ∈ targets, found.routeKey ∉ target.routeKey :: seenRoutes := by
        intro found hfound hmem
        rcases List.mem_cons.mp hmem with hsame | hseen
        · exact hroutes.1 (hsame ▸ List.mem_map_of_mem hfound)
        · exact hnewRoutes.2 found hfound hseen
      rw [List.cons_append, firstTargets, if_neg hnewIds.1, if_neg hnewRoutes.1,
        ih hids.2 hroutes.2 hrestIds hrestRoutes, List.map_cons, List.map_cons,
        List.reverse_cons, List.reverse_cons, List.append_assoc, List.append_assoc,
        List.singleton_append, List.singleton_append, List.cons_append]

theorem firstTargets_eq_self {targets : List NotificationTargetRecord}
    (hids : (targets.map NotificationTargetRecord.targetId).Nodup)
    (hroutes : (targets.map NotificationTargetRecord.routeKey).Nodup) :
    firstTargets [] [] targets = targets := by
  rw [firstTargets_eq_filter hids hroutes fun _ _ => List.not_mem_nil]
  exact List.filter_eq_self.mpr fun _ _ => decide_eq_true List.not_mem_nil

theorem keepFirstDefault_of_none {targets : List NotificationTargetRecord}
    (h : ∀ target ∈ targets, target.isDefault = false) (defaultSeen : Bool) :
    keepFirstDefault defaultSeen targets = targets := by
  induction targets with
  | nil => rfl
  | cons target rest ih =>
      rw [List.forall_mem_cons] at h
      have hsame : { target with isDefault := false } = target := by rw [← h.1]
      rw [keepFirstDefault, if_neg (by simp [h.1]), hsame, ih h.2]

theorem ensureSingleDefault_eq_self {targets : List NotificationTargetRecord}
    (h : targets.countP (·.isDefault) = 1) :
    ensureSingleDefaultNotificationTarget targets = targets := by
  have hany : targets.any (·.isDefault) = true := by
    have hpos : 0 < targets.countP (·.isDefault) := by omega
    rw [List.any_eq_true]
    exact List.countP_pos_iff.mp hpos
  rw [ensureSingleDefaultNotificationTarget, if_pos hany]
  clear hany
  induction targets with
  | nil => rfl
  | cons target rest ih =>
      rw [keepFirstDefault]
      cases hdefault : target.isDefault with
      | true =>
          have hnone : rest.countP (·.isDefault) = 0 := by
            simpa [List.countP_cons, hdefault] using h
          rw [List.countP_eq_zero] at hnone
          rw [Bool.true_and, Bool.not_false, if_pos rfl, keepFirstDefault_of_none]
          exact fun found hfound => Bool.eq_false_iff.mpr (hnone found hfound)
      | false =>
          have hrest : rest.countP (·.isDefault) = 1 := by
            simpa [List.countP_cons, hdefault] using h
          rw [Bool.false_and, if_neg Bool.false_ne_true, ih hrest, ← hdefault]

theorem sanitizeNotificationTargets_eq_self {targets : List NotificationTargetRecord}
    (h : WellFormedTargets targets) (hnormal : ∀ target ∈ targets, NormalTarget target) :
    sanitizeNotificationTargets env targets = targets := by
  rw [sanitizeNotificationTargets, collect_of_normal 0 [] [] hnormal,
    firstTargets_eq_self h.ids h.routes]
  cases targets with
  | nil => rfl
  | cons first rest => exact ensureSingleDefault_eq_self (h.default (List.cons_ne_nil _ _))

theorem normal_of_mem_sanitize (huuids : PlainUuids env)
    {targets : List NotificationTargetRecord} :
    ∀ target ∈ sanitizeNotificationTargets env targets, NormalTarget target :=
  normal_of_mem_ensure (normal_of_mem_collect huuids)

theorem sanitizeNotificationTargets_idem (huuids : PlainUuids env)
    (targets : List NotificationTargetRecord) :
    sanitizeNotificationTargets env (sanitizeNotificationTargets env targets) =
      sanitizeNotificationTargets env targets :=
  sanitizeNotificationTargets_eq_self (wellFormed_sanitizeNotificationTargets env targets)
    (normal_of_mem_sanitize huuids)

section Upserts

variable {targets : List NotificationTargetRecord} {requested : Option String}
  {label routeKey platformHint : String} {makeDefault : Bool} {kept : List NotificationTargetRecord}
  {α : Type}

/-- The saved targets have the requested one, under its id if it exists already, and every
target with another id and another route. -/
def KeepsRequest (before after : List NotificationTargetRecord) (requested : Option String)
    (label routeKey platformHint : String) (makeDefault : Bool) : Prop :=
  ∃ target ∈ after,
    (∀ targetId, requested = some targetId →
      targetId ∈ before.map NotificationTargetRecord.targetId → target.targetId = targetId) ∧
    target.label = label ∧ target.routeKey = routeKey ∧ target.platformHint = platformHint ∧
    (makeDefault = true → target.isDefault = true) ∧
    ∀ other ∈ before, other.targetId ≠ target.targetId → other.routeKey ≠ routeKey →
      ∃ kept ∈ after, kept.targetId = other.targetId ∧ kept.label = other.label ∧
        kept.routeKey = other.routeKey ∧ kept.platformHint = other.platformHint

/-- The named target does not stand after another one with the requested route, and an id that
is drawn is new. -/
def RequestFits (before : List NotificationTargetRecord) (requested : Option String)
    (routeKey drawnId : String) : Prop :=
  (∀ earlier target later, before = earlier ++ target :: later →
    requested = some target.targetId →
      routeKey ∉ earlier.map NotificationTargetRecord.routeKey) ∧
  (requested = none → routeKey ∉ before.map NotificationTargetRecord.routeKey →
    drawnId ∉ before.map NotificationTargetRecord.targetId)

theorem findIdx?_cases (p : α → Bool) (items : List α) :
    (items.findIdx? p = none ∧ ∀ item ∈ items, p item = false) ∨
      ∃ before item after, items = before ++ item :: after ∧ p item = true ∧
        (∀ other ∈ before, p other = false) ∧ items.findIdx? p = some before.length := by
  induction items with
  | nil => exact Or.inl ⟨rfl, fun _ h => absurd h List.not_mem_nil⟩
  | cons item rest ih =>
      rw [List.findIdx?_cons]
      cases hp : p item with
      | true =>
          exact Or.inr ⟨[], item, rest, rfl, hp, fun _ h => absurd h List.not_mem_nil, rfl⟩
      | false =>
          rcases ih with ⟨hnone, hall⟩ | ⟨before, found, after, rfl, hfound, hbefore, hindex⟩
          · rw [hnone]
            exact Or.inl ⟨rfl, List.forall_mem_cons.mpr ⟨hp, hall⟩⟩
          · rw [hindex]
            exact Or.inr ⟨item :: before, found, after, rfl, hfound,
              List.forall_mem_cons.mpr ⟨hp, hbefore⟩, rfl⟩

def NotificationTargetRecord.edited (target : NotificationTargetRecord)
    (label routeKey platformHint : String) : NotificationTargetRecord :=
  { target with label, routeKey, platformHint }

theorem modify_append_cons (before after : List α) (item : α) (f : α → α) :
    (before ++ item :: after).modify before.length f = before ++ f item :: after := by
  induction before with
  | nil => rfl
  | cons first rest ih => rw [List.cons_append, List.length_cons, List.modify_succ_cons, ih,
      List.cons_append]

theorem put_of_found {before after : List NotificationTargetRecord}
    {target : NotificationTargetRecord}
    (h : ((requested.bind fun targetId => (before ++ target :: after).findIdx? fun found =>
        found.targetId = targetId).or ((before ++ target :: after).findIdx? fun found =>
          found.routeKey = routeKey)) = some before.length) :
    putNotificationTarget env requested label routeKey platformHint (before ++ target :: after) =
      (before ++ target.edited label routeKey platformHint :: after, target.targetId) := by
  have hget : (before ++ target :: after)[before.length]? = some target := by simp
  rw [putNotificationTarget]
  dsimp only
  rw [h, Option.bind_some, hget, Option.map_some]
  dsimp only
  rw [modify_append_cons]
  rfl

theorem named_eq_none
    (h : ∀ targetId, requested = some targetId →
      targetId ∉ targets.map NotificationTargetRecord.targetId) :
    (requested.bind fun targetId => targets.findIdx? fun found => found.targetId = targetId) =
      none := by
  cases requested with
  | none => rfl
  | some targetId =>
      rw [Option.bind_some, List.findIdx?_eq_none_iff]
      intro found hfound
      refine decide_eq_false ?_
      intro hsame
      exact h targetId rfl (List.mem_map.mpr ⟨found, hfound, hsame⟩)

/-- An upsert changes the named target, or else the one with the route, or adds one. -/
theorem putNotificationTarget_cases (env : Environment ρ π) (requested : Option String)
    (label routeKey platformHint : String) (targets : List NotificationTargetRecord) :
    (∃ before target after, targets = before ++ target :: after ∧
      (requested = some target.targetId ∨ target.routeKey = routeKey ∧
        ∀ targetId, requested = some targetId →
          targetId ∉ targets.map NotificationTargetRecord.targetId) ∧
      putNotificationTarget env requested label routeKey platformHint targets =
        (before ++ target.edited label routeKey platformHint :: after, target.targetId)) ∨
    (routeKey ∉ targets.map NotificationTargetRecord.routeKey ∧
      (∀ targetId, requested = some targetId →
        targetId ∉ targets.map NotificationTargetRecord.targetId) ∧
      putNotificationTarget env requested label routeKey platformHint targets =
        (targets ++ [⟨requested.getD (newNotificationTargetId env.newUuid), label, routeKey,
          platformHint, false⟩], requested.getD (newNotificationTargetId env.newUuid))) := by
  by_cases hnamed : ∃ targetId, requested = some targetId ∧
      targetId ∈ targets.map NotificationTargetRecord.targetId
  · obtain ⟨targetId, hrequested, hmem⟩ := hnamed
    rcases findIdx?_cases (fun found => decide (found.targetId = targetId)) targets with
      ⟨-, hnone⟩ | ⟨before, target, after, rfl, htarget, -, hindex⟩
    · obtain ⟨found, hfound, hsame⟩ := List.mem_map.mp hmem
      exact absurd hsame (of_decide_eq_false (hnone found hfound))
    · have hid := of_decide_eq_true htarget
      refine Or.inl ⟨before, target, after, rfl, Or.inl (hrequested.trans (congrArg some hid.symm)),
        put_of_found ?_⟩
      rw [hrequested, Option.bind_some, hindex, Option.some_or]
  · have hunnamed : ∀ targetId, requested = some targetId →
        targetId ∉ targets.map NotificationTargetRecord.targetId :=
      fun targetId hrequested hmem => hnamed ⟨targetId, hrequested, hmem⟩
    rcases findIdx?_cases (fun found => decide (found.routeKey = routeKey)) targets with
      ⟨hindex, hnone⟩ | ⟨before, target, after, rfl, htarget, -, hindex⟩
    · refine Or.inr ⟨?_, hunnamed, ?_⟩
      · intro hmem
        obtain ⟨found, hfound, hsame⟩ := List.mem_map.mp hmem
        exact absurd hsame (of_decide_eq_false (hnone found hfound))
      · rw [putNotificationTarget]
        dsimp only
        rw [named_eq_none hunnamed, Option.none_or, hindex]
        rfl
    · refine Or.inl ⟨before, target, after, rfl, Or.inr ⟨of_decide_eq_true htarget, hunnamed⟩,
        put_of_found ?_⟩
      rw [named_eq_none hunnamed, Option.none_or, hindex]

def withMark (mark : Bool) (targetId : String) (target : NotificationTargetRecord) :
    NotificationTargetRecord :=
  if mark then { target with isDefault := target.targetId = targetId } else target

section Marks

variable (mark : Bool) (targetId : String) (target : NotificationTargetRecord)

@[simp] theorem targetId_withMark : (withMark mark targetId target).targetId = target.targetId := by
  cases mark <;> rfl

@[simp] theorem label_withMark : (withMark mark targetId target).label = target.label := by
  cases mark <;> rfl

@[simp] theorem routeKey_withMark : (withMark mark targetId target).routeKey = target.routeKey := by
  cases mark <;> rfl

@[simp] theorem platformHint_withMark :
    (withMark mark targetId target).platformHint = target.platformHint := by
  cases mark <;> rfl

theorem NormalTarget.withMark {target : NotificationTargetRecord} (h : NormalTarget target) :
    NormalTarget (withMark mark targetId target) := by
  cases mark with
  | true => exact h.withDefault _
  | false => exact h

theorem map_withMark (targets : List NotificationTargetRecord) :
    targets.map (AdminConsole.withMark mark targetId) =
      if mark then markDefault targetId targets else targets := by
  cases mark with
  | true => rfl
  | false => exact List.map_id _

theorem ids_map_withMark (targets : List NotificationTargetRecord) :
    (targets.map (AdminConsole.withMark mark targetId)).map NotificationTargetRecord.targetId =
      targets.map NotificationTargetRecord.targetId := by
  rw [List.map_map]
  exact List.map_congr_left fun target _ => targetId_withMark mark targetId target

theorem routes_map_withMark (targets : List NotificationTargetRecord) :
    (targets.map (AdminConsole.withMark mark targetId)).map NotificationTargetRecord.routeKey =
      targets.map NotificationTargetRecord.routeKey := by
  rw [List.map_map]
  exact List.map_congr_left fun target _ => routeKey_withMark mark targetId target

end Marks

def NotificationTargetRecord.core (target : NotificationTargetRecord) :
    String × String × String × String :=
  (target.targetId, target.label, target.routeKey, target.platformHint)

theorem map_core_ensureSingleDefault (targets : List NotificationTargetRecord) :
    (ensureSingleDefaultNotificationTarget targets).map NotificationTargetRecord.core =
      targets.map NotificationTargetRecord.core :=
  map_ensureSingleDefault (fun _ _ => rfl) targets

theorem exists_core_of_mem {target : NotificationTargetRecord} (h : target ∈ kept) :
    ∃ found ∈ ensureSingleDefaultNotificationTarget kept, found.core = target.core := by
  have hmem := List.mem_map_of_mem (f := NotificationTargetRecord.core) h
  rw [← map_core_ensureSingleDefault] at hmem
  exact List.mem_map.mp hmem

theorem exists_of_mem_ensure {target : NotificationTargetRecord}
    (h : target ∈ ensureSingleDefaultNotificationTarget kept) :
    ∃ found ∈ kept, found.core = target.core := by
  have hmem := List.mem_map_of_mem (f := NotificationTargetRecord.core) h
  rw [map_core_ensureSingleDefault] at hmem
  exact List.mem_map.mp hmem

/-- If the loop keeps the requested target and the others, the saved targets have them. -/
theorem keepsRequest_of_kept {kept front rest : List NotificationTargetRecord}
    {target : NotificationTargetRecord} (hkept : kept = front ++ target :: rest)
    (hid : ∀ targetId, requested = some targetId →
      targetId ∈ targets.map NotificationTargetRecord.targetId → target.targetId = targetId)
    (hcore : target.label = label ∧ target.routeKey = routeKey ∧
      target.platformHint = platformHint)
    (hdefault : makeDefault = true → target.isDefault = true ∧
      ∀ other ∈ front ++ rest, other.isDefault = false)
    (hothers : ∀ other ∈ targets, other.targetId ≠ target.targetId → other.routeKey ≠ routeKey →
      ∃ found ∈ kept, found.core = other.core) :
    KeepsRequest targets (ensureSingleDefaultNotificationTarget kept) requested label routeKey
      platformHint makeDefault := by
  have hmem : target ∈ kept := by
    rw [hkept]
    exact List.mem_append_right _ List.mem_cons_self
  obtain ⟨found, hfound, hsame, hfoundDefault⟩ :
      ∃ found ∈ ensureSingleDefaultNotificationTarget kept, found.core = target.core ∧
        (makeDefault = true → found.isDefault = true) := by
    cases makeDefault with
    | true =>
        obtain ⟨htarget, hrest⟩ := hdefault rfl
        have hfront : front.countP (·.isDefault) = 0 := by
          rw [List.countP_eq_zero]
          exact fun other hother =>
            Bool.eq_false_iff.mp (hrest other (List.mem_append_left _ hother))
        have hback : rest.countP (·.isDefault) = 0 := by
          rw [List.countP_eq_zero]
          exact fun other hother =>
            Bool.eq_false_iff.mp (hrest other (List.mem_append_right _ hother))
        have hone : kept.countP (·.isDefault) = 1 := by
          rw [hkept, List.countP_append, hfront]
          simp [htarget, hback]
        rw [ensureSingleDefault_eq_self hone]
        exact ⟨target, hmem, rfl, fun _ => htarget⟩
    | false =>
        obtain ⟨found, hfound, hsame⟩ := exists_core_of_mem hmem
        exact ⟨found, hfound, hsame, fun h => absurd h Bool.false_ne_true⟩
  simp only [NotificationTargetRecord.core, Prod.mk.injEq] at hsame
  obtain ⟨hsameId, hsameLabel, hsameRoute, hsameHint⟩ := hsame
  refine ⟨found, hfound, ?_, hsameLabel.trans hcore.1, hsameRoute.trans hcore.2.1,
    hsameHint.trans hcore.2.2, hfoundDefault, ?_⟩
  · intro targetId hrequested hexists
    exact hsameId.trans (hid targetId hrequested hexists)
  · intro other hother hotherId hotherRoute
    obtain ⟨keptOther, hkeptOther, hcoreOther⟩ :=
      hothers other hother (hsameId ▸ hotherId) hotherRoute
    obtain ⟨savedOther, hsavedOther, hcoreSaved⟩ := exists_core_of_mem hkeptOther
    have hall := hcoreSaved.trans hcoreOther
    simp only [NotificationTargetRecord.core, Prod.mk.injEq] at hall
    exact ⟨savedOther, hsavedOther, hall⟩

theorem sanitize_map_withMark (hnormal : ∀ target ∈ targets, NormalTarget target) (mark : Bool)
    (targetId : String) :
    sanitizeNotificationTargets env (targets.map (withMark mark targetId)) =
      ensureSingleDefaultNotificationTarget
        (firstTargets [] [] (targets.map (withMark mark targetId))) := by
  rw [sanitizeNotificationTargets, collect_of_normal]
  intro target hmem
  obtain ⟨old, hold, rfl⟩ := List.mem_map.mp hmem
  exact (hnormal old hold).withMark mark targetId

theorem mem_firstTargets {seenIds seenRoutes : List String} {target : NotificationTargetRecord}
    (h : target ∈ firstTargets seenIds seenRoutes targets) :
    target ∈ targets ∧ target.targetId ∉ seenIds := by
  induction targets generalizing seenIds seenRoutes with
  | nil => exact absurd h List.not_mem_nil
  | cons first rest ih =>
      rw [firstTargets] at h
      split at h
      · exact (ih h).imp_left (List.mem_cons_of_mem _)
      · rename_i hid
        split at h
        · obtain ⟨hmem, hnew⟩ := ih h
          exact ⟨List.mem_cons_of_mem _ hmem, fun hseen => hnew (List.mem_cons_of_mem _ hseen)⟩
        · rcases List.mem_cons.mp h with rfl | hrest
          · exact ⟨List.mem_cons_self, hid⟩
          · obtain ⟨hmem, hnew⟩ := ih hrest
            exact ⟨List.mem_cons_of_mem _ hmem, fun hseen => hnew (List.mem_cons_of_mem _ hseen)⟩

section Edits

variable {before after : List NotificationTargetRecord} {target : NotificationTargetRecord}
  {key : NotificationTargetRecord → String} {other : NotificationTargetRecord}

theorem split_keys (h : ((before ++ target :: after).map key).Nodup) :
    (before.map key).Nodup ∧ (after.map key).Nodup ∧
      (∀ other ∈ before ++ after, key other ≠ key target) ∧
      ∀ other ∈ after, key other ∉ before.map key := by
  rw [List.map_append, List.map_cons, List.nodup_append, List.nodup_cons] at h
  obtain ⟨hbefore, ⟨hnew, hafter⟩, hdisjoint⟩ := h
  refine ⟨hbefore, hafter, ?_, ?_⟩
  · intro other hother hsame
    rcases List.mem_append.mp hother with hmem | hmem
    · exact hdisjoint _ (List.mem_map_of_mem hmem) _ List.mem_cons_self hsame
    · exact hnew (hsame ▸ List.mem_map_of_mem hmem)
  · intro other hother hmem
    exact hdisjoint _ hmem _ (List.mem_cons_of_mem _ (List.mem_map_of_mem hother)) rfl

theorem split_unique (h : ((before ++ target :: after).map key).Nodup)
    {earlier later : List NotificationTargetRecord}
    (hsplit : before ++ target :: after = earlier ++ other :: later) (hkey : key target = key other) :
    before = earlier ∧ target = other ∧ after = later := by
  obtain ⟨-, -, hother, -⟩ := split_keys h
  refine (List.append_cons_inj_of_notMem ?_ ?_).mp hsplit
  · exact fun hmem => hother other (List.mem_append_left _ hmem) hkey.symm
  · exact fun hmem => hother other (List.mem_append_right _ hmem) hkey.symm

theorem firstTargets_edited (h : WellFormedTargets (before ++ target :: after)) (mark : Bool)
    (edited : NotificationTargetRecord) (rest : List NotificationTargetRecord) :
    firstTargets [] [] ((before ++ edited :: rest).map (withMark mark target.targetId)) =
      before.map (withMark mark target.targetId) ++ firstTargets
        (before.map NotificationTargetRecord.targetId).reverse
        (before.map NotificationTargetRecord.routeKey).reverse
        (withMark mark target.targetId edited ::
          rest.map (withMark mark target.targetId)) := by
  obtain ⟨hids, -, -, -⟩ := split_keys h.ids
  obtain ⟨hroutes, -, -, -⟩ := split_keys h.routes
  rw [List.map_append, List.map_cons, firstTargets_append, ids_map_withMark, routes_map_withMark,
    List.append_nil, List.append_nil]
  · rwa [ids_map_withMark]
  · rwa [routes_map_withMark]
  · exact fun _ _ => List.not_mem_nil
  · exact fun _ _ => List.not_mem_nil

theorem isDefault_withMark {targetId : String} (h : other.targetId ≠ targetId) :
    (withMark true targetId other).isDefault = false :=
  decide_eq_false h

theorem core_withMark (mark : Bool) (targetId : String) (other : NotificationTargetRecord) :
    (withMark mark targetId other).core = other.core := by
  simp [NotificationTargetRecord.core]

/-- A target that is edited stays if no earlier one has its new route. -/
theorem keepsRequest_edited (h : WellFormedTargets (before ++ target :: after))
    (hnormal : ∀ found ∈ before ++ target.edited label routeKey platformHint :: after,
      NormalTarget found)
    (hroute : routeKey ∉ before.map NotificationTargetRecord.routeKey) {mark : Bool}
    (hmark : makeDefault = true → mark = true)
    (hid : ∀ targetId, requested = some targetId →
      targetId ∈ (before ++ target :: after).map NotificationTargetRecord.targetId →
        target.targetId = targetId) :
    KeepsRequest (before ++ target :: after)
      (sanitizeNotificationTargets env ((before ++
        target.edited label routeKey platformHint :: after).map (withMark mark target.targetId)))
      requested label routeKey platformHint makeDefault := by
  obtain ⟨-, hafterIds, hotherIds, hnewIds⟩ := split_keys h.ids
  obtain ⟨-, hafterRoutes, -, hnewRoutes⟩ := split_keys h.routes
  have htargetId : target.targetId ∉ before.map NotificationTargetRecord.targetId := by
    intro hmem
    obtain ⟨other, hother, hsame⟩ := List.mem_map.mp hmem
    exact hotherIds other (List.mem_append_left _ hother) hsame
  rw [sanitize_map_withMark hnormal, firstTargets_edited h, firstTargets,
    if_neg (by simpa [NotificationTargetRecord.edited] using htargetId),
    if_neg (by simpa [NotificationTargetRecord.edited] using hroute)]
  refine keepsRequest_of_kept rfl ?_ ?_ ?_ ?_
  · intro targetId hrequested hmem
    rw [targetId_withMark]
    exact hid targetId hrequested hmem
  · rw [label_withMark, routeKey_withMark, platformHint_withMark]
    exact ⟨rfl, rfl, rfl⟩
  · intro hdefault
    rw [hmark hdefault]
    refine ⟨decide_eq_true rfl, ?_⟩
    intro other hother
    have hmem : ∃ old ∈ before ++ after, withMark true target.targetId old = other := by
      rcases List.mem_append.mp hother with hfront | hrest
      · obtain ⟨old, hold, hsame⟩ := List.mem_map.mp hfront
        exact ⟨old, List.mem_append_left _ hold, hsame⟩
      · obtain ⟨old, hold, hsame⟩ := List.mem_map.mp (mem_firstTargets hrest).1
        exact ⟨old, List.mem_append_right _ hold, hsame⟩
    obtain ⟨old, hold, rfl⟩ := hmem
    exact isDefault_withMark (hotherIds old hold)
  · intro other hother hotherId hotherRoute
    rw [targetId_withMark] at hotherId
    refine ⟨withMark mark target.targetId other, ?_, core_withMark _ _ _⟩
    rcases List.mem_append.mp hother with hmem | hmem
    · exact List.mem_append_left _ (List.mem_map_of_mem hmem)
    · rcases List.mem_cons.mp hmem with rfl | hafter
      · exact absurd rfl hotherId
      · apply List.mem_append_right
        apply List.mem_cons_of_mem
        rw [firstTargets_eq_filter, List.mem_filter]
        · refine ⟨List.mem_map_of_mem hafter, decide_eq_true ?_⟩
          have hnew := hnewRoutes other hafter
          simpa [NotificationTargetRecord.edited, hotherRoute] using hnew
        · rwa [ids_map_withMark]
        · rwa [routes_map_withMark]
        · intro found hfound
          obtain ⟨old, hold, rfl⟩ := List.mem_map.mp hfound
          have hnew := hnewIds old hold
          have hother := hotherIds old (List.mem_append_right _ hold)
          simpa [NotificationTargetRecord.edited, hother] using hnew

theorem not_keepsRequest_edited (h : WellFormedTargets (before ++ target :: after))
    (hnormal : ∀ found ∈ before ++ target.edited label routeKey platformHint :: after,
      NormalTarget found)
    (hroute : routeKey ∈ before.map NotificationTargetRecord.routeKey) (mark : Bool)
    (hrequested : requested = some target.targetId) :
    ¬ KeepsRequest (before ++ target :: after)
      (sanitizeNotificationTargets env ((before ++
        target.edited label routeKey platformHint :: after).map (withMark mark target.targetId)))
      requested label routeKey platformHint makeDefault := by
  rintro ⟨saved, hsaved, hid, -⟩
  obtain ⟨-, -, hotherIds, -⟩ := split_keys h.ids
  have hsame := hid target.targetId hrequested
    (List.mem_map_of_mem (List.mem_append_right _ List.mem_cons_self))
  have htargetId : target.targetId ∉ before.map NotificationTargetRecord.targetId := by
    intro hmem
    obtain ⟨other, hother, hsame⟩ := List.mem_map.mp hmem
    exact hotherIds other (List.mem_append_left _ hother) hsame
  rw [sanitize_map_withMark hnormal, firstTargets_edited h, firstTargets,
    if_neg (by simpa [NotificationTargetRecord.edited] using htargetId),
    if_pos (by simpa [NotificationTargetRecord.edited] using hroute)] at hsaved
  obtain ⟨found, hfound, hcore⟩ := exists_of_mem_ensure hsaved
  have hfoundId : found.targetId = target.targetId := (congrArg Prod.fst hcore).trans hsame
  rcases List.mem_append.mp hfound with hfront | hrest
  · obtain ⟨old, hold, rfl⟩ := List.mem_map.mp hfront
    rw [targetId_withMark] at hfoundId
    exact hotherIds old (List.mem_append_left _ hold) hfoundId
  · apply (mem_firstTargets hrest).2
    rw [hfoundId, targetId_withMark]
    exact List.mem_cons_self

end Edits

section Additions

variable {added : NotificationTargetRecord}

theorem firstTargets_added (h : WellFormedTargets targets) (mark : Bool) :
    firstTargets [] [] ((targets ++ [added]).map (withMark mark added.targetId)) =
      targets.map (withMark mark added.targetId) ++ firstTargets
        (targets.map NotificationTargetRecord.targetId).reverse
        (targets.map NotificationTargetRecord.routeKey).reverse
        [withMark mark added.targetId added] := by
  rw [List.map_append, List.map_singleton, firstTargets_append, ids_map_withMark,
    routes_map_withMark, List.append_nil, List.append_nil]
  · rw [ids_map_withMark]
    exact h.ids
  · rw [routes_map_withMark]
    exact h.routes
  · exact fun _ _ => List.not_mem_nil
  · exact fun _ _ => List.not_mem_nil

theorem keepsRequest_added (h : WellFormedTargets targets)
    (hnormal : ∀ found ∈ targets ++ [added], NormalTarget found)
    (hcore : added.label = label ∧ added.routeKey = routeKey ∧ added.platformHint = platformHint)
    (hroute : routeKey ∉ targets.map NotificationTargetRecord.routeKey)
    (hid : added.targetId ∉ targets.map NotificationTargetRecord.targetId)
    (hrequested : ∀ targetId, requested = some targetId →
      targetId ∉ targets.map NotificationTargetRecord.targetId) {mark : Bool}
    (hmark : makeDefault = true → mark = true) :
    KeepsRequest targets
      (sanitizeNotificationTargets env
        ((targets ++ [added]).map (withMark mark added.targetId)))
      requested label routeKey platformHint makeDefault := by
  rw [← hcore.2.1] at hroute
  rw [sanitize_map_withMark hnormal, firstTargets_added h, firstTargets,
    if_neg (by simpa using hid), if_neg (by simpa using hroute), firstTargets]
  refine keepsRequest_of_kept rfl ?_ ?_ ?_ ?_
  · intro targetId hnamed hmem
    exact absurd hmem (hrequested targetId hnamed)
  · rw [label_withMark, routeKey_withMark, platformHint_withMark]
    exact hcore
  · intro hdefault
    rw [hmark hdefault]
    refine ⟨decide_eq_true rfl, ?_⟩
    intro other hother
    rw [List.append_nil] at hother
    obtain ⟨old, hold, rfl⟩ := List.mem_map.mp hother
    exact isDefault_withMark fun hsame => hid (hsame ▸ List.mem_map_of_mem hold)
  · intro other hother _ _
    exact ⟨withMark mark added.targetId other,
      List.mem_append_left _ (List.mem_map_of_mem hother), core_withMark _ _ _⟩

theorem not_keepsRequest_added (h : WellFormedTargets targets)
    (hnormal : ∀ found ∈ targets ++ [added], NormalTarget found)
    (hroute : routeKey ∉ targets.map NotificationTargetRecord.routeKey)
    (hid : added.targetId ∈ targets.map NotificationTargetRecord.targetId) (mark : Bool) :
    ¬ KeepsRequest targets
      (sanitizeNotificationTargets env
        ((targets ++ [added]).map (withMark mark added.targetId)))
      requested label routeKey platformHint makeDefault := by
  rintro ⟨saved, hsaved, -, -, hsavedRoute, -⟩
  rw [sanitize_map_withMark hnormal, firstTargets_added h, firstTargets,
    if_pos (by simpa using hid), firstTargets, List.append_nil] at hsaved
  obtain ⟨found, hfound, hcore⟩ := exists_of_mem_ensure hsaved
  obtain ⟨old, hold, rfl⟩ := List.mem_map.mp hfound
  rw [core_withMark] at hcore
  simp only [NotificationTargetRecord.core, Prod.mk.injEq] at hcore
  exact hroute (List.mem_map.mpr ⟨old, hold, hcore.2.2.1.trans hsavedRoute⟩)

end Additions

structure NormalRequest (requested : Option String) (label routeKey platformHint : String) :
    Prop where
  targetId : ∀ targetId, requested = some targetId → trim targetId = targetId ∧ targetId ≠ ""
  label : trim label = label ∧ label ≠ ""
  routeKey : trim routeKey = routeKey ∧ routeKey ≠ ""
  platformHint : normalizePlatformHint platformHint = platformHint

/-- The request is kept exactly if it fits in. -/
theorem keepsRequest_iff (huuids : PlainUuids env) (h : WellFormedTargets targets)
    (hnormal : ∀ target ∈ targets, NormalTarget target)
    (hrequest : NormalRequest requested label routeKey platformHint) {mark : Bool}
    (hmark : makeDefault = true → mark = true) :
    let put := putNotificationTarget env requested label routeKey platformHint targets
    KeepsRequest targets (sanitizeNotificationTargets env (put.1.map (withMark mark put.2)))
        requested label routeKey platformHint makeDefault ↔
      RequestFits targets requested routeKey (newNotificationTargetId env.newUuid) := by
  intro put
  rcases putNotificationTarget_cases env requested label routeKey platformHint targets with
    ⟨before, target, after, rfl, hchosen, hput⟩ | ⟨hroute, hunnamed, hput⟩
  · have hedited : ∀ found ∈ before ++ target.edited label routeKey platformHint :: after,
        NormalTarget found := by
      intro found hfound
      rcases List.mem_append.mp hfound with hmem | hmem
      · exact hnormal found (List.mem_append_left _ hmem)
      · rcases List.mem_cons.mp hmem with rfl | hafter
        · exact ⟨(hnormal target (List.mem_append_right _ List.mem_cons_self)).targetId,
            hrequest.label, hrequest.routeKey, hrequest.platformHint⟩
        · exact hnormal found (List.mem_append_right _ (List.mem_cons_of_mem _ hafter))
    simp only [put, hput]
    rcases hchosen with hnamed | ⟨hroute, hunnamed⟩
    · by_cases hearlier : routeKey ∈ before.map NotificationTargetRecord.routeKey
      · refine iff_of_false (not_keepsRequest_edited h hedited hearlier mark hnamed) ?_
        exact fun hfits => hfits.1 before target after rfl hnamed hearlier
      · refine iff_of_true (keepsRequest_edited h hedited hearlier hmark ?_) ⟨?_, ?_⟩
        · intro targetId hsame _
          rw [hnamed] at hsame
          exact Option.some.inj hsame
        · intro earlier other later hsplit hother hmem
          rw [hnamed, Option.some.injEq] at hother
          obtain ⟨rfl, -, -⟩ := split_unique h.ids hsplit hother
          exact hearlier hmem
        · intro hnone
          rw [hnamed] at hnone
          cases hnone
    · have hearlier : routeKey ∉ before.map NotificationTargetRecord.routeKey := by
        intro hmem
        obtain ⟨other, hother, hsame⟩ := List.mem_map.mp hmem
        exact (split_keys h.routes).2.2.1 other (List.mem_append_left _ hother)
          (hsame.trans hroute.symm)
      refine iff_of_true (keepsRequest_edited h hedited hearlier hmark ?_) ⟨?_, ?_⟩
      · intro targetId hsame hmem
        exact absurd hmem (hunnamed targetId hsame)
      · intro earlier other later hsplit hother _
        apply hunnamed _ hother
        rw [hsplit]
        exact List.mem_map_of_mem (List.mem_append_right _ List.mem_cons_self)
      · intro _ hnew
        exact absurd (List.mem_map.mpr
          ⟨target, List.mem_append_right _ List.mem_cons_self, hroute⟩) hnew
  · simp only [put, hput]
    have hadded : ∀ found ∈ targets ++ [(⟨requested.getD (newNotificationTargetId env.newUuid),
        label, routeKey, platformHint, false⟩ : NotificationTargetRecord)], NormalTarget found := by
      intro found hfound
      rcases List.mem_append.mp hfound with hmem | hmem
      · exact hnormal found hmem
      · rw [List.mem_singleton.mp hmem]
        refine ⟨?_, hrequest.label, hrequest.routeKey, hrequest.platformHint⟩
        cases requested with
        | none => exact trim_newNotificationTargetId huuids.newUuid
        | some targetId => exact hrequest.targetId targetId rfl
    by_cases htaken : requested.getD (newNotificationTargetId env.newUuid) ∈
        targets.map NotificationTargetRecord.targetId
    · refine iff_of_false (not_keepsRequest_added h hadded hroute htaken mark) ?_
      intro hfits
      cases requested with
      | none => exact hfits.2 rfl hroute htaken
      | some targetId => exact hunnamed targetId rfl htaken
    · refine iff_of_true (keepsRequest_added h hadded ⟨rfl, rfl, rfl⟩ hroute htaken hunnamed hmark)
        ⟨?_, ?_⟩
      · intro earlier other later hsplit hother _
        apply hunnamed _ hother
        rw [hsplit]
        exact List.mem_map_of_mem (List.mem_append_right _ List.mem_cons_self)
      · rintro rfl _
        exact htaken

end Upserts

theorem normal_of_loadedState (huuids : PlainUuids env) (h : loadedState env file = .ok state) :
    ∀ target ∈ state.notificationTargets, NormalTarget target := by
  obtain ⟨targets, htargets⟩ := exists_sanitized_of_loadedState h
  rw [htargets]
  exact normal_of_mem_sanitize huuids

theorem upsertNotificationTarget_saved (huuids : PlainUuids env)
    {state saved : AdminConsoleState ρ π} (hloaded : loadedState env file = .ok state)
    {targetId : Option String} {label routeKey platformHint : String} {makeDefault : Bool}
    (hsaved : ((upsertNotificationTarget env targetId label routeKey platformHint
      makeDefault).run.exec file).result = .ok saved) :
    let put := putNotificationTarget env (targetId.bind nonEmptyOpt) (trim label) (trim routeKey)
      (normalizePlatformHint platformHint) state.notificationTargets
    trim label ≠ "" ∧ trim routeKey ≠ "" ∧
      saved.notificationTargets = sanitizeNotificationTargets env
        (if makeDefault || put.1.all (!·.isDefault) then markDefault put.2 put.1 else put.1) ∧
      ∃ stored, ((upsertNotificationTarget env targetId label routeKey platformHint
          makeDefault).run.exec file).file = .holds stored ∧
        stored.notificationTargets = saved.notificationTargets := by
  intro put
  have hload := exec_loadOrCreateState hloaded
  rw [upsertNotificationTarget, exec_run_bind_of_ok hload] at hsaved ⊢
  rw [sanitizeNotificationTargetLabel, sanitizeNotificationTargetRouteKey] at hsaved ⊢
  by_cases hlabel : trim label = ""
  · rw [if_pos hlabel] at hsaved
    cases hsaved
  · by_cases hroute : trim routeKey = ""
    · rw [if_neg hlabel, if_pos hroute] at hsaved
      cases hsaved
    · rw [if_neg hlabel, if_neg hroute] at hsaved ⊢
      have htargets : saved.notificationTargets = sanitizeNotificationTargets env
          (sanitizeNotificationTargets env
            (if makeDefault || put.1.all (!·.isDefault) then markDefault put.2 put.1 else put.1)) := by
        rw [← Except.ok.inj hsaved]
        rfl
      rw [sanitizeNotificationTargets_idem huuids] at htargets
      refine ⟨hlabel, hroute, htargets, sanitizeAdminState env saved, ?_, ?_⟩
      · rw [← Except.ok.inj hsaved]
        rfl
      · change sanitizeNotificationTargets env saved.notificationTargets = _
        rw [htargets, sanitizeNotificationTargets_idem huuids]

theorem upsertNotificationTarget_accepted (hloaded : loadedState env file = .ok state)
    (targetId : Option String) {label routeKey : String} (hlabel : trim label ≠ "")
    (hroute : trim routeKey ≠ "") (platformHint : String) (makeDefault : Bool) :
    ∃ saved, ((upsertNotificationTarget env targetId label routeKey platformHint
      makeDefault).run.exec file).result = .ok saved := by
  rw [upsertNotificationTarget, exec_run_bind_of_ok (exec_loadOrCreateState hloaded),
    sanitizeNotificationTargetLabel, sanitizeNotificationTargetRouteKey, if_neg hlabel,
    if_neg hroute]
  exact ⟨_, rfl⟩

theorem normalRequest (targetId : Option String) {label routeKey : String}
    (hlabel : trim label ≠ "") (hroute : trim routeKey ≠ "") (platformHint : String) :
    NormalRequest (targetId.bind nonEmptyOpt) (trim label) (trim routeKey)
      (normalizePlatformHint platformHint) := by
  refine ⟨?_, ⟨trim_trim label, hlabel⟩, ⟨trim_trim routeKey, hroute⟩,
    normalizePlatformHint_idem platformHint⟩
  intro id hid
  obtain ⟨text, -, htext⟩ := Option.bind_eq_some_iff.mp hid
  unfold nonEmptyOpt at htext
  split at htext
  · cases htext
  · rename_i hblank
    rw [← Option.some.inj htext]
    exact ⟨trim_trim text, hblank⟩

def targetEnvironment : Environment Unit Unit :=
  { plainEnvironment with uuidAt := fun _ => "1" }

theorem plainUuids_targetEnvironment : PlainUuids targetEnvironment := by
  constructor
  · change ∀ c ∈ "1".toList, isWhitespace c = false
    exact forall_mem_of_all (by decide)
  · intro _
    change ∀ c ∈ "1".toList, isWhitespace c = false
    exact forall_mem_of_all (by decide)

def phoneAndTablet : List NotificationTargetRecord :=
  [⟨"target-a", "Phone", "route-1", "weixin", true⟩,
    ⟨"target-b", "Tablet", "route-2", "weixin", false⟩]

end HarborBeacon.AdminConsole
