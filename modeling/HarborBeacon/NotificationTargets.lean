import HarborBeacon.AdminStore
import HarborBeacon.CrashSafety

/-!
Notification targets. Every load and every save goes through it, so the operations and reloads of
the store, in whichever order, never meet or leave other targets.
-/

namespace HarborBeacon.AdminConsole

open FileProgram Text

variable {ρ π : Type} {env : Environment ρ π}

/-- The ids are different, the routes are different, and one target is the default. -/
structure WellFormedTargets (targets : List NotificationTargetRecord) : Prop where
  ids : (targets.map NotificationTargetRecord.targetId).Nodup
  routes : (targets.map NotificationTargetRecord.routeKey).Nodup
  default : targets ≠ [] → targets.countP (·.isDefault) = 1

/-- What the loop keeps has ids and routes that were not seen before. -/
theorem collected_spec (env : Environment ρ π) (position : Nat) (seenIds seenRoutes : List String)
    (targets : List NotificationTargetRecord) :
    let collected := collectNotificationTargets env position seenIds seenRoutes targets
    (∀ target ∈ collected, target.targetId ∉ seenIds ∧ target.routeKey ∉ seenRoutes) ∧
      (collected.map NotificationTargetRecord.targetId).Nodup ∧
      (collected.map NotificationTargetRecord.routeKey).Nodup := by
  induction targets generalizing position seenIds seenRoutes with
  | nil => exact ⟨fun _ h => absurd h List.not_mem_nil, List.nodup_nil, List.nodup_nil⟩
  | cons target rest ih =>
      intro collected
      simp only [collected, collectNotificationTargets]
      split
      · exact ih _ _ _
      · rename_i target _
        split
        · exact ih _ _ _
        · rename_i hid
          split
          · obtain ⟨hunseen, hnodup⟩ := ih (position + 1) (target.targetId :: seenIds) seenRoutes
            refine ⟨?_, hnodup⟩
            intro found hfound
            obtain ⟨hfoundId, hfoundRoute⟩ := hunseen found hfound
            exact ⟨fun hmem => hfoundId (List.mem_cons_of_mem _ hmem), hfoundRoute⟩
          · rename_i hroute
            obtain ⟨hunseen, hids, hroutes⟩ :=
              ih (position + 1) (target.targetId :: seenIds) (target.routeKey :: seenRoutes)
            refine ⟨?_, ?_, ?_⟩
            · intro found hfound
              rcases List.mem_cons.mp hfound with rfl | hrest
              · exact ⟨hid, hroute⟩
              · obtain ⟨hfoundId, hfoundRoute⟩ := hunseen found hrest
                exact ⟨fun hmem => hfoundId (List.mem_cons_of_mem _ hmem),
                  fun hmem => hfoundRoute (List.mem_cons_of_mem _ hmem)⟩
            · rw [List.map_cons, List.nodup_cons]
              refine ⟨?_, hids⟩
              intro hmem
              obtain ⟨found, hfound, hsame⟩ := List.mem_map.mp hmem
              exact (hunseen found hfound).1 (hsame ▸ List.mem_cons_self)
            · rw [List.map_cons, List.nodup_cons]
              refine ⟨?_, hroutes⟩
              intro hmem
              obtain ⟨found, hfound, hsame⟩ := List.mem_map.mp hmem
              exact (hunseen found hfound).2 (hsame ▸ List.mem_cons_self)

theorem map_keepFirstDefault {α : Type} {g : NotificationTargetRecord → α}
    (hg : ∀ target, g { target with isDefault := false } = g target) (defaultSeen : Bool)
    (targets : List NotificationTargetRecord) :
    (keepFirstDefault defaultSeen targets).map g = targets.map g := by
  induction targets generalizing defaultSeen with
  | nil => rfl
  | cons target rest ih =>
      rw [keepFirstDefault]
      split
      · rw [List.map_cons, List.map_cons, ih]
      · rw [List.map_cons, List.map_cons, ih, hg]

theorem countP_keepFirstDefault (defaultSeen : Bool) (targets : List NotificationTargetRecord) :
    (keepFirstDefault defaultSeen targets).countP (·.isDefault) =
      if !defaultSeen && targets.any (·.isDefault) then 1 else 0 := by
  induction targets generalizing defaultSeen with
  | nil => simp [keepFirstDefault]
  | cons target rest ih =>
      rw [keepFirstDefault]
      split
      · rename_i hfirst
        simp [ih, (Bool.and_eq_true_iff.mp hfirst).1, (Bool.and_eq_true_iff.mp hfirst).2]
      · rename_i hfirst
        rw [List.countP_cons_of_neg (by simp), ih]
        cases defaultSeen with
        | true => rfl
        | false =>
            have hnot : target.isDefault = false := by simpa using hfirst
            simp [hnot]

theorem map_ensureSingleDefault {α : Type} {g : NotificationTargetRecord → α}
    (hg : ∀ target isDefault, g { target with isDefault } = g target)
    (targets : List NotificationTargetRecord) :
    (ensureSingleDefaultNotificationTarget targets).map g = targets.map g := by
  rw [ensureSingleDefaultNotificationTarget]
  split
  · exact map_keepFirstDefault (fun target => hg target false) false targets
  · cases targets with
    | nil => rfl
    | cons first rest =>
        rw [List.modifyHead_cons, List.map_cons, List.map_cons, hg]

theorem countP_ensureSingleDefault {targets : List NotificationTargetRecord}
    (h : ensureSingleDefaultNotificationTarget targets ≠ []) :
    (ensureSingleDefaultNotificationTarget targets).countP (·.isDefault) = 1 := by
  rw [ensureSingleDefaultNotificationTarget] at h ⊢
  split
  · rename_i hany
    rw [countP_keepFirstDefault, Bool.not_false, Bool.true_and, if_pos hany]
  · rename_i hnone
    cases targets with
    | nil =>
        rw [if_neg hnone] at h
        exact absurd rfl h
    | cons first rest =>
        have hrest : rest.countP (·.isDefault) = 0 := by
          rw [List.countP_eq_zero]
          intro target hmem hdefault
          exact hnone (List.any_eq_true.mpr ⟨target, List.mem_cons_of_mem _ hmem, hdefault⟩)
        rw [List.modifyHead_cons, List.countP_cons_of_pos rfl, hrest]

theorem wellFormed_sanitizeNotificationTargets (env : Environment ρ π)
    (targets : List NotificationTargetRecord) :
    WellFormedTargets (sanitizeNotificationTargets env targets) := by
  obtain ⟨-, hids, hroutes⟩ := collected_spec env 0 [] [] targets
  rw [sanitizeNotificationTargets]
  constructor
  · rw [map_ensureSingleDefault fun _ _ => rfl]
    exact hids
  · rw [map_ensureSingleDefault fun _ _ => rfl]
    exact hroutes
  · exact countP_ensureSingleDefault

section Programs

variable {α β : Type} {state : AdminConsoleState ρ π} {R : α → Prop} {file : StateFile ρ π}

def SavesWellFormed (x : Store ρ π α) (R : α → Prop) : Prop :=
  Saves (fun file : StateFile ρ π => ∃ state, file = .holds state ∧
      WellFormedTargets state.notificationTargets)
    (fun result => ∀ a, result = .ok a → R a) x.run

theorem exists_sanitized_of_loadedState (h : loadedState env file = .ok state) :
    ∃ targets, state.notificationTargets = sanitizeNotificationTargets env targets := by
  have hhints : ∀ {loaded : AdminConsoleState ρ π}, applyRegistryHints env loaded = .ok state →
      ∃ targets, state.notificationTargets = sanitizeNotificationTargets env targets := by
    intro loaded hloaded
    rw [applyRegistryHints] at hloaded
    cases hsections : env.applyRtspHints loaded.sections with
    | error message =>
        rw [hsections] at hloaded
        cases hloaded
    | ok sections =>
        rw [hsections] at hloaded
        rw [← Except.ok.inj hloaded]
        exact ⟨_, rfl⟩
  cases file with
  | missing => exact hhints h
  | unreadable message => cases h
  | holds saved => exact hhints h

theorem targets_loadedState (h : loadedState env file = .ok state) :
    WellFormedTargets state.notificationTargets := by
  obtain ⟨targets, htargets⟩ := exists_sanitized_of_loadedState h
  rw [htargets]
  exact wellFormed_sanitizeNotificationTargets env targets

theorem saves_loadState : SavesWellFormed (loadState env)
    fun state => WellFormedTargets state.notificationTargets :=
  .loadFile fun _ => .done fun _ => targets_loadedState

theorem saves_saveState (state : AdminConsoleState ρ π) :
    SavesWellFormed (saveState env state) fun _ => True :=
  .saveFile ⟨_, rfl, wellFormed_sanitizeNotificationTargets env _⟩ (.done fun _ _ => trivial)

theorem saves_pure {a : α} (h : R a) :
    SavesWellFormed (pure a : Store ρ π α) R := by
  refine .done ?_
  intro b hb
  rwa [← Except.ok.inj hb]

theorem saves_throw (message : String) :
    SavesWellFormed (throw message : Store ρ π α) R := by
  refine .done ?_
  intro b hb
  cases hb

theorem saves_fromExcept {R : β → Prop} (result : Except String α) {f : α → Store ρ π β}
    (hf : ∀ a, SavesWellFormed (f a) R) : SavesWellFormed (liftM result >>= f) R := by
  cases result with
  | ok a => exact hf a
  | error message => exact saves_throw message

theorem saves_guard {c : Prop} [Decidable c] {message : String} {f : PUnit → Store ρ π α}
    (hf : SavesWellFormed (f ()) R) :
    SavesWellFormed (if c then throw message >>= f else f ()) R := by
  split
  · exact saves_throw message
  · exact hf

theorem saves_loadOrCreateState : SavesWellFormed (loadOrCreateState env)
    fun state => WellFormedTargets state.notificationTargets :=
  saves_run_bind saves_loadState fun state hstate =>
    saves_run_bind (saves_saveState state) fun _ _ => saves_pure hstate

theorem saves_saveProjectedState (state : AdminConsoleState ρ π) :
    SavesWellFormed (saveProjectedState env state)
      fun state => WellFormedTargets state.notificationTargets :=
  saves_run_bind (saves_saveState _) fun _ _ =>
    saves_pure (wellFormed_sanitizeNotificationTargets env _)

end Programs

inductive TargetOperation where
  | upsert (targetId : Option String) (label routeKey platformHint : String) (makeDefault : Bool)
  | setDefault (targetId : String)
  | delete (targetId : String)
  | load
  | loadOrCreate

def TargetOperation.program (env : Environment ρ π) :
    TargetOperation → Store ρ π (AdminConsoleState ρ π)
  | .upsert targetId label routeKey platformHint makeDefault =>
      upsertNotificationTarget env targetId label routeKey platformHint makeDefault
  | .setDefault targetId => setDefaultNotificationTarget env targetId
  | .delete targetId => deleteNotificationTarget env targetId
  | .load => loadState env
  | .loadOrCreate => loadOrCreateState env

theorem saves_program (operation : TargetOperation) :
    SavesWellFormed (operation.program env)
      fun state => WellFormedTargets state.notificationTargets := by
  cases operation with
  | upsert targetId label routeKey platformHint makeDefault =>
      refine saves_run_bind saves_loadOrCreateState fun state _ => ?_
      refine saves_fromExcept _ fun label => ?_
      refine saves_fromExcept _ fun routeKey => ?_
      exact saves_saveProjectedState _
  | setDefault targetId =>
      rw [TargetOperation.program, setDefaultNotificationTarget]
      apply saves_guard
      refine saves_run_bind saves_loadOrCreateState fun state _ => ?_
      apply saves_guard
      exact saves_saveProjectedState _
  | delete targetId =>
      rw [TargetOperation.program, deleteNotificationTarget]
      apply saves_guard
      refine saves_run_bind saves_loadOrCreateState fun state _ => ?_
      apply saves_guard
      exact saves_saveProjectedState _
  | load => exact saves_loadState
  | loadOrCreate => exact saves_loadOrCreateState

def runTargets (file : StateFile ρ π) (calls : List (Environment ρ π × TargetOperation)) :
    StateFile ρ π :=
  calls.foldl (fun file call => ((call.2.program call.1).run.exec file).file) file

theorem runTargets_file (file : StateFile ρ π)
    (calls : List (Environment ρ π × TargetOperation)) :
    runTargets file calls = file ∨ ∃ state, runTargets file calls = .holds state ∧
      WellFormedTargets state.notificationTargets := by
  induction calls generalizing file with
  | nil => exact Or.inl rfl
  | cons call rest ih =>
      have hsaves : SavesWellFormed (call.2.program call.1)
        fun state => WellFormedTargets state.notificationTargets := saves_program call.2
      have hsaved := hsaves.file file _ (exec_file_mem_visits _ _)
      change runTargets _ rest = _ ∨ ∃ state, runTargets _ rest = _ ∧ _
      rcases ih ((call.2.program call.1).run.exec file).file with hsame | hwell
      · rw [hsame]
        exact hsaved
      · exact Or.inr hwell

/-- Whatever the file held before: in every order of operations and reloads, each of them
returns well-formed targets and each file that one of them writes holds well-formed targets. -/
theorem targets_stay_wellFormed (file : StateFile ρ π)
    (calls : List (Environment ρ π × TargetOperation)) :
    (runTargets file calls = file ∨ ∃ state, runTargets file calls = .holds state ∧
      WellFormedTargets state.notificationTargets) ∧
    ∀ (env : Environment ρ π) (operation : TargetOperation),
      let outcome := (operation.program env).run.exec (runTargets file calls)
      (∀ state, outcome.result = .ok state → WellFormedTargets state.notificationTargets) ∧
      ∀ saved ∈ (operation.program env).run.visits (runTargets file calls),
        saved = runTargets file calls ∨
          ∃ state, saved = .holds state ∧ WellFormedTargets state.notificationTargets := by
  refine ⟨runTargets_file file calls, ?_⟩
  intro env operation outcome
  have hsaves : SavesWellFormed (operation.program env)
    fun state => WellFormedTargets state.notificationTargets := saves_program operation
  exact ⟨hsaves.result _, hsaves.file _⟩

end HarborBeacon.AdminConsole
