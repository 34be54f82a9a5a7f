import HarborBeacon.AdminStore

/-!
Concurrent calls of the admin API. A call writes what it computed from the state that it
loaded, so it takes back what others wrote since then, even if it only lists. As long as every
call writes over the file that it has seen, nothing is lost.
-/

namespace HarborBeacon.AdminConsole

open FileProgram FileProgram.Sessions Json

variable {ρ π ω : Type}

section Loads

variable (env : Environment ρ π) {α : Type}

theorem loadsFirst_loadOrCreateState_bind (f : AdminConsoleState ρ π → Store ρ π α) :
    LoadsFirst (loadOrCreateState env >>= f).run := by
  rw [loadOrCreateState, bind_assoc, ExceptT.run_bind]
  exact .loadFile _

theorem loadsFirst_withoutResult {x : Store ρ π α} (h : LoadsFirst x.run) :
    LoadsFirst (withoutResult x).run := by
  rw [withoutResult, ExceptT.run_bind]
  apply loadsFirst_bind h
  intro result
  cases result with
  | ok a => exact .done _
  | error message => exact .done _

theorem loadsFirst_createOrUpdateModelDownloadJob (modelId displayName providerKey : String)
    (targetPath : Option String) (metadata : Value) :
    LoadsFirst (createOrUpdateModelDownloadJob env modelId displayName providerKey targetPath
      metadata).run := by
  unfold createOrUpdateModelDownloadJob
  split
  · exact .done _
  · exact loadsFirst_loadOrCreateState_bind env _

theorem loadsFirst_cancelModelDownloadJob (jobId : String) :
    LoadsFirst (cancelModelDownloadJob env jobId).run := by
  unfold cancelModelDownloadJob
  split
  · exact .done _
  · exact loadsFirst_loadOrCreateState_bind env _

theorem loadsFirst_saveModelDownloadJob (job : ModelDownloadJobRecord) :
    LoadsFirst (saveModelDownloadJob env job).run := by
  unfold saveModelDownloadJob
  split
  · exact .done _
  · exact loadsFirst_loadOrCreateState_bind env _

theorem loadsFirst_of_exclusive {operation : AdminOperation ρ π}
    (h : operation.exclusive = true) : LoadsFirst (operation.program env).run := by
  cases operation with
  | createOrUpdateModelDownloadJob modelId displayName providerKey targetPath metadata =>
      rw [AdminOperation.program]
      exact loadsFirst_withoutResult (loadsFirst_createOrUpdateModelDownloadJob env modelId
        displayName providerKey targetPath metadata)
  | cancelModelDownloadJob jobId =>
      rw [AdminOperation.program]
      exact loadsFirst_withoutResult (loadsFirst_cancelModelDownloadJob env jobId)
  | saveModelDownloadJob job =>
      rw [AdminOperation.program]
      exact loadsFirst_withoutResult (loadsFirst_saveModelDownloadJob env job)
  | _ => cases h

end Loads

section Plans

variable (env : Environment ρ π) {α : Type}

def planOn {α : Type} (f : AdminConsoleState ρ π → Store ρ π α) (file : StateFile ρ π) :
    FileProgram (StateFile ρ π) Empty (Except String Unit) :=
  match loadedState env file with
  | .ok state => (withoutResult (f state)).run
  | .error message => done (.error message)

theorem run_withoutResult_loadState (f : AdminConsoleState ρ π → Store ρ π α) :
    (withoutResult (loadState env >>= f)).run = loadFile (planOn env f) := by
  change loadFile _ = _
  congr 1
  funext file
  change FileProgram.bind (FileProgram.bind (done (loadedState env file)) _) _ = _
  unfold planOn
  cases hloaded : loadedState env file with
  | ok state => rfl
  | error message => rfl

theorem run_withoutResult_loadOrCreateState (f : AdminConsoleState ρ π → Store ρ π α) :
    (withoutResult (loadOrCreateState env >>= f)).run =
      loadFile (planOn env fun state => saveState env state >>= fun _ => f state) := by
  rw [loadOrCreateState]
  simp only [bind_assoc, pure_bind]
  exact run_withoutResult_loadState env _

end Plans

section Listings

variable (env : Environment ρ π)

def listingPlan : StateFile ρ π → FileProgram (StateFile ρ π) Empty (Except String Unit) :=
  planOn env fun state => saveState env state >>= fun _ => pure state

def listingOf : Operation (StateFile ρ π) Empty (Except String Unit) :=
  Call.toOperation ⟨env, .listing⟩

theorem program_listingOf : (listingOf env).program = loadFile (listingPlan env) :=
  run_withoutResult_loadOrCreateState env _

theorem listingPlan_cases (file : StateFile ρ π) :
    (∃ state, loadedState env file = .ok state ∧
      listingPlan env file = saveFile (.holds (sanitizeAdminState env state)) (done (.ok ()))) ∨
    ∃ message, listingPlan env file = done (.error message) := by
  unfold listingPlan planOn
  cases hloaded : loadedState env file with
  | ok state => exact Or.inl ⟨state, rfl, rfl⟩
  | error message => exact Or.inr ⟨message, rfl⟩

def ListingStage (a : Activity (StateFile ρ π) Empty (Except String Unit)) : Prop :=
  a.operation = listingOf env →
    (a.view = none ∧ a.rest = loadFile (listingPlan env)) ∨
    (∃ file, a.view = some ⟨file, listingPlan env file, file⟩ ∧ a.rest = listingPlan env file) ∨
    ∃ result, a.rest = done result

theorem listingStage_start (op : Operation (StateFile ρ π) Empty (Except String Unit)) :
    ListingStage env op.start := by
  intro hop
  change op = listingOf env at hop
  refine Or.inl ⟨rfl, ?_⟩
  change op.program = _
  rw [hop, program_listingOf]

theorem listingStage_step (a : Activity (StateFile ρ π) Empty (Except String Unit))
    (file : StateFile ρ π) (h : ListingStage env a) : ListingStage env (a.step file) := by
  intro hop
  rw [Activity.step_operation] at hop
  rcases h hop with ⟨-, hrest⟩ | ⟨loaded, hview, hrest⟩ | ⟨result, hrest⟩
  · rw [Activity.step, hrest]
    exact Or.inr (Or.inl ⟨file, rfl, rfl⟩)
  · rcases listingPlan_cases env loaded with ⟨state, -, hplan⟩ | ⟨message, hplan⟩
    · rw [Activity.step, hrest, hplan]
      exact Or.inr (Or.inr ⟨_, rfl⟩)
    · rw [Activity.step, hrest, hplan]
      exact Or.inr (Or.inr ⟨_, hrest.trans hplan⟩)
  · rw [Activity.step, hrest]
    exact Or.inr (Or.inr ⟨result, hrest⟩)

theorem saving_of_listing {c : Sessions (StateFile ρ π) Empty (Except String Unit) ω} {w : ω}
    {saved : StateFile ρ π} (hstage : EachActivity (ListingStage env) c)
    (hisolated : c.Isolated w) (hcurrent : c.current w = some (listingOf env))
    (hsaving : c.saving w = some saved) :
    ∃ state, loadedState env c.file = .ok state ∧
      saved = .holds (sanitizeAdminState env state) := by
  obtain ⟨view, hview, hseen⟩ := hisolated saved hsaving
  obtain ⟨a, hactivity, hop⟩ := Option.map_eq_some_iff.mp hcurrent
  rw [saving, hactivity, Option.bind_some] at hsaving
  rw [viewOf, hactivity, Option.bind_some] at hview
  obtain ⟨next, hsave⟩ := eq_saveFile_of_nextSave hsaving
  rcases hstage w a hactivity hop with ⟨-, hrest⟩ | ⟨loaded, hloaded, hrest⟩ | ⟨result, hrest⟩
  · rw [hsave] at hrest
    cases hrest
  · rw [hview, Option.some.injEq] at hloaded
    subst hloaded
    change loaded = c.file at hseen
    rcases listingPlan_cases env loaded with ⟨state, hstate, hplan⟩ | ⟨message, hplan⟩
    · rw [hsave, hplan, saveFile.injEq] at hrest
      exact ⟨state, hseen ▸ hstate, hrest.1⟩
    · rw [hsave, hplan] at hrest
      cases hrest
  · rw [hsave] at hrest
    cases hrest

end Listings

section Workers

theorem sound_workers (file : StateFile ρ π) (calls : ω → List (Call ρ π)) :
    (workers file calls).Sound := by
  intro w a ha
  cases ha

theorem locked_workers (file : StateFile ρ π) {calls : ω → List (Call ρ π)}
    (hexclusive : ∀ w, ∀ call ∈ calls w, call.operation.exclusive = true) :
    (workers file calls).Locked := by
  constructor
  · intro w op hop
    obtain ⟨call, hcall, rfl⟩ := List.mem_map.mp hop
    exact ⟨hexclusive w call hcall, loadsFirst_of_exclusive _ (hexclusive w call hcall)⟩
  · intro w a ha
    cases ha
  · intro w a ha
    cases ha

variable [DecidableEq ω]

/-- As long as every call writes over the file as it has seen it, what a call wrote stays
until another call changes it, and a call that lists only normalizes the file. -/
theorem isolated_calls_keep_updates (file : StateFile ρ π) (calls : ω → List (Call ρ π))
    (schedule : List ω) (hisolated : EachStep Isolated (workers file calls) schedule) :
    (workers file calls).NoLostUpdate schedule ∧
      ∀ before w after env saved, schedule = before ++ w :: after →
        ((workers file calls).run before).current w = some (listingOf env) →
        ((workers file calls).run before).saving w = some saved →
        ∃ state, loadedState env ((workers file calls).run before).file = .ok state ∧
          saved = .holds (sanitizeAdminState env state) := by
  refine ⟨noLostUpdate_of_isolated (sound_workers file calls) hisolated, ?_⟩
  rintro before w after env saved rfl hcurrent hsaving
  have hidle : EachActivity (ListingStage env) (workers file calls) := by
    intro w a ha
    cases ha
  have hstage := EachActivity.run (listingStage_start env) (listingStage_step env) hidle before
  exact saving_of_listing env hstage (eachStep_append.mp hisolated).2.1 hcurrent hsaving

/-- The calls that hold the lock of the downloads keep each other's updates, whoever takes a step
when. -/
theorem downloads_keep_updates (file : StateFile ρ π) (calls : ω → List (Call ρ π))
    (hexclusive : ∀ w, ∀ call ∈ calls w, call.operation.exclusive = true) (schedule : List ω) :
    (workers file calls).NoLostUpdate schedule :=
  noLostUpdate_of_isolated (sound_workers file calls)
    ((locked_workers file hexclusive).eachStep_isolated schedule)

end Workers

def createQwen : AdminOperation ρ π :=
  .createOrUpdateModelDownloadJob "qwen" "Qwen" "huggingface" none .null

def createAndList (env : Environment ρ π) : Worker → List (Call ρ π)
  | .first => [⟨env, createQwen⟩]
  | .second => [⟨env, .listing⟩]

def jobsIn : StateFile ρ π → List ModelDownloadJobRecord
  | .holds state => state.modelDownloadJobs
  | _ => []

theorem modelDownloadJobs_normalizeLoadedAdminState (env : Environment ρ π)
    (state : AdminConsoleState ρ π) :
    (normalizeLoadedAdminState env state).modelDownloadJobs = state.modelDownloadJobs := by
  simp only [normalizeLoadedAdminState, syncPlatform, sanitizeLegacyAdminFields,
    hydrateLegacyViewsFromPlatform]

theorem modelDownloadJobs_sanitizeAdminState (env : Environment ρ π)
    (state : AdminConsoleState ρ π) :
    (sanitizeAdminState env state).modelDownloadJobs = state.modelDownloadJobs := by
  simp only [sanitizeAdminState, syncPlatform, sanitizeLegacyAdminFields]

theorem exists_plan_createQwen (env : Environment ρ π) :
    ∃ plan, ((createQwen : AdminOperation ρ π).program env).run = loadFile plan ∧
      ∀ file state, loadedState env file = .ok state → state.modelDownloadJobs = [] →
        ∃ changed, jobsIn changed ≠ [] ∧
          plan file = saveFile (.holds (sanitizeAdminState env state))
            (saveFile changed (done (.ok ()))) := by
  unfold createQwen AdminOperation.program createOrUpdateModelDownloadJob
  simp only
  rw [if_neg (by decide)]
  refine ⟨_, run_withoutResult_loadOrCreateState env _, ?_⟩
  intro file state hloaded hjobs
  simp only [planOn, hloaded, hjobs]
  refine ⟨_, ?_, rfl⟩
  exact List.cons_ne_nil _ _

/-- The download is queued and saved between the load and the save of the call that only asks
for the state, and it is gone after that. -/
theorem listing_takes_back_created_job :
    ¬ ∃ (ρ π : Type) (env : Environment ρ π) (state : AdminConsoleState ρ π) (sections : ρ),
      env.applyRtspHints state.sections = .ok sections ∧ state.modelDownloadJobs = [] ∧
      (workers (.holds state) (createAndList env)).NoLostUpdate
        [.second, .second, .first, .first, .first, .first, .second] := by
  rintro ⟨ρ, π, env, state, sections, hhints, hjobs, hkept⟩
  have hloaded : loadedState env (.holds state) =
      .ok (normalizeLoadedAdminState env { state with sections }) := by
    rw [loadedState, applyRegistryHints, hhints]
    rfl
  have hjobs' : (normalizeLoadedAdminState env { state with sections }).modelDownloadJobs = [] := by
    rw [modelDownloadJobs_normalizeLoadedAdminState, hjobs]
  obtain ⟨plan, hprogram, hplan⟩ := exists_plan_createQwen env
  obtain ⟨changed, hchanged, hsaves⟩ := hplan _ _ hloaded hjobs'
  have hlisting : listingPlan env (.holds state) =
      saveFile (.holds (sanitizeAdminState env
        (normalizeLoadedAdminState env { state with sections }))) (done (.ok ())) := by
    rcases listingPlan_cases env (.holds state) with ⟨listed, hlisted, hplan⟩ | ⟨message, hplan⟩
    · rw [hloaded, Except.ok.injEq] at hlisted
      rw [hplan, hlisted]
    · unfold listingPlan planOn at hplan
      rw [hloaded] at hplan
      cases hplan
  have hfirst : (workers (.holds state) (createAndList env)).pending .first =
      [Call.toOperation ⟨env, createQwen⟩] := rfl
  have hsecond : (workers (.holds state) (createAndList env)).pending .second =
      [listingOf env] := rfl
  refine not_noLostUpdate (f := jobsIn) (by decide) (fun _ => rfl) rfl hfirst hsecond rfl hprogram
    (program_listingOf env) hsaves hlisting ?_ ?_ hkept
  · rw [jobsIn, modelDownloadJobs_sanitizeAdminState, hjobs']
    exact hjobs.symm
  · intro hsame
    exact hchanged (hsame.trans hjobs)

def plainState : AdminConsoleState Unit Unit where
  binding := defaultBinding "ABCD-1234"
  notificationTargets := []
  automationReviews := []
  platform := ⟨[], [], [], [], ()⟩
  modelDownloadJobs := []
  sections := ()

/-- An environment without devices, in which the open sections are empty. -/
def plainEnvironment : Environment Unit Unit where
  modelTestTimestamp := "1700000000"
  newUuid := "1"
  uuidAt := toString
  bindingCode := "ABCD-1234"
  newBindingCode := "EFGH-5678"
  renderF64 := fun _ => "0.5".toList
  defaultState := plainState
  applyRtspHints := .ok
  sanitizeSections := id
  hydrateLegacyViews := fun state => (state.binding, state.sections)
  syncPlatformFromLegacy := fun state => state.platform

def createAndCancel : Worker → List (Call Unit Unit)
  | .first => [⟨plainEnvironment, createQwen⟩]
  | .second => [⟨plainEnvironment, .cancelModelDownloadJob "model-download-1"⟩]

theorem createAndCancel_isolated_and_kept :
    EachStep Isolated (workers .missing createAndCancel)
        [.first, .second, .first, .first, .second, .first, .first, .second] ∧
      (workers .missing createAndCancel).NoLostUpdate
        [.first, .second, .first, .first, .second, .first, .first, .second] := by
  have hexclusive : ∀ w, ∀ call ∈ createAndCancel w, call.operation.exclusive = true := by
    intro w call hcall
    cases w with
    | first =>
        rw [List.mem_singleton.mp hcall]
        rfl
    | second =>
        rw [List.mem_singleton.mp hcall]
        rfl
  have hisolated := (locked_workers .missing hexclusive).eachStep_isolated
    [.first, .second, .first, .first, .second, .first, .first, .second]
  exact ⟨hisolated, (isolated_calls_keep_updates .missing createAndCancel _ hisolated).1⟩

theorem downloads_keep_updates_createAndCancel :
    (workers .missing createAndCancel).NoLostUpdate
      [.second, .first, .second, .first, .second, .first, .first] := by
  refine downloads_keep_updates .missing createAndCancel ?_ _
  intro w call hcall
  cases w with
  | first | second =>
      rw [List.mem_singleton.mp hcall]
      rfl

end HarborBeacon.AdminConsole
