import HarborBeacon.FallbackChain
import HarborBeacon.Policy

/-!
The router of the orchestrator: executors are registered under their routes, and an action
is handed to the supporting and available ones, route by route, until one of them answers.
-/

namespace HarborBeacon.ExecutorRouting

open FallbackChain Json Policy

inductive StepStatus where
  | pending
  | approved
  | executing
  | success
  | failed
  | skipped
  | blocked
deriving DecidableEq

inductive Route where
  | middlewareApi
  | midcli
  | browser
  | mcp
deriving DecidableEq

namespace Route

def asStr : Route → String
  | middlewareApi => "middleware_api"
  | midcli => "midcli"
  | browser => "browser"
  | mcp => "mcp"

def priority : Route → Nat
  | middlewareApi => 0
  | midcli => 1
  | browser => 2
  | mcp => 3

end Route

def routePriority : List Route := [.middlewareApi, .midcli, .browser, .mcp]

structure ExecutionResult where
  taskId : String
  stepId : String
  executorUsed : String
  fallbackUsed : Bool
  status : StepStatus
  durationMs : UInt64
  errorCode : Option String
  errorMessage : Option String
  auditRef : String
  resultPayload : Value
deriving DecidableEq

/-- An executor over a world `W`: it reads the world to say whether it supports an action
and is available, and its run may change the world. -/
structure Executor (W : Type) where
  route : Route
  supports : Action → W → Bool
  isAvailable : W → Bool
  run : Action → String → String → W → Except String ExecutionResult × W

structure Call (W : Type) where
  executor : Executor W
  action : Action
  taskId : String
  stepId : String
  outcome : Except String ExecutionResult

structure Host (W : Type) where
  world : W
  calls : List (Call W)

/-- The executors by route. A route that has an entry has executors, all of that route. -/
structure Router (W : Type) where
  executors : Route → Option (List (Executor W))
  filed : ∀ route listed, executors route = some listed →
    listed ≠ [] ∧ ∀ executor ∈ listed, executor.route = route

variable {W : Type} {route : Route}

namespace Executor

def execute (executor : Executor W) (action : Action) (taskId stepId : String)
    (host : Host W) : Except String ExecutionResult × Host W :=
  let (outcome, world) := executor.run action taskId stepId host.world
  (outcome, { world, calls := host.calls ++ [{ executor, action, taskId, stepId, outcome }] })

def admits (action : Action) (executor : Executor W) (host : Host W) : Bool :=
  executor.supports action host.world && executor.isAvailable host.world

end Executor

namespace Router

def new : Router W where
  executors := fun _ => none
  filed := by simp

def register (router : Router W) (executor : Executor W) : Router W where
  executors := fun route =>
    if executor.route = route then
      some ((router.executors route).getD [] ++ [executor])
    else router.executors route
  filed := by
    intro route listed hlisted
    split_ifs at hlisted with hroute
    · obtain rfl := Option.some.inj hlisted
      refine ⟨by simp, ?_⟩
      intro other hother
      rcases List.mem_append.mp hother with hold | hnew
      · cases hentry : router.executors route with
        | none => simp [hentry] at hold
        | some old =>
            rw [hentry] at hold
            exact (router.filed route old hentry).2 other hold
      · obtain rfl := List.mem_singleton.mp hnew
        exact hroute
    · exact router.filed route listed hlisted

def ofExecutors (registered : List (Executor W)) : Router W :=
  registered.foldl register new

end Router

def allowedRoutes (action : Action) : List Route :=
  if action.domain = "service" ∨ action.domain = "files" then
    routePriority.filter fun route => route = .middlewareApi || route = .midcli
  else routePriority

def noExecutorAvailable (taskId stepId : String) (fallbackUsed : Bool)
    (lastError : Option String) : ExecutionResult where
  taskId := taskId
  stepId := stepId
  executorUsed := "none"
  fallbackUsed := fallbackUsed
  status := .failed
  durationMs := 0
  errorCode := some "NO_EXECUTOR_AVAILABLE"
  errorMessage := some (lastError.getD "No executor available for this action")
  auditRef := ""
  resultPayload := obj []

def answeredResult (route : Route) (fallbackUsed : Bool) (result : ExecutionResult) :
    ExecutionResult :=
  { result with
    fallbackUsed := fallbackUsed
    executorUsed := if result.executorUsed = "" then route.asStr else result.executorUsed }

section Execute

variable (action : Action) (taskId stepId : String)

/-- The inner loop of `execute`, over the executors of one route: the result to return, or
the last error with which the loop over the routes goes on. -/
def tryExecutors (route : Route) (fallbackUsed : Bool) :
    List (Executor W) → Option String → Host W →
      Except (Option String) ExecutionResult × Host W
  | [], lastError, host => (.error lastError, host)
  | executor :: rest, lastError, host =>
      if !executor.supports action host.world then
        tryExecutors route fallbackUsed rest lastError host
      else if !executor.isAvailable host.world then
        tryExecutors route fallbackUsed rest lastError host
      else
        match executor.execute action taskId stepId host with
        | (.ok result, host) => (.ok (answeredResult route fallbackUsed result), host)
        | (.error err, host) => tryExecutors route fallbackUsed rest (some err) host

def tryRoutes (router : Router W) :
    Nat → List Route → Option String → Bool → Host W → ExecutionResult × Host W
  | _, [], lastError, fallbackUsed, host =>
      (noExecutorAvailable taskId stepId fallbackUsed lastError, host)
  | idx, route :: routes, lastError, fallbackUsed, host =>
      match router.executors route with
      | none => tryRoutes router (idx + 1) routes lastError fallbackUsed host
      | some executors =>
          let fallbackUsed := if 0 < idx then true else fallbackUsed
          match tryExecutors action taskId stepId route fallbackUsed executors lastError
            host with
          | (.ok result, host) => (result, host)
          | (.error lastError, host) =>
              tryRoutes router (idx + 1) routes lastError fallbackUsed host

def execute (router : Router W) (host : Host W) : ExecutionResult × Host W :=
  tryRoutes action taskId stepId router 0 (allowedRoutes action) none false host

end Execute

section Loops

variable {action : Action} {taskId stepId : String} {executors : List (Executor W)}
  {host host' : Host W}

def failedCall (action : Action) (taskId stepId : String) (failure : Executor W × String) :
    Call W where
  executor := failure.1
  action := action
  taskId := taskId
  stepId := stepId
  outcome := .error failure.2

def answeredCall (action : Action) (taskId stepId : String)
    (answer : Executor W × ExecutionResult) : Call W where
  executor := answer.1
  action := action
  taskId := taskId
  stepId := stepId
  outcome := .ok answer.2

/-- A run of the router over executors: `Chain` at the checks and calls of the router. -/
abbrev Routed (action : Action) (taskId stepId : String) :
    List (Executor W) → Host W → List (Executor W × String) →
      Option (Executor W × ExecutionResult) → Host W → Prop :=
  Chain (Executor.admits action) fun executor => executor.execute action taskId stepId

theorem calls_execute (executor : Executor W) {outcome : Except String ExecutionResult}
    (h : executor.execute action taskId stepId host = (outcome, host')) :
    host'.calls = host.calls ++ [⟨executor, action, taskId, stepId, outcome⟩] := by
  simp only [Executor.execute, Prod.mk.injEq] at h
  obtain ⟨rfl, rfl⟩ := h
  rfl

theorem Routed.calls {failures : List (Executor W × String)}
    {answer : Option (Executor W × ExecutionResult)}
    (h : Routed action taskId stepId executors host failures answer host') :
    host'.calls = host.calls ++ (failures.map (failedCall action taskId stepId) ++
      answer.toList.map (answeredCall action taskId stepId)) := by
  induction h with
  | exhausted host => simp
  | passed _ _ ih => exact ih
  | answered _ hrun => simpa [answeredCall] using calls_execute _ hrun
  | failed _ hrun _ ih => simp [ih, calls_execute _ hrun, failedCall]

def routeOutcome (route : Route) (fallbackUsed : Bool) (lastError : Option String) :
    Option (Executor W × ExecutionResult) → Except (Option String) ExecutionResult
  | some answer => .ok (answeredResult route fallbackUsed answer.2)
  | none => .error lastError

theorem tryExecutors_routed (action : Action) (taskId stepId : String) (route : Route)
    (fallbackUsed : Bool) (executors : List (Executor W)) (known : Option String)
    (host : Host W) :
    ∃ failures answer host',
      Routed action taskId stepId executors host failures answer host' ∧
        tryExecutors action taskId stepId route fallbackUsed executors known host =
          (routeOutcome route fallbackUsed (lastError failures known) answer, host') := by
  induction executors generalizing known host with
  | nil => exact ⟨[], none, host, .exhausted host, rfl⟩
  | cons executor rest ih =>
      cases hadmits : executor.admits action host with
      | false =>
          obtain ⟨failures, answer, host', hchain, hloop⟩ := ih known host
          refine ⟨failures, answer, host', .passed hadmits hchain, ?_⟩
          rw [← hloop]
          simp only [Executor.admits, Bool.and_eq_false_iff] at hadmits
          rcases hadmits with hsupports | havailable
          · simp [tryExecutors, hsupports]
          · simp [tryExecutors, havailable]
      | true =>
          obtain ⟨hsupports, havailable⟩ := Bool.and_eq_true_iff.mp hadmits
          cases hrun : executor.execute action taskId stepId host with
          | mk outcome next =>
              cases outcome with
              | ok result =>
                  refine ⟨[], some (executor, result), next, .answered hadmits hrun, ?_⟩
                  simp [tryExecutors, hsupports, havailable, hrun, routeOutcome]
              | error err =>
                  obtain ⟨failures, answer, host', hchain, hloop⟩ := ih (some err) next
                  refine ⟨(executor, err) :: failures, answer, host',
                    .failed hadmits hrun hchain, ?_⟩
                  simp [tryExecutors, hsupports, havailable, hrun, hloop, lastError]

/-- The result that `execute` returns for the answer of a run. The fallback flag says that
the answer came from a route after the preferred one. -/
def routedResult (taskId stepId : String) (fallbackUsed : Bool) (lastError : Option String) :
    Option (Executor W × ExecutionResult) → ExecutionResult
  | some answer =>
      answeredResult answer.1.route (decide (answer.1.route ≠ .middlewareApi)) answer.2
  | none => noExecutorAvailable taskId stepId fallbackUsed lastError

def Router.executorsOn (router : Router W) (routes : List Route) : List (Executor W) :=
  routes.flatMap fun route => (router.executors route).getD []

theorem Router.executorsOn_cons (router : Router W) (route : Route) (routes : List Route) :
    router.executorsOn (route :: routes) =
      (router.executors route).getD [] ++ router.executorsOn routes := rfl

theorem Router.any_executorsOn (router : Router W) {route : Route}
    (h : router.executors route = some executors) :
    executors.any (fun executor => decide (executor.route ≠ .middlewareApi)) =
      decide (route ≠ .middlewareApi) := by
  obtain ⟨hne, hroute⟩ := router.filed route executors h
  obtain ⟨first, rest, rfl⟩ := List.exists_cons_of_ne_nil hne
  rw [Bool.eq_iff_iff, List.any_eq_true]
  simp only [decide_eq_true_eq]
  constructor
  · rintro ⟨executor, hmem, hother⟩
    rwa [hroute executor hmem] at hother
  · intro hother
    exact ⟨first, List.mem_cons_self, by rwa [hroute first List.mem_cons_self]⟩

/-- The outer loop is one run over the executors of the routes. The hypothesis on the indices
says that the preferred route is the first one of all, and only that one. -/
theorem tryRoutes_routed (action : Action) (taskId stepId : String) (router : Router W)
    (routes : List Route) (idx : Nat)
    (hpreferred : ∀ place route, routes[place]? = some route →
      (route = .middlewareApi ↔ idx + place = 0))
    (known : Option String) (fallbackUsed : Bool) (hfallback : idx = 0 → fallbackUsed = false)
    (host : Host W) :
    ∃ failures answer host',
      Routed action taskId stepId (router.executorsOn routes) host failures answer host' ∧
        tryRoutes action taskId stepId router idx routes known fallbackUsed host =
          (routedResult taskId stepId
            (fallbackUsed || (router.executorsOn routes).any
              fun executor => decide (executor.route ≠ .middlewareApi))
            (lastError failures known) answer, host') := by
  induction routes generalizing idx known fallbackUsed host with
  | nil => exact ⟨[], none, host, .exhausted host, by simp [tryRoutes, routedResult,
      Router.executorsOn, lastError]⟩
  | cons route rest ih =>
      have hroute : route = .middlewareApi ↔ idx = 0 := hpreferred 0 route rfl
      have hrest : ∀ place next, rest[place]? = some next →
          (next = .middlewareApi ↔ idx + 1 + place = 0) := by
        intro place next hnext
        rw [hpreferred (place + 1) next hnext]
        omega
      cases hentry : router.executors route with
      | none =>
          obtain ⟨failures, answer, host', hchain, hloop⟩ :=
            ih (idx + 1) hrest known fallbackUsed (by omega) host
          refine ⟨failures, answer, host', ?_, ?_⟩
          · rw [Router.executorsOn_cons, hentry]
            exact hchain
          · simp [tryRoutes, hentry, hloop, Router.executorsOn_cons]
      | some executors =>
          -- the flag that the inner loop runs with says whether the route is preferred
          have hflag : (if 0 < idx then true else fallbackUsed) =
              decide (route ≠ .middlewareApi) := by
            split_ifs with hidx
            · simp [hroute, Nat.ne_of_gt hidx]
            · simp [hroute, hfallback (by omega), Nat.eq_zero_of_not_pos hidx]
          obtain ⟨failures, answer, next, hchain, hloop⟩ :=
            tryExecutors_routed action taskId stepId route (decide (route ≠ .middlewareApi))
              executors known host
          cases answer with
          | some found =>
              have hfound : found.1.route = route :=
                (router.filed route executors hentry).2 _ hchain.mem_of_answered
              refine ⟨failures, some found, next, ?_, ?_⟩
              · rw [Router.executorsOn_cons, hentry]
                exact hchain.append_of_answered
              · simp only [tryRoutes, hentry, hflag, hloop, routeOutcome, routedResult, hfound]
          | none =>
              obtain ⟨later, answer, host', hlater, hlaterLoop⟩ :=
                ih (idx + 1) hrest (lastError failures known) (decide (route ≠ .middlewareApi))
                  (by omega) next
              refine ⟨failures ++ later, answer, host', ?_, ?_⟩
              · rw [Router.executorsOn_cons, hentry]
                exact hchain.append hlater
              · have hlast := lastError_append failures later known
                have hany : (fallbackUsed || (router.executorsOn (route :: rest)).any
                    fun executor => decide (executor.route ≠ .middlewareApi)) =
                    (decide (route ≠ .middlewareApi) || (router.executorsOn rest).any
                      fun executor => decide (executor.route ≠ .middlewareApi)) := by
                  rw [Router.executorsOn_cons, hentry, Option.getD_some, List.any_append,
                    router.any_executorsOn hentry, ← Bool.or_assoc, ← hflag]
                  split_ifs <;> simp
                simp only [tryRoutes, hentry, hflag, hloop, routeOutcome, hlaterLoop, hlast,
                  hany]

theorem mem_allowedRoutes_of_exclusive
    (hdomain : action.domain = "service" ∨ action.domain = "files") {route : Route}
    (hroute : route ∈ allowedRoutes action) : route = .middlewareApi ∨ route = .midcli := by
  rw [allowedRoutes, if_pos hdomain, List.mem_filter] at hroute
  simpa using hroute.2

theorem allowedRoutes_eq_cons (action : Action) :
    ∃ rest, allowedRoutes action = .middlewareApi :: rest ∧ .middlewareApi ∉ rest := by
  unfold allowedRoutes
  split_ifs
  · exact ⟨[.midcli], by decide, by decide⟩
  · exact ⟨[.midcli, .browser, .mcp], rfl, by decide⟩

theorem allowedRoutes_preferred (action : Action) (place : Nat) (route : Route)
    (h : (allowedRoutes action)[place]? = some route) :
    route = .middlewareApi ↔ 0 + place = 0 := by
  obtain ⟨rest, hroutes, hrest⟩ := allowedRoutes_eq_cons action
  rw [hroutes] at h
  cases place with
  | zero =>
      obtain rfl := Option.some.inj h
      simp
  | succ place =>
      have hmem : route ∈ rest := List.mem_of_getElem? h
      constructor
      · rintro rfl
        exact absurd hmem hrest
      · omega

theorem execute_routed (action : Action) (taskId stepId : String) (router : Router W)
    (host : Host W) :
    ∃ failures answer,
      Routed action taskId stepId (router.executorsOn (allowedRoutes action)) host failures
          answer (execute action taskId stepId router host).2 ∧
        (execute action taskId stepId router host).1 =
          routedResult taskId stepId
            ((router.executorsOn (allowedRoutes action)).any
              fun executor => decide (executor.route ≠ .middlewareApi))
            (lastError failures none) answer := by
  obtain ⟨failures, answer, host', hchain, hloop⟩ :=
    tryRoutes_routed action taskId stepId router (allowedRoutes action) 0
      (allowedRoutes_preferred action) none false (fun _ => rfl) host
  refine ⟨failures, answer, ?_, ?_⟩
  · rw [execute, hloop]
    exact hchain
  · rw [execute, hloop, Bool.false_or]

theorem calls_of_execute (action : Action) (taskId stepId : String) (router : Router W)
    (host : Host W) :
    ∃ made, (execute action taskId stepId router host).2.calls = host.calls ++ made ∧
      ∀ call ∈ made, call.action = action ∧ call.taskId = taskId ∧ call.stepId = stepId := by
  obtain ⟨failures, answer, hchain, -⟩ := execute_routed action taskId stepId router host
  refine ⟨_, hchain.calls, ?_⟩
  intro call hcall
  rcases List.mem_append.mp hcall with hfailed | hanswered
  · obtain ⟨failure, -, rfl⟩ := List.mem_map.mp hfailed
    exact ⟨rfl, rfl, rfl⟩
  · obtain ⟨found, -, rfl⟩ := List.mem_map.mp hanswered
    exact ⟨rfl, rfl, rfl⟩

end Loops

def candidates (registered : List (Executor W)) (action : Action) : List (Executor W) :=
  (allowedRoutes action).flatMap fun route =>
    registered.filter fun executor => executor.route = route

theorem executors_register (router : Router W) (executor : Executor W) (route : Route) :
    ((router.register executor).executors route).getD [] =
      (router.executors route).getD [] ++ [executor].filter fun other => other.route = route := by
  simp only [Router.register]
  split_ifs with hroute
  · simp [hroute]
  · simp [hroute]

theorem executors_foldl_register (registered : List (Executor W)) (router : Router W)
    (route : Route) :
    ((registered.foldl Router.register router).executors route).getD [] =
      (router.executors route).getD [] ++
        registered.filter fun executor => executor.route = route := by
  induction registered generalizing router with
  | nil => simp
  | cons executor rest ih =>
      rw [List.foldl_cons, ih, executors_register, List.append_assoc, ← List.filter_append,
        List.singleton_append]

theorem executorsOn_ofExecutors (registered : List (Executor W)) (action : Action) :
    (Router.ofExecutors registered).executorsOn (allowedRoutes action) =
      candidates registered action := by
  unfold Router.executorsOn candidates
  congr 1
  funext route
  exact executors_foldl_register registered Router.new route

theorem allowedRoutes_sorted (action : Action) :
    (allowedRoutes action).Pairwise fun a b => a.priority < b.priority := by
  unfold allowedRoutes
  split_ifs
  · decide
  · decide

theorem candidates_sorted (registered : List (Executor W)) (action : Action) :
    (candidates registered action).Pairwise fun a b => a.route.priority ≤ b.route.priority := by
  refine List.pairwise_flatMap.mpr ⟨?_, ?_⟩
  · intro route _
    apply List.pairwise_of_forall_mem_list
    intro a ha b hb
    simp only [List.mem_filter, decide_eq_true_eq] at ha hb
    rw [ha.2, hb.2]
  · refine (allowedRoutes_sorted action).imp ?_
    intro first second hlt a ha b hb
    simp only [List.mem_filter, decide_eq_true_eq] at ha hb
    rw [ha.2, hb.2]
    exact hlt.le

theorem filter_listed_of_not_mem (registered : List (Executor W)) (routes : List Route)
    (hroute : route ∉ routes) :
    (routes.flatMap fun other => registered.filter fun executor => executor.route = other).filter
      (fun executor => executor.route = route) = [] := by
  rw [List.filter_eq_nil_iff]
  intro executor hexecutor
  obtain ⟨other, hother, hmem⟩ := List.mem_flatMap.mp hexecutor
  simp only [List.mem_filter, decide_eq_true_eq] at hmem ⊢
  rintro rfl
  exact hroute (hmem.2 ▸ hother)

theorem filter_listed_of_mem (registered : List (Executor W)) (routes : List Route)
    (hnodup : routes.Nodup) (hroute : route ∈ routes) :
    (routes.flatMap fun other => registered.filter fun executor => executor.route = other).filter
      (fun executor => executor.route = route) =
        registered.filter fun executor => executor.route = route := by
  induction routes with
  | nil => simp at hroute
  | cons first rest ih =>
      obtain ⟨hfirst, hrest⟩ := List.nodup_cons.mp hnodup
      rw [List.flatMap_cons, List.filter_append]
      by_cases heq : route = first
      · subst heq
        rw [filter_listed_of_not_mem registered rest hfirst, List.append_nil, List.filter_filter]
        simp
      · have hmem : route ∈ rest := (List.mem_cons.mp hroute).resolve_left heq
        have hnone := filter_listed_of_not_mem registered [first] (by simpa using heq)
        rw [List.flatMap_singleton] at hnone
        rw [hnone, ih hrest hmem, List.nil_append]

theorem candidates_filter (registered : List (Executor W)) (action : Action)
    (hroute : route ∈ allowedRoutes action) :
    (candidates registered action).filter (fun executor => executor.route = route) =
      registered.filter fun executor => executor.route = route := by
  apply filter_listed_of_mem registered (allowedRoutes action) _ hroute
  exact (allowedRoutes_sorted action).imp fun hlt heq => by simp [heq] at hlt

theorem route_mem_allowedRoutes {registered : List (Executor W)} {action : Action}
    {executor : Executor W} (h : executor ∈ candidates registered action) :
    executor.route ∈ allowedRoutes action := by
  obtain ⟨route, hroute, hmem⟩ := List.mem_flatMap.mp h
  simp only [List.mem_filter, decide_eq_true_eq] at hmem
  rwa [hmem.2]

/-- The router tries the supporting and available executors in the order of `candidates`,
which is sorted by route and keeps the order of registration within a route, up to the first
that answers. -/
theorem execute_in_priority_order (registered : List (Executor W)) (action : Action)
    (taskId stepId : String) (host : Host W) :
    (candidates registered action).Pairwise
        (fun a b => a.route.priority ≤ b.route.priority) ∧
      (∀ route ∈ allowedRoutes action,
        (candidates registered action).filter (fun executor => executor.route = route) =
          registered.filter fun executor => executor.route = route) ∧
      ∃ failures answer,
        Routed action taskId stepId (candidates registered action) host failures answer
          (execute action taskId stepId (Router.ofExecutors registered) host).2 ∧
        (execute action taskId stepId (Router.ofExecutors registered) host).2.calls =
          host.calls ++ (failures.map (failedCall action taskId stepId) ++
            answer.toList.map (answeredCall action taskId stepId)) ∧
        (∀ executor result, answer = some (executor, result) →
          (execute action taskId stepId (Router.ofExecutors registered) host).1 =
            answeredResult executor.route (decide (executor.route ≠ .middlewareApi)) result) ∧
        ((action.domain = "service" ∨ action.domain = "files") →
          ∀ executor ∈ tried failures answer,
            executor.route = .middlewareApi ∨ executor.route = .midcli) := by
  refine ⟨candidates_sorted registered action,
    fun route hroute => candidates_filter registered action hroute, ?_⟩
  obtain ⟨failures, answer, hchain, hresult⟩ :=
    execute_routed action taskId stepId (Router.ofExecutors registered) host
  rw [executorsOn_ofExecutors] at hchain
  refine ⟨failures, answer, hchain, hchain.calls, ?_, ?_⟩
  · rintro executor result rfl
    rw [hresult]
    rfl
  · intro hdomain executor hexecutor
    have hcandidate := hchain.tried_sublist.subset hexecutor
    exact mem_allowedRoutes_of_exclusive hdomain (route_mem_allowedRoutes hcandidate)

def constantExecutor (route : Route) (outcome : Except String ExecutionResult) :
    Executor Unit where
  route := route
  supports := fun _ _ => true
  isAvailable := fun _ => true
  run := fun _ _ _ world => (outcome, world)

def inspectCamera : Action where
  domain := "device"
  operation := "inspect"
  resource := obj [("device_id", .string "cam-1")]
  args := .null
  riskLevel := .low
  requiresApproval := false
  dryRun := false

def mockAnswer : ExecutionResult where
  taskId := "t1"
  stepId := "s1"
  executorUsed := "mock"
  fallbackUsed := false
  status := .success
  durationMs := 1
  errorCode := none
  errorMessage := none
  auditRef := ""
  resultPayload := obj [("ok", .bool true)]

def runMocks (executors : List (Executor Unit)) : ExecutionResult × Host Unit :=
  execute inspectCamera "t1" "s1" (Router.ofExecutors executors) { world := (), calls := [] }

/-- The fallback flag goes by the route: an executor that answers first, on a later route,
sets it, and one that answers second on the preferred route does not. -/
theorem fallbackUsed_ignores_order_within_route :
    ((runMocks [constantExecutor .midcli (.ok mockAnswer)]).2.calls.length = 1 ∧
      (runMocks [constantExecutor .midcli (.ok mockAnswer)]).1 =
        { mockAnswer with fallbackUsed := true }) ∧
      (runMocks [constantExecutor .middlewareApi (.error "down"),
        constantExecutor .middlewareApi (.ok mockAnswer)]).2.calls.length = 2 ∧
      (runMocks [constantExecutor .middlewareApi (.error "down"),
        constantExecutor .middlewareApi (.ok mockAnswer)]).1 =
        { mockAnswer with fallbackUsed := false } := by
  refine ⟨⟨?_, ?_⟩, ?_, ?_⟩
  · rfl
  · rfl
  · rfl
  · rfl

end HarborBeacon.ExecutorRouting
