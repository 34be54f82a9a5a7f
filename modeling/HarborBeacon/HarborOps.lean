import HarborBeacon.ExecutorRouting

/-!
The HarborOS executors: what each of them plans for a service or files action, and what it
then does to the host. The middleware is reached over HTTP or a websocket, the command line
by a spawned process; without a host configured, the middleware executor only previews.
-/

namespace HarborBeacon.HarborOps

open ExecutorRouting Json Json.Value Policy Text

def allowedReadRoots : List String := ["/mnt", "/data"]

def allowedWriteRoots : List String := ["/mnt", "/data", "/tmp/agent"]

def deniedRoots : List String := ["/", "/etc", "/boot", "/root", "/var/lib"]

def maxReadTextBytes : UInt64 := 256 * 1024

def defaultReadTextBytes : UInt64 := 64 * 1024

structure HarborExecutorConfig where
  harborUrl : Option String := none
  harborApiKey : Option String := none
  harborUser : Option String := none
  harborPassword : Option String := none
  disableMiddleware : Bool := false
  disableMidcli : Bool := false
  midcliBin : String := "midcli"
  midcliPassthrough : Bool := false
deriving DecidableEq

/-- The library functions that the executors call: the debug form of a text, the JSON
parser and printer, the HTTP client and its headers. -/
structure Platform where
  debugText : String → String
  parseJson : String → Option Value
  printJson : Value → String
  buildClient : Except String Unit
  headerValue : String → Except String String

structure FileOperationContext where
  sourcePath : String
  targetPath : String
  recursive : Bool
deriving DecidableEq

structure ReadOnlyFileOperationContext where
  path : String
  recursive : Bool
  maxBytes : UInt64
deriving DecidableEq

section Paths

variable (platform : Platform)

/-- The loop of `normalizeContractPath`; it fails when `..` leaves the root. -/
def normalizeSegments : List (List Char) → List (List Char) → Option (List (List Char))
  | segments, [] => some segments
  | segments, segment :: rest =>
      if segment = [] ∨ segment = ['.'] then normalizeSegments segments rest
      else if segment = ['.', '.'] then
        if segments = [] then none else normalizeSegments segments.dropLast rest
      else normalizeSegments (segments ++ [segment]) rest

def normalizeContractPath (path : String) : Except String String :=
  let trimmed := trim path
  if trimmed = "" then .error "path is required"
  else
    let unixLike := trimmed.toList.map fun c => if c = '\\' then '/' else c
    if unixLike.head? ≠ some '/' then
      .error ("path must be absolute: " ++ platform.debugText trimmed)
    else
      match normalizeSegments [] (unixLike.splitOn '/') with
      | none => .error ("path escapes root: " ++ platform.debugText trimmed)
      | some [] => .ok "/"
      | some segments => .ok (String.ofList ('/' :: ['/'].intercalate segments))

def isUnderRoot (path root : String) : Bool :=
  path = root ||
    (root.toList.isPrefixOf path.toList &&
      (path.toList.drop root.toList.length).head? = some '/')

def rejectDenied (path : String) : Except String Unit :=
  if deniedRoots.any (isUnderRoot path) then .error ("denied path: " ++ path) else .ok ()

def requireReadable (path : String) : Except String Unit :=
  if allowedReadRoots.any (isUnderRoot path) then .ok ()
  else .error ("read path outside allowlist: " ++ path)

def requireWritable (path : String) : Except String Unit :=
  if allowedWriteRoots.any (isUnderRoot path) then .ok ()
  else .error ("write path outside allowlist: " ++ path)

def validateFilePaths (sourcePath targetPath : String) : Except String Unit := do
  [sourcePath, targetPath].forM rejectDenied
  requireReadable sourcePath
  requireWritable targetPath

def validateReadOnlyPath (path : String) : Except String Unit := do
  rejectDenied path
  requireReadable path

end Paths

section Extraction

variable (platform : Platform)

def validateServiceName (serviceName : String) : Except String Unit :=
  if serviceName = "" then .error "service_name is required"
  else if 64 < serviceName.utf8ByteSize ∨ !serviceName.toList.all serviceNameChar then
    .error ("invalid service name: " ++ platform.debugText serviceName)
  else .ok ()

def extractServiceName (action : Action) : Except String String :=
  match (action.resource.get "service_name").bind asStr with
  | none => .error "service_name is required"
  | some serviceName => do
      validateServiceName platform serviceName
      return serviceName

def resourceText (action : Action) (key : String) : Option String :=
  (action.resource.get key).bind asStr

def firstPath (action : Action) : Option String :=
  (((action.resource.get "paths").bind asArray).bind List.head?).bind asStr

def recursiveFlag (action : Action) : Bool :=
  ((action.args.get "recursive").bind asBool).getD false

def okOr {α : Type} (message : String) : Option α → Except String α
  | some a => .ok a
  | none => .error message

def extractFileOperationContext (action : Action) : Except String FileOperationContext := do
  let sourcePath ← okOr "files action requires resource.paths[0] or resource.source"
    (((firstPath action).or (resourceText action "source")).or (resourceText action "src"))
  let targetPath ← okOr "files action requires resource.target or resource.destination"
    (((resourceText action "target").or (resourceText action "destination")).or
      (resourceText action "dst"))
  let sourcePath ← normalizeContractPath platform sourcePath
  let targetPath ← normalizeContractPath platform targetPath
  validateFilePaths sourcePath targetPath
  return { sourcePath, targetPath, recursive := recursiveFlag action }

def rejectDestination (action : Action) : Except String Unit :=
  if (action.resource.get "target").isSome || (action.resource.get "destination").isSome ||
      (action.resource.get "dst").isSome then
    .error "read-only file operations cannot include destination fields"
  else .ok ()

def readTextBytes (action : Action) : Except String UInt64 :=
  let maxBytes := ((action.args.get "max_bytes").bind asU64).getD defaultReadTextBytes
  if maxBytes = 0 ∨ maxReadTextBytes < maxBytes then
    .error ("read_text max_bytes must be between 1 and " ++ toString maxReadTextBytes.toNat)
  else .ok maxBytes

def extractReadOnlyFileOperationContext (action : Action) :
    Except String ReadOnlyFileOperationContext := do
  rejectDestination action
  let path ← okOr "read-only files action requires resource.path or resource.paths[0]"
    ((((firstPath action).or (resourceText action "path")).or
      (resourceText action "source")).or (resourceText action "src"))
  let path ← normalizeContractPath platform path
  validateReadOnlyPath path
  let maxBytes ← readTextBytes action
  return { path, recursive := recursiveFlag action, maxBytes }

def isReadOnlyFileOperation (operation : String) : Bool :=
  operation = "list" || operation = "stat" || operation = "read_text"

end Extraction

def enableFlag (args : Value) : Bool :=
  ((args.get "enable").bind asBool).getD true

def serviceControl (control serviceName : String) : String × Value :=
  ("service.control", array [string control, string serviceName, obj []])

def serviceUpdate (serviceName : String) (args : Value) : String × Value :=
  ("service.update", array [string serviceName, obj [("enable", .bool (enableFlag args))]])

def mapServiceOperation (operation serviceName : String) (args : Value) :
    Except String (String × Value) :=
  match operation with
  | "status" => .ok ("service.query", array [string serviceName])
  | "start" => .ok (serviceControl "START" serviceName)
  | "stop" => .ok (serviceControl "STOP" serviceName)
  | "restart" => .ok (serviceControl "RESTART" serviceName)
  | "enable" => .ok (serviceUpdate serviceName args)
  | _ => .error ("Unmapped service operation: " ++ operation)

def mapWsServiceOperation (operation serviceName : String) (args : Value) :
    Except String (String × Value) :=
  match operation with
  | "status" =>
      .ok ("service.query",
        array
          [array [array [string "service", string "=", string serviceName]],
           obj [("select", ofStrings ["service", "state", "enable"])]])
  | "start" => .ok (serviceControl "START" serviceName)
  | "stop" => .ok (serviceControl "STOP" serviceName)
  | "restart" => .ok (serviceControl "RESTART" serviceName)
  | "enable" => .ok (serviceUpdate serviceName args)
  | _ => .error ("unsupported ws service operation: " ++ operation)

def mapFilesOperation (operation : String) (fileCtx : FileOperationContext) :
    Except String (String × Value) :=
  match operation with
  | "copy" =>
      .ok ("filesystem.copy",
        array
          [string fileCtx.sourcePath, string fileCtx.targetPath,
           obj [("recursive", .bool fileCtx.recursive), ("preserve_attrs", .bool false)]])
  | "move" =>
      .ok ("filesystem.move",
        array
          [array [string fileCtx.sourcePath], string fileCtx.targetPath,
           obj [("recursive", .bool fileCtx.recursive)]])
  | _ => .error ("Unmapped file operation: " ++ operation)

def mapWsFileOperation (operation : String) (fileCtx : FileOperationContext) :
    Except String (String × Value) :=
  mapFilesOperation operation fileCtx

def mapReadOnlyFilesOperation (operation : String) (fileCtx : ReadOnlyFileOperationContext) :
    Except String (String × Value) :=
  match operation with
  | "list" =>
      .ok ("filesystem.listdir",
        array
          [string fileCtx.path,
           obj [("recursive", .bool fileCtx.recursive), ("limit", number (.unsigned 200))]])
  | "stat" => .ok ("filesystem.stat", array [string fileCtx.path])
  | "read_text" =>
      .ok ("filesystem.read_text",
        array
          [string fileCtx.path, obj [("max_bytes", number (.unsigned fileCtx.maxBytes))]])
  | _ => .error ("Unmapped read-only file operation: " ++ operation)

def buildReadOnlyPreviewContext (operation : String) (fileCtx : ReadOnlyFileOperationContext) :
    Value :=
  structObj
    [("path", some (string fileCtx.path)),
     ("normalized_path", some (string fileCtx.path)),
     ("preview_kind", some (string operation)),
     ("read_only", some (.bool true)),
     ("recursive", if fileCtx.recursive then some (.bool true) else none),
     ("max_bytes",
       if operation = "read_text" then some (number (.unsigned fileCtx.maxBytes)) else none)]

def fileContextValue (fileCtx : FileOperationContext) : Value :=
  obj
    [("source_path", string fileCtx.sourcePath),
     ("target_path", string fileCtx.targetPath),
     ("recursive", .bool fileCtx.recursive)]

def buildMidcliServiceCommand (operation serviceName : String) (args : Value) :
    Except String (List String) :=
  match operation with
  | "status" => .ok ["service", serviceName, "show"]
  | "start" => .ok ["service", "start", "service=" ++ serviceName]
  | "stop" => .ok ["service", "stop", "service=" ++ serviceName]
  | "restart" => .ok ["service", "restart", "service=" ++ serviceName]
  | "enable" =>
      .ok ["service", "update", "id_or_name=" ++ serviceName,
        "enable=" ++ toString (enableFlag args)]
  | _ => .error ("Unmapped midcli operation: " ++ operation)

def recursiveOption (recursive : Bool) : List String :=
  if recursive then ["recursive=true"] else []

def buildMidcliFilesCommand (operation : String) (fileCtx : FileOperationContext) :
    Except String (List String) :=
  match operation with
  | "copy" =>
      .ok (["filesystem", "copy", "src=" ++ fileCtx.sourcePath, "dst=" ++ fileCtx.targetPath] ++
        recursiveOption fileCtx.recursive)
  | "move" =>
      .ok (["filesystem", "move", "src=" ++ fileCtx.sourcePath, "dst=" ++ fileCtx.targetPath] ++
        recursiveOption fileCtx.recursive)
  | _ => .error ("Unmapped midcli operation: " ++ operation)

def buildMidcliReadOnlyFilesCommand (operation : String)
    (fileCtx : ReadOnlyFileOperationContext) : Except String (List String) :=
  match operation with
  | "list" =>
      .ok (["filesystem", "listdir", "path=" ++ fileCtx.path] ++
        recursiveOption fileCtx.recursive)
  | "stat" => .ok ["filesystem", "stat", "path=" ++ fileCtx.path]
  | "read_text" =>
      .ok ["filesystem", "read_text", "path=" ++ fileCtx.path,
        "max_bytes=" ++ toString fileCtx.maxBytes.toNat]
  | _ => .error ("Unmapped midcli read-only operation: " ++ operation)

section Planners

variable (platform : Platform)

/-- The part that the planners share: what is read from the action, and for each kind of
action what is made of it, together with the context that describes it. -/
def plan {α : Type} (service : String → Value → String → Except String α)
    (files : String → FileOperationContext → Except String α)
    (readOnlyFiles : String → ReadOnlyFileOperationContext → Except String α)
    (action : Action) : Except String (α × Value) :=
  match action.domain with
  | "service" => do
      let serviceName ← extractServiceName platform action
      let planned ← service action.operation action.args serviceName
      return (planned, obj [("service_name", string serviceName)])
  | "files" =>
      if isReadOnlyFileOperation action.operation then do
        let fileCtx ← extractReadOnlyFileOperationContext platform action
        let planned ← readOnlyFiles action.operation fileCtx
        return (planned, buildReadOnlyPreviewContext action.operation fileCtx)
      else do
        let fileCtx ← extractFileOperationContext platform action
        let planned ← files action.operation fileCtx
        return (planned, fileContextValue fileCtx)
  | other => .error ("unsupported harbor domain: " ++ other)

def middlewarePlan (action : Action) : Except String ((String × Value) × Value) :=
  plan platform (fun operation args serviceName => mapServiceOperation operation serviceName args)
    mapFilesOperation mapReadOnlyFilesOperation action

def midcliPlan (action : Action) : Except String (List String × Value) :=
  plan platform
    (fun operation args serviceName => buildMidcliServiceCommand operation serviceName args)
    buildMidcliFilesCommand buildMidcliReadOnlyFilesCommand action

def wsPlan (action : Action) : Except String ((String × Value) × Value) :=
  plan platform
    (fun operation args serviceName => mapWsServiceOperation operation serviceName args)
    mapWsFileOperation mapReadOnlyFilesOperation action

def mapHttpServiceOperation (baseUrl operation serviceName : String) (args : Value) :
    Except String (String × String × Option Value) :=
  match operation with
  | "status" => .ok ("GET", baseUrl ++ "/api/v2.0/service/id/" ++ serviceName, none)
  | "start" =>
      .ok ("POST", baseUrl ++ "/api/v2.0/service/start",
        some (obj [("service", string serviceName)]))
  | "stop" =>
      .ok ("POST", baseUrl ++ "/api/v2.0/service/stop",
        some (obj [("service", string serviceName)]))
  | "restart" =>
      .ok ("POST", baseUrl ++ "/api/v2.0/service/restart",
        some (obj [("service", string serviceName)]))
  | "enable" =>
      .ok ("PUT", baseUrl ++ "/api/v2.0/service/id/" ++ serviceName,
        some (obj [("enable", .bool (enableFlag args))]))
  | _ => .error ("unsupported service operation: " ++ operation)

def httpPlan (baseUrl : String) (action : Action) :
    Except String (String × String × Option Value) := do
  let serviceName ← extractServiceName platform action
  mapHttpServiceOperation baseUrl action.operation serviceName action.args

end Planners

/-- `str::replace`: `skip` characters of an occurrence are still to be left out. -/
def replaceFrom (pattern replacement : List Char) : Nat → List Char → List Char
  | _, [] => []
  | skip + 1, _ :: rest => replaceFrom pattern replacement skip rest
  | 0, c :: rest =>
      if pattern.isPrefixOf (c :: rest) then
        replacement ++ replaceFrom pattern replacement (pattern.length - 1) rest
      else c :: replaceFrom pattern replacement 0 rest

def websocketUrl (baseUrl : String) : String :=
  let secure := replaceFrom "https://".toList "wss://".toList 0 (trimEndSlashes baseUrl).toList
  String.ofList (replaceFrom "http://".toList "ws://".toList 0 secure) ++ "/websocket"

section Executors

/-- What an executor does outside the process. -/
inductive Effect where
  | httpRequest (method url authHeader : String) (body : Option Value)
  | wsConnect (url : String)
  | wsSend (message : Value)
  | wsClose
  | spawn (bin : String) (args : List String)
deriving DecidableEq

structure HttpResponse where
  status : UInt16
  text : String

structure CommandOutput where
  success : Bool
  stdout : String
  stderr : String

/-- The host, as the executors meet it: how it answers after the effects so far, the time
that an execution took, and the variable that makes the preview executor fail. -/
structure HostAnswers where
  httpSend : List Effect → Except String HttpResponse
  wsConnect : List Effect → Except String Unit
  wsSend : List Effect → Except String Unit
  wsRead : List Effect → Except String String
  spawn : List Effect → Except String CommandOutput
  elapsedMs : List Effect → UInt64
  forceMiddlewareError : Option String

abbrev Effectful := ExceptT String (StateM (List Effect))

def liftPlan {α : Type} (planned : Except String α) : Effectful α :=
  ExceptT.mk (pure planned)

def perform {α : Type} (effect : Effect) (answer : List Effect → Except String α)
    (label : String) : Effectful α :=
  ExceptT.mk fun history =>
    match answer (history ++ [effect]) with
    | .ok a => (.ok a, history ++ [effect])
    | .error e => (.error (label ++ e), history ++ [effect])

variable (platform : Platform) (answers : HostAnswers)

def successResult (route : Route) (taskId stepId : String) (durationMs : UInt64)
    (resultPayload : Value) : ExecutionResult where
  taskId := taskId
  stepId := stepId
  executorUsed := route.asStr
  fallbackUsed := false
  status := .success
  durationMs := durationMs
  errorCode := none
  errorMessage := none
  auditRef := ""
  resultPayload := resultPayload

def succeed (route : Route) (taskId stepId : String) (resultPayload : Value) :
    Effectful ExecutionResult := do
  return successResult route taskId stepId (answers.elapsedMs (← get)) resultPayload

def effectfulExecutor (route : Route) (supports : Action → Bool)
    (run : Action → String → String → Effectful ExecutionResult) :
    Executor (List Effect) where
  route := route
  supports := fun action _ => supports action
  isAvailable := fun _ => true
  run := fun action taskId stepId history => (run action taskId stepId).run history

def isHarborDomain (action : Action) : Bool :=
  action.domain = "service" || action.domain = "files"

def middlewareRun (action : Action) (taskId stepId : String) : Effectful ExecutionResult := do
  if answers.forceMiddlewareError = some "1" then
    throw "forced middleware failure"
  else
    let ((method, callArgs), context) ← liftPlan (middlewarePlan platform action)
    succeed answers .middlewareApi taskId stepId
      (obj
        [("method", string method), ("args", callArgs), ("context", context),
         ("note", string "middleware_api preview mode")])

def middlewareExecutor : Executor (List Effect) :=
  effectfulExecutor .middlewareApi isHarborDomain (middlewareRun platform answers)

def midcliRun (bin : String) (passthrough : Bool) (action : Action) (taskId stepId : String) :
    Effectful ExecutionResult := do
  let (command, context) ← liftPlan (midcliPlan platform action)
  if passthrough then
    let output ← perform (.spawn bin command) answers.spawn "midcli spawn error: "
    if !output.success then
      throw ("midcli command failed: " ++ output.stderr)
    else
      succeed answers .midcli taskId stepId
        (obj
          [("stdout", string output.stdout), ("command", ofStrings command),
           ("passthrough", .bool true)])
  else
    succeed answers .midcli taskId stepId
      (obj
        [("command", ofStrings command), ("context", context),
         ("passthrough", .bool false), ("note", string "midcli preview mode")])

def midcliExecutor (bin : String) (passthrough : Bool) : Executor (List Effect) :=
  effectfulExecutor .midcli isHarborDomain (midcliRun platform answers bin passthrough)

def httpRun (baseUrl authHeader : String) (action : Action) (taskId stepId : String) :
    Effectful ExecutionResult := do
  let (method, url, body) ← liftPlan (httpPlan platform baseUrl action)
  if action.dryRun then
    succeed answers .middlewareApi taskId stepId
      (obj
        [("dry_run", .bool true), ("method", string method), ("url", string url),
         ("body", body.getD .null)])
  else
    let response ← perform (.httpRequest method url authHeader body) answers.httpSend
      ("HTTP " ++ method ++ " failed: ")
    if 400 ≤ response.status then
      throw ("API returned HTTP " ++ toString response.status.toNat ++ ": " ++
        String.ofList (response.text.toList.take 500))
    succeed answers .middlewareApi taskId stepId
      (obj
        [("http_status", encodeU16 response.status), ("method", string method),
         ("url", string url),
         ("response",
           (platform.parseJson response.text).getD (obj [("raw", string response.text)]))])

def httpExecutor (baseUrl apiKey : String) : Except String (Executor (List Effect)) :=
  match platform.buildClient with
  | .error e => .error ("failed to build HTTP client: " ++ e)
  | .ok () =>
      match platform.headerValue ("Bearer " ++ apiKey) with
      | .error e => .error ("invalid api key header: " ++ e)
      | .ok authHeader =>
          .ok <| effectfulExecutor .middlewareApi (fun action => action.domain = "service")
            (httpRun platform answers (trimEndSlashes baseUrl) authHeader)

def readMessage (label : String) : Effectful Value := do
  match answers.wsRead (← get) with
  | .ok text => return (platform.parseJson text).getD .null
  | .error e => throw (label ++ e)

def connectAndAuth (wsUrl username password : String) : Effectful Unit := do
  perform (.wsConnect wsUrl) answers.wsConnect "ws connect failed: "
  perform
    (.wsSend (obj
      [("msg", string "connect"), ("version", string "1"), ("support", ofStrings ["1"])]))
    answers.wsSend "ws handshake send failed: "
  let hsJson ← readMessage platform answers "ws handshake recv failed: "
  if (hsJson.get "msg").bind asStr ≠ some "connected" then
    throw ("ws handshake unexpected: " ++ platform.printJson hsJson)
  perform
    (.wsSend (obj
      [("id", number (.unsigned 1)), ("msg", string "method"),
       ("method", string "auth.login"), ("params", ofStrings [username, password])]))
    answers.wsSend "ws auth send failed: "
  let authJson ← readMessage platform answers "ws auth recv failed: "
  if (authJson.get "msg").bind asStr ≠ some "result" then
    throw ("ws auth failed: " ++ platform.printJson authJson)
  if (authJson.get "result").getD .null ≠ .bool true then
    throw ("ws auth rejected: " ++ platform.printJson authJson)

def wsCall (method : String) (params : Value) : Effectful Value := do
  perform
    (.wsSend (obj
      [("id", number (.unsigned 2)), ("msg", string "method"), ("method", string method),
       ("params", params)]))
    answers.wsSend "ws call send failed: "
  let respJson ← readMessage platform answers "ws call recv failed: "
  if (respJson.get "msg").bind asStr ≠ some "result" then
    throw ("ws method call failed: " ++ platform.printJson respJson)
  match respJson.get "error" with
  | some err => throw ("ws method error: " ++ platform.printJson err)
  | none => return (respJson.get "result").getD .null

def wsRun (wsUrl username password : String) (action : Action) (taskId stepId : String) :
    Effectful ExecutionResult := do
  let ((method, params), context) ← liftPlan (wsPlan platform action)
  if action.dryRun then
    succeed answers .middlewareApi taskId stepId
      (obj
        [("dry_run", .bool true), ("transport", string "websocket"),
         ("method", string method), ("params", params), ("context", context)])
  else
    connectAndAuth platform answers wsUrl username password
    let result ← wsCall platform answers method params
    modify (· ++ [.wsClose])
    succeed answers .middlewareApi taskId stepId
      (obj
        [("transport", string "websocket"), ("method", string method), ("context", context),
         ("response", result)])

/-- `MiddlewareWsExecutor::new`. -/
def wsExecutor (baseUrl username password : String) : Executor (List Effect) :=
  effectfulExecutor .middlewareApi isHarborDomain
    (wsRun platform answers (websocketUrl baseUrl) username password)

def middlewareExecutors (config : HarborExecutorConfig) :
    Except String (List (Executor (List Effect))) :=
  if config.disableMiddleware then .ok []
  else
    match config.harborUrl with
    | none => .ok [middlewareExecutor platform answers]
    | some url =>
        match config.harborApiKey with
        | some apiKey => (httpExecutor platform answers url apiKey).map fun executor => [executor]
        | none =>
            match config.harborUser, config.harborPassword with
            | some user, some password => .ok [wsExecutor platform answers url user password]
            | _, _ => .error "harbor_url requires harbor_api_key or harbor_user/harbor_password"

def midcliExecutors (config : HarborExecutorConfig) : List (Executor (List Effect)) :=
  if config.disableMidcli then []
  else [midcliExecutor platform answers config.midcliBin config.midcliPassthrough]

def registerHarborExecutors (router : Router (List Effect)) (config : HarborExecutorConfig) :
    Except String (Router (List Effect)) := do
  let middleware ← middlewareExecutors platform answers config
  return (middleware ++ midcliExecutors platform answers config).foldl Router.register router

end Executors

end HarborBeacon.HarborOps
