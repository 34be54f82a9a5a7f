import HarborBeacon.HarborOps
import HarborBeacon.LexicalPath

/-!
The planners of the HarborOS executors on files actions. Read back, the middleware call, the
midcli command and the websocket call are one and the same file operation, and its paths
stay inside the allowed roots.
-/

namespace HarborBeacon.FilePlanners

open HarborOps Json Json.Value LexicalPath LineLog Policy Text

inductive FileOperation where
  | copy (source destination : String) (recursive : Bool)
  | move (source destination : String) (recursive : Bool)
  | list (path : String) (recursive : Bool)
  | stat (path : String)
  | readText (path : String) (maxBytes : UInt64)
deriving DecidableEq

namespace FileOperation

def name : FileOperation → String
  | copy _ _ _ => "copy"
  | move _ _ _ => "move"
  | list _ _ => "list"
  | stat _ => "stat"
  | readText _ _ => "read_text"

def source : FileOperation → String
  | copy source _ _ => source
  | move source _ _ => source
  | list path _ => path
  | stat path => path
  | readText path _ => path

def destination : FileOperation → Option String
  | copy _ destination _ => some destination
  | move _ destination _ => some destination
  | _ => none

end FileOperation

def readMiddlewareCall : String × Value → Option FileOperation
  | ("filesystem.copy", .array [.string source, .string destination, options]) =>
      ((options.get "recursive").bind asBool).map (.copy source destination)
  | ("filesystem.move", .array [.array [.string source], .string destination, options]) =>
      ((options.get "recursive").bind asBool).map (.move source destination)
  | ("filesystem.listdir", .array [.string path, options]) =>
      ((options.get "recursive").bind asBool).map (.list path)
  | ("filesystem.stat", .array [.string path]) => some (.stat path)
  | ("filesystem.read_text", .array [.string path, options]) =>
      ((options.get "max_bytes").bind asU64).map (.readText path)
  | _ => none

def argument (key text : String) : Option String :=
  if key.toList.isPrefixOf text.toList then
    some (String.ofList (text.toList.drop key.toList.length))
  else none

def readRecursive : List String → Option Bool
  | [] => some false
  | ["recursive=true"] => some true
  | _ => none

def readNumber (text : String) : UInt64 :=
  UInt64.ofNat (Nat.ofDigitChars 10 text.toList 0)

def readMidcliCommand : List String → Option FileOperation
  | "filesystem" :: "copy" :: source :: destination :: options => do
      return .copy (← argument "src=" source) (← argument "dst=" destination)
        (← readRecursive options)
  | "filesystem" :: "move" :: source :: destination :: options => do
      return .move (← argument "src=" source) (← argument "dst=" destination)
        (← readRecursive options)
  | "filesystem" :: "listdir" :: path :: options => do
      return .list (← argument "path=" path) (← readRecursive options)
  | ["filesystem", "stat", path] => (argument "path=" path).map .stat
  | ["filesystem", "read_text", path, maxBytes] => do
      return .readText (← argument "path=" path) (readNumber (← argument "max_bytes=" maxBytes))
  | _ => none

/-- An absolute path leads to a place at or below a root. The root directory itself stands
for that one place, since every place is below it. -/
def LiesUnder (root path : String) : Prop :=
  path.toList.head? = some '/' ∧
    (resolve path.toList = resolve root.toList ∨
      (resolve root.toList ≠ [] ∧ resolve root.toList <+: resolve path.toList))

def Readable (path : String) : Prop :=
  (∃ root ∈ allowedReadRoots, LiesUnder root path) ∧ ∀ root ∈ deniedRoots, ¬ LiesUnder root path

def Writable (path : String) : Prop :=
  (∃ root ∈ allowedWriteRoots, LiesUnder root path) ∧
    ∀ root ∈ deniedRoots, ¬ LiesUnder root path

def FileOperation.WithinRoots (operation : FileOperation) : Prop :=
  Readable operation.source ∧ ∀ destination ∈ operation.destination, Writable destination

def Normal (path : String) : Prop :=
  ∃ names, (∀ name ∈ names, IsName name) ∧ path.toList = spell names

theorem isUnderRoot_iff (path root : String) :
    isUnderRoot path root = true ↔
      path.toList = root.toList ∨ root.toList ++ ['/'] <+: path.toList := by
  simp only [isUnderRoot, Bool.or_eq_true, decide_eq_true_eq, Bool.and_eq_true,
    List.isPrefixOf_iff_prefix, String.toList_inj]
  apply or_congr_right
  constructor
  · rintro ⟨⟨rest, hrest⟩, hslash⟩
    rw [← hrest, List.drop_left] at hslash
    obtain ⟨tail, rfl⟩ := List.head?_eq_some_iff.mp hslash
    exact ⟨tail, by rw [← hrest, List.append_assoc, List.singleton_append]⟩
  · rintro ⟨rest, hrest⟩
    rw [List.append_assoc, List.singleton_append] at hrest
    refine ⟨⟨_, hrest⟩, ?_⟩
    rw [← hrest, List.drop_left]
    rfl

theorem isUnderRoot_iff_liesUnder {path root : String} (hpath : Normal path)
    (hroot : Normal root) : isUnderRoot path root = true ↔ LiesUnder root path := by
  obtain ⟨names, hnames, hpath⟩ := hpath
  obtain ⟨roots, hroots, hroot⟩ := hroot
  rw [isUnderRoot_iff, LiesUnder, hpath, hroot, resolve_spell hnames, resolve_spell hroots]
  have habsolute : (spell names).head? = some '/' := rfl
  by_cases hne : roots = []
  · subst hne
    rw [spell_under_top_iff hnames]
    simp [habsolute]
  · rw [spell_under_iff hne hroots hnames]
    simp only [habsolute, hne, ne_eq, not_false_eq_true, true_and, iff_or_self]
    rintro rfl
    exact List.prefix_refl _

theorem normalizeSegments_isName {segments rest result : List (List Char)}
    (hsegments : ∀ segment ∈ segments, IsName segment) (hrest : ∀ segment ∈ rest, '/' ∉ segment)
    (h : normalizeSegments segments rest = some result) : ∀ segment ∈ result, IsName segment := by
  induction rest generalizing segments with
  | nil =>
      obtain rfl := Option.some.inj h
      exact hsegments
  | cons segment rest ih =>
      rw [List.forall_mem_cons] at hrest
      rw [normalizeSegments] at h
      split_ifs at h with hskip hup htop
      · exact ih hsegments hrest.2 h
      · exact ih (fun name hname => hsegments name (List.dropLast_subset _ hname)) hrest.2 h
      · rw [not_or] at hskip
        refine ih ?_ hrest.2 h
        intro name hname
        rcases List.mem_append.mp hname with hold | hnew
        · exact hsegments name hold
        · obtain rfl := List.mem_singleton.mp hnew
          exact ⟨hskip.1, hskip.2, hup, hrest.1⟩

theorem normal_of_normalizeContractPath {platform : Platform} {path normalized : String}
    (h : normalizeContractPath platform path = .ok normalized) : Normal normalized := by
  simp only [normalizeContractPath] at h
  split_ifs at h
  split at h
  · simp at h
  · obtain rfl := Except.ok.inj h
    exact ⟨[], by simp, by decide⟩
  · rename_i segments _ hsegments
    obtain rfl := Except.ok.inj h
    refine ⟨segments, ?_, String.toList_ofList⟩
    exact normalizeSegments_isName (by simp) (fun _ hmem => not_mem_of_mem_splitOn hmem) hsegments

theorem normal_of_mem_roots {root : String}
    (h : root ∈ allowedReadRoots ++ allowedWriteRoots ++ deniedRoots) : Normal root := by
  have hall : ∀ root ∈ allowedReadRoots ++ allowedWriteRoots ++ deniedRoots,
      (∀ name ∈ resolve root.toList,
        name ≠ [] ∧ name ≠ ['.'] ∧ name ≠ ['.', '.'] ∧ '/' ∉ name) ∧
        root.toList = spell (resolve root.toList) := by decide
  exact ⟨_, hall root h⟩

variable {path : String}

theorem not_liesUnder_of_rejectDenied (hpath : Normal path) (h : rejectDenied path = .ok ()) :
    ∀ root ∈ deniedRoots, ¬ LiesUnder root path := by
  intro root hroot hunder
  have hnormal := normal_of_mem_roots (List.mem_append_right _ hroot)
  have hdenied : deniedRoots.any (isUnderRoot path) = true :=
    List.any_eq_true.mpr ⟨root, hroot, (isUnderRoot_iff_liesUnder hpath hnormal).mpr hunder⟩
  simp [rejectDenied, hdenied] at h

theorem liesUnder_of_any (hpath : Normal path) {roots : List String}
    (hroots : ∀ root ∈ roots, Normal root) (h : roots.any (isUnderRoot path) = true) :
    ∃ root ∈ roots, LiesUnder root path := by
  obtain ⟨root, hroot, hunder⟩ := List.any_eq_true.mp h
  exact ⟨root, hroot, (isUnderRoot_iff_liesUnder hpath (hroots root hroot)).mp hunder⟩

theorem readable_of_checks (hpath : Normal path) (hdenied : rejectDenied path = .ok ())
    (hread : requireReadable path = .ok ()) :
    Readable path := by
  refine ⟨?_, not_liesUnder_of_rejectDenied hpath hdenied⟩
  apply liesUnder_of_any hpath fun root hroot => normal_of_mem_roots (by simp [hroot])
  by_contra hnone
  simp [requireReadable, hnone] at hread

theorem writable_of_checks (hpath : Normal path) (hdenied : rejectDenied path = .ok ())
    (hwrite : requireWritable path = .ok ()) :
    Writable path := by
  refine ⟨?_, not_liesUnder_of_rejectDenied hpath hdenied⟩
  apply liesUnder_of_any hpath fun root hroot => normal_of_mem_roots (by simp [hroot])
  by_contra hnone
  simp [requireWritable, hnone] at hwrite

theorem ok_of_bind {α β : Type} {x : Except String α} {f : α → Except String β} {b : β}
    (h : (x >>= f) = .ok b) : ∃ a, x = .ok a ∧ f a = .ok b := by
  cases x with
  | error e => simp [bind, Except.bind] at h
  | ok a => exact ⟨a, rfl, h⟩

theorem readable_writable_of_extract {platform : Platform} {action : Action}
    {fileCtx : FileOperationContext}
    (h : extractFileOperationContext platform action = .ok fileCtx) :
    Readable fileCtx.sourcePath ∧ Writable fileCtx.targetPath := by
  unfold extractFileOperationContext at h
  obtain ⟨source, -, h⟩ := ok_of_bind h
  obtain ⟨target, -, h⟩ := ok_of_bind h
  obtain ⟨sourcePath, hsource, h⟩ := ok_of_bind h
  obtain ⟨targetPath, htarget, h⟩ := ok_of_bind h
  obtain ⟨_, hvalid, h⟩ := ok_of_bind h
  obtain rfl := Except.ok.inj h
  obtain ⟨_, hdenied, hvalid⟩ := ok_of_bind hvalid
  obtain ⟨_, hread, hwrite⟩ := ok_of_bind hvalid
  obtain ⟨_, hdeniedSource, hdenied⟩ := ok_of_bind hdenied
  obtain ⟨_, hdeniedTarget, -⟩ := ok_of_bind hdenied
  exact ⟨readable_of_checks (normal_of_normalizeContractPath hsource) hdeniedSource hread,
    writable_of_checks (normal_of_normalizeContractPath htarget) hdeniedTarget hwrite⟩

theorem readable_of_extractReadOnly {platform : Platform} {action : Action}
    {fileCtx : ReadOnlyFileOperationContext}
    (h : extractReadOnlyFileOperationContext platform action = .ok fileCtx) :
    Readable fileCtx.path := by
  unfold extractReadOnlyFileOperationContext at h
  obtain ⟨_, -, h⟩ := ok_of_bind h
  obtain ⟨given, -, h⟩ := ok_of_bind h
  obtain ⟨path, hpath, h⟩ := ok_of_bind h
  obtain ⟨_, hvalid, h⟩ := ok_of_bind h
  obtain ⟨maxBytes, -, h⟩ := ok_of_bind h
  obtain rfl := Except.ok.inj h
  obtain ⟨_, hdenied, hread⟩ := ok_of_bind hvalid
  exact readable_of_checks (normal_of_normalizeContractPath hpath) hdenied hread

section Agreement

variable (platform : Platform)

@[simp] theorem argument_append (key text : String) : argument key (key ++ text) = some text := by
  simp [argument]

@[simp] theorem readRecursive_recursiveOption (recursive : Bool) :
    readRecursive (recursiveOption recursive) = some recursive := by
  cases recursive
  · rfl
  · rfl

@[simp] theorem readNumber_repr (n : UInt64) : readNumber n.toNat.repr = n := by
  have hdigits : n.toNat.repr.toList = Nat.toDigits 10 n.toNat := Nat.toList_repr
  rw [readNumber, hdigits, Nat.ofDigitChars_ten_toDigits, UInt64.ofNat_toNat]

theorem readOnly_mappings_agree (operation : String) (fileCtx : ReadOnlyFileOperationContext)
    (h : isReadOnlyFileOperation operation = true) :
    ∃ planned call command, mapReadOnlyFilesOperation operation fileCtx = .ok call ∧
      buildMidcliReadOnlyFilesCommand operation fileCtx = .ok command ∧
      readMiddlewareCall call = some planned ∧ readMidcliCommand command = some planned ∧
      planned.name = operation ∧ planned.source = fileCtx.path ∧ planned.destination = none := by
  simp only [isReadOnlyFileOperation, Bool.or_eq_true, decide_eq_true_eq] at h
  rcases h with (rfl | rfl) | rfl
  · refine ⟨.list fileCtx.path fileCtx.recursive, _, _, rfl, rfl, ?_, ?_, rfl, rfl, rfl⟩
    · simp [readMiddlewareCall, obj, Value.get, asBool]
    · simp [readMidcliCommand]
  · refine ⟨.stat fileCtx.path, _, _, rfl, rfl, rfl, ?_, rfl, rfl, rfl⟩
    simp [readMidcliCommand]
  · refine ⟨.readText fileCtx.path fileCtx.maxBytes, _, _, rfl, rfl, rfl, ?_, rfl, rfl, rfl⟩
    simp [readMidcliCommand]

theorem files_mappings_agree (operation : String) (fileCtx : FileOperationContext) :
    (∃ planned call command, mapFilesOperation operation fileCtx = .ok call ∧
      buildMidcliFilesCommand operation fileCtx = .ok command ∧
      readMiddlewareCall call = some planned ∧ readMidcliCommand command = some planned ∧
      planned.name = operation ∧ planned.source = fileCtx.sourcePath ∧
      planned.destination = some fileCtx.targetPath) ∨
    ((∃ e, mapFilesOperation operation fileCtx = .error e) ∧
      ∃ e, buildMidcliFilesCommand operation fileCtx = .error e) := by
  by_cases hcopy : operation = "copy"
  · subst hcopy
    refine Or.inl ⟨.copy fileCtx.sourcePath fileCtx.targetPath fileCtx.recursive, _, _, rfl, rfl,
      ?_, ?_, rfl, rfl, rfl⟩
    · simp [readMiddlewareCall, obj, Value.get, asBool]
    · simp [readMidcliCommand]
  by_cases hmove : operation = "move"
  · subst hmove
    refine Or.inl ⟨.move fileCtx.sourcePath fileCtx.targetPath fileCtx.recursive, _, _, rfl, rfl,
      ?_, ?_, rfl, rfl, rfl⟩
    · simp [readMiddlewareCall, obj, Value.get, asBool]
    · simp [readMidcliCommand]
  · refine Or.inr ⟨⟨"Unmapped file operation: " ++ operation, ?_⟩,
      ⟨"Unmapped midcli operation: " ++ operation, ?_⟩⟩
    · simp [mapFilesOperation]
    · simp [buildMidcliFilesCommand]

variable {α : Type} (service : String → Value → String → Except String α)
  (files : String → FileOperationContext → Except String α)
  (readOnlyFiles : String → ReadOnlyFileOperationContext → Except String α) {action : Action}

theorem plan_readOnlyFiles (hfiles : action.domain = "files")
    (hread : isReadOnlyFileOperation action.operation = true) :
    plan platform service files readOnlyFiles action = do
      let fileCtx ← extractReadOnlyFileOperationContext platform action
      let planned ← readOnlyFiles action.operation fileCtx
      return (planned, buildReadOnlyPreviewContext action.operation fileCtx) := by
  simp only [plan, hfiles, hread, if_true]

theorem plan_files (hfiles : action.domain = "files")
    (hwrite : isReadOnlyFileOperation action.operation = false) :
    plan platform service files readOnlyFiles action = do
      let fileCtx ← extractFileOperationContext platform action
      let planned ← files action.operation fileCtx
      return (planned, fileContextValue fileCtx) := by
  simp only [plan, hfiles, hwrite, Bool.false_eq_true, if_false]

/-- Either all three planners refuse an action, or all three ask for the same operation,
whose paths are inside the allowed roots. -/
def PlannersAgree (action : Action) : Prop :=
  ((∃ e, middlewarePlan platform action = .error e) ∧
    (∃ e, midcliPlan platform action = .error e) ∧
    ∃ e, wsPlan platform action = .error e) ∨
  ∃ planned call command wsCall context,
    middlewarePlan platform action = .ok (call, context) ∧
    midcliPlan platform action = .ok (command, context) ∧
    wsPlan platform action = .ok (wsCall, context) ∧
    readMiddlewareCall call = some planned ∧ readMidcliCommand command = some planned ∧
    readMiddlewareCall wsCall = some planned ∧ planned.name = action.operation ∧
    planned.WithinRoots

theorem planners_agree_within_roots (action : Action) (hfiles : action.domain = "files") :
    PlannersAgree platform action := by
  unfold PlannersAgree
  unfold middlewarePlan midcliPlan wsPlan
  cases hread : isReadOnlyFileOperation action.operation with
  | true =>
      rw [plan_readOnlyFiles platform _ _ _ hfiles hread,
        plan_readOnlyFiles platform _ _ _ hfiles hread,
        plan_readOnlyFiles platform _ _ _ hfiles hread]
      cases hctx : extractReadOnlyFileOperationContext platform action with
      | error e => exact Or.inl ⟨⟨e, rfl⟩, ⟨e, rfl⟩, ⟨e, rfl⟩⟩
      | ok fileCtx =>
          obtain ⟨planned, call, command, hcall, hcommand, hreadCall, hreadCommand, hname,
            hsource, hdestination⟩ := readOnly_mappings_agree action.operation fileCtx hread
          refine Or.inr ⟨planned, call, command, call,
            buildReadOnlyPreviewContext action.operation fileCtx, ?_, ?_, ?_, hreadCall,
            hreadCommand, hreadCall, hname, ?_, ?_⟩
          · simp only [bind, Except.bind, hcall]
            rfl
          · simp only [bind, Except.bind, hcommand]
            rfl
          · simp only [bind, Except.bind, hcall]
            rfl
          · rw [hsource]
            exact readable_of_extractReadOnly hctx
          · simp [hdestination]
  | false =>
      rw [plan_files platform _ _ _ hfiles hread, plan_files platform _ _ _ hfiles hread,
        plan_files platform _ _ _ hfiles hread]
      cases hctx : extractFileOperationContext platform action with
      | error e => exact Or.inl ⟨⟨e, rfl⟩, ⟨e, rfl⟩, ⟨e, rfl⟩⟩
      | ok fileCtx =>
          rcases files_mappings_agree action.operation fileCtx with
            ⟨planned, call, command, hcall, hcommand, hreadCall, hreadCommand, hname, hsource,
              hdestination⟩ | ⟨⟨e, hcall⟩, ⟨e', hcommand⟩⟩
          · refine Or.inr ⟨planned, call, command, call, fileContextValue fileCtx, ?_, ?_, ?_,
              hreadCall, hreadCommand, hreadCall, hname, ?_, ?_⟩
            · simp only [bind, Except.bind, hcall]
              rfl
            · simp only [bind, Except.bind, hcommand]
              rfl
            · simp only [bind, Except.bind, mapWsFileOperation, hcall]
              rfl
            · rw [hsource]
              exact (readable_writable_of_extract hctx).1
            · rw [hdestination]
              rintro destination ⟨⟩
              exact (readable_writable_of_extract hctx).2
          · refine Or.inl ⟨⟨e, ?_⟩, ⟨e', ?_⟩, ⟨e, ?_⟩⟩
            · simp only [bind, Except.bind, hcall]
            · simp only [bind, Except.bind, hcommand]
            · simp only [bind, Except.bind, mapWsFileOperation, hcall]

def plainPlatform : Platform where
  debugText := fun text => "\"" ++ text ++ "\""
  parseJson := fun _ => none
  printJson := fun _ => ""
  buildClient := .ok ()
  headerValue := .ok

def copyToAgent : Action where
  domain := "files"
  operation := "copy"
  resource := obj
    [("paths", ofStrings ["/mnt/data/../inbox//file.txt "]),
     ("target", string "/tmp/agent/output/./file.txt/")]
  args := obj [("recursive", .bool true)]
  riskLevel := .medium
  requiresApproval := false
  dryRun := false

theorem planners_agree_copyToAgent :
    midcliPlan plainPlatform copyToAgent =
      .ok (["filesystem", "copy", "src=/mnt/inbox/file.txt", "dst=/tmp/agent/output/file.txt",
          "recursive=true"],
        fileContextValue
          { sourcePath := "/mnt/inbox/file.txt", targetPath := "/tmp/agent/output/file.txt",
            recursive := true }) ∧
      PlannersAgree plainPlatform copyToAgent :=
  ⟨by decide +kernel, planners_agree_within_roots plainPlatform copyToAgent rfl⟩

end Agreement

end HarborBeacon.FilePlanners
