import HarborBeacon.NamedFiles

/-!
The files of the knowledge index. They lie in one directory, their names are made from the name of
the file they belong to, and a metadata file is replaced through a temporary file and a backup.
-/

namespace HarborBeacon.KnowledgeFiles

open FileProgram NamedFiles TextEncoding

variable {ι : Type} {c : Char} {extension : String}

structure FilePath where
  parent : String
  fileName : String
deriving DecidableEq

def FilePath.display (path : FilePath) : String :=
  path.parent ++ "/" ++ path.fileName

/-- `path.parent().join(name)`. -/
def FilePath.sibling (path : FilePath) (name : String) : FilePath :=
  { path with fileName := name }

/-- `Path::file_stem` of a name that is no `..`: what comes before the last dot, if anything. -/
def fileStem (name : String) : String :=
  let before := ((name.toList.reverse.dropWhile (· ≠ '.')).drop 1).reverse
  if before = [] then name else String.ofList before

def FilePath.withExtension (path : FilePath) (extension : String) : FilePath :=
  path.sibling (fileStem path.fileName ++ "." ++ extension)

def isLastComponent (name : String) : Bool :=
  name ≠ "" && name ≠ "." && name ≠ ".." && !name.toList.contains '/'

def endsWithText (name suffix : String) : Bool :=
  suffix.toList.isSuffixOf name.toList

def fileNameIsSafe (extension fileName : String) : Bool :=
  isLastComponent fileName && endsWithText fileName extension

def generationFileName (sha256 : List UInt8 → List UInt8) (path : FilePath)
    (kind seed extension : String) : String :=
  fileStem path.fileName ++ kind ++ String.ofList (hex ((sha256 (utf8 seed)).take 8)) ++ extension

def rootStorageKey (sha256 : List UInt8 → List UInt8) (root : String) : String :=
  String.ofList (hex (sha256 (utf8 root)))

theorem ne_of_getLast? {a b : String} (h : a.toList.getLast? ≠ b.toList.getLast?) : a ≠ b := by
  rintro rfl
  exact h rfl

theorem getLast?_append (a : String) {b : String} (hb : b.toList.getLast? = some c) :
    (a ++ b).toList.getLast? = some c := by
  rw [String.toList_append, List.getLast?_append, hb]
  rfl

theorem getLast?_withExtension (path : FilePath) (h : extension.toList.getLast? = some c) :
    (path.withExtension extension).fileName.toList.getLast? = some c :=
  getLast?_append _ h

theorem getLast?_generationFileName (sha256 : List UInt8 → List UInt8) (path : FilePath)
    (kind seed : String) (h : extension.toList.getLast? = some c) :
    (generationFileName sha256 path kind seed extension).toList.getLast? = some c :=
  getLast?_append _ h

theorem getLast?_of_endsWithText {name suffix : String} (hends : endsWithText name suffix = true)
    (h : suffix.toList.getLast? = some c) :
    name.toList.getLast? = some c := by
  obtain ⟨front, hname⟩ := List.isSuffixOf_iff_suffix.mp hends
  rw [← hname, List.getLast?_append, h]
  rfl

theorem mem_of_mem_fileStem {name : String} (h : c ∈ (fileStem name).toList) :
    c ∈ name.toList := by
  rw [fileStem] at h
  split at h
  · exact h
  · rw [String.toList_ofList, List.mem_reverse] at h
    have hdropped := List.mem_of_mem_drop h
    exact List.mem_reverse.mp (List.dropWhile_sublist _ |>.subset hdropped)

theorem mem_hexAlphabet_of_mem_hex {bytes : List UInt8} (h : c ∈ hex bytes) :
    c ∈ hexAlphabet := by
  obtain ⟨byte, -, hdigits⟩ := List.mem_flatMap.mp h
  have hlength : hexAlphabet.length = 16 := by decide
  have hbyte := byte.toNat_lt
  simp only [List.mem_cons, List.not_mem_nil, or_false] at hdigits
  rcases hdigits with rfl | rfl
  · exact digit_mem (by omega)
  · exact digit_mem (by omega)

theorem slash_not_mem_hex (bytes : List UInt8) : '/' ∉ hex bytes := fun h =>
  absurd (mem_hexAlphabet_of_mem_hex h) (by decide)

theorem fileNameIsSafe_generationFileName (sha256 : List UInt8 → List UInt8) {path : FilePath}
    {kind seed extension : String} (hpath : '/' ∉ path.fileName.toList) (hkind : '/' ∉ kind.toList)
    (hextension : '/' ∉ extension.toList) (hlast : extension.toList.getLast? = some c)
    (hdot : c ≠ '.') :
    fileNameIsSafe extension (generationFileName sha256 path kind seed extension) = true := by
  have hgenerated := getLast?_generationFileName sha256 path kind seed hlast
  have hslash : '/' ∉ (generationFileName sha256 path kind seed extension).toList := by
    rw [generationFileName, String.toList_append, String.toList_append, String.toList_append,
      String.toList_ofList]
    simp only [List.mem_append, not_or]
    exact ⟨⟨⟨fun h => hpath (mem_of_mem_fileStem h), hkind⟩, slash_not_mem_hex _⟩, hextension⟩
  have hends : endsWithText (generationFileName sha256 path kind seed extension) extension =
      true := by
    rw [endsWithText, List.isSuffixOf_iff_suffix, generationFileName, String.toList_append]
    exact List.suffix_append _ _
  have hother : ∀ name : String, name.toList.getLast? ≠ some c →
      generationFileName sha256 path kind seed extension ≠ name := fun name hname =>
    ne_of_getLast? (by rw [hgenerated]; exact Ne.symm hname)
  have hdotted : ∀ name : String, name.toList.getLast? = some '.' →
      generationFileName sha256 path kind seed extension ≠ name := fun name hname =>
    hother name (by rw [hname]; exact fun h => hdot (Option.some.inj h).symm)
  rw [fileNameIsSafe, hends, Bool.and_true, isLastComponent]
  simp [hother "" (by simp), hdotted "." (by decide), hdotted ".." (by decide), hslash]

section Replacement

def clearStaleBackup (backupPath : FilePath) : Files ι Unit := do
  if ← isFile backupPath.fileName then
    orFail (removeFile backupPath.fileName)
      ("failed to clear stale knowledge index backup " ++ backupPath.display)

def publishOrRollBack (temporaryPath targetPath backupPath : FilePath) : Files ι Unit := do
  match ← ExceptT.lift (renameFile temporaryPath.fileName targetPath.fileName).run with
  | .error error =>
      attempt (renameFile backupPath.fileName targetPath.fileName)
      throw ("failed to publish knowledge index file " ++ targetPath.display ++ ": " ++ error)
  | .ok _ => attempt (removeFile backupPath.fileName)

def replaceFileWithRollback (temporaryPath targetPath : FilePath) : Files ι Unit := do
  if ← isFile targetPath.fileName then
    let backupPath := targetPath.withExtension "json.previous"
    clearStaleBackup backupPath
    orFail (renameFile targetPath.fileName backupPath.fileName)
      ("failed to stage existing knowledge index file " ++ targetPath.display)
    publishOrRollBack temporaryPath targetPath backupPath
  else
    orFail (renameFile temporaryPath.fileName targetPath.fileName)
      ("failed to publish knowledge index file " ++ targetPath.display)

/-- Only the file that is replaced and those that are used for it change. -/
structure Replacing (files : Directory ι) (temporary target backup : String)
    (content : Content ι) (files' : Directory ι) : Prop where
  others : ∀ name, name ≠ temporary → name ≠ target → name ≠ backup → files' name = files name
  target : files' target = files target ∨ files' target = none ∨ files' target = some content

variable {files files' : Directory ι} {temporary target backup : String} {content : Content ι}

theorem replacing_refl : Replacing files temporary target backup content files :=
  ⟨fun _ _ _ _ => rfl, Or.inl rfl⟩

theorem Replacing.update (h : Replacing files temporary target backup content files')
    {name : String} (hname : name = temporary ∨ name = backup) (hne : target ≠ name)
    (value : Option (Content ι)) :
    Replacing files temporary target backup content (Function.update files' name value) := by
  constructor
  · intro other htemporary htarget hbackup
    have hother : other ≠ name := by
      rintro rfl
      exact hname.elim htemporary hbackup
    rw [Function.update_of_ne hother]
    exact h.others other htemporary htarget hbackup
  · rw [Function.update_of_ne hne]
    exact h.target

theorem Replacing.setTarget (h : Replacing files temporary target backup content files')
    {value : Option (Content ι)} (hvalue : value = none ∨ value = some content) :
    Replacing files temporary target backup content (Function.update files' target value) := by
  constructor
  · intro other htemporary htarget hbackup
    rw [Function.update_of_ne htarget]
    exact h.others other htemporary htarget hbackup
  · rw [Function.update_self]
    exact Or.inr hvalue

variable {temporaryPath targetPath backupPath : FilePath} {C : Directory ι → Prop}
  {Q : Unit → Directory ι → Prop}

theorem runs_clearStaleBackup (hC : C files)
    (hC' : C (Function.update files backupPath.fileName none)) :
    Runs (clearStaleBackup backupPath) files C fun _ files' =>
      files' = Function.update files backupPath.fileName none := by
  rw [clearStaleBackup]
  refine runs_seq (runs_isFile hC ?_)
  split
  · exact runs_orFail (runs_removeFile hC hC' rfl)
  · rename_i hnone
    rw [Option.isSome_iff_ne_none, not_not] at hnone
    exact runs_pure hC (by rw [← hnone, Function.update_eq_self])

theorem runs_publishOrRollBack (hsource : files temporaryPath.fileName = some content)
    (hC : C files)
    (hC' : C (Function.update (Function.update files temporaryPath.fileName none)
      targetPath.fileName (some content)))
    (hC'' : C (Function.update (Function.update (Function.update files temporaryPath.fileName none)
      targetPath.fileName (some content)) backupPath.fileName none))
    (hQ : Q () (Function.update (Function.update (Function.update files temporaryPath.fileName none)
      targetPath.fileName (some content)) backupPath.fileName none)) :
    Runs (publishOrRollBack temporaryPath targetPath backupPath) files C Q := by
  have hrename : Safely (renameFile temporaryPath.fileName targetPath.fileName).run files C
      fun result files' => result = .ok () ∧ files' = Function.update
        (Function.update files temporaryPath.fileName none) targetPath.fileName (some content) := by
    refine safely_writeStep hC ?_ ?_
    · intro files' hok
      rw [hsource] at hok
      rw [← Except.ok.inj hok]
      exact ⟨hC', rfl, rfl⟩
    · intro message herror
      rw [hsource] at herror
      cases herror
  rw [publishOrRollBack]
  refine runs_bind (runs_lift hrename) ?_
  rintro _ _ ⟨rfl, rfl⟩
  exact runs_attempt_removeFile hC' hC'' hQ

theorem runs_replaceFileWithRollback
    (hsource : files temporaryPath.fileName = some content)
    (htemporary : temporaryPath.fileName ≠ targetPath.fileName)
    (htemporary' : temporaryPath.fileName ≠ (targetPath.withExtension "json.previous").fileName)
    (htarget : targetPath.fileName ≠ (targetPath.withExtension "json.previous").fileName)
    (hC : ∀ files', Replacing files temporaryPath.fileName targetPath.fileName
      (targetPath.withExtension "json.previous").fileName content files' → C files')
    (hQ : ∀ files', Replacing files temporaryPath.fileName targetPath.fileName
      (targetPath.withExtension "json.previous").fileName content files' →
        files' targetPath.fileName = some content → Q () files') :
    Runs (replaceFileWithRollback temporaryPath targetPath) files C Q := by
  rw [replaceFileWithRollback]
  generalize targetPath.withExtension "json.previous" = backupPath at *
  have hstart : Replacing files temporaryPath.fileName targetPath.fileName backupPath.fileName
    content files := replacing_refl
  refine runs_seq (runs_isFile (hC _ hstart) ?_)
  split
  · -- the old file goes to the backup first
    have hcleared := hstart.update (Or.inr rfl) htarget none
    refine runs_bind (runs_clearStaleBackup (hC _ hstart) (hC _ hcleared)) ?_
    rintro _ _ rfl
    refine runs_seq (runs_orFail (runs_renameFile (hC _ hcleared) fun previous _ => ?_))
    have hstaged := (hcleared.setTarget (Or.inl rfl)).update (Or.inr rfl) htarget (some previous)
    have hmoved := (hstaged.update (Or.inl rfl) htemporary.symm none).setTarget (Or.inr rfl)
    have hdone := hmoved.update (Or.inr rfl) htarget none
    refine ⟨hC _ hstaged,
      runs_publishOrRollBack ?_ (hC _ hstaged) (hC _ hmoved) (hC _ hdone) (hQ _ hdone ?_)⟩
    · rw [Function.update_of_ne htemporary', Function.update_of_ne htemporary,
        Function.update_of_ne htemporary', hsource]
    · rw [Function.update_of_ne htarget, Function.update_self]
  · have hmoved := (hstart.update (Or.inl rfl) htemporary.symm none).setTarget (Or.inr rfl)
    refine runs_orFail (runs_renameFile (hC _ hstart) ?_)
    intro content' hcontent'
    rw [hsource, Option.some.injEq] at hcontent'
    rw [← hcontent']
    exact ⟨hC _ hmoved, hQ _ hmoved (Function.update_self ..)⟩

theorem returns_clearStaleBackup {Q : Unit → Directory ι → Prop}
    (h : Q () (Function.update files backupPath.fileName none)) :
    Returns (clearStaleBackup backupPath) files Q := by
  rw [clearStaleBackup]
  refine returns_seq (returns_isFile ?_)
  split
  · rename_i hstale
    obtain ⟨backup, hbackup⟩ := Option.isSome_iff_exists.mp hstale
    exact returns_orFail (returns_writeStep (by rw [hbackup]) h)
  · rename_i hnone
    rw [Option.isSome_iff_ne_none, not_not] at hnone
    rw [← hnone, Function.update_eq_self] at h
    exact returns_pure h

theorem returns_publishOrRollBack (hsource : files temporaryPath.fileName = some content) :
    Returns (publishOrRollBack temporaryPath targetPath backupPath) files fun _ _ => True := by
  rw [publishOrRollBack]
  have hrename : Returns (renameFile temporaryPath.fileName targetPath.fileName) files
      fun _ _ => True := returns_renameFile hsource trivial
  obtain ⟨_, files₁, hexec, -⟩ := hrename
  exact returns_seq ⟨.ok (), files₁, exec_run_lift hexec, returns_attempt_removeFile trivial⟩

/-- With the temporary file in place, a file is replaced for certain. -/
theorem returns_replaceFileWithRollback
    (hsource : files temporaryPath.fileName = some content)
    (htemporary : temporaryPath.fileName ≠ targetPath.fileName)
    (htemporary' : temporaryPath.fileName ≠ (targetPath.withExtension "json.previous").fileName)
    (htarget : targetPath.fileName ≠ (targetPath.withExtension "json.previous").fileName) :
    Returns (replaceFileWithRollback temporaryPath targetPath) files fun _ _ => True := by
  rw [replaceFileWithRollback]
  generalize targetPath.withExtension "json.previous" = backupPath at *
  refine returns_seq (returns_isFile ?_)
  split
  · rename_i hexists
    obtain ⟨previous, hprevious⟩ := Option.isSome_iff_exists.mp hexists
    rw [← Function.update_of_ne htarget none files] at hprevious
    refine returns_seq (returns_clearStaleBackup (returns_seq (returns_orFail
      (returns_renameFile hprevious (returns_publishOrRollBack (?_ : _ = some content))))))
    rw [Function.update_of_ne htemporary', Function.update_of_ne htemporary,
      Function.update_of_ne htemporary', hsource]
  · exact returns_orFail (returns_renameFile hsource trivial)

end Replacement

end HarborBeacon.KnowledgeFiles
