import HarborBeacon.CrashSafety
import HarborBeacon.TextEncoding

/-!
The files of one directory. A program opens, extends, renames and removes files by their names.
Each of these is one step, and bytes are appended one at a time, so that a program that is cut
short may leave any part of them behind.
-/

namespace HarborBeacon.NamedFiles

open FileProgram TextEncoding

/-- What a file holds: bytes, or what another library keeps in a file of its own. -/
inductive Content (ι : Type) where
  | bytes (content : List UInt8)
  | kept (content : ι)

abbrev Directory (ι : Type) : Type :=
  String → Option (Content ι)

abbrev Files (ι α : Type) : Type :=
  ExceptT String (FileProgram (Directory ι) Empty) α

variable {ι α β : Type}

def notFound : String := "No such file or directory (os error 2)"

def invalidArgument : String := "Invalid argument (os error 22)"

def tooLarge : String := "File too large (os error 27)"

def invalidUtf8 : String := "stream did not contain valid UTF-8"

def endOfFile : String := "failed to fill whole buffer"

def maxFileLength : Nat := 2 ^ 63 - 1

def fromExcept (result : Except String α) : Files ι α :=
  ExceptT.mk (done result)

def readStep (f : Directory ι → Except String α) : Files ι α :=
  ExceptT.mk (read f)

def writeStep (f : Directory ι → Except String (Directory ι)) : Files ι Unit :=
  ExceptT.mk (update fun files => (f files).map fun files' => (files', ()))

def isFile (name : String) : Files ι Bool :=
  readStep fun files => .ok (files name).isSome

def bytesOf : Option (Content ι) → Except String (List UInt8)
  | some (.bytes content) => .ok content
  | some (.kept _) => .error invalidArgument
  | none => .error notFound

def readBytes (name : String) : Files ι (List UInt8) :=
  readStep fun files => bytesOf (files name)

/-- `fs::read_to_string`. -/
def readText (name : String) : Files ι String :=
  readStep fun files => do
    let content ← bytesOf (files name)
    match decodeUtf8 content with
    | some text => .ok text
    | none => .error invalidUtf8

def readExact (content : List UInt8) (offset length : Nat) : Except String (List UInt8) :=
  if offset + length ≤ content.length then .ok ((content.drop offset).take length)
  else .error endOfFile

def createFile (name : String) : Files ι Unit :=
  writeStep fun files => .ok (Function.update files name (some (.bytes [])))

def appendByte (name : String) (byte : UInt8) : Files ι Unit :=
  writeStep fun files => do
    let content ← bytesOf (files name)
    if content.length < maxFileLength then
      .ok (Function.update files name (some (.bytes (content ++ [byte]))))
    else .error tooLarge

def appendBytes (name : String) : List UInt8 → Files ι Unit
  | [] => pure ()
  | byte :: rest => do
      appendByte name byte
      appendBytes name rest

def writeFile (name : String) (content : List UInt8) : Files ι Unit := do
  createFile name
  appendBytes name content

/-- `File::set_len`: a longer file is cut, and a shorter one is filled with zeros. -/
def setLength (name : String) (length : Nat) : Files ι Unit :=
  writeStep fun files => do
    let content ← bytesOf (files name)
    .ok (Function.update files name
      (some (.bytes (content.take length ++ List.replicate (length - content.length) 0))))

def keep (name : String) (content : ι) : Files ι Unit :=
  writeStep fun files => .ok (Function.update files name (some (.kept content)))

def renameFile (source target : String) : Files ι Unit :=
  writeStep fun files =>
    match files source with
    | some content => .ok (Function.update (Function.update files source none) target (some content))
    | none => .error notFound

def removeFile (name : String) : Files ι Unit :=
  writeStep fun files =>
    match files name with
    | some _ => .ok (Function.update files name none)
    | none => .error notFound

def copyFile (source target : String) : Files ι Unit := do
  let content ← readBytes source
  writeFile target content

def orFail (x : Files ι α) (message : String) : Files ι α :=
  x.adapt (message ++ ": " ++ ·)

def attempt (x : Files ι Unit) : Files ι Unit :=
  ExceptT.mk (x.run >>= fun _ => pure (.ok ()))

section Runs

/-- Every state on the way satisfies `C`, and a program that returns ends with a result and a
directory that satisfy `Q`. -/
def Runs (x : Files ι α) (files : Directory ι) (C : Directory ι → Prop)
    (Q : α → Directory ι → Prop) : Prop :=
  Safely x.run files C fun result files' => ∀ a, result = .ok a → Q a files'

variable {files : Directory ι} {C : Directory ι → Prop} {Q : α → Directory ι → Prop}
  {f : Directory ι → Except String (Directory ι)} {x : Files ι α} {message : String}

theorem runs_pure {a : α} (hC : C files) (hQ : Q a files) : Runs (pure a) files C Q := by
  refine safely_run_pure hC ?_
  rintro b hb
  rw [← Except.ok.inj hb]
  exact hQ

theorem runs_throw (hC : C files) :
    Runs (throw message : Files ι α) files C Q :=
  safely_run_throw hC fun _ h => by cases h

theorem runs_bind {f : α → Files ι β} {R : α → Directory ι → Prop} {Q : β → Directory ι → Prop}
    (hx : Runs x files C R) (hf : ∀ a files', R a files' → Runs (f a) files' C Q) :
    Runs (x >>= f) files C Q := by
  refine safely_run_bind hx ?_ ?_
  · exact fun a files' hR => hf a files' (hR a rfl)
  · intro message files' _ b hb
    cases hb

/-- What has to hold after the first part is that the rest runs. -/
theorem runs_seq {f : α → Files ι β} {Q : β → Directory ι → Prop}
    (h : Runs x files C fun a files' => Runs (f a) files' C Q) : Runs (x >>= f) files C Q :=
  runs_bind h fun _ _ hf => hf

theorem Runs.mono {C' : Directory ι → Prop} {Q' : α → Directory ι → Prop} (h : Runs x files C Q)
    (hC : ∀ files', C files' → C' files') (hQ : ∀ a files', Q a files' → Q' a files') :
    Runs x files C' Q' :=
  Safely.mono h hC fun _ files' hresult a ha => hQ a files' (hresult a ha)

theorem runs_fromExcept {result : Except String α} (hC : C files)
    (hQ : ∀ a, result = .ok a → Q a files) : Runs (fromExcept result) files C Q :=
  safely_pure hC hQ

theorem runs_readStep {f : Directory ι → Except String α} (hC : C files)
    (hQ : ∀ a, f files = .ok a → Q a files) : Runs (readStep f) files C Q :=
  safely_read hC hQ

theorem safely_writeStep {Q : Except String Unit → Directory ι → Prop} (hC : C files)
    (hok : ∀ files', f files = .ok files' → C files' ∧ Q (.ok ()) files')
    (herror : ∀ message, f files = .error message → Q (.error message) files) :
    Safely (writeStep f).run files C Q := by
  refine ⟨?_, ?_⟩
  · intro visited hvisit
    change visited ∈ (update fun files => (f files).map fun files' => (files', ())).visits files
      at hvisit
    simp only [update, visits] at hvisit
    cases hf : f files with
    | error message =>
        rw [hf] at hvisit
        rw [List.mem_singleton.mp hvisit]
        exact hC
    | ok files' =>
        rw [hf] at hvisit
        rcases List.mem_cons.mp hvisit with rfl | hlast
        · exact hC
        · rw [List.mem_singleton.mp hlast]
          exact (hok files' hf).1
  · have hexec := exec_update (ε := Empty) (fun files => (f files).map fun files' => (files', ()))
      files
    change (writeStep f).run.exec files = _ at hexec
    rw [hexec]
    cases hf : f files with
    | error message => exact herror message hf
    | ok files' => exact (hok files' hf).2

theorem runs_writeStep {Q : Unit → Directory ι → Prop} (hC : C files)
    (h : ∀ files', f files = .ok files' → C files' ∧ Q () files') :
    Runs (writeStep f) files C Q := by
  refine safely_writeStep hC ?_ ?_
  · exact fun files' hf => ⟨(h files' hf).1, fun _ _ => (h files' hf).2⟩
  · exact fun _ _ _ ha => by cases ha

theorem runs_orFail (hx : Runs x files C Q) :
    Runs (orFail x message) files C Q := by
  have horFail : (orFail x message).run =
      x.run >>= fun result => pure (result.mapError (message ++ ": " ++ ·)) :=
    (bind_pure_comp (Except.mapError (message ++ ": " ++ ·)) x.run).symm
  rw [Runs, horFail]
  refine safely_bind (Safely.last hx) ?_
  rintro (error | a) files' ⟨hQ, hC⟩
  · exact safely_pure hC fun _ ha => by cases ha
  · refine safely_pure hC ?_
    rintro b hb
    rw [← Except.ok.inj hb]
    exact hQ a rfl

theorem runs_lift {p : FileProgram (Directory ι) Empty α} (hp : Safely p files C Q) :
    Runs (ExceptT.lift p) files C Q := by
  refine safely_run_lift (hp.mono (fun _ h => h) ?_)
  rintro a files' hQ b hb
  rw [← Except.ok.inj hb]
  exact hQ

theorem runs_attempt {x : Files ι Unit} {R : Directory ι → Prop}
    (hx : Safely x.run files C fun _ files' => R files') :
    Runs (attempt x) files C fun _ files' => R files' := by
  refine safely_bind hx.last ?_
  rintro result files' ⟨hR, hC⟩
  exact safely_pure hC fun _ _ => hR

end Runs

section Operations

variable {files : Directory ι} {C : Directory ι → Prop} {name : String} {bytes : List UInt8}

theorem runs_isFile {Q : Bool → Directory ι → Prop} (hC : C files)
    (hQ : Q (files name).isSome files) : Runs (isFile name) files C Q :=
  runs_readStep hC fun _ h => Except.ok.inj h ▸ hQ

theorem bytesOf_eq_ok {content : Option (Content ι)} (h : bytesOf content = .ok bytes) :
    content = some (.bytes bytes) := by
  rcases content with _ | bytes' | kept
  · cases h
  · rw [Except.ok.inj h]
  · cases h

theorem runs_createFile {Q : Unit → Directory ι → Prop} (hC : C files)
    (hC' : C (Function.update files name (some (.bytes []))))
    (hQ : Q () (Function.update files name (some (.bytes [])))) :
    Runs (createFile name) files C Q :=
  runs_writeStep hC fun _ h => Except.ok.inj h ▸ ⟨hC', hQ⟩

/-- The bytes come to the end of the file one after another. -/
theorem runs_appendBytes {Q : Unit → Directory ι → Prop} {content bytes : List UInt8}
    (hfile : files name = some (.bytes content))
    (hC : ∀ part, part <+: bytes →
      C (Function.update files name (some (.bytes (content ++ part)))))
    (hQ : (content.length ≤ maxFileLength → (content ++ bytes).length ≤ maxFileLength) →
      Q () (Function.update files name (some (.bytes (content ++ bytes))))) :
    Runs (appendBytes name bytes) files C Q := by
  induction bytes generalizing files content with
  | nil =>
      have hsame : Function.update files name (some (.bytes (content ++ []))) = files := by
        rw [List.append_nil, ← hfile, Function.update_eq_self]
      have hnil := hC [] (List.prefix_refl [])
      rw [hsame] at hnil hQ
      exact runs_pure hnil (hQ (by simp))
  | cons byte rest ih =>
      have hsame : Function.update files name (some (.bytes (content ++ []))) = files := by
        rw [List.append_nil, ← hfile, Function.update_eq_self]
      have hnil := hC [] List.nil_prefix
      rw [hsame] at hnil
      have hbyte := hC [byte] ⟨rest, rfl⟩
      refine runs_seq (runs_writeStep hnil fun files' h => ?_)
      rw [hfile] at h
      change (if content.length < maxFileLength then _ else _) = Except.ok files' at h
      split at h
      · rename_i hlength
        rw [← Except.ok.inj h]
        refine ⟨hbyte, ih (Function.update_self ..) ?_ ?_⟩
        · intro part hpart
          rw [Function.update_idem, List.append_assoc]
          exact hC (byte :: part) (List.cons_prefix_cons.mpr ⟨rfl, hpart⟩)
        · intro hrest
          rw [Function.update_idem, List.append_assoc]
          refine hQ fun _ => ?_
          have hstart : (content ++ [byte]).length ≤ maxFileLength := by
            rw [List.length_append]
            exact hlength
          simpa using hrest hstart
      · cases h

theorem runs_writeFile {Q : Unit → Directory ι → Prop} (hC : C files)
    (hC' : ∀ part, part <+: bytes → C (Function.update files name (some (.bytes part))))
    (hQ : bytes.length ≤ maxFileLength →
      Q () (Function.update files name (some (.bytes bytes)))) :
    Runs (writeFile name bytes) files C Q := by
  refine runs_seq (runs_createFile hC (hC' [] List.nil_prefix)
    (runs_appendBytes (Function.update_self ..) ?_ ?_))
  · intro part hpart
    rw [Function.update_idem]
    exact hC' part hpart
  · intro hlength
    rw [Function.update_idem]
    exact hQ (hlength (Nat.zero_le _))

theorem runs_renameFile {Q : Unit → Directory ι → Prop} {source target : String} (hC : C files)
    (h : ∀ content, files source = some content →
      C (Function.update (Function.update files source none) target (some content)) ∧
        Q () (Function.update (Function.update files source none) target (some content))) :
    Runs (renameFile source target) files C Q := by
  refine runs_writeStep hC ?_
  intro files' hrename
  split at hrename
  · rename_i content hsource
    rw [← Except.ok.inj hrename]
    exact h content hsource
  · cases hrename

theorem runs_removeFile {Q : Unit → Directory ι → Prop} (hC : C files)
    (hC' : C (Function.update files name none)) (hQ : Q () (Function.update files name none)) :
    Runs (removeFile name) files C Q := by
  refine runs_writeStep hC ?_
  intro files' hremove
  split at hremove
  · rw [← Except.ok.inj hremove]
    exact ⟨hC', hQ⟩
  · cases hremove

theorem runs_attempt_removeFile {Q : Unit → Directory ι → Prop} (hC : C files)
    (hC' : C (Function.update files name none)) (hQ : Q () (Function.update files name none)) :
    Runs (attempt (removeFile name)) files C Q := by
  have hremove : Safely (removeFile name).run files C fun _ files' =>
      files' = Function.update files name none := by
    refine safely_writeStep hC ?_ ?_
    · intro files' hok
      split at hok
      · rw [← Except.ok.inj hok]
        exact ⟨hC', rfl⟩
      · cases hok
    · intro message herror
      split at herror
      · cases herror
      · rename_i hmissing
        rw [← hmissing, Function.update_eq_self]
  refine (runs_attempt hremove).mono (fun _ h => h) ?_
  rintro _ files' rfl
  exact hQ

end Operations

section Reads

variable {files : Directory ι} {name : String}

theorem exec_readStep (f : Directory ι → Except String α) (files : Directory ι) :
    (readStep f).run.exec files = ⟨files, [], f files⟩ := rfl

theorem exec_isFile (files : Directory ι) (name : String) :
    (isFile name).run.exec files = ⟨files, [], .ok (files name).isSome⟩ := rfl

theorem exec_fromExcept (result : Except String α) (files : Directory ι) :
    (fromExcept result).run.exec files = ⟨files, [], result⟩ := rfl

theorem exec_orFail {x : Files ι α} {result : Except String α} {files' : Directory ι}
    (h : x.run.exec files = ⟨files', [], result⟩) (message : String) :
    (orFail x message).run.exec files = ⟨files', [], result.mapError (message ++ ": " ++ ·)⟩ := by
  have horFail : (orFail x message).run =
      x.run >>= fun result => pure (result.mapError (message ++ ": " ++ ·)) :=
    (bind_pure_comp (Except.mapError (message ++ ": " ++ ·)) x.run).symm
  rw [horFail, exec_bind, h]
  rfl

theorem exec_readBytes {content : List UInt8} (h : files name = some (.bytes content)) :
    (readBytes name).run.exec files = ⟨files, [], .ok content⟩ := by
  rw [readBytes, exec_readStep, h]
  rfl

theorem exec_readText {text : String} (h : files name = some (.bytes (utf8 text))) :
    (readText name).run.exec files = ⟨files, [], .ok text⟩ := by
  rw [readText, exec_readStep, h]
  have hdecoded : (match decodeUtf8 (utf8 text) with
      | some text => Except.ok text
      | none => Except.error invalidUtf8) = .ok text := by
    rw [decodeUtf8_utf8]
  exact congrArg _ hdecoded

end Reads

section Successes

variable {files : Directory ι} {name : String} {x : Files ι α}

/-- The program returns, with a result and a directory that satisfy `Q`. -/
def Returns (x : Files ι α) (files : Directory ι) (Q : α → Directory ι → Prop) : Prop :=
  ∃ a files', x.run.exec files = ⟨files', [], .ok a⟩ ∧ Q a files'

theorem returns_pure {a : α} {Q : α → Directory ι → Prop} (h : Q a files) :
    Returns (pure a) files Q :=
  ⟨a, files, rfl, h⟩

theorem returns_bind {f : α → Files ι β} {R : α → Directory ι → Prop} {Q : β → Directory ι → Prop}
    (hx : Returns x files R) (hf : ∀ a files', R a files' → Returns (f a) files' Q) :
    Returns (x >>= f) files Q := by
  obtain ⟨a, files₁, hexec, hR⟩ := hx
  obtain ⟨b, files₂, hexec', hQ⟩ := hf a files₁ hR
  exact ⟨b, files₂, (exec_run_bind_of_ok hexec f).trans hexec', hQ⟩

theorem returns_seq {f : α → Files ι β} {Q : β → Directory ι → Prop}
    (h : Returns x files fun a files' => Returns (f a) files' Q) : Returns (x >>= f) files Q :=
  returns_bind h fun _ _ hf => hf

theorem returns_isFile {Q : Bool → Directory ι → Prop} (h : Q (files name).isSome files) :
    Returns (isFile name) files Q :=
  ⟨_, files, exec_isFile files name, h⟩

theorem returns_orFail {message : String} {Q : α → Directory ι → Prop} (h : Returns x files Q) :
    Returns (orFail x message) files Q := by
  obtain ⟨a, files', hexec, hQ⟩ := h
  exact ⟨a, files', exec_orFail hexec message, hQ⟩

theorem returns_fromExcept {result : Except String α} {a : α} {Q : α → Directory ι → Prop}
    (hresult : result = .ok a) (h : Q a files) : Returns (fromExcept result) files Q :=
  ⟨a, files, by rw [hresult]; rfl, h⟩

theorem returns_writeStep {f : Directory ι → Except String (Directory ι)}
    {files' : Directory ι} {Q : Unit → Directory ι → Prop} (hf : f files = .ok files')
    (h : Q () files') : Returns (writeStep f) files Q := by
  refine ⟨(), files', ?_, h⟩
  have hexec := exec_update (ε := Empty) (fun files => (f files).map fun files' => (files', ()))
    files
  rw [hf] at hexec
  exact hexec

theorem returns_attempt {x : Files ι Unit} {Q : Unit → Directory ι → Prop}
    (h : ∃ result files', x.run.exec files = ⟨files', [], result⟩ ∧ Q () files') :
    Returns (attempt x) files Q := by
  obtain ⟨result, files', hexec, hQ⟩ := h
  exact ⟨(), files', exec_bind_of_exec hexec _, hQ⟩

theorem exec_removeFile (files : Directory ι) (name : String) :
    ∃ result, (removeFile name).run.exec files =
      ⟨Function.update files name none, [], result⟩ := by
  have hexec := exec_update (ε := Empty) (fun files : Directory ι =>
    (match files name with
      | some _ => Except.ok (Function.update files name none)
      | none => .error notFound).map fun files' => (files', ())) files
  cases hfile : files name with
  | some content =>
      rw [hfile] at hexec
      exact ⟨.ok (), hexec⟩
  | none =>
      have hsame : Function.update files name none = files := by
        rw [← hfile, Function.update_eq_self]
      rw [hfile] at hexec
      rw [hsame]
      exact ⟨.error notFound, hexec⟩

theorem returns_attempt_removeFile {Q : Unit → Directory ι → Prop}
    (h : Q () (Function.update files name none)) : Returns (attempt (removeFile name)) files Q := by
  obtain ⟨result, hexec⟩ := exec_removeFile files name
  exact returns_attempt ⟨result, _, hexec, h⟩

theorem returns_appendBytes {content bytes : List UInt8} {Q : Unit → Directory ι → Prop}
    (hfile : files name = some (.bytes content))
    (hlength : (content ++ bytes).length ≤ maxFileLength)
    (h : Q () (Function.update files name (some (.bytes (content ++ bytes))))) :
    Returns (appendBytes name bytes) files Q := by
  induction bytes generalizing files content with
  | nil =>
      rw [List.append_nil, ← hfile, Function.update_eq_self] at h
      exact returns_pure h
  | cons byte rest ih =>
      have hfits : content.length < maxFileLength := by
        simp only [List.length_append, List.length_cons] at hlength
        omega
      refine returns_bind (R := fun _ files' => files' =
        Function.update files name (some (.bytes (content ++ [byte])))) ?_ ?_
      · refine returns_writeStep ?_ rfl
        rw [hfile]
        exact if_pos hfits
      · rintro _ files' rfl
        refine ih (Function.update_self ..) (by simpa using hlength) ?_
        rw [Function.update_idem, List.append_assoc]
        exact h

theorem returns_writeFile {bytes : List UInt8} {Q : Unit → Directory ι → Prop}
    (hlength : bytes.length ≤ maxFileLength)
    (h : Q () (Function.update files name (some (.bytes bytes)))) :
    Returns (writeFile name bytes) files Q := by
  refine returns_seq (returns_writeStep rfl (returns_appendBytes (Function.update_self ..)
    hlength ?_))
  rw [Function.update_idem]
  exact h

theorem returns_renameFile {source target : String} {content : Content ι}
    {Q : Unit → Directory ι → Prop} (hsource : files source = some content)
    (h : Q () (Function.update (Function.update files source none) target (some content))) :
    Returns (renameFile source target) files Q := by
  refine returns_writeStep ?_ h
  rw [hsource]

end Successes

end HarborBeacon.NamedFiles
