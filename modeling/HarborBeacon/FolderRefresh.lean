import HarborBeacon.FilledTables
import HarborBeacon.ManifestRoundTrip
import Mathlib.Data.Prod.Lex

/-!
The refresh of a knowledge index. A file whose signatures are those of its entry in the earlier
manifest keeps this entry, every other file is read anew. If signatures tell the versions of a file
apart, a refresh gives what a rebuild would give.
-/

namespace HarborBeacon.FolderRefresh

open FilledTables KnowledgeFiles KnowledgeManifest ManifestRoundTrip NamedFiles

def asStr : KnowledgeModality → String
  | .document => "document"
  | .image => "image"
  | .audio => "audio"
  | .video => "video"

/-- A file as a refresh finds it. What reading it anew comes to is up to the parser, its sidecar and
the models. -/
structure FileView where
  path : String
  modality : Option KnowledgeModality
  fileSignature : Except String KnowledgeFileSignature
  parserKey : Option String
  sidecarSignature : Except String (Option KnowledgeFileSignature)
  readAnew : Except String (Option KnowledgeIndexEntry)
  path_readAnew : ∀ entry, readAnew = .ok (some entry) → entry.path = path

structure FolderView where
  path : String
  name : String
  signature : Except String KnowledgeFileSignature
  readError : Option String

inductive FolderEntry where
  | file (view : FileView)
  | directory (folder : FolderView) (entries : List FolderEntry)

/-- A folder that is indexed. -/
structure KnowledgeRoot where
  folder : FolderView
  entries : List FolderEntry

def shouldSkipDirectory (name : String) : Bool :=
  [".git", ".svn", "node_modules", "target"].contains name

mutual

/-- The folders and files in the order in which `refresh_directory` comes to them. -/
def visited : FolderEntry → List (FolderView ⊕ FileView)
  | .file view => [.inr view]
  | .directory folder entries =>
      if shouldSkipDirectory folder.name then [] else .inl folder :: visitedIn entries

def visitedIn : List FolderEntry → List (FolderView ⊕ FileView)
  | [] => []
  | entry :: rest => visited entry ++ visitedIn rest

end

def KnowledgeRoot.visited (root : KnowledgeRoot) : List (FolderView ⊕ FileView) :=
  .inl root.folder :: visitedIn root.entries

def KnowledgeRoot.files (root : KnowledgeRoot) : List FileView :=
  root.visited.filterMap Sum.getRight?

def isCurrent (view : FileView) (modality : KnowledgeModality) (signature : KnowledgeFileSignature)
    (sidecar : Option KnowledgeFileSignature) (old : KnowledgeIndexEntry) : Bool :=
  old.fileSignature = signature &&
    if modality = .document then old.parserKey = view.parserKey
    else old.sidecarSignature = sidecar

/-- The sidecar that is compared; that of a document is not looked for. -/
def sidecarOf (view : FileView) (modality : KnowledgeModality) :
    Except String (Option KnowledgeFileSignature) :=
  if modality = .document then .ok none else view.sidecarSignature

def refreshEntry (old : Table KnowledgeIndexEntry) (view : FileView)
    (modality : KnowledgeModality) : Except String (Option KnowledgeIndexEntry) := do
  let signature ← view.fileSignature
  let sidecar ← sidecarOf view modality
  match (old.lookup view.path).filter (isCurrent view modality signature sidecar) with
  | some entry => pure (some entry)
  | none => view.readAnew

/-- What a refresh adds to the manifest at one place. -/
inductive Found where
  | folder (directory : KnowledgeIndexDirectory)
  | unsupported
  | file (entry : Option KnowledgeIndexEntry)

def refreshVisited (old : Table KnowledgeIndexEntry) : FolderView ⊕ FileView → Except String Found
  | .inl folder => do
      let signature ← folder.signature
      match folder.readError with
      | some error =>
          throw ("failed to read knowledge directory " ++ folder.path ++ ": " ++ error)
      | none => pure (.folder { path := folder.path, signature := signature })
  | .inr view =>
      match view.modality with
      | none => pure .unsupported
      | some modality => (refreshEntry old view modality).map .file

def Found.toDirectory : Found → Option KnowledgeIndexDirectory
  | .folder directory => some directory
  | _ => none

def Found.isFile : Found → Bool
  | .file _ => true
  | _ => false

def Found.toEntry : Found → Option KnowledgeIndexEntry
  | .file entry => entry
  | _ => none

/-- The entries are sorted by path, then by the name of the modality. -/
def entryKey (entry : KnowledgeIndexEntry) : String ×ₗ String :=
  toLex (entry.path, asStr entry.modality)

def manifestOf (root : KnowledgeRoot) (rootSignature : KnowledgeFileSignature)
    (currentTimestamp : String) (found : List Found) : KnowledgeIndexManifest where
  schemaVersion := indexSchemaVersion
  root := root.folder.path
  rootSignature := rootSignature
  generatedAt := currentTimestamp
  supportedFileCount := some (found.countP (·.isFile))
  directories := sortOn (·.path) (found.filterMap (·.toDirectory))
  entries := sortOn entryKey (found.filterMap (·.toEntry))
  entryPayloadStore := none

/-- `load_or_refresh` between the load of the old manifest and the save of the new one. -/
def refreshManifest (old : LoadedManifestState) (root : KnowledgeRoot) (currentTimestamp : String) :
    Except String KnowledgeIndexManifest := do
  let rootSignature ← root.folder.signature
  let found ← root.visited.mapM (refreshVisited old.entries)
  pure (manifestOf root rootSignature currentTimestamp found)

def emptyState (currentTimestamp : String) : LoadedManifestState where
  manifest := defaultManifest currentTimestamp
  entries := ∅

section Files

variable {view : FileView} {entry : KnowledgeIndexEntry} {old : Table KnowledgeIndexEntry}

/-- A refresh without an older entry makes this one of the file. -/
def FileView.Gives (view : FileView) (entry : KnowledgeIndexEntry) : Prop :=
  ∃ modality, view.modality = some modality ∧ refreshEntry ∅ view modality = .ok (some entry)

/-- The signatures of the file are those of the entry. -/
def FileView.Fits (view : FileView) (entry : KnowledgeIndexEntry) : Prop :=
  ∃ modality signature sidecar, view.modality = some modality ∧
    view.fileSignature = .ok signature ∧ sidecarOf view modality = .ok sidecar ∧
    isCurrent view modality signature sidecar entry = true

/-- Signatures tell the versions of a file apart: as long as they fit an entry that was made of the
file, the file gives this entry again. -/
def Faithful (views : List FileView) : Prop :=
  ∀ view ∈ views, ∀ later ∈ views, ∀ entry, later.path = view.path → view.Gives entry →
    later.Fits entry → later.Gives entry

theorem FileView.Gives.path (h : view.Gives entry) : entry.path = view.path := by
  obtain ⟨modality, -, hentry⟩ := h
  obtain ⟨_, -, hentry⟩ := Results.bind_eq_ok hentry
  obtain ⟨_, -, hentry⟩ := Results.bind_eq_ok hentry
  exact view.path_readAnew entry hentry

theorem refreshEntry_fresh {modality : KnowledgeModality} (hmodality : view.modality = some modality)
    (hold : ∀ entry, old.lookup view.path = some entry → view.Fits entry → view.Gives entry) :
    refreshEntry old view modality = refreshEntry ∅ view modality := by
  cases hsignature : view.fileSignature with
  | error e => simp only [refreshEntry, hsignature]; rfl
  | ok signature =>
      cases hsidecar : sidecarOf view modality with
      | error e => simp only [refreshEntry, hsignature, hsidecar]; rfl
      | ok sidecar =>
          cases hkept : (old.lookup view.path).filter
              (isCurrent view modality signature sidecar) with
          | none => simp [refreshEntry, hsignature, hsidecar, hkept, Results.ok_bind]
          | some entry =>
              obtain ⟨hlookup, hcurrent⟩ := Option.filter_eq_some_iff.mp hkept
              obtain ⟨other, hother, hgives⟩ := hold entry hlookup
                ⟨modality, signature, sidecar, hmodality, hsignature, hsidecar, hcurrent⟩
              rw [hmodality, Option.some.injEq] at hother
              rw [hother, hgives, ← hother]
              simp only [refreshEntry, hsignature, hsidecar, hkept, Results.ok_bind]
              rfl

theorem refreshVisited_fresh {place : FolderView ⊕ FileView}
    (hold : ∀ view, place = .inr view → ∀ entry, old.lookup view.path = some entry →
      view.Fits entry → view.Gives entry) :
    refreshVisited old place = refreshVisited ∅ place := by
  cases place with
  | inl folder => rfl
  | inr view =>
      cases hmodality : view.modality with
      | none => simp only [refreshVisited, hmodality]
      | some modality =>
          simp only [refreshVisited, hmodality, refreshEntry_fresh hmodality (hold view rfl)]

end Files

section Manifests

variable {root : KnowledgeRoot} {manifest : KnowledgeIndexManifest} {old : LoadedManifestState}
  {currentTimestamp : String}

theorem KnowledgeRoot.mem_files {view : FileView} :
    view ∈ root.files ↔ .inr view ∈ root.visited := by
  simp [files]

theorem refreshManifest_fresh
    (hold : ∀ view ∈ root.files, ∀ entry, old.entries.lookup view.path = some entry →
      view.Fits entry → view.Gives entry) :
    refreshManifest old root currentTimestamp =
      refreshManifest (emptyState currentTimestamp) root currentTimestamp := by
  have hfound : root.visited.mapM (refreshVisited old.entries) =
      root.visited.mapM (refreshVisited ∅) :=
    Results.mapM_congr fun place hplace => refreshVisited_fresh fun view hview =>
      hold view (KnowledgeRoot.mem_files.mpr (hview ▸ hplace))
  rw [refreshManifest, refreshManifest, hfound]
  rfl

theorem gives_of_refreshManifest
    (h : refreshManifest (emptyState currentTimestamp) root currentTimestamp = .ok manifest)
    {entry : KnowledgeIndexEntry} (hentry : entry ∈ manifest.entries) :
    ∃ view ∈ root.files, view.Gives entry := by
  obtain ⟨signature, -, h⟩ := Results.bind_eq_ok h
  obtain ⟨found, hfound, h⟩ := Results.bind_eq_ok h
  obtain rfl := Except.ok.inj h
  obtain ⟨place, hplace, hentry⟩ := List.mem_filterMap.mp (mem_sortOn.mp hentry)
  obtain ⟨visited, hvisited, hresult⟩ := Results.exists_of_mem_mapM hfound hplace
  cases place with
  | folder | unsupported => cases hentry
  | file made =>
      obtain rfl : made = some entry := hentry
      cases visited with
      | inl folder =>
          obtain ⟨_, -, hresult⟩ := Results.bind_eq_ok hresult
          split at hresult <;> cases hresult
      | inr view =>
          refine ⟨view, KnowledgeRoot.mem_files.mpr hvisited, ?_⟩
          cases hmodality : view.modality with
          | none => simp [refreshVisited, hmodality, pure, Except.pure] at hresult
          | some modality =>
              simp only [refreshVisited, hmodality] at hresult
              refine ⟨modality, hmodality, ?_⟩
              cases hread : refreshEntry (emptyState currentTimestamp).entries view modality with
              | error e => rw [hread] at hresult; cases hresult
              | ok read =>
                  rw [hread] at hresult
                  obtain rfl : read = some entry := Found.file.inj (Except.ok.inj hresult)
                  exact hread

end Manifests

section Histories

variable {views : List FileView} {old : LoadedManifestState} {root : KnowledgeRoot}

/-- The refreshes of a folder. What a refresh saves is loaded by the next one, unless it gets lost
and that one starts anew. -/
inductive RefreshRun : List FileView → LoadedManifestState → Prop where
  | start (currentTimestamp : String) : RefreshRun [] (emptyState currentTimestamp)
  | refresh {views : List FileView} {old : LoadedManifestState} (h : RefreshRun views old)
      (root : KnowledgeRoot) {currentTimestamp : String} {manifest : KnowledgeIndexManifest}
      (hrefresh : refreshManifest old root currentTimestamp = .ok manifest)
      {loaded : LoadedManifestState} (hloaded : loaded.entries = entriesByPath manifest.entries) :
      RefreshRun (views ++ root.files) loaded
  | lost {views : List FileView} {old : LoadedManifestState} (h : RefreshRun views old)
      (currentTimestamp : String) : RefreshRun views (emptyState currentTimestamp)

/-- The manifest that a refresh saved is one that the next one loads. -/
theorem RefreshRun.saved {ι : Type} {serde : Serde} (h : serde.RoundTrips)
    (hrun : RefreshRun views old) {currentTimestamp : String} {manifest : KnowledgeIndexManifest}
    (hrefresh : refreshManifest old root currentTimestamp = .ok manifest)
    {generations : Generations} {indexRoot : String} {previousPayloadFile : Option String}
    {files files' : Directory ι}
    (hsave : (saveManifest serde generations
      (manifestPathForRoot generations.sha256 indexRoot root.folder.path) manifest
        previousPayloadFile).run.exec files = ⟨files', [], .ok ()⟩) (laterTimestamp : String) :
    ∃ loaded, (loadManifestState serde laterTimestamp
        (manifestPathForRoot generations.sha256 indexRoot root.folder.path) true).run.exec files' =
        ⟨files', [], .ok loaded⟩ ∧
      RefreshRun (views ++ root.files) loaded := by
  have hruns : Runs (saveManifest serde generations _ manifest previousPayloadFile) files _ _ :=
    runs_saveManifest (manifestPath_manifestPathForRoot generations.sha256 indexRoot
      root.folder.path) generations manifest previousPayloadFile
  have hsaved := hruns.2 () (congrArg (·.result) hsave)
  rw [hsave] at hsaved
  obtain ⟨loaded, hload, -, hentries⟩ := (hsaved.hydratesTo h laterTimestamp).hydrated
  exact ⟨loaded, hload, hrun.refresh root hrefresh hentries⟩

theorem mem_of_entriesByPath {entries : List KnowledgeIndexEntry} {key : String}
    {entry : KnowledgeIndexEntry} (h : (entriesByPath entries).lookup key = some entry) :
    entry ∈ entries ∧ entry.path = key := by
  induction entries using List.reverseRecOn with
  | nil => simp [entriesByPath] at h
  | append_singleton entries last ih =>
      rw [entriesByPath, List.foldl_append] at h
      change (AList.insert last.path last (entriesByPath entries)).lookup key = some entry at h
      rw [Table.lookup_insert_eq_ite] at h
      split at h
      · rename_i hkey
        rw [← Option.some.inj h]
        exact ⟨by simp, hkey.symm⟩
      · exact (ih h).imp_left (List.mem_append_left _)

/-- The entries of the old manifest were made of files that were looked at. -/
def Made (views : List FileView) (old : LoadedManifestState) : Prop :=
  ∀ key entry, old.entries.lookup key = some entry →
    entry.path = key ∧ ∃ view ∈ views, view.Gives entry

theorem Made.refresh (hmade : Made views old) (hfaithful : Faithful (views ++ root.files))
    (currentTimestamp : String) : refreshManifest old root currentTimestamp =
      refreshManifest (emptyState currentTimestamp) root currentTimestamp := by
  refine refreshManifest_fresh fun view hview entry hentry hfits => ?_
  obtain ⟨hkey, earlier, hearlier, hgives⟩ := hmade view.path entry hentry
  exact hfaithful earlier (List.mem_append_left _ hearlier) view (List.mem_append_right _ hview)
    entry (by rw [← hgives.path, hkey]) hgives hfits

theorem Faithful.earlier (h : Faithful (views ++ root.files)) : Faithful views :=
  fun view hview later hlater =>
    h view (List.mem_append_left _ hview) later (List.mem_append_left _ hlater)

theorem RefreshRun.made (hrun : RefreshRun views old) (hfaithful : Faithful views) :
    Made views old := by
  induction hrun with
  | start | lost => exact fun _ _ h => by simp [emptyState] at h
  | refresh _ root hrefresh hloaded ih =>
      rw [(ih hfaithful.earlier).refresh hfaithful] at hrefresh
      intro key entry hentry
      rw [hloaded] at hentry
      obtain ⟨hmem, hkey⟩ := mem_of_entriesByPath hentry
      obtain ⟨view, hview, hgives⟩ := gives_of_refreshManifest hrefresh hmem
      exact ⟨hkey, view, List.mem_append_right _ hview, hgives⟩

/-- Whatever was refreshed before: a refresh gives the manifest of a rebuild, or fails like one. -/
theorem refresh_eq_rebuild (hrun : RefreshRun views old) (hfaithful : Faithful (views ++ root.files))
    (currentTimestamp : String) : refreshManifest old root currentTimestamp =
      refreshManifest (emptyState currentTimestamp) root currentTimestamp :=
  (hrun.made hfaithful.earlier).refresh hfaithful currentTimestamp

end Histories

def alphaView : FileView where
  path := sampleEntry.path
  modality := some .document
  fileSignature := .ok sampleEntry.fileSignature
  parserKey := sampleEntry.parserKey
  sidecarSignature := .ok none
  readAnew := .ok (some sampleEntry)
  path_readAnew := by
    rintro _ ⟨⟩
    rfl

def alphaRoot : KnowledgeRoot where
  folder := ⟨"/srv/knowledge", "knowledge", .ok ⟨1750000000000, 4096⟩, none⟩
  entries := [.file alphaView]

/-- The second refresh of a folder with one file. -/
theorem refresh_eq_rebuild_alpha : ∃ manifest,
    refreshManifest (emptyState "1750000000") alphaRoot "1750000000" = .ok manifest ∧
      refreshManifest ⟨manifest, entriesByPath manifest.entries⟩ alphaRoot "1750000060" =
        refreshManifest (emptyState "1750000060") alphaRoot "1750000060" := by
  have hfiles : alphaRoot.files = [alphaView] := rfl
  refine ⟨_, rfl, refresh_eq_rebuild ((RefreshRun.start "1750000000").refresh alphaRoot rfl rfl)
    ?_ _⟩
  rw [hfiles]
  intro view hview later hlater entry _ hgives _
  simp only [List.nil_append, List.singleton_append, List.mem_cons, List.not_mem_nil, or_false,
    or_self] at hview hlater
  rw [hlater, ← hview]
  exact hgives

end HarborBeacon.FolderRefresh
