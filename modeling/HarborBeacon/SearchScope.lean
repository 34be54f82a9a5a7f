import HarborBeacon.LexicalPath
import HarborBeacon.Text

/-!
The folders that a knowledge search may read, on a Unix system. Requested roots and focus paths
have to lie in configured roots, which is decided on keys: canonical paths, or the raw text
where there is none, with backslashes read as slashes.
-/

namespace HarborBeacon.SearchScope

open LexicalPath Text

/-- Canonicalization as the file system does it. A path that exists has an absolute path without
dot segments and links, which is its own canonical path; the others have none. -/
structure FileTree where
  canonicalize : String → Option String
  canonical : ∀ {path canonical}, canonicalize path = some canonical →
    ∃ names, (∀ name ∈ names, IsName name) ∧ canonical.toList = spell names
  canonicalize_canonical : ∀ {path canonical}, canonicalize path = some canonical →
    canonicalize canonical = some canonical

def popSlashes (key : List Char) : List Char :=
  if key.rdropWhile (· = '/') = [] then key.take 1 else key.rdropWhile (· = '/')

def readAs (path : String) : String :=
  String.ofList (popSlashes (replaceChar '\\' '/' path).toList)

def normalizedPathKey (tree : FileTree) (path : String) : String :=
  if trim path = "" then ""
  else readAs ((tree.canonicalize (trim path)).getD (trim path))

/-- The test on two keys. -/
def keyInside (child parent : String) : Bool :=
  if child = "" ∨ parent = "" then false
  else child = parent || startsWithText child (trimEndSlashes parent ++ "/")

def pathIsSameOrInside (tree : FileTree) (child parent : String) : Bool :=
  keyInside (normalizedPathKey tree child) (normalizedPathKey tree parent)

def normalizeSearchPathText (value : String) : String :=
  if startsWithText value "\\\\?\\UNC\\" then
    "\\\\" ++ String.ofList (value.toList.drop "\\\\?\\UNC\\".length)
  else if startsWithText value "\\\\?\\" then String.ofList (value.toList.drop "\\\\?\\".length)
  else value

def filledPaths (paths : List String) : List String :=
  (paths.map trim).filter fun path => path ≠ ""

def pathLe (left right : String) : Bool :=
  resolve left.toList ≤ resolve right.toList

def sortedPaths (paths : List String) : List String :=
  paths.dedup.insertionSort fun left right => pathLe left right = true

/-- The requested roots, unless one of them lies outside the configured ones. -/
def allowedRoots (tree : FileTree) (configured requested : List String) :
    Except String (List String) :=
  match requested.find? fun root => !configured.any (pathIsSameOrInside tree root) with
  | some root => .error ("请求的知识源目录未在 Harbor Assistant 启用，不能扩权检索：" ++ root)
  | none => .ok requested

def existingRoots (tree : FileTree) (rawRoots : List String) : Except String (List String) :=
  let roots := rawRoots.filterMap tree.canonicalize
  if roots = [] then
    .error "未找到可检索的已配置知识源目录；请先通过 Harbor Assistant 配置并确认目录存在。"
  else .ok (sortedPaths roots)

def resolveRoots (tree : FileTree) (configuredRoots requestRoots : List String) :
    Except String (List String) :=
  let configured := filledPaths configuredRoots
  let requested := filledPaths requestRoots
  if configured = [] then .error "请先在 Harbor Assistant 配置并启用至少一个知识源目录。"
  else if requested = [] then existingRoots tree configured
  else (allowedRoots tree configured requested).bind (existingRoots tree)

def resolveFocusPath (tree : FileTree) (roots : List String) (focusPath : String) :
    Except String String :=
  match tree.canonicalize focusPath with
  | none => .error ("请求的知识检索 focus_path 不存在：" ++ focusPath)
  | some canonical =>
      let canonical := normalizeSearchPathText canonical
      if roots.any fun root => pathIsSameOrInside tree canonical (normalizeSearchPathText root) then
        .ok canonical
      else .error ("请求的知识检索 focus_path 不在已启用知识源范围内：" ++ focusPath)

def resolveFocusPaths (tree : FileTree) (focusPaths roots : List String) :
    Except String (List String) := do
  let resolved ← (filledPaths focusPaths).mapM (resolveFocusPath tree roots)
  pure (sortedSet resolved)

/-- The place of a configured root: that of its canonical path, or else the one to which its
text leads from the top. -/
def placeOf (tree : FileTree) (root : String) : Option (List (List Char)) :=
  match tree.canonicalize root with
  | some canonical => some (resolve canonical.toList)
  | none => if startsWithText root "/" then some (resolve root.toList) else none

def InsideConfigured (tree : FileTree) (configuredRoots : List String) (path : String) : Prop :=
  ∃ root ∈ filledPaths configuredRoots, ∃ names,
    placeOf tree root = some names ∧ names <+: resolve path.toList

/-- Whatever a request resolves to lies in the configured roots. -/
def ScopeKept (tree : FileTree) (configuredRoots requestRoots focusPaths : List String) : Prop :=
  ∀ roots, resolveRoots tree configuredRoots requestRoots = .ok roots →
    (∀ root ∈ roots, InsideConfigured tree configuredRoots root) ∧
    ∀ paths, resolveFocusPaths tree focusPaths roots = .ok paths →
      ∀ path ∈ paths, InsideConfigured tree configuredRoots path

/-- The canonical paths to which a request can lead. -/
def Exists (tree : FileTree) (path : String) : Prop :=
  ∃ text, trim text = text ∧ text ≠ "" ∧ tree.canonicalize text = some path

def ReadInside (tree : FileTree) (configuredRoots : List String) (path : String) : Prop :=
  ∃ root ∈ filledPaths configuredRoots,
    keyInside (readAs path) (readAs ((tree.canonicalize root).getD root)) = true

/-- A canonical path as the check on focus paths reads it: white space at its ends is dropped
first. -/
def readFocus (tree : FileTree) (path : String) : String :=
  readAs ((tree.canonicalize (trim path)).getD (trim path))

/-- No path outside the configured roots is read as inside one of them or, as a focus path, as
inside a root of a search. -/
structure NothingDisguised (tree : FileTree) (configuredRoots : List String) : Prop where
  roots : ∀ path, Exists tree path → ReadInside tree configuredRoots path →
    InsideConfigured tree configuredRoots path
  focus : ∀ path root, Exists tree path → Exists tree root →
    ReadInside tree configuredRoots root →
    keyInside (readFocus tree path) (readFocus tree root) = true →
      InsideConfigured tree configuredRoots path

end HarborBeacon.SearchScope
