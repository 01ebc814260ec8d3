import CodexOS.Filesystem.Paths
import CodexOS.Lib.Keyed

/-! # The entries and their tree

A mounted file system is a list of entries, sorted by name. The parent of every
entry is a directory of the list, or the root. The functions here compute the list
an operation wants to commit.
-/

namespace CodexOS.Filesystem

open Bytes

def maxFiles : Nat := 128
def defaultFilePermissions : UInt16 := 0o644
def defaultDirectoryPermissions : UInt16 := 0o755
def ownerRead : UInt16 := 0o400
def ownerWrite : UInt16 := 0o200
def ownerExecute : UInt16 := 0o100

inductive EntryKind
  | file
  | directory
  deriving DecidableEq

structure FileEntry where
  name : Text
  data : Bytes
  kind : EntryKind
  permissions : UInt16
  deriving DecidableEq

def validatePermissions (permissions : UInt16) : Fallible Unit :=
  if permissions &&& ~~~0o777 ≠ 0 then fail .invalidPermissions else .ok ()

section

variable (entries : List FileEntry) (path : Text)

def find : Option FileEntry :=
  Keyed.find FileEntry.name entries path

def update (change : FileEntry → FileEntry) : List FileEntry :=
  Keyed.update FileEntry.name entries path change

def sortByName : List FileEntry :=
  entries.insertionSort fun left right => left.name.bytes ≤ right.name.bytes

def ensureParentDirectory : Fallible Unit := do
  let parent ← parentPath path
  if parent = root then .ok ()
  else
    match find entries parent with
    | none => fail .parentMissing
    | some parent =>
      if parent.kind ≠ .directory then fail .notDirectory
      else if parent.permissions &&& ownerExecute = 0 ∨ parent.permissions &&& ownerWrite = 0 then
        fail .permissionDenied
      else .ok ()

def validateEntry (files : List FileEntry) (requireDirectories : Bool) (entry : FileEntry) :
    Fallible Unit := do
  validatePath entry.name
  validatePermissions entry.permissions
  if entry.kind = .directory ∧ entry.data ≠ [] then fail .corruptRecord
  else if entry.kind = .directory ∧ entry.permissions &&& ownerExecute = 0 then
    fail .permissionDenied
  else if requireDirectories then ensureParentDirectory files entry.name
  else .ok ()

def validateTree (files : List FileEntry) (requireDirectories : Bool) : Fallible Unit :=
  files.forM (validateEntry files requireDirectories)

/-- The inner loop of `materialize_missing_parent_directories`: a path and all paths above it. Each
    turn shortens the path, so that its length is fuel enough. -/
def addAncestors : Nat → Text → List Text → Fallible (List Text)
  | 0, _, required => .ok required
  | fuel + 1, path, required =>
    if path = root then .ok required
    else do
      let required := if path ∈ required then required else required ++ [path]
      let parent ← parentPath path
      addAncestors fuel parent required

def requiredParents : List FileEntry → List Text → Fallible (List Text)
  | [], required => .ok required
  | entry :: entries, required => do
    let parent ← parentPath entry.name
    let required ← addAncestors entry.name.length parent required
    requiredParents entries required

def newDirectory (permissions : UInt16) : FileEntry where
  name := path
  data := []
  kind := .directory
  permissions

def addDirectories : List Text → List FileEntry → Fallible (List FileEntry)
  | [], entries => .ok entries
  | path :: required, entries =>
    match find entries path with
    | some existing =>
      if existing.kind ≠ .directory then fail .notDirectory
      else addDirectories required entries
    | none =>
      if maxFiles ≤ entries.length then fail .tooManyFiles
      else
        addDirectories required
          (entries ++ [newDirectory path defaultDirectoryPermissions])

def materializeMissingParentDirectories :
    Fallible (List FileEntry) := do
  let required ← requiredParents entries []
  let entries ←
    addDirectories (required.insertionSort fun left right => left.bytes ≤ right.bytes) entries
  return sortByName entries

def insertDirectory (permissions : UInt16) :
    Fallible (List FileEntry) := do
  ensureParentDirectory entries path
  match find entries path with
  | some existing =>
    if existing.kind ≠ .directory then fail .notDirectory
    else return update entries path fun entry => { entry with permissions }
  | none =>
    if maxFiles ≤ entries.length then fail .tooManyFiles
    else return sortByName (entries ++ [newDirectory path permissions])

end

/-! ## The list an operation commits -/

section

variable (files : List FileEntry)

/-- The branch of `write_file_inner` on whether the file exists. -/
def placeFile (path : Text) (data : Bytes) (permissions : Option UInt16) :
    Fallible (List FileEntry) :=
  match find files path with
  | some existing =>
    if existing.kind ≠ .file then fail .isDirectory
    else if existing.permissions &&& ownerWrite = 0 then fail .permissionDenied
    else
      .ok <| update files path fun entry =>
        { entry with data, permissions := permissions.getD entry.permissions }
  | none =>
    if maxFiles ≤ files.length then fail .tooManyFiles
    else
      .ok <| sortByName (files ++ [{
        name := path
        data
        kind := .file
        permissions := permissions.getD defaultFilePermissions }])

def writeFileEntries (path : Text) (data : Bytes) (permissions : Option UInt16) :
    Fallible (List FileEntry) := do
  validatePath path
  ensureParentDirectory files path
  let next ← placeFile files path data permissions
  materializeMissingParentDirectories next

def createDirEntries (path : Text) (permissions : UInt16) :
    Fallible (List FileEntry) := do
  validatePath path
  validatePermissions permissions
  let next ← insertDirectory files path permissions
  materializeMissingParentDirectories next

/-- The loop of `create_dir_all` over the components that are left. -/
def createPrefixes (path : Text) (permissions : UInt16) :
    Text → List Text → List FileEntry → Fallible (List FileEntry)
  | _, [], next => .ok next
  | current, component :: components, next =>
    let current := current ++ '/' :: component
    let mode := if current = path then permissions else defaultDirectoryPermissions
    match find next current with
    | some existing =>
      if existing.kind ≠ .directory then fail .notDirectory
      else createPrefixes path permissions current components next
    | none => do
      let next ← insertDirectory next current mode
      createPrefixes path permissions current components next

def createDirAllEntries (path : Text) (permissions : UInt16) :
    Fallible (List FileEntry) := do
  validatePath path
  validatePermissions permissions
  let next ← createPrefixes path permissions [] ((split path).drop 1) files
  materializeMissingParentDirectories next

def setPermissionsEntries (path : Text) (permissions : UInt16) :
    Fallible (List FileEntry) := do
  validatePath path
  validatePermissions permissions
  match find files path with
  | none => fail .notFound
  | some _ =>
    materializeMissingParentDirectories
      (update files path fun entry => { entry with permissions })

def removeFileEntries (path : Text) : Fallible (List FileEntry) := do
  validatePath path
  match files.findIdx? fun entry => entry.name = path with
  | none => fail .notFound
  | some index =>
    match files[index]? with
    | none => .error .panicked
    | some entry =>
      if entry.kind ≠ .file then fail .isDirectory
      else if entry.permissions &&& ownerWrite = 0 then fail .permissionDenied
      else materializeMissingParentDirectories (files.eraseIdx index)

/-- The loop of `remove_dir` that looks for entries of the directory. -/
def ensureEmpty (path : Text) : List FileEntry → Fallible Unit
  | [] => .ok ()
  | entry :: entries => do
    let parent ← parentPath entry.name
    if parent = path then fail .directoryNotEmpty else ensureEmpty path entries

def removeDirEntries (path : Text) : Fallible (List FileEntry) := do
  validatePath path
  match files.findIdx? fun entry => entry.name = path with
  | none => fail .notFound
  | some index =>
    match files[index]? with
    | none => .error .panicked
    | some entry =>
      if entry.kind ≠ .directory then fail .notDirectory
      else if entry.permissions &&& ownerWrite = 0 then fail .permissionDenied
      else do
        ensureEmpty path files
        materializeMissingParentDirectories (files.eraseIdx index)

end

end CodexOS.Filesystem
