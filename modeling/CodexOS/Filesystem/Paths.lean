import CodexOS.Block.Device
import CodexOS.Lib.Effect

/-! # Paths

A path is a string that starts with a slash and has no empty component.
-/

namespace CodexOS.Filesystem

open Bytes

inductive FsError
  | block (error : Block.BlockError)
  | flushUnsupported
  | deviceTooSmall
  | corruptSuperblocks
  | corruptRecord
  | invalidPath
  | tooManyFiles
  | snapshotTooLarge
  | arithmeticOverflow
  | invalidUtf8
  | verificationFailed
  | notFound
  | parentMissing
  | notDirectory
  | isDirectory
  | permissionDenied
  | directoryNotEmpty
  | invalidPermissions
  deriving DecidableEq

/-- Why a function does not return a value: an index was out of range, or it returned an error. -/
inductive Stop
  | panicked
  | failed (error : FsError)
  deriving DecidableEq

abbrev Fallible := Except Stop

def fail {α : Type} (error : FsError) : Fallible α :=
  .error (.failed error)

/-- A string: its characters. -/
abbrev Text := List Char

instance : LawfulBEq Text :=
  inferInstance

def Text.bytes (text : Text) : Bytes :=
  text.flatMap String.utf8EncodeChar

/-- `core::str::from_utf8`. -/
def fromUtf8 (bytes : Bytes) : Option Text :=
  bytes.toByteArray.utf8Decode?.map Array.toList

theorem fromUtf8_bytes (text : Text) : fromUtf8 text.bytes = some text := by
  change text.utf8Encode.utf8Decode?.map Array.toList = some text
  rw [List.utf8Decode?_utf8Encode, Option.map_some]

theorem bytes_injective {text text' : Text} (same : text.bytes = text'.bytes) : text = text' := by
  apply Option.some.inj
  rw [← fromUtf8_bytes text, same, fromUtf8_bytes]

def maxPathBytes : Nat := 128

def root : Text := ['/']

def split (path : Text) : List Text :=
  path.splitOn '/'

def validatePath (path : Text) : Fallible Unit :=
  if path.bytes.length < 2 ∨ maxPathBytes < path.bytes.length ∨ path.head? ≠ some '/' ∨
      path.getLast? = some '/' ∨ (path.bytes.any fun byte => byte = 0 ∨ byte < 0x20) ∨
      ((split path).drop 1).any fun component =>
        component = [] ∨ component = ['.'] ∨ component = ['.', '.'] then
    fail .invalidPath
  else .ok ()

def beforeLastSlash (path : Text) : Option Text :=
  match path.reverse.dropWhile (· ≠ '/') with
  | [] => none
  | _ :: before => some before.reverse

def parentPath (path : Text) : Fallible Text :=
  if path = root then fail .invalidPath
  else do
    validatePath path
    match beforeLastSlash path with
    | none => fail .invalidPath
    | some [] => return root
    | some parent => return parent

/-- The path with these components. -/
def join (components : List Text) : Text :=
  components.flatMap ('/' :: ·)

@[simp] theorem join_nil : join [] = [] :=
  rfl

theorem join_concat : join (components ++ [component]) = join components ++ '/' :: component := by
  simp [join]

def ValidPath (path : Text) : Prop :=
  validatePath path = .ok ()

instance (path : Text) : Decidable (ValidPath path) :=
  inferInstanceAs (Decidable (_ = _))

theorem root_not_valid : ¬ValidPath root := by
  decide

end CodexOS.Filesystem
